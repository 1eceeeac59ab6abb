import SimpleSftpd.Core.Access
import SimpleSftpd.Cxx.Contents

namespace SimpleSftpd

open Cxx Interaction Prog

namespace Session

variable {env : Service} {s : Session} {fs : FileSystem}

lemma Vets.checked {c : Command} {a operation path : Str} (hn : c.named = some a)
    (hp : c.permit = some (operation, path)) (h : s.hasPermission fs operation path = true)
    (hv : s.validatePath fs (s.resolvePath fs a) = true) : s.Vets fs c a := by
  refine ⟨hn, fun operation' path' hp' => ?_, hv⟩
  obtain ⟨rfl, rfl⟩ := Prod.mk.inj (Option.some.inj (hp.symm.trans hp'))
  exact h

lemma Vets.unchecked {c : Command} {a : Str} (hn : c.named = some a) (hp : c.permit = none)
    (hv : s.validatePath fs (s.resolvePath fs a) = true) : s.Vets fs c a :=
  ⟨hn, fun _ _ h => absurd (hp.symm.trans h) (Option.some_ne_none _).symm, hv⟩

lemma resolvePath_named (a : Str) :
    (if a = [] then s.current_directory_ else s.resolvePath fs a) = s.resolvePath fs a := by
  unfold resolvePath
  split <;> rfl

variable (env s fs) in
abbrev Handled (c : Command) {α : Type} (p : Io α) : Prop :=
  Meets (onFiles (s.Access env fs c)) p (fun _ _ => True) (.named fs)

lemma handleCWD_access (a : Str) : Handled env s fs ⟨.cwd, a⟩ (s.handleCWD a) := by
  unfold Handled handleCWD
  simp
  exact fun hv => .path (.unchecked rfl rfl hv) (by simp [Verb.acts])

lemma handleCDUP_access (a : Str) : Handled env s fs ⟨.cdup, a⟩ s.handleCDUP := by
  unfold Handled handleCDUP
  simp
  exact fun hv => .path (.unchecked rfl rfl hv) (by simp [Verb.acts])

lemma handleSIZE_access (a : Str) : Handled env s fs ⟨.size, a⟩ (s.handleSIZE a) := by
  unfold Handled handleSIZE
  simp
  exact ⟨.size (by simp), fun _ _ _ => .size (by simp)⟩

lemma handleDELE_access (a : Str) : Handled env s fs ⟨.dele, a⟩ (s.handleDELE a) := by
  unfold Handled handleDELE
  simp
  intro hp hv
  have h : s.Vets fs ⟨.dele, a⟩ a := .checked rfl rfl hp hv
  exact ⟨.path h (by simp [Verb.acts]), fun _ _ _ => .path h (by simp [Verb.acts])⟩

lemma handleRMD_access (a : Str) : Handled env s fs ⟨.rmd, a⟩ (s.handleRMD a) := by
  unfold Handled handleRMD
  simp
  intro hp hv
  have h : s.Vets fs ⟨.rmd, a⟩ a := .checked rfl rfl hp hv
  exact ⟨.path h (by simp [Verb.acts]), fun _ _ _ => .path h (by simp [Verb.acts])⟩

lemma handleMKD_access (a : Str) : Handled env s fs ⟨.mkd, a⟩ (s.handleMKD a) := by
  unfold Handled handleMKD
  simp
  exact fun hp hv => .path (.checked rfl rfl hp hv) (by simp [Verb.acts])

lemma handleRNFR_access (a : Str) : Handled env s fs ⟨.rnfr, a⟩ (s.handleRNFR a) := by
  unfold Handled handleRNFR
  simp
  exact fun hp hv => .path (.checked rfl rfl hp hv) (by simp [Verb.acts])

lemma handleRNTO_access (a : Str) : Handled env s fs ⟨.rnto, a⟩ (s.handleRNTO a) := by
  unfold Handled handleRNTO renameTo
  simp
  intro hsaved hp hv
  have h : s.Vets fs ⟨.rnto, a⟩ a := .checked rfl rfl hp hv
  refine ⟨.path h (by simp [Verb.acts]), fun found hfound hnew => ?_⟩
  refine ⟨.rename h hsaved (hfound.trans ?_), fun r => ?_⟩
  · rw [hnew]
  cases r <;> simp

lemma handleSITE_access (a : Str) : Handled env s fs ⟨.site, a⟩ (s.handleSITE a) := by
  unfold Handled handleSITE siteChmod
  simp
  intro _ _ _ _ _ _ hp hv
  split
  · simp
  · have h : s.Vets fs ⟨.site, a⟩ (chmodTarget a) := .checked rfl rfl hp hv
    simp
    refine ⟨.path h (by simp [Verb.acts, chmodTarget]), fun r => ?_⟩
    cases r <;> simp

lemma handleMDTM_access (a : Str) : Handled env s fs ⟨.mdtm, a⟩ (s.handleMDTM a) := by
  unfold Handled handleMDTM
  simp
  intro _ hv
  have h : s.Vets fs ⟨.mdtm, a⟩ a := .unchecked rfl rfl hv
  refine ⟨.path h (by simp [Verb.acts]), fun _ => ⟨.path h (by simp [Verb.acts]), fun r => ?_⟩⟩
  cases r <;> simp

section Listing

variable {A : FileSystem → Act → Prop}

lemma buildMachineFacts_meets {p name : Str} (hs : A fs (.status p)) (hf : A fs (.fileSize p))
    (hm : A fs (.modifiedTime p)) {P : Str → Phase → Prop} (hP : ∀ r, P r (.named fs)) :
    Meets (onFiles A) (s.buildMachineFacts p name) P (.named fs) := by
  unfold buildMachineFacts sizeFact
  simp [hs, hf, hm, hP]
  intro _ r
  cases r <;> simp [hP, hm]

lemma machineEntries_meets {dir : Str} {names : List Str}
    (h : ∀ name ∈ names, A fs (.status (Path.join dir name)) ∧ A fs (.fileSize (Path.join dir name)) ∧
      A fs (.modifiedTime (Path.join dir name))) {P : Str → Phase → Prop} (hP : ∀ r, P r (.named fs)) :
    Meets (onFiles A) (s.machineEntries dir names) P (.named fs) := by
  induction names generalizing P with
  | nil => simpa [machineEntries] using hP _
  | cons name names ih =>
    obtain ⟨hs, hf, hm⟩ := h name List.mem_cons_self
    simp only [machineEntries, meets_bind, meets_pure]
    refine buildMachineFacts_meets hs hf hm fun line => ?_
    exact ih (fun name hn => h name (List.mem_cons_of_mem _ hn)) fun rest => hP _

lemma statEntries_meets {dir : Str} {names : List Str}
    (h : ∀ name ∈ names, A fs (.status (Path.join dir name)) ∧ A fs (.fileSize (Path.join dir name)) ∧
      A fs (.modifiedTime (Path.join dir name))) {P : Unit → Phase → Prop} (hP : P () (.named fs)) :
    Meets (onFiles A) (s.statEntries dir names) P (.named fs) := by
  induction names with
  | nil => simpa [statEntries] using hP
  | cons name names ih =>
    obtain ⟨hs, hf, hm⟩ := h name List.mem_cons_self
    simp only [statEntries, meets_bind]
    refine buildMachineFacts_meets hs hf hm fun line => (meets_sendResponse _).2 ?_
    exact ih fun name hn => h name (List.mem_cons_of_mem _ hn)

lemma listEntry_meets {dir name : Str} (hs : A fs (.status (Path.join dir name)))
    (hf : A fs (.fileSize (Path.join dir name))) (hl : A fs (.lastWriteTime (Path.join dir name)))
    {P : Option Str → Phase → Prop} (hP : ∀ r, P r (.named fs)) :
    Meets (onFiles A) (listEntry dir name) P (.named fs) := by
  unfold listEntry
  simp only [meets_bind, meets_status, hs, true_and]
  cases fs.status (Path.join dir name) with
  | error e => simpa using hP none
  | ok t =>
    simp only [meets_bind, meets_ite, meets_pure, meets_fileSize, meets_lastWriteTime, hf, hl, true_and]
    refine ⟨fun _ r => ?_, fun _ size => ?_⟩
    · cases r <;> simp [hP]
    · cases size with
      | error e => simpa using hP none
      | ok size =>
        simp only [meets_bind, meets_lastWriteTime, hl, true_and]
        intro r
        cases r <;> simp [hP]

lemma listDirectory_meets {dir : Str} (hd : A fs (.readDirectory dir))
    (h : ∀ name ∈ (fs.readDirectory dir).1, A fs (.status (Path.join dir name)) ∧
      A fs (.fileSize (Path.join dir name)) ∧ A fs (.lastWriteTime (Path.join dir name)))
    {P : Option Str → Phase → Prop} (hP : ∀ r, P r (.named fs)) :
    Meets (onFiles A) (listDirectory dir) P (.named fs) := by
  have hentries (names : List Str) (hn : names ⊆ (fs.readDirectory dir).1) :
      ∀ {P : Option Str → Phase → Prop}, (∀ r, P r (.named fs)) →
        Meets (onFiles A) (listEntries dir names) P (.named fs) := by
    induction names with
    | nil => exact fun hP => by simpa [listEntries] using hP _
    | cons name names ih =>
      intro P hP
      obtain ⟨hs, hf, hl⟩ := h name (hn List.mem_cons_self)
      simp only [listEntries, meets_bind]
      refine listEntry_meets hs hf hl fun r => ?_
      cases r with
      | none => simpa using hP none
      | some line =>
        simp only [meets_bind]
        refine ih (fun _ hm => hn (List.mem_cons_of_mem _ hm)) fun r => ?_
        cases r <;> simp [hP]
  unfold listDirectory
  simp only [meets_bind, meets_readDirectory, hd, true_and]
  refine hentries _ (List.Subset.refl _) fun r => ?_
  split <;> simp [hP]

end Listing

lemma acceptDataConnection_meets {A : FileSystem → Act → Prop} (d : DataConnection)
    {P : Option (Fd × Peer) × DataConnection → Phase → Prop}
    (hnone : ∀ d', P (none, d') (.named fs)) (hsome : d.CanOpen → ∀ c d', P (some c, d') (.named fs)) :
    Meets (onFiles A) d.acceptDataConnection P (.named fs) := by
  unfold DataConnection.acceptDataConnection DataConnection.connectActiveDataSocket
  unfold DataConnection.CanOpen at hsome
  by_cases hactive : d.active_mode_enabled_ = true
  · rw [if_pos hactive] at hsome ⊢
    by_cases hno : d.active_mode_ip_ = [] ∨ d.active_mode_port_ ≤ 0
    · simpa [hno] using hnone d
    · have hyes : d.active_mode_ip_ ≠ [] ∧ 0 < d.active_mode_port_ := by
        rw [not_or] at hno
        exact ⟨hno.1, by omega⟩
      simp only [if_neg hno, meets_bind, meets_socket]
      rintro (_ | fd)
      · simpa using hnone _
      · cases hip : inetPton d.active_mode_ip_ with
        | none => simpa using hnone _
        | some octets =>
          simp only [meets_bind, meets_connect]
          rintro (_ | peer)
          · simpa using hnone _
          · simpa using hsome ⟨hyes.1, hyes.2, by simp [hip]⟩ _ _
  · rw [if_neg hactive] at hsome ⊢
    cases hl : d.passive_listen_socket_ with
    | none => simpa using hnone d
    | some listener =>
      simp only [meets_bind, meets_select, meets_ite, meets_pure, meets_accept]
      refine fun ready => ⟨fun _ => hnone d, fun _ accepted => ?_⟩
      cases accepted with
      | none => exact hnone _
      | some c => exact hsome (by simp [hl]) c _

lemma handleMLST_access (a : Str) : Handled env s fs ⟨.mlst, a⟩ (s.handleMLST a) := by
  unfold Handled handleMLST
  simp [resolvePath_named]
  intro hv
  have h : s.Vets fs ⟨.mlst, a⟩ a := .unchecked rfl rfl hv
  refine ⟨.path h (by simp [Verb.acts]), fun _ => ?_⟩
  exact buildMachineFacts_meets (.path h (by simp [Verb.acts])) (.path h (by simp [Verb.acts]))
    (.path h (by simp [Verb.acts])) (by simp)

lemma handleSTAT_access (a : Str) : Handled env s fs ⟨.stat, a⟩ (s.handleSTAT a) := by
  unfold Handled handleSTAT
  simp
  intro ha hv
  have h : s.Vets fs ⟨.stat, a⟩ a := .unchecked rfl rfl hv
  refine ⟨.path h (by simp [Verb.acts]), fun _ => ?_⟩
  refine ⟨.path h (by simp [Verb.acts]), fun hd => ?_, fun _ => ?_⟩
  · have hdir : fs.status (s.resolvePath fs a) = .ok .directory := by
      unfold isDirectory at hd
      split at hd
      · rename_i hst
        rw [hst, of_decide_eq_true hd]
      · cases hd
    refine ⟨.listing h (by simp) hdir (fun _ => ha) (by simp), ?_⟩
    exact statEntries_meets (fun name hn => ⟨.entry h hn rfl (by simp), .entry h hn rfl (by simp),
      .entry h hn rfl (by simp)⟩) (by simp)
  · exact buildMachineFacts_meets (.path h (by simp [Verb.acts])) (.path h (by simp [Verb.acts]))
      (.path h (by simp [Verb.acts])) (by simp)

lemma handleMLSD_access (a : Str) : Handled env s fs ⟨.mlsd, a⟩ (s.handleMLSD a) := by
  unfold Handled handleMLSD
  simp [resolvePath_named]
  intro hp hv
  have h : s.Vets fs ⟨.mlsd, a⟩ a := .checked rfl rfl hp hv
  refine ⟨.path h (by simp [Verb.acts]), fun hd => ?_⟩
  refine acceptDataConnection_meets _ (by simp) fun hopen c d => ?_
  have hdir : fs.status (s.resolvePath fs a) = .ok .directory := by
    unfold isDirectory at hd
    split at hd
    · rename_i hst
      rw [hst, of_decide_eq_true hd]
    · cases hd
  simp
  refine ⟨.listing h (by simp) hdir (by simp) fun _ => hopen, ?_⟩
  refine machineEntries_meets (fun name hn => ⟨.entry h hn rfl (by simp), .entry h hn rfl (by simp),
    .entry h hn rfl (by simp)⟩) fun listing => ?_
  split <;> simp

lemma handleLIST_access (a : Str) : Handled env s fs ⟨.list, a⟩ (s.handleLIST a) := by
  unfold Handled handleLIST
  simp [resolvePath_named]
  intro hp hv
  have h : s.Vets fs ⟨.list, a⟩ a := .checked rfl rfl hp hv
  refine ⟨.path h (by simp [Verb.acts]), fun found hfound hthere => ?_⟩
  refine acceptDataConnection_meets _ (by simp) fun hopen c d => ?_
  simp
  refine ⟨.path h (by simp [Verb.acts]), fun kind hkind => ?_⟩
  refine ⟨fun hd => ?_, fun _ => .path h (by simp [Verb.acts])⟩
  subst hd
  refine listDirectory_meets (.listing h (by simp) hkind (by simp) fun _ => hopen) (fun name hn =>
    ⟨.entry h hn rfl (by simp), .entry h hn rfl (by simp), .entry h hn rfl (by simp)⟩) fun listing => ?_
  cases listing <;> simp

section Transfers

variable {A : FileSystem → Act → Prop}

lemma modeZRefusal_meets {P : Option Session → Phase → Prop} (hsome : ∀ s', P (some s') (.named fs))
    (hnone : (s.transferModeZ = true → s.resume_position_ ≤ 0 ∧ env.compressionEnabled = true) →
      P none (.named fs)) :
    Meets (onFiles A) (s.modeZRefusal env) P (.named fs) := by
  unfold modeZRefusal
  simp only [meets_ite, meets_bind, meets_reply, meets_pure]
  refine ⟨fun hmode => hnone fun h => ?_, fun hmode => ⟨fun _ => hsome _, fun hpos => ⟨fun _ => hsome _, fun hc =>
    hnone fun _ => ⟨not_lt.1 hpos, by simpa using hc⟩⟩⟩⟩
  simp [h] at hmode

lemma retrieveTo_meets {data_fd : Fd} {p : Str} (ho : A fs (.openRead p)) {P : ℕ × Str × Bool → Phase → Prop}
    (hP : ∀ r, P r (.named fs)) : Meets (onFiles A) (s.retrieveTo env data_fd p) P (.named fs) := by
  unfold retrieveTo
  simp only [meets_bind, meets_steadyNow, meets_openRead, ho, true_and]
  rintro start (_ | file_fd)
  · simp [hP]
  · simp only [meets_bind, meets_fstat]
    intro st
    split
    rename_i size
    · simp only [meets_ite, meets_bind, meets_close, meets_pure]
      refine ⟨fun _ _ _ => hP _, fun _ => ?_⟩
      have hsend : (s.sendOpened env data_fd file_fd start size).Within (Kinds [.memory, .clock, .transfer])
          fun _ => True :=
        sendOpened_within (List.Subset.refl _) _ _ _ _
      refine meets_quiet hsend (by simp [quietKinds]) fun r _ => ?_
      simp only [meets_close]
      exact fun _ _ => hP _
    · simp [hP]

lemma handleRETR_access (a : Str) : Handled env s fs ⟨.retr, a⟩ (s.handleRETR env a) := by
  unfold Handled handleRETR
  simp
  intro hp hv
  have h : s.Vets fs ⟨.retr, a⟩ a := .checked rfl rfl hp hv
  refine ⟨.path h (by simp [Verb.acts]), fun _ _ _ => modeZRefusal_meets (by simp) fun _ => ?_⟩
  simp
  refine acceptDataConnection_meets _ (by simp) fun _ c d => ?_
  simp
  exact retrieveTo_meets (.path h (by simp [Verb.acts])) fun _ => trivial

lemma write_meets {f : OutFile} {fd : Fd} {p data : Str} (ha : A fs (.write p)) (hf : f.fd = fd)
    {P : OutFile → Phase → Prop} (hP : ∀ f', f'.fd = fd → P f' (.writing fs fd p)) :
    Meets (onFiles A) (f.write data) P (.writing fs fd p) := by
  unfold OutFile.write
  rw [meets_ite]
  refine ⟨fun _ => by simpa using hP f hf, fun _ => ?_⟩
  simp only [meets_bind, meets_perform, meets_pure]
  exact ⟨⟨rfl, fun fd' h => ⟨(Option.some.inj h).symm.trans hf, ha⟩⟩, fun ok _ => hP _ hf⟩

lemma receiveLoop_meets {fd : Fd} {p : Str} (ha : A fs (.write p)) (rate : Int) (start : ℕ) (data_fd : Fd)
    (peer : Peer) (chunks : List Str) {P : OutFile → Phase → Prop}
    (hP : ∀ f', f'.fd = fd → P f' (.writing fs fd p)) :
    ∀ n (f : OutFile), f.fd = fd →
      Meets (onFiles A) (receiveLoop rate start data_fd peer chunks n f) P (.writing fs fd p) := by
  induction chunks with
  | nil =>
    intro n f hf
    simp only [receiveLoop, meets_bind, meets_perform, meets_pure]
    exact ⟨⟨rfl, fun _ h => absurd h (Option.some_ne_none _).symm⟩, fun _ _ => hP f hf⟩
  | cons chunk chunks ih =>
    intro n f hf
    simp only [receiveLoop, meets_bind, meets_perform]
    refine ⟨⟨rfl, fun _ h => absurd h (Option.some_ne_none _).symm⟩, fun _ _ => ?_⟩
    refine meets_quiet (applyThrottle_within (List.mem_singleton.2 rfl) _ _ _) (by simp [quietKinds]) fun _ _ => ?_
    exact write_meets ha hf fun f' hf' => ih _ f' hf'

lemma inflateLoop_meets {fd : Fd} {p : Str} (ha : A fs (.write p)) (zlib : Zlib) (rate : Int) (start : ℕ)
    (data_fd : Fd) (peer : Peer) (chunks : List Str) {P : Bool → Phase → Prop}
    (hP : ∀ b, P b (.writing fs fd p)) :
    ∀ made n (f : OutFile), f.fd = fd →
      Meets (onFiles A) (inflateLoop zlib rate start data_fd peer chunks made n f) P (.writing fs fd p) := by
  have hinflate (made : List (Str × Bool)) {P : Option Str → Phase → Prop} (h : ∀ r, P r (.writing fs fd p)) :
      Meets (onFiles A) (inflate zlib made) P (.writing fs fd p) :=
    meets_quiet (inflate_within zlib made : (inflate zlib made).Within (Kinds []) _) (List.nil_subset _)
      fun r _ => h r
  have hwrite (plain : Str) {f : OutFile} (hf : f.fd = fd) {P : OutFile → Phase → Prop}
      (h : ∀ f', f'.fd = fd → P f' (.writing fs fd p)) :
      Meets (onFiles A) (if plain = [] then return f else f.write plain : Io OutFile) P (.writing fs fd p) :=
    meets_ite.2 ⟨fun _ => (meets_pure _).2 (h f hf), fun _ => write_meets ha hf h⟩
  induction chunks with
  | nil =>
    intro made n f hf
    simp only [inflateLoop, meets_bind, meets_perform, meets_ite, meets_pure]
    refine ⟨⟨rfl, fun _ h => absurd h (Option.some_ne_none _).symm⟩, fun _ _ => ?_⟩
    refine ⟨fun _ => hP _, fun _ => ?_⟩
    refine hinflate _ fun r => ?_
    cases r with
    | none => simpa using hP false
    | some plain =>
      rw [meets_bind]
      exact hwrite plain hf fun _ _ => (meets_pure _).2 (hP true)
  | cons chunk chunks ih =>
    intro made n f hf
    simp only [inflateLoop, meets_bind, meets_perform]
    refine ⟨⟨rfl, fun _ h => absurd h (Option.some_ne_none _).symm⟩, fun _ _ => ?_⟩
    refine hinflate _ fun r => ?_
    cases r with
    | none => simpa using hP false
    | some plain =>
      rw [meets_bind]
      refine hwrite plain hf fun f' hf' => ?_
      rw [meets_bind]
      refine meets_quiet (applyThrottle_within (List.mem_singleton.2 rfl) _ _ _)
        (by simp [quietKinds]) fun _ _ => ?_
      exact ih _ _ f' hf'

lemma receiveTo_meets {data_fd : Fd} {peer : Peer} {f : OutFile} {p : Str} (ha : A fs (.write p))
    {P : ℕ × Str × Bool → Phase → Prop} (hP : ∀ r g, P r g) :
    Meets (onFiles A) (s.receiveTo env data_fd peer f) P (.writing fs f.fd p) := by
  have hquiet {α : Type} {o : Call α} (ho : o.kind ∈ quietKinds) {P : α → Phase → Prop}
      (h : ∀ r, P r (.writing fs f.fd p)) : Meets (onFiles A) (perform o : Io α) P (.writing fs f.fd p) :=
    (meets_perform o).2 ⟨(onFiles_quiet o ho).1, fun r _ => by rw [(onFiles_quiet o ho).2]; exact h r⟩
  have hclose (r : ℕ × Str × Bool) : Meets (onFiles A) (do
      perform (.close f.fd)
      perform (.close data_fd)
      return r : Io (ℕ × Str × Bool)) P (.writing fs f.fd p) := by
    simp only [meets_bind, meets_closing_any, meets_pure]
    exact hP _ _
  unfold receiveTo
  rw [meets_bind]
  refine hquiet (by simp [Call.kind, quietKinds]) fun start => ?_
  rw [meets_ite]
  refine ⟨fun _ => ?_, fun _ => ?_⟩
  · rw [meets_bind]
    refine hquiet (by simp [Call.kind, quietKinds]) fun valid => ?_
    rw [meets_ite]
    refine ⟨fun _ => hclose _, fun _ => ?_⟩
    rw [meets_bind]
    exact inflateLoop_meets ha _ _ _ _ _ _ (fun ok => hclose _) _ _ _ rfl
  · rw [meets_bind]
    exact receiveLoop_meets ha _ _ _ _ _ (fun f' _ => hclose _) _ _ rfl

lemma openTarget_meets {p : Str} (hs : 0 < s.resume_position_ → A fs (.status p))
    (ho : ∀ mode, A fs (.openWrite p mode))
    {P : Option OutFile → Phase → Prop} (hnone : ∀ fs', P none (.named fs'))
    (hsome : ∀ mode f, P (some f) (.writing (fs.openWrite p mode).2 f.fd p)) :
    Meets (onFiles A) (s.openTarget p) P (.named fs) := by
  have htruncate : Meets (onFiles A) (do
      let opened : Option Fd ← perform (.openWrite p .truncate)
      return opened.map fun fd => ⟨fd, 0, true⟩ : Io (Option OutFile)) P (.named fs) := by
    rw [meets_bind]
    refine meets_openWrite (ho _) ((meets_pure _).2 (hnone _)) fun fd => ?_
    exact (meets_pure _).2 (hsome _ ⟨fd, 0, true⟩)
  unfold openTarget
  simp only [meets_bind, meets_ite, meets_status, meets_orThrow, meets_pure]
  refine ⟨fun hresume => ⟨hs hresume, fun found _ => ⟨fun _ => ?_, fun _ => ?_⟩⟩, fun _ => ?_⟩
  · refine meets_openWrite (ho _) ?_ fun fd => (meets_pure _).2 (hsome _ ⟨fd, _, true⟩)
    rw [FileSystem.openWrite_update]
    simpa using htruncate
  · simpa using htruncate
  · simpa using htruncate

lemma storeFrom_meets {data_fd : Fd} {peer : Peer} {p : Str}
    (hparents : Path.hasParentPath p = true → A fs (.createDirectories (Path.parentPath p)))
    (hs : HasParents fs p → 0 < s.resume_position_ → A (withParents fs p) (.status p))
    (ho : HasParents fs p → ∀ mode, A (withParents fs p) (.openWrite p mode))
    (hw : HasParents fs p → ∀ mode, A ((withParents fs p).openWrite p mode).2 (.write p))
    {P : ℕ × Str × Bool → Phase → Prop} (hP : ∀ r g, P r g) :
    Meets (onFiles A) (s.storeFrom env data_fd peer p) P (.named fs) := by
  have hopen (hp : HasParents fs p) {next : Option OutFile → Io (ℕ × Str × Bool)} (hnone : next none = do
        perform (.close data_fd)
        return (550, "Failed to create file", false)) (hsome : ∀ f,
          next (some f) = s.receiveTo env data_fd peer f) :
      Meets (onFiles A) (s.openTarget p >>= next) P (.named (withParents fs p)) := by
    rw [meets_bind]
    refine openTarget_meets (hs hp) (ho hp) (fun _ => ?_) fun mode f => ?_
    · rw [hnone]
      simp [hP]
    · rw [hsome]
      exact receiveTo_meets (hw hp mode) hP
  unfold storeFrom
  rw [meets_bind, meets_ite]
  unfold withParents at hopen
  refine ⟨fun hp => ?_, fun hp => ?_⟩
  · rw [if_pos hp] at hopen
    simp only [meets_bind, meets_createDirectories, hparents hp, true_and, meets_orThrow, meets_pure]
    exact fun made hmade => (meets_bind).1 (hopen (fun _ => ⟨made, hmade⟩) rfl fun _ => rfl)
  · rw [if_neg hp] at hopen
    exact (meets_pure _).2 (hopen (fun h => absurd h hp) rfl fun _ => rfl)

lemma quotaExceeded_meets (h : ∀ u, s.current_user_ = some u → 0 < s.storageQuota → A fs (.scan u.home_directory_))
    {P : Bool → Phase → Prop} (hfull : P true (.named fs))
    (hroom : (∀ u, s.current_user_ = some u → 0 < s.storageQuota →
      directorySize (fs.regularFilesBelow u.home_directory_) < s.storageQuota) → P false (.named fs)) :
    Meets (onFiles A) s.quotaExceeded P (.named fs) := by
  unfold quotaExceeded
  split
  · rename_i u hu
    simp only [meets_ite, meets_bind, meets_regularFilesBelow, meets_pure]
    refine ⟨fun hq => ⟨h u hu hq, ?_⟩, fun hq => hroom fun _ _ hq' => absurd hq' hq⟩
    by_cases hsize : s.storageQuota ≤ directorySize (fs.regularFilesBelow u.home_directory_)
    · rw [decide_eq_true hsize]
      exact hfull
    · rw [decide_eq_false hsize]
      refine hroom fun u' hu' _ => ?_
      obtain rfl : u = u' := Option.some.inj (hu.symm.trans hu')
      exact not_le.1 hsize
  · rename_i hu
    refine (meets_pure _).2 (hroom fun u hu' => ?_)
    exact absurd (hu.symm.trans hu') (Option.some_ne_none _).symm

lemma handleSTOR_meets {name : Str} (h : ∀ fs' act, s.StoreAccess env fs name fs' act → A fs' act)
    {P : Session → Phase → Prop} (hP : ∀ s' g, P s' g) :
    Meets (onFiles A) (s.handleSTOR env name) P (.named fs) := by
  unfold handleSTOR
  simp [hP]
  intro hp hv
  have hadmits : s.Admits fs name := ⟨hp, hv⟩
  refine quotaExceeded_meets (fun u hu hq => h _ _ (.scan u hadmits hu hq)) (by simp) fun hroom _ => ?_
  refine modeZRefusal_meets (fun s' => by simpa using hP _ _) fun hmode => ?_
  simp
  refine acceptDataConnection_meets _ (by simp [hP]) fun hopen c d => ?_
  have hproceeds : s.Proceeds env fs := ⟨hroom, hmode, hopen⟩
  simp
  exact storeFrom_meets (fun hpar => h _ _ (.parents hadmits hproceeds hpar))
    (fun hp hresume => h _ _ (.resume hadmits hproceeds hp hresume))
    (fun hp mode => h _ _ (.target mode hadmits hproceeds hp))
    (fun hp mode => h _ _ (.content mode hadmits hproceeds hp)) fun r g => by simp [hP]

lemma handleSTOR_access (a : Str) : Handled env s fs ⟨.stor, a⟩ (s.handleSTOR env a) :=
  handleSTOR_meets (fun _ _ h => .store h) fun _ _ => trivial

lemma uniqueName_meets {a : Str} (h : ∀ n, s.Tries fs a n → A fs (.status (s.candidatePath a n)))
    {P : Option Str → Phase → Prop} (hnone : P none (.named fs))
    (hsome : ∀ n, s.Tries fs a n → isThere (fs.status (s.candidatePath a n)) = false →
      P (some (candidate a n)) (.named fs)) (n : ℕ) :
    ∀ attempt, attempt + n = 10000 → (∀ m < attempt, isThere (fs.status (s.candidatePath a m)) = true) →
      Meets (onFiles A) (uniqueName s.current_directory_ (if a = [] then ("ftpd" : Str) else Path.filename a)
        attempt n) P (.named fs) := by
  induction n with
  | zero => exact fun _ _ _ => by simpa [uniqueName] using hnone
  | succ n ih =>
    intro attempt hn htaken
    have htries : s.Tries fs a attempt := ⟨by omega, htaken⟩
    simp only [uniqueName, meets_bind, meets_status, meets_ite, meets_pure]
    refine ⟨h attempt htries, fun hfree => hsome attempt htries ((Bool.not_eq_true' _).mp hfree), fun hthere => ?_⟩
    refine ih _ (by omega) fun m hm => ?_
    rcases Nat.lt_succ_iff_lt_or_eq.1 hm with hm | rfl
    · exact htaken m hm
    · refine Bool.eq_true_of_not_eq_false fun hfree => ?_
      exact hthere (by rw [Bool.not_eq_true']; exact hfree)

lemma handleSTOU_access (a : Str) : Handled env s fs ⟨.stou, a⟩ (s.handleSTOU env a) := by
  unfold Handled handleSTOU
  rw [meets_bind]
  refine uniqueName_meets (fun n => .unique) (by simp) (fun n htries hfree => ?_) _ _ rfl (by simp)
  simp only [meets_bind]
  exact handleSTOR_meets (fun fs' act h => .storeUnique htries hfree h) fun s' g => by simp

lemma appendLoop_meets {fd : Fd} {p : Str} (ha : A fs (.write p)) (data_fd : Fd) (peer : Peer)
    (chunks : List Str) {P : Unit → Phase → Prop} (hP : P () (.writing fs fd p)) :
    ∀ good, Meets (onFiles A) (appendLoop data_fd fd peer chunks good) P (.writing fs fd p) := by
  induction chunks with
  | nil =>
    simp only [appendLoop, meets_perform]
    exact fun _ => ⟨⟨rfl, fun _ h => absurd h (Option.some_ne_none _).symm⟩, fun _ _ => hP⟩
  | cons chunk chunks ih =>
    intro good
    simp only [appendLoop, meets_bind, meets_perform, meets_ite, meets_pure]
    refine ⟨⟨rfl, fun _ h => absurd h (Option.some_ne_none _).symm⟩, fun _ _ => ?_⟩
    refine ⟨fun _ => ?_, fun _ => ih _⟩
    exact ⟨⟨rfl, fun _ h => ⟨(Option.some.inj h).symm, ha⟩⟩, fun _ _ => ih _⟩

lemma handleAPPE_access (a : Str) : Handled env s fs ⟨.appe, a⟩ (s.handleAPPE a) := by
  unfold Handled handleAPPE
  simp
  intro hp hv hmode
  have h : s.Vets fs ⟨.appe, a⟩ a := .checked rfl rfl hp hv
  refine acceptDataConnection_meets _ (by simp) fun hopen c d => ?_
  simp
  refine ⟨.path h (by simp [Verb.acts]), fun found hfound => ?_⟩
  refine meets_openWrite ?_ (by simp) fun fd => ?_
  · split <;> exact .path h (by simp [Verb.acts])
  · simp only [meets_bind]
    refine appendLoop_meets ?_ _ _ _ ?_ _
    · have hwrite : s.Access env fs ⟨.appe, a⟩ _ _ := .append h hmode hopen hfound
      split at hwrite <;> simp_all
    simp only [meets_closing_any, meets_map, meets_reply]

end Transfers

section Login

variable {A : FileSystem → Act → Prop}

lemma logIn_meets (hc : env.config_.security.chroot_enabled = true →
      A fs (.status env.config_.security.chroot_directory) ∧ A fs (.chroot env.config_.security.chroot_directory))
    (u : FTPUser) {P : Session → Phase → Prop} (hP : ∀ s' g, P s' g) :
    Meets (onFiles A) (s.logIn env u) P (.named fs) := by
  have hregister : (s.register env).Within (Kinds [.register]) fun _ => True := by
    simp [register, Call.kind]
  have hrest (dir : Str) (g : Phase) : Meets (onFiles A) (do
      let registered ← s.register env
      s.reply 230 "User logged in, proceed"
      return { s with
        authenticated_ := true, current_directory_ := dir, session_registered_ := registered }) P g := by
    rw [meets_bind]
    exact meets_quiet hregister (by simp [quietKinds]) fun _ _ => by simp [hP]
  have hdir {P : Str → Phase → Prop} (hP : ∀ r g, P r g) :
      Meets (onFiles A) (loginDirectory env u) P (.named fs) := by
    rw [loginDirectory_eq, applyChroot]
    simp only [meets_bind, meets_ite, meets_status, meets_orThrow, meets_pure, hP, implies_true,
      and_true, true_and]
    refine fun h => ⟨(hc h.1).1, fun _ _ _ => ?_⟩
    exact (meets_act (o := .chroot env.config_.security.chroot_directory) rfl rfl fun _ => trivial).2
      ⟨(hc h.1).2, fun _ => trivial⟩
  unfold logIn
  rw [meets_bind]
  exact hdir hrest

lemma finishLogin_meets (hc : env.config_.security.chroot_enabled = true →
      A fs (.status env.config_.security.chroot_directory) ∧ A fs (.chroot env.config_.security.chroot_directory))
    (ok : Bool) {P : Session → Phase → Prop} (hP : ∀ s' g, P s' g) :
    Meets (onFiles A) (s.finishLogin env ok) P (.named fs) := by
  have hlimit : (s.sessionLimit env).Within (Kinds [.census]) fun _ => True :=
    sessionLimit_within (List.mem_singleton.2 rfl)
  unfold finishLogin
  split
  · rw [meets_bind]
    refine meets_quiet hlimit (by simp [quietKinds]) fun limit _ => ?_
    cases limit with
    | some refusal => simp [hP]
    | none => exact logIn_meets hc _ hP
  · simp [hP]

lemma handlePASS_access (a : Str) : Handled env s fs ⟨.pass, a⟩ (s.handlePASS env a) := by
  have hcheck : (s.checkPassword env a).Within (Kinds [.clock, .account]) fun r => r.2 = true → r.1.isSome :=
    checkPassword_within (List.Subset.refl _) a
  unfold Handled handlePASS
  simp only [meets_ite, meets_bind, meets_reply, meets_pure]
  refine ⟨fun _ => trivial, fun _ => meets_quiet hcheck (by simp [quietKinds]) fun r _ => ?_⟩
  exact finishLogin_meets (fun hc => ⟨.confine hc (by simp), .confine hc (by simp)⟩) _ fun _ _ => trivial

end Login

theorem handle_access (c : Command) : Handled env s fs c (s.handle env c) := by
  have hquiet {c : Command} (hk : c.verb.kinds s.data ⊆ .close :: quietKinds) :
      Handled env s fs c (s.handle env c) := meets_closing (handle_within c) hk fun _ _ => trivial
  have hreturn {α : Type} {c : Command} {p : Io α} (h : Handled env s fs c p) (f : α → Session) :
      Handled env s fs c (p >>= fun a => pure (f a)) := by
    unfold Handled at h ⊢
    rw [meets_bind]
    exact h.mono fun _ _ _ => (meets_pure _).2 trivial
  rcases c with ⟨v, a⟩
  cases v with
  | pass => exact handlePASS_access a
  | cwd => exact hreturn (handleCWD_access a) _
  | cdup => exact hreturn (handleCDUP_access a) _
  | list => exact hreturn (handleLIST_access a) _
  | mlsd => exact hreturn (handleMLSD_access a) _
  | mlst => exact hreturn (handleMLST_access a) _
  | mdtm => exact hreturn (handleMDTM_access a) _
  | stat => exact hreturn (handleSTAT_access a) _
  | site => exact hreturn (handleSITE_access a) _
  | size => exact hreturn (handleSIZE_access a) _
  | retr => exact handleRETR_access a
  | stor => exact handleSTOR_access a
  | stou => exact handleSTOU_access a
  | appe => exact handleAPPE_access a
  | dele => exact hreturn (handleDELE_access a) _
  | mkd => exact hreturn (handleMKD_access a) _
  | rmd => exact hreturn (handleRMD_access a) _
  | rnfr => exact hreturn (handleRNFR_access a) _
  | rnto => exact hreturn (handleRNTO_access a) _
  | _ => exact hquiet (by simp [Verb.kinds, quietKinds])

end Session

end SimpleSftpd
