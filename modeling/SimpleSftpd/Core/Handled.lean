import SimpleSftpd.Core.Conduct

namespace SimpleSftpd

open Cxx Interaction Prog

open Conduct

namespace Session

variable {u : (Σ β, Call β) → Bool} {fs : FileSystem} {h : List (Str × Bool) → Bool} {env : Service} {s : Session}

lemma nameSpace_hushed : Hushed u ⟨_, .nameSpace⟩ :=
  fun _ _ => next_eq rfl rfl (Bool.and_false _) (by simp [Call.kind])

section

variable (hh : h [] = false) (hs : s.socket_ ≠ none)
include hh hs

lemma handlePROT_conduct (level : Str) :
    Ends (Conduct.calls u fs) (s.handlePROT level) (fun _ => Done h) (Broken h) {} := by
  apply ends_ite
  · exact fun _ => ends_return hs (open_new hh) (by decide)
  · intro _
    cases protectionLevel level with
    | none => exact ends_return hs (open_new hh) (by decide)
    | some l => exact ends_return hs (open_new hh) (by decide)

lemma handleOPTS_conduct (argument : Str) :
    Ends (Conduct.calls u fs) (s.handleOPTS argument) (fun _ => Done h) (Broken h) {} := by
  have hreturn {code : ℕ} {text : Str} (hcode : 200 ≤ code) (b : Bool) :
      Ends (Conduct.calls u fs) (s.reply code text >>= fun _ => pure b) (fun _ => Done h) (Broken h) {} :=
    ends_return hs (open_new hh) hcode
  apply ends_ite
  · intro _
    exact ends_ite (fun _ => hreturn (by decide) _) fun _ =>
      ends_ite (fun _ => hreturn (by decide) _) fun _ => hreturn (by decide) _
  · exact fun _ => ends_ite (fun _ => hreturn (by decide) _) fun _ => hreturn (by decide) _

lemma handleAUTH_conduct (method : Str) :
    Ends (Conduct.calls u fs) (s.handleAUTH method) (fun _ => Done h) (Broken h) {} := by
  apply ends_ite ?_ fun _ => ends_return hs (open_new hh) (by decide)
  intro _
  apply ends_ite (fun _ => ends_return hs (open_new hh) (by decide))
  intro _
  have hload : s.loadHostCertificate.Within (Hushed u) (Secured s) :=
    (loadHostCertificate_within (List.mem_singleton_self Kind.account)).mono
      (fun _ => hushed_of_kinds (by simp)) fun _ => id
  apply ends_hushed hload s.loadHostCertificate_returns
  intro s' hsecured
  have hs' : s'.socket_ ≠ none := by
    obtain ⟨_, _, _, _, rfl⟩ := hsecured
    exact hs
  apply ends_ite (fun _ => ends_return hs' (open_new hh) (by decide))
  intro _
  apply ends_reply hs'
  intro text
  have hdone := (open_new hh).answered (show 200 ≤ 234 by decide) text
  apply ends_ask (fun g r => next_eq rfl rfl (Bool.and_false _) (by simp [Call.kind]))
  intro upgraded _
  apply ends_ite
  · intro _
    apply ends_ask (fun g r => next_eq rfl rfl (Bool.and_false _) (by simp [Call.kind]))
    exact fun _ _ => ends_pure hdone
  · exact fun _ => ends_pure hdone

lemma handlePBSZ_conduct : Ends (Conduct.calls u fs) s.handlePBSZ (fun _ => Done h) (Broken h) {} := by
  rw [handlePBSZ]
  refine ends_ite (fun _ => ends_answer hs (open_new hh) (by decide)) fun _ => ?_
  exact ends_answer hs (open_new hh) (by decide)

lemma handleQUIT_conduct : Ends (Conduct.calls u fs) s.handleQUIT (fun _ => Done h) (Broken h) {} := by
  have hstill (g : Conduct) : g.next u .deactivate () = g :=
    next_eq rfl rfl (Bool.and_false _) (by simp [Call.kind])
  apply ends_reply hs
  intro text
  apply ends_perform trivial
  intro _ _
  change Done h (Conduct.next u _ .deactivate ())
  rw [hstill]
  exact (open_new hh).answered (by decide) text

/-! Data connections -/

omit hh hs in
lemma closeDataSocket_hushed (d : DataConnection) : d.closeDataSocket.Within (Hushed u) fun _ => True := by
  have hclose : d.closeDataSocket.Within (Kinds [.close]) fun _ => True :=
    DataConnection.closeDataSocket_within d (List.mem_singleton_self _) trivial
  exact hclose.mono (fun _ => hushed_of_kinds (by simp)) fun _ => id

omit hh hs in
lemma acceptDataConnection_hushed (d : DataConnection) :
    d.acceptDataConnection.Within (Hushed u) fun _ => True := by
  have hkinds : d.acceptDataConnection.Within (Kinds ([.opens, .close, .transfer] ++ d.connectKinds))
      fun _ => True :=
    DataConnection.acceptDataConnection_within d (fun _ hk => hk) fun _ _ _ => trivial
  apply (d.acceptDataConnection_unlogged.both hkinds).mono ?_ fun _ => id
  rintro o ⟨hunlogged, hkind⟩
  apply hushed_of_unlogged hunlogged
  intro k hk he
  rw [← he] at hk
  have hkind : o.2.kind ∈ [.opens, .close, .transfer] ++ d.connectKinds := hkind
  simp only [List.mem_append, DataConnection.mem_connectKinds, List.mem_cons, List.not_mem_nil,
    or_false] at hkind hk
  rcases hkind with (h' | h' | h') | ⟨_, h'⟩ <;> simp [h'] at hk

variable (hcalm : ∀ l, h l = false)

include hcalm in
lemma passive_conduct (config : ConnectionConfig) (f : Int → Str) {code : ℕ} (hcode : 200 ≤ code) :
    Ends (Conduct.calls u fs) (do
        let d ← { s.data with active_mode_enabled_ := false }.closeDataSocket
        let (port, d) ← d.createPassiveDataSocket config
        if port < 0 then do
          s.reply 425 "Can't open passive connection"
          return d
        else do
          s.reply code (f port)
          return d : Io DataConnection) (fun _ => Done h) (Broken h) {} := by
  apply ends_hushed (closeDataSocket_hushed _) (DataConnection.closeDataSocket_returns _)
  intro d _
  have hpassive : (d.createPassiveDataSocket config).Within (Kinds [.opens, .close, .transfer]) fun _ => True :=
    DataConnection.createPassiveDataSocket_within d (fun _ hk => hk) config fun _ _ => trivial
  apply ends_loud (by simp) hcalm hpassive (fun _ => id) (d.createPassiveDataSocket_returns config) (open_new hh)
  rintro ⟨port, d⟩ g _ hg
  exact ends_ite (fun _ => ends_return hs hg (by decide)) fun _ => ends_return hs hg hcode

include hcalm in
lemma handlePASV_conduct : Ends (Conduct.calls u fs) (s.handlePASV env) (fun _ => Done h) (Broken h) {} := by
  rw [handlePASV]
  apply ends_ite
  · exact fun _ => ends_return hs (open_new hh) (by decide)
  · exact fun _ => passive_conduct hh hs hcalm env.config_.connection formatPassiveResponse (by decide)

include hcalm in
lemma handleEPSV_conduct (argument : Str) :
    Ends (Conduct.calls u fs) (s.handleEPSV env argument) (fun _ => Done h) (Broken h) {} := by
  rw [handleEPSV]
  apply ends_ite
  · exact fun _ => ends_return hs (open_new hh) (by decide)
  · intro _
    apply ends_ite
    · exact fun _ => ends_return hs (open_new hh) (by decide)
    · exact fun _ => passive_conduct hh hs hcalm env.config_.connection
        (fun port => "Entering Extended Passive Mode (|||" ++ decimalInt port ++ "|)") (by decide)

lemma handlePORT_conduct (a : Str) :
    Ends (Conduct.calls u fs) (s.handlePORT a) (fun _ => Done h) (Broken h) {} := by
  apply ends_ite (fun _ => ends_return hs (open_new hh) (by decide))
  intro _
  split
  · apply ends_ite (fun _ => ends_return hs (open_new hh) (by decide))
    intro _
    apply ends_hushed (closeDataSocket_hushed _) (DataConnection.closeDataSocket_returns _)
    exact fun _ _ => ends_return hs (open_new hh) (by decide)
  · exact ends_return hs (open_new hh) (by decide)

lemma handleEPRT_conduct (a : Str) :
    Ends (Conduct.calls u fs) (s.handleEPRT a) (fun _ => Done h) (Broken h) {} := by
  have hrefuse {code : ℕ} {text : Str} (hcode : 200 ≤ code) :
      Ends (Conduct.calls u fs) (s.reply code text >>= fun _ => pure s.data) (fun _ => Done h) (Broken h) {} :=
    ends_return hs (open_new hh) hcode
  apply ends_ite (fun _ => hrefuse (by decide))
  intro _
  apply ends_ite (fun _ => hrefuse (by decide))
  intro _
  apply ends_ite (fun _ => hrefuse (by decide))
  intro _
  split
  · apply ends_ite (fun _ => hrefuse (by decide))
    intro _
    split
    · exact hrefuse (by decide)
    · apply ends_ite (fun _ => hrefuse (by decide))
      intro _
      apply ends_hushed (closeDataSocket_hushed _) (DataConnection.closeDataSocket_returns _)
      exact fun _ _ => ends_return hs (open_new hh) (by decide)
  · exact hrefuse (by decide)

lemma handleABOR_conduct : Ends (Conduct.calls u fs) s.handleABOR (fun _ => Done h) (Broken h) {} := by
  apply ends_hushed (closeDataSocket_hushed _) (DataConnection.closeDataSocket_returns _)
  exact fun _ _ => ends_return hs (open_new hh) (by decide)

/-! Directories and files -/

section

variable (hstatus : ∀ p, u ⟨_, .status p⟩ = true)
include hstatus

lemma handleCWD_conduct (path : Str) :
    Ends (Conduct.calls u fs) (s.handleCWD path) (fun _ => Done h) (Broken h) {} := by
  apply ends_ask nameSpace_hushed
  intro _ _
  apply ends_ite (fun _ => ends_return hs (open_new hh) (by decide))
  intro _
  apply ends_try (hstatus _) (fun _ => rfl) rfl rfl
  intro found _
  refine ends_ite (fun _ => ends_return hs (open_new hh) (by decide)) fun _ => ?_
  exact ends_return hs (open_new hh) (by decide)

lemma handleSIZE_conduct (hsize : ∀ p, u ⟨_, .fileSize p⟩ = true) (filename : Str) :
    Ends (Conduct.calls u fs) (s.handleSIZE filename) (fun _ => Done h) (Broken h) {} := by
  apply ends_ask nameSpace_hushed
  intro _ _
  apply ends_try (hstatus _) (fun _ => rfl) rfl rfl
  intro found _
  apply ends_ite
  · intro _
    apply ends_try (hsize _) (fun _ => rfl) rfl rfl
    exact fun _ _ => ends_answer hs (open_new hh) (by decide)
  · exact fun _ => ends_answer hs (open_new hh) (by decide)

lemma handleDELE_conduct (hremove : ∀ p, u ⟨_, .remove p⟩ = true) (filename : Str) :
    Ends (Conduct.calls u fs) (s.handleDELE filename) (fun _ => Done h) (Broken h) {} := by
  apply ends_ask nameSpace_hushed
  intro _ _
  apply ends_ite (fun _ => ends_answer hs (open_new hh) (by decide))
  intro _
  apply ends_ite (fun _ => ends_answer hs (open_new hh) (by decide))
  intro _
  apply ends_try (hstatus _) (fun _ => rfl) rfl rfl
  intro found _
  apply ends_ite
  · intro _
    apply ends_change (hremove _) (fun _ => rfl) rfl rfl
    intro removed
    have hopen : Open h { changed := true } := ⟨rfl, hh, .inl rfl⟩
    refine ends_ite (fun _ => ends_answer hs hopen (by decide)) fun _ => ?_
    exact ends_answer hs hopen (by decide)
  · exact fun _ => ends_answer hs (open_new hh) (by decide)

lemma handleRMD_conduct (hremove : ∀ p, u ⟨_, .remove p⟩ = true) (dirname : Str) :
    Ends (Conduct.calls u fs) (s.handleRMD dirname) (fun _ => Done h) (Broken h) {} := by
  apply ends_ask nameSpace_hushed
  intro _ _
  apply ends_ite (fun _ => ends_answer hs (open_new hh) (by decide))
  intro _
  apply ends_ite (fun _ => ends_answer hs (open_new hh) (by decide))
  intro _
  apply ends_try (hstatus _) (fun _ => rfl) rfl rfl
  intro found _
  apply ends_ite
  · intro _
    apply ends_change (hremove _) (fun _ => rfl) rfl rfl
    intro removed
    have hopen : Open h { changed := true } := ⟨rfl, hh, .inl rfl⟩
    refine ends_ite (fun _ => ends_answer hs hopen (by decide)) fun _ => ?_
    exact ends_answer hs hopen (by decide)
  · exact fun _ => ends_answer hs (open_new hh) (by decide)

lemma handleRNFR_conduct (filename : Str) :
    Ends (Conduct.calls u fs) (s.handleRNFR filename) (fun _ => Done h) (Broken h) {} := by
  apply ends_ask nameSpace_hushed
  intro _ _
  apply ends_ite (fun _ => ends_return hs (open_new hh) (by decide))
  intro _
  apply ends_ite (fun _ => ends_return hs (open_new hh) (by decide))
  intro _
  apply ends_try (hstatus _) (fun _ => rfl) rfl rfl
  intro found _
  refine ends_ite (fun _ => ends_return hs (open_new hh) (by decide)) fun _ => ?_
  exact ends_return hs (open_new hh) (by decide)

lemma handleRNTO_conduct (filename : Str) :
    Ends (Conduct.calls u fs) (s.handleRNTO filename) (fun _ => Done h) (Broken h) {} := by
  rw [handleRNTO]
  apply ends_ite (fun _ => ends_return hs (open_new hh) (by decide))
  intro _
  apply ends_map
  apply ends_ask nameSpace_hushed
  intro _ _
  apply ends_ite (fun _ => ends_answer hs (open_new hh) (by decide))
  intro _
  apply ends_ite (fun _ => ends_answer hs (open_new hh) (by decide))
  intro _
  apply ends_try (hstatus _) (fun _ => rfl) rfl rfl
  intro found _
  apply ends_ite (fun _ => ends_answer hs (open_new hh) (by decide))
  intro _
  apply ends_call
  intro renamed _
  have hopen : Open h (Conduct.next u {} (.rename s.rename_from_path_ (s.resolvePath ‹_› filename)) renamed) :=
    ⟨Bool.and_false _, hh, .inl rfl⟩
  cases renamed with
  | ok _ => exact ends_answer hs hopen (by decide)
  | error e => exact ends_answer hs hopen (by decide)

end

lemma handleMKD_conduct (hmake : ∀ p, u ⟨_, .createDirectory p⟩ = true) (dirname : Str) :
    Ends (Conduct.calls u fs) (s.handleMKD dirname) (fun _ => Done h) (Broken h) {} := by
  apply ends_ask nameSpace_hushed
  intro _ _
  apply ends_ite (fun _ => ends_answer hs (open_new hh) (by decide))
  intro _
  apply ends_ite (fun _ => ends_answer hs (open_new hh) (by decide))
  intro _
  apply ends_change (hmake _) (fun _ => rfl) rfl rfl
  intro made
  have hopen : Open h { changed := true } := ⟨rfl, hh, .inl rfl⟩
  refine ends_ite (fun _ => ends_answer hs hopen (by decide)) fun _ => ?_
  exact ends_answer hs hopen (by decide)

lemma siteChmod_conduct (mode_text target : Str) :
    Ends (Conduct.calls u fs) (s.siteChmod mode_text target) (fun _ => Done h) (Broken h) {} := by
  apply ends_ite (fun _ => ends_answer hs (open_new hh) (by decide))
  intro _
  apply ends_ask nameSpace_hushed
  intro _ _
  apply ends_ite (fun _ => ends_answer hs (open_new hh) (by decide))
  intro _
  apply ends_ite (fun _ => ends_answer hs (open_new hh) (by decide))
  intro _
  cases stoull mode_text 8 with
  | none => exact ends_answer hs (open_new hh) (by decide)
  | some mode =>
    apply ends_call
    intro failure _
    have hopen : Open h (Conduct.next u {} (.permissions (s.resolvePath ‹_› target) (mode % 4096)) failure) :=
      ⟨Bool.and_false _, hh, .inl rfl⟩
    cases failure with
    | none => exact ends_answer hs hopen (by decide)
    | some e => exact ends_answer hs hopen (by decide)

lemma handleSITE_conduct (argument : Str) :
    Ends (Conduct.calls u fs) (s.handleSITE argument) (fun _ => Done h) (Broken h) {} := by
  apply ends_ite
  · exact fun _ => ends_sendLines hh hs (by decide) ["CHMOD <mode> <path>", "UMASK"]
  · intro _
    apply ends_ite (fun _ => ends_answer hs (open_new hh) (by decide))
    intro _
    refine ends_ite (fun _ => siteChmod_conduct hh hs _ _) fun _ => ?_
    exact ends_answer hs (open_new hh) (by decide)

/-! Listings -/

section

variable (hquery : ∀ o, Kinds [.query] o → Hushed u o)
include hquery

lemma handleCDUP_conduct : Ends (Conduct.calls u fs) s.handleCDUP (fun _ => Done h) (Broken h) {} := by
  apply ends_ask nameSpace_hushed
  intro _ _
  apply ends_ite (fun _ => ends_return hs (open_new hh) (by decide))
  intro _
  apply ends_ask (hquery _ (List.mem_singleton_self _))
  intro found _
  refine ends_ite (fun _ => ends_return hs (open_new hh) (by decide)) fun _ => ?_
  exact ends_return hs (open_new hh) (by decide)

lemma handleMDTM_conduct (filename : Str) :
    Ends (Conduct.calls u fs) (s.handleMDTM filename) (fun _ => Done h) (Broken h) {} := by
  apply ends_ite (fun _ => ends_answer hs (open_new hh) (by decide))
  intro _
  apply ends_ask nameSpace_hushed
  intro _ _
  apply ends_ite (fun _ => ends_answer hs (open_new hh) (by decide))
  intro _
  apply ends_ask (hquery _ (List.mem_singleton_self _))
  intro found _
  apply ends_ite (fun _ => ends_answer hs (open_new hh) (by decide))
  intro _
  apply ends_ask (hquery _ (List.mem_singleton_self _))
  intro modify _
  cases modify with
  | none => exact ends_answer hs (open_new hh) (by decide)
  | some modify => exact ends_answer hs (open_new hh) (by decide)

omit hh hs in
lemma buildMachineFacts_hushed (path name : Str) :
    (s.buildMachineFacts path name).Within (Hushed u) fun _ => True :=
  (buildMachineFacts_within (List.mem_singleton_self _) path name).mono hquery fun _ => id

lemma handleMLST_conduct (path : Str) :
    Ends (Conduct.calls u fs) (s.handleMLST path) (fun _ => Done h) (Broken h) {} := by
  apply ends_ask nameSpace_hushed
  intro _ _
  apply ends_ite (fun _ => ends_answer hs (open_new hh) (by decide))
  intro _
  apply ends_ask (hquery _ (List.mem_singleton_self _))
  intro found _
  apply ends_ite (fun _ => ends_answer hs (open_new hh) (by decide))
  intro _
  apply ends_open hh hs
  intro g hg
  apply ends_hushed (buildMachineFacts_hushed hquery _ _) (buildMachineFacts_returns _ _ _)
  intro facts _
  apply ends_send hs
  exact ends_finish hs (hg.inner facts) (by decide)

omit hh in
lemma statEntries_conduct {E : Conduct → Prop} {code : ℕ} (dir : Str) (names : List Str) :
    ∀ g : Conduct, g.Amid h code →
    Ends (Conduct.calls u fs) (s.statEntries dir names) (fun _ => Amid h code) E g := by
  induction names with
  | nil => exact fun _ hg => ends_pure hg
  | cons name names ih =>
    intro g hg
    apply ends_hushed (buildMachineFacts_hushed hquery _ _) (buildMachineFacts_returns _ _ _)
    intro facts _
    apply ends_send hs
    exact ih _ (hg.inner facts)

lemma handleSTAT_conduct (argument : Str) :
    Ends (Conduct.calls u fs) (s.handleSTAT argument) (fun _ => Done h) (Broken h) {} := by
  rw [handleSTAT]
  apply ends_ite
  · exact fun _ => ends_sendLines hh hs (by decide) (_ :: _ :: _ :: _ :: [_])
  · intro _
    apply ends_ask nameSpace_hushed
    intro _ _
    apply ends_ite (fun _ => ends_answer hs (open_new hh) (by decide))
    intro _
    apply ends_ask (hquery _ (List.mem_singleton_self _))
    intro found _
    apply ends_ite (fun _ => ends_answer hs (open_new hh) (by decide))
    intro _
    apply ends_open hh hs
    intro g hg
    apply ends_ask (hquery _ (List.mem_singleton_self _))
    intro kind _
    have hlines {p : Io Unit} (hp : Ends (Conduct.calls u fs) p (fun _ => Amid h 213) (Broken h) g) :
        Ends (Conduct.calls u fs) (p >>= fun _ => s.reply 213 "End of status") (fun _ => Done h) (Broken h) g := by
      apply ends_bind
      exact hp.mono (fun _ _ hg' => ends_finish hs hg' (by decide)) fun _ => id
    apply hlines
    apply ends_ite
    · intro _
      apply ends_ask (hquery _ (List.mem_singleton_self _))
      rintro ⟨names, _⟩ _
      exact statEntries_conduct hs hquery _ names g hg
    · intro _
      apply ends_hushed (buildMachineFacts_hushed hquery _ _) (buildMachineFacts_returns _ _ _)
      intro facts _
      have hsend : Ends (Conduct.calls u fs) (s.sendResponse (.inner facts) >>= fun _ => pure ())
        (fun _ => Amid h 213)
          (Broken h) g := ends_send hs _ (ends_pure (hg.inner facts))
      rwa [bind_pure] at hsend

omit hquery hh in
lemma listed_conduct {g : Conduct} (hg : g.Open h) (data_fd : Fd) (listing : Str) (d : DataConnection) :
    Ends (Conduct.calls u fs) (do
        let _ ← perform (.send data_fd listing)
        perform (.close data_fd)
        s.reply 226 "Transfer complete"
        return d : Io DataConnection) (fun _ => Done h) (Broken h) g := by
  apply ends_ask (hushed_plain rfl rfl (fun _ => rfl) (by simp [Call.kind]))
  intro _ _
  apply ends_ask (hushed_plain rfl rfl (fun _ => rfl) (by simp [Call.kind]))
  exact fun _ _ => ends_return hs hg (by decide)

omit hquery hh in
lemma unlisted_conduct {g : Conduct} (hg : g.Open h) (data_fd : Fd) (d : DataConnection) :
    Ends (Conduct.calls u fs) (do
        perform (.close data_fd)
        s.reply 550 "Error listing directory"
        return d : Io DataConnection) (fun _ => Done h) (Broken h) g := by
  apply ends_ask (hushed_plain rfl rfl (fun _ => rfl) (by simp [Call.kind]))
  exact fun _ _ => ends_return hs hg (by decide)

lemma handleMLSD_conduct (path : Str) :
    Ends (Conduct.calls u fs) (s.handleMLSD path) (fun _ => Done h) (Broken h) {} := by
  apply ends_ask nameSpace_hushed
  intro _ _
  apply ends_ite (fun _ => ends_return hs (open_new hh) (by decide))
  intro _
  apply ends_ite (fun _ => ends_return hs (open_new hh) (by decide))
  intro _
  apply ends_ask (hquery _ (List.mem_singleton_self _))
  intro found _
  apply ends_ite (fun _ => ends_return hs (open_new hh) (by decide))
  intro _
  apply ends_reply hs
  intro text
  have hopen : Open h { replies := [.final 150 text] } := ⟨rfl, hh, .inr ⟨text, rfl⟩⟩
  apply ends_hushed (acceptDataConnection_hushed _) (DataConnection.acceptDataConnection_returns _)
  rintro ⟨_ | ⟨data_fd, peer⟩, d⟩ _
  · exact ends_return hs hopen (by decide)
  · apply ends_ask (hquery _ (List.mem_singleton_self _))
    rintro ⟨names, failure⟩ _
    have hentries (dir : Str) : (s.machineEntries dir names).Within (Hushed u) fun _ => True :=
      (machineEntries_within (List.mem_singleton_self _) dir names).mono hquery fun _ => id
    apply ends_hushed (hentries _) (machineEntries_returns _ _ _)
    intro listing _
    cases failure with
    | none => exact listed_conduct hs hopen data_fd listing d
    | some e => exact unlisted_conduct hs hopen data_fd d

end

lemma handleLIST_conduct (path : Str)
    (hquery : fs.status (s.listed fs path) = .ok .directory → ∀ o, Kinds [.query] o → Hushed u o)
    (htried : fs.status (s.listed fs path) ≠ .ok .directory →
      u ⟨_, .status (s.listed fs path)⟩ = true ∧ u ⟨_, .fileSize (s.listed fs path)⟩ = true) :
    Ends (Conduct.calls u fs) (s.handleLIST path) (fun _ => Done h) (Broken h) {} := by
  apply ends_ask nameSpace_hushed
  intro fs' hfs
  obtain rfl : fs = fs' := (hfs rfl).symm
  apply ends_ite (fun _ => ends_return hs (open_new hh) (by decide))
  intro _
  apply ends_ite (fun _ => ends_return hs (open_new hh) (by decide))
  intro _
  have hopen (text : Str) : Open h { replies := [.final 150 text] } := ⟨rfl, hh, .inr ⟨text, rfl⟩⟩
  by_cases hdir : fs.status (s.listed fs path) = .ok .directory
  · have hask := hquery hdir
    have hsame {f : FileType → Io DataConnection} {g : Conduct} (hg : g.changed = false)
        (hf : Ends (Conduct.calls u fs) (f .directory) (fun _ => Done h) (Broken h) g) :
        Ends (Conduct.calls u fs) (perform (.status (s.listed fs path)) >>= fun r => orThrow r >>= f)
          (fun _ => Done h)
          (Broken h) g := by
      apply ends_ask (hask _ (List.mem_singleton_self _))
      intro found hfound
      obtain rfl : found = .ok .directory := (hfound hg).trans hdir
      exact hf
    apply hsame rfl
    apply ends_ite (fun _ => ends_return hs (open_new hh) (by decide))
    intro _
    apply ends_reply hs
    intro text
    apply ends_hushed (acceptDataConnection_hushed _) (DataConnection.acceptDataConnection_returns _)
    rintro ⟨_ | ⟨data_fd, peer⟩, d⟩ _
    · exact ends_return hs (hopen text) (by decide)
    · apply hsame rfl
      have hlist : (listDirectory (s.listed fs path)).Within (Hushed u) fun _ => True :=
        (listDirectory_within (List.mem_singleton_self _) _).mono hask fun _ => id
      apply ends_hushed hlist (listDirectory_returns _)
      intro listing _
      cases listing with
      | none => exact unlisted_conduct hs (hopen text) data_fd d
      | some listing => exact listed_conduct hs (hopen text) data_fd listing d
  · obtain ⟨hstatus, hsize⟩ := htried hdir
    apply ends_try hstatus (fun _ => rfl) rfl rfl
    intro found _
    apply ends_ite (fun _ => ends_return hs (open_new hh) (by decide))
    intro _
    apply ends_reply hs
    intro text
    apply ends_hushed (acceptDataConnection_hushed _) (DataConnection.acceptDataConnection_returns _)
    rintro ⟨_ | ⟨data_fd, peer⟩, d⟩ _
    · exact ends_return hs (hopen text) (by decide)
    · apply ends_try hstatus (fun _ => rfl) rfl rfl
      intro kind hkind
      have hne : kind ≠ .directory := by
        rintro rfl
        exact hdir (hkind rfl).symm
      rw [if_neg hne]
      apply ends_bind
      apply ends_try hsize (fun _ => rfl) rfl rfl
      exact fun _ _ => ends_pure (listed_conduct hs (hopen text) data_fd _ d)

/-! Logging in -/

omit hh hs in
lemma applyChroot_conduct (hstatus : ∀ p, u ⟨_, .status p⟩ = true) {g : Conduct} (hg : g.Open h) (dir : Str) :
    Ends (Conduct.calls u fs) (applyChroot env dir) (fun _ => Open h) (Broken h) g := by
  refine ends_ite (fun _ => ?_) fun _ => ends_pure hg
  apply ends_try (hstatus _) (fun _ => rfl) rfl rfl
  intro found _
  refine ends_ite (fun _ => ends_pure hg) fun _ => ?_
  apply ends_call
  intro confined _
  have hcalm : h (g.received ++ []) = false := (congrArg h (List.append_nil _)).trans hg.calm
  exact ends_pure (hg.next (o := .chroot env.config_.security.chroot_directory) rfl (fun _ => rfl) hcalm confined)

lemma logIn_conduct (hstatus : ∀ p, u ⟨_, .status p⟩ = true) (user : FTPUser) :
    Ends (Conduct.calls u fs) (s.logIn env user) (fun _ => Done h) (Broken h) {} := by
  have hdirectory : Ends (Conduct.calls u fs) (loginDirectory env user) (fun _ => Open h) (Broken h) {} := by
    rw [loginDirectory_eq]
    exact applyChroot_conduct hstatus (open_new hh) _
  apply ends_bind
  apply hdirectory.mono ?_ fun _ => id
  intro directory g hg
  have hregister : (s.register env).Within (Kinds [.register]) fun _ => True := by
    simp [register, Call.kind]
  apply ends_hushed (hregister.mono (fun _ => hushed_of_kinds (by simp)) fun _ => id) (register_returns _ _)
  exact fun _ _ => ends_return hs hg (by decide)

lemma finishLogin_conduct (hstatus : ∀ p, u ⟨_, .status p⟩ = true) (ok : Bool) :
    Ends (Conduct.calls u fs) (s.finishLogin env ok) (fun _ => Done h) (Broken h) {} := by
  unfold finishLogin
  split
  · have hlimit : (s.sessionLimit env).Within (Hushed u) fun _ => True :=
      (sessionLimit_within (List.mem_singleton_self Kind.census)).mono (fun _ => hushed_of_kinds (by simp))
        fun _ => id
    apply ends_hushed hlimit (sessionLimit_returns _ _)
    intro refusal _
    cases refusal with
    | some refusal => exact ends_return hs (open_new hh) (by decide)
    | none => exact logIn_conduct hh hs hstatus _
  · exact ends_return hs (open_new hh) (by decide)

lemma handlePASS_conduct (hstatus : ∀ p, u ⟨_, .status p⟩ = true) (password : Str) :
    Ends (Conduct.calls u fs) (s.handlePASS env password) (fun _ => Done h) (Broken h) {} := by
  rw [handlePASS]
  apply ends_ite
  · exact fun _ => ends_return hs (open_new hh) (by decide)
  · intro _
    have hcheck : (s.checkPassword env password).Within (Hushed u) fun r => r.2 = true → r.1.isSome :=
      (checkPassword_within (List.Subset.refl [Kind.clock, .account]) password).mono
        (fun _ => hushed_of_kinds (by simp)) fun _ => id
    apply ends_hushed hcheck (checkPassword_returns _ _ _)
    rintro ⟨user, ok⟩ _
    exact finishLogin_conduct hh (s := { s with current_user_ := user }) hs hstatus ok

lemma handleHOST_conduct (hostname : Str) :
    Ends (Conduct.calls u fs) (s.handleHOST env hostname) (fun _ => Done h) (Broken h) {} := by
  rw [handleHOST]
  apply ends_ite
  · exact fun _ => ends_return hs (open_new hh) (by decide)
  · intro _
    split
    · exact ends_return hs (open_new hh) (by decide)
    · split
      · exact ends_return hs (open_new hh) (by decide)
      · apply ends_ite
        · exact fun _ => ends_return hs (open_new hh) (by decide)
        · rename_i host _
          have hs' : { s with current_virtual_host_ := some host }.socket_ ≠ none := hs
          exact fun _ => ends_return hs' (open_new hh) (by decide)

/-! Transfers -/

lemma handleMODE_conduct (mode : Str) :
    Ends (Conduct.calls u fs) (s.handleMODE env mode) (fun _ => Done h) (Broken h) {} := by
  apply ends_ite
  · exact fun _ => ends_return hs (open_new hh) (by decide)
  · intro _
    apply ends_ite ?_ fun _ => ends_return hs (open_new hh) (by decide)
    intro _
    refine ends_ite (fun _ => ends_return hs (open_new hh) (by decide)) fun _ => ?_
    exact ends_return hs (open_new hh) (by decide)

lemma handleTYPE_conduct (type : Str) :
    Ends (Conduct.calls u fs) (s.handleTYPE type) (fun _ => Done h) (Broken h) {} := by
  rw [handleTYPE]
  refine ends_ite (fun _ => ends_return hs (open_new hh) (by decide)) fun _ => ?_
  exact ends_return hs (open_new hh) (by decide)

lemma handleREST_conduct (position : Str) :
    Ends (Conduct.calls u fs) (s.handleREST position) (fun _ => Done h) (Broken h) {} := by
  rw [handleREST]
  apply ends_ite
  · exact fun _ => ends_return hs (open_new hh) (by decide)
  · intro _
    split
    · exact ends_return hs (open_new hh) (by decide)
    · exact ends_return hs (open_new hh) (by decide)

lemma modeZRefusal_conduct : Ends (Conduct.calls u fs) (s.modeZRefusal env)
    (fun r g => match r with
      | some _ => Done h g
      | none => g = {}) (Broken h) {} := by
  have hrefuse {code : ℕ} {text : Str} (hcode : 200 ≤ code) (s' : Session) :
      Ends (Conduct.calls u fs) (s.reply code text >>= fun _ => pure (some s')) (fun r g => match r with
        | some _ => Done h g
        | none => g = {}) (Broken h) {} := by
    apply ends_reply hs
    exact fun text' => ends_pure ((open_new hh).answered hcode text')
  apply ends_ite
  · exact fun _ => ends_pure rfl
  · intro _
    apply ends_ite
    · exact fun _ => hrefuse (by decide) _
    · intro _
      apply ends_ite
      · exact fun _ => hrefuse (by decide) _
      · exact fun _ => ends_pure rfl

omit hh hs in
lemma retrieveTo_code (env : Service) (s : Session) (data_fd : Fd) (path : Str) :
    (s.retrieveTo env data_fd path).Within (fun _ => True) fun r => 200 ≤ r.1 := by
  have hclose (fds : List Fd) {code : ℕ} (hcode : 200 ≤ code) (text : Str) (used : Bool) :
      (fds.foldr (fun fd p => perform (.close fd) >>= fun _ => p) (return (code, text, used)) :
        Io (ℕ × Str × Bool)).Within
        (fun _ => True) fun r => 200 ≤ r.1 := by
    induction fds with
    | nil => exact (within_pure _).2 hcode
    | cons fd fds ih => exact (within_any _).bind fun _ => ih
  have hopened (file_fd : Fd) (start size : ℕ) :
      (s.sendOpened env data_fd file_fd start size).Within (fun _ => True) fun r => 200 ≤ r.1 := by
    rw [sendOpened]
    refine within_ite.2 ⟨fun _ => ?_, fun _ => ?_⟩
    · apply (within_any _).bind
      intro sought
      refine within_ite.2 ⟨fun _ => (within_pure _).2 (by decide), fun _ => ?_⟩
      apply (within_any _).bind
      intro valid
      refine within_ite.2 ⟨fun _ => (within_pure _).2 (by decide), fun _ => ?_⟩
      exact (within_any _).bind fun _ => (within_pure _).2 (by decide)
    · apply (within_any _).bind
      intro sent
      cases sent with
      | false => exact (within_pure _).2 (by decide)
      | true => exact (within_pure _).2 (by decide)
  apply (within_any _).bind
  intro start
  apply (within_any _).bind
  intro opened
  cases opened with
  | none => exact hclose [data_fd] (by decide) _ _
  | some file_fd =>
    apply (within_any _).bind
    intro st
    obtain _ | ⟨_ | _, size⟩ := st
    · exact hclose [file_fd, data_fd] (by decide) _ _
    · exact hclose [file_fd, data_fd] (by decide) _ _
    · refine within_ite.2 ⟨fun _ => hclose [file_fd, data_fd] (by decide) _ _, fun _ => ?_⟩
      apply within_bind.2 ((hopened file_fd start size).mono (fun _ => id) ?_)
      exact fun r hr => hclose [file_fd, data_fd] hr _ _

omit hh hs in
lemma ends_unheard {α β : Type} {ks : List Kind} (hks : ∀ k ∈ [Kind.reply, .query, .change, .memory], k ∉ ks)
    (hcalm : ∀ l, h l = false)
    {p : Io β} {f : β → Io α} {P' : β → Prop} {P : α → Conduct → Prop} {E : Conduct → Prop} {g : Conduct}
    (hp : p.Within (Kinds ks) P') (hr : p.Returns) (hg : g.Open h)
    (hf : ∀ b g', Open h g' → Ends (Conduct.calls u fs) (f b) P E g') :
    Ends (Conduct.calls u fs) (p >>= f) P E g :=
  ends_loud hks hcalm hp (fun _ => id) hr hg fun b g' _ hg' => hf b g' hg'

section

variable (hmemory : ∀ n, u ⟨_, .allocate n⟩ = true) (hcalm : ∀ l, h l = false)
include hmemory hcalm

omit hh hs in
lemma sendFile_conduct (t : Retrieval) (use_sendfile use_mmap : Bool) (size : ℕ) (offset : Int) {g : Conduct}
    (hg : g.Open h) :
    Ends (Conduct.calls u fs) (t.sendFile use_sendfile use_mmap size offset) (fun _ g' => Open h g')
      (Broken h) g := by
  have hkinds : [Kind.clock, .transfer] ⊆ [Kind.clock, .transfer] := List.Subset.refl _
  have hread (offset : Int) (total left : ℕ) {g : Conduct} (hg : g.Open h) : Ends (Conduct.calls u fs) (do
      let sought : Bool ← perform (.lseek t.file_fd offset)
      if !sought then return false
      else do
        t.makeBuffer
        let _ ← t.readLoop left ⟨total, left⟩
        return true : Io Bool) (fun _ g' => Open h g') (Broken h) g := by
    have hseek : (perform (Call.lseek t.file_fd offset)).Within (Kinds [.transfer]) fun _ => True :=
      (within_perform _).2 ⟨by simp [Call.kind], fun _ => trivial⟩
    apply ends_unheard (by simp) hcalm hseek (fun _ => trivial) hg
    intro sought g₁ hg₁
    refine ends_ite (fun _ => ends_pure hg₁) fun _ => ?_
    apply ends_makeBuffer (hmemory _)
    apply ends_unheard (by simp) hcalm (t.readLoop_within hkinds _ _) (t.readLoop_returns _ _) hg₁
    exact fun _ g₂ hg₂ => ends_pure hg₂
  unfold Retrieval.sendFile
  dsimp only
  apply ends_unheard (by simp) hcalm (within_ite.2 ⟨fun _ => t.sendfileLoop_within hkinds _ _ _,
    fun _ => (within_pure _).2 trivial⟩)
    (returns_ite (t.sendfileLoop_returns _ _ _) trivial) hg
  rintro ⟨offset', p⟩ g₁ hg₁
  refine ends_ite (fun _ => ends_pure hg₁) fun _ => ?_
  apply ends_unheard (by simp) hcalm (within_ite.2 ⟨fun _ => t.mmapFile_within hkinds _ _ _,
    fun _ => (within_pure _).2 trivial⟩)
    (returns_ite (t.mmapFile_returns _ _ _) trivial) hg₁
  intro mapped g₂ hg₂
  cases mapped with
  | none => exact hread _ _ _ hg₂
  | some m => exact ends_ite (fun _ => ends_pure hg₂) fun _ => hread _ _ _ hg₂

omit hh hs in
lemma deflateFile_conduct (t : Retrieval) (zlib : Zlib) (p : Progress) {g : Conduct} (hg : g.Open h) :
    Ends (Conduct.calls u fs) (t.deflateFile zlib p) (fun _ g' => Open h g') (Broken h) g := by
  have hkinds : [Kind.clock, .transfer] ⊆ [Kind.clock, .transfer] := List.Subset.refl _
  apply ends_makeBuffer (hmemory _)
  apply ends_unheard (by simp) hcalm (t.deflateLoop_within hkinds zlib _ _ _) (t.deflateLoop_returns zlib _ _ _) hg
  rintro ⟨ok, made, q⟩ g₁ hg₁
  refine ends_ite (fun _ => ends_pure hg₁) fun _ => ?_
  cases zlib.deflate (made ++ [([], true)]) with
  | none => exact ends_pure hg₁
  | some compressed =>
    have hsend : (t.sendCompressed compressed).Within (Kinds [.clock, .transfer]) fun _ => True :=
      t.sendCompressed_within (by simp) compressed
    apply ends_unheard (by simp) hcalm hsend (t.sendCompressed_returns compressed) hg₁
    exact fun _ g₂ hg₂ => ends_pure hg₂

omit hh hs in
lemma sendOpened_conduct (data_fd file_fd : Fd) (start size : ℕ) {g : Conduct} (hg : g.Open h) :
    Ends (Conduct.calls u fs) (s.sendOpened env data_fd file_fd start size) (fun _ g' => Open h g')
      (Broken h) g := by
  have hask {α β : Type} {o : Call β} (ho : o.kind = .transfer) {f : β → Io α} {P : α → Conduct → Prop} {g :
    Conduct} (hg : g.Open h)
      (hf : ∀ b g', Open h g' → Ends (Conduct.calls u fs) (f b) P (Broken h) g') :
      Ends (Conduct.calls u fs) (perform o >>= f) P (Broken h) g := by
    have hasked : (perform o).Within (Kinds [.transfer]) fun _ => True :=
      (within_perform o).2 ⟨by simp [ho], fun _ => trivial⟩
    exact ends_unheard (by simp) hcalm hasked (fun _ => trivial) hg hf
  unfold sendOpened
  dsimp only
  refine ends_ite (fun _ => ?_) fun _ => ?_
  · apply hask rfl hg
    intro sought g₁ hg₁
    refine ends_ite (fun _ => ends_pure hg₁) fun _ => ?_
    apply hask rfl hg₁
    intro valid g₂ hg₂
    refine ends_ite (fun _ => ends_pure hg₂) fun _ => ?_
    apply ends_bind
    exact (deflateFile_conduct hcalm hmemory _ _ _ hg₂).mono (fun _ _ hg₃ => ends_pure hg₃) fun _ => id
  · apply ends_bind
    exact (sendFile_conduct hcalm hmemory _ _ _ _ _ hg).mono (fun _ _ hg₁ => ends_pure hg₁) fun _ => id

omit hh hs in
lemma retrieveTo_conduct (data_fd : Fd) (path : Str) {g : Conduct} (hg : g.Open h) :
    Ends (Conduct.calls u fs) (s.retrieveTo env data_fd path) (fun r g' => 200 ≤ r.1 ∧ Open h g')
      (Broken h) g := by
  have hask {α β : Type} {o : Call β} (ho : o.kind ∈ [Kind.clock, .openRead, .close, .transfer]) {f : β → Io α}
      {P : α → Conduct → Prop} {g : Conduct} (hg : g.Open h)
      (hf : ∀ b g', Open h g' → Ends (Conduct.calls u fs) (f b) P (Broken h) g') :
      Ends (Conduct.calls u fs) (perform o >>= f) P (Broken h) g :=
    ends_unheard (by simp) hcalm ((within_perform o).2 ⟨ho, fun _ => trivial⟩) (fun _ => trivial) hg hf
  have hclose (fds : List Fd) (r : ℕ × Str × Bool) {g : Conduct} (hg : g.Open h) :
      Ends (Conduct.calls u fs) (fds.foldr (fun fd p => perform (.close fd) >>= fun _ => p) (return r) :
        Io (ℕ × Str × Bool))
        (fun _ g' => Open h g') (Broken h) g := by
    induction fds generalizing g with
    | nil => exact ends_pure hg
    | cons fd fds ih => exact hask (by simp [Call.kind]) hg fun _ g' hg' => ih hg'
  have hopen : Ends (Conduct.calls u fs) (s.retrieveTo env data_fd path) (fun _ g' => Open h g') (Broken h) g := by
    apply hask (by simp [Call.kind]) hg
    intro start g₁ hg₁
    apply hask (by simp [Call.kind]) hg₁
    intro opened g₂ hg₂
    cases opened with
    | none => exact hclose [data_fd] _ hg₂
    | some file_fd =>
      apply hask (by simp [Call.kind]) hg₂
      intro st g₃ hg₃
      obtain _ | ⟨_ | _, size⟩ := st
      · exact hclose [file_fd, data_fd] _ hg₃
      · exact hclose [file_fd, data_fd] _ hg₃
      · refine ends_ite (fun _ => hclose [file_fd, data_fd] _ hg₃) fun _ => ?_
        apply ends_bind
        apply (sendOpened_conduct hcalm hmemory data_fd file_fd start size hg₃).mono ?_ fun _ => id
        rintro ⟨code, text⟩ g₄ hg₄
        exact hclose [file_fd, data_fd] _ hg₄
  have hcode := Within.ends (C := Conduct.calls u fs) (J := fun _ => True) (g :=
    g) (retrieveTo_code env s data_fd path)
    (fun _ _ _ _ => ⟨trivial, fun _ _ => trivial⟩) trivial
  exact (hcode.and hopen).mono (fun _ _ hr => ⟨hr.1.1, hr.2⟩) fun _ => And.right

end

lemma handleRETR_conduct (hstatus : ∀ p, u ⟨_, .status p⟩ = true) (hmemory : ∀ n, u ⟨_, .allocate n⟩ = true)
    (hcalm : ∀ l, h l = false) (filename : Str) :
    Ends (Conduct.calls u fs) (s.handleRETR env filename) (fun _ => Done h) (Broken h) {} := by
  apply ends_ask nameSpace_hushed
  intro fs' _
  apply ends_ite (fun _ => ends_return hs (open_new hh) (by decide))
  intro _
  apply ends_ite (fun _ => ends_return hs (open_new hh) (by decide))
  intro _
  apply ends_try (hstatus _) (fun _ => rfl) rfl rfl
  intro found _
  apply ends_ite (fun _ => ends_return hs (open_new hh) (by decide))
  intro _
  apply ends_bind
  apply (modeZRefusal_conduct hh hs).mono ?_ fun _ => id
  rintro (_ | s') g hg
  · subst hg
    apply ends_reply hs
    intro text
    have hopen : Open h { replies := [.final 150 text] } := ⟨rfl, hh, .inr ⟨text, rfl⟩⟩
    apply ends_hushed (acceptDataConnection_hushed _) (DataConnection.acceptDataConnection_returns _)
    rintro ⟨_ | ⟨data_fd, peer⟩, d⟩ _
    · exact ends_return (s := { s with data := d }) hs hopen (by decide)
    · apply ends_bind
      apply (retrieveTo_conduct (s := { s with data := d }) hcalm hmemory data_fd
        (s.resolvePath fs' filename) hopen).mono ?_ fun _ => id
      rintro ⟨code, text, used⟩ g ⟨hcode, hg⟩
      exact ends_return (s := { s with data := d }) hs hg hcode
  · exact ends_pure hg

omit hh hs in
lemma openTarget_conduct (hstatus : 0 < s.resume_position_ → ∀ p, u ⟨_, .status p⟩ = true) {g : Conduct}
    (hg : g.Open h)
    (path : Str) : Ends (Conduct.calls u fs) (s.openTarget path) (fun _ g' => Open h g' ∧ g'.received = g.received)
      (Broken h) g := by
  have hcalm {g : Conduct} (hg : g.Open h) : h (g.received ++ []) = false :=
    (congrArg h (List.append_nil _)).trans hg.calm
  have hopening {g : Conduct} (hg : g.Open h) (mode : FileSystem.OpenMode) (r : Option Fd) :
      Open h (g.next u (.openWrite path mode) r) ∧ (g.next u (.openWrite path mode) r).received = g.received :=
    ⟨hg.next (o := .openWrite path mode) rfl (fun _ => rfl) (hcalm hg) r, List.append_nil _⟩
  have hresume : Ends (Conduct.calls u fs) (if 0 < s.resume_position_ then do
        let found ← orThrow (← perform (.status path))
        if found ≠ .notFound then perform (.openWrite path .update) else return none
      else return none : Io (Option Fd)) (fun _ g' => Open h g' ∧ g'.received = g.received) (Broken h) g := by
    apply ends_ite
    · intro hpos
      apply ends_try (hstatus hpos _) (fun _ => rfl) rfl rfl
      intro found _
      apply ends_ite
      · exact fun _ => ends_perform trivial fun r _ => hopening hg _ r
      · exact fun _ => ends_pure ⟨hg, rfl⟩
    · exact fun _ => ends_pure ⟨hg, rfl⟩
  apply ends_bind
  apply hresume.mono ?_ fun _ => id
  rintro resumed g' ⟨hg', hreceived⟩
  cases resumed with
  | some fd => exact ends_pure ⟨hg', hreceived⟩
  | none =>
    apply ends_call
    intro opened _
    obtain ⟨hnext, hsame⟩ := hopening hg' .truncate opened
    exact ends_pure ⟨hnext, hsame.trans hreceived⟩

section

variable {zlib : Zlib} (hhangs : ∀ l, h l = (decide (l ≠ []) && decide (zlib.inflate l = .hangs)))
include hhangs

omit hh hs in
lemma inflate_conduct {α : Type} {P : α → Conduct → Prop} {g : Conduct} (hg : g.Open h) (input : Str × Bool)
    {f : Option Str → Io α} (hf : ∀ r g', Open h g' → g'.received = g.received ++ [input] →
      Ends (Conduct.calls u fs) (f r) P (Broken h) g') :
    Ends (Conduct.calls u fs) (inflate zlib (g.received ++ [input]) >>= f) P (Broken h)
      { g with received := g.received ++ [input] } := by
  have hopen (hz : zlib.inflate (g.received ++ [input]) ≠ .hangs) :
      Open h { g with received := g.received ++ [input] } :=
    ⟨hg.failed, by rw [hhangs, decide_eq_false hz, Bool.and_false], hg.replies⟩
  unfold inflate
  cases hz : zlib.inflate (g.received ++ [input]) with
  | ok plain => exact hf _ _ (hopen (by simp [hz])) rfl
  | failed => exact hf _ _ (hopen (by simp [hz])) rfl
  | hangs => exact ends_throw (.inr (by simp [hhangs, hz]))

omit hh hs in
lemma inflateLoop_conduct (rate : Int) (start : ℕ) (data_fd : Fd) (peer : Peer) (chunks : List Str) :
    (∀ chunk ∈ chunks, chunk ≠ []) → ∀ (made : List (Str × Bool)) (n : ℕ) (f : OutFile) (g : Conduct), g.Open h →
      g.received = made → Ends (Conduct.calls u fs) (inflateLoop zlib rate start data_fd peer chunks made n f)
        (fun _ => Open h) (Broken h) g := by
  have hwrite (plain : Str) (f : OutFile) :
      (if plain = [] then return f else f.write plain : Io OutFile).Within (Kinds [.write]) fun _ => True :=
    within_ite.2 ⟨fun _ => (within_pure _).2 trivial, fun _ => outWrite_within (List.mem_singleton_self _) _ _⟩
  have hrecv (g : Conduct) (data : Str) : g.next u (.recv data_fd (some data)) () =
      { g with received := g.received ++ [(data, decide (data = []))] } := by
    simp [next, Call.reply?, Call.received?, Call.failed, Call.kind]
  induction chunks with
  | nil =>
    rintro _ _ n f g hg rfl
    apply ends_call
    intro _ _
    cases peer.orderly with
    | false =>
      have hsame : g.next u (.recv data_fd none) () = g := next_eq rfl rfl (Bool.and_false _) (by simp [Call.kind])
      change Ends (Conduct.calls u fs) (return false) (fun _ => Open h) (Broken h)
        (g.next u (.recv data_fd none) ())
      rw [hsame]
      exact ends_pure hg
    | true =>
      change Ends (Conduct.calls u fs) _ (fun _ => Open h) (Broken h) (g.next u (.recv data_fd (some [])) ())
      rw [hrecv]
      apply inflate_conduct hhangs hg
      intro plain g' hg' _
      cases plain with
      | none => exact ends_pure hg'
      | some plain =>
        apply ends_steady (by simp) (hwrite plain f) (writeAny_returns f plain) hg'
        exact fun _ _ hg'' _ => ends_pure hg''
  | cons chunk chunks ih =>
    rintro hchunks _ n f g hg rfl
    apply ends_call
    intro _ _
    rw [hrecv, decide_eq_false (hchunks chunk List.mem_cons_self)]
    apply inflate_conduct hhangs hg
    intro plain g' hg' hreceived
    cases plain with
    | none => exact ends_pure hg'
    | some plain =>
      apply ends_steady (by simp) (hwrite plain f) (writeAny_returns f plain) hg'
      intro f' g₁ hg₁ hreceived₁
      apply ends_steady (by simp) (applyThrottle_within (List.mem_singleton_self Kind.clock) _ _ _)
        (applyThrottle_returns _ _ _) hg₁
      intro _ g₂ hg₂ hreceived₂
      exact ih (fun c hc => hchunks c (List.mem_cons_of_mem _ hc)) _ _ f' g₂ hg₂
        (hreceived₂.trans (hreceived₁.trans hreceived))

end

section

variable (hplain : s.transferModeZ = false → ∀ l, h l = false)
  (hhangs : s.transferModeZ = true → ∀ l, h l = (decide (l ≠ []) && decide (env.zlib.inflate l = .hangs)))
include hplain hhangs

omit hh hs in
lemma receiveTo_conduct {g : Conduct} (hg : g.Open h) (hreceived : g.received = []) (data_fd : Fd)
    (peer : Peer) (f : OutFile) :
    Ends (Conduct.calls u fs) (s.receiveTo env data_fd peer f) (fun r g' => Open h g' ∧ 200 ≤ r.1)
      (Broken h) g := by
  have hclose : Hushed u ⟨_, .close f.fd⟩ := hushed_plain rfl rfl (fun _ => rfl) (by simp [Call.kind])
  have hclose' : Hushed u ⟨_, .close data_fd⟩ := hushed_plain rfl rfl (fun _ => rfl) (by simp [Call.kind])
  have hreturn {g : Conduct} (hg : g.Open h) {r : ℕ × Str × Bool} (hr : 200 ≤ r.1) : Ends (Conduct.calls u fs) (do
        perform (.close f.fd)
        perform (.close data_fd)
        return r : Io (ℕ × Str × Bool)) (fun r g' => Open h g' ∧ 200 ≤ r.1) (Broken h) g := by
    apply ends_ask hclose
    intro _ _
    apply ends_ask hclose'
    exact fun _ _ => ends_pure ⟨hg, hr⟩
  apply ends_ask (hushed_plain rfl rfl (fun _ => rfl) (by simp [Call.kind]))
  intro start _
  apply ends_ite
  · intro hz
    apply ends_ask (hushed_plain rfl rfl (fun _ => rfl) (by simp [Call.kind]))
    intro valid _
    apply ends_ite
    · exact fun _ => hreturn hg (by decide)
    · intro _
      apply ends_bind
      apply (inflateLoop_conduct (hhangs hz) _ _ _ _ _ peer.nonempty [] 0 f g hg hreceived).mono ?_ fun _ => id
      intro ok g' hg'
      cases ok with
      | false => exact hreturn hg' (by decide)
      | true => exact hreturn hg' (by decide)
  · intro hz
    have hloop :=
      receiveLoop_within (List.Subset.refl [Kind.clock, .transfer, .write])
      env.config_.rate_limit.max_transfer_rate
      start data_fd peer peer.chunks 0 f
    apply ends_loud (by simp) (hplain (by simpa using hz)) hloop (fun _ => id)
      (receiveLoop_returns _ _ _ _ _ _ _) hg
    exact fun _ g' _ hg' => hreturn hg' (by decide)

variable (hmake : ∀ p, u ⟨_, .createDirectories p⟩ = true)
    (hstatus : 0 < s.resume_position_ → ∀ p, u ⟨_, .status p⟩ = true)
include hmake hstatus

omit hh hs in
lemma storeFrom_conduct {g : Conduct} (hg : g.Open h) (hreceived : g.received = []) (data_fd : Fd)
    (peer : Peer) (path : Str) :
    Ends (Conduct.calls u fs) (s.storeFrom env data_fd peer path) (fun r g' => Open h g' ∧ 200 ≤ r.1)
      (Broken h) g := by
  have hparents : Ends (Conduct.calls u fs) (if Path.hasParentPath path then do
        let _ ← orThrow (← perform (.createDirectories (Path.parentPath path)))
        return ()
      else return () : Io Unit) (fun _ g' => Open h g' ∧ g'.received = []) (Broken h) g := by
    apply ends_ite
    · intro _
      apply ends_change (hmake _) (fun _ => rfl) rfl rfl
      exact fun _ => ends_pure ⟨⟨hg.failed, hg.calm, hg.replies⟩, hreceived⟩
    · exact fun _ => ends_pure ⟨hg, hreceived⟩
  apply ends_bind
  apply hparents.mono ?_ fun _ => id
  rintro _ g₁ ⟨hg₁, hreceived₁⟩
  apply ends_bind
  apply (openTarget_conduct hstatus hg₁ path).mono ?_ fun _ => id
  rintro target g₂ ⟨hg₂, hreceived₂⟩
  cases target with
  | none =>
    apply ends_ask (hushed_plain rfl rfl (fun _ => rfl) (by simp [Call.kind]))
    exact fun _ _ => ends_pure ⟨hg₂, by decide⟩
  | some f => exact receiveTo_conduct hplain hhangs hg₂ (hreceived₂.trans hreceived₁) data_fd peer f

lemma handleSTOR_conduct (filename : Str) :
    Ends (Conduct.calls u fs) (s.handleSTOR env filename) (fun _ => Done h) (Broken h) {} := by
  apply ends_ask nameSpace_hushed
  intro fs' _
  apply ends_ite (fun _ => ends_return hs (open_new hh) (by decide))
  intro _
  apply ends_ite (fun _ => ends_return hs (open_new hh) (by decide))
  intro _
  have hquota : s.quotaExceeded.Within (Hushed u) fun _ => True := by
    rw [quotaExceeded]
    cases s.current_user_ with
    | none => exact (within_pure _).2 trivial
    | some user =>
      refine within_ite.2 ⟨fun _ => ?_, fun _ => (within_pure _).2 trivial⟩
      exact within_bind.2 ((within_perform _).2
        ⟨hushed_plain rfl rfl (fun _ => rfl) (by simp [Call.kind]), fun _ => (within_pure _).2 trivial⟩)
  apply ends_hushed hquota (quotaExceeded_returns _)
  intro exceeded _
  apply ends_ite (fun _ => ends_return hs (open_new hh) (by decide))
  intro _
  apply ends_bind
  apply (modeZRefusal_conduct hh hs).mono ?_ fun _ => id
  rintro (_ | s') g hg
  · subst hg
    apply ends_reply hs
    intro text
    have hopen : Open h { replies := [.final 150 text] } := ⟨rfl, hh, .inr ⟨text, rfl⟩⟩
    apply ends_hushed (acceptDataConnection_hushed _) (DataConnection.acceptDataConnection_returns _)
    rintro ⟨_ | ⟨data_fd, peer⟩, d⟩ _
    · exact ends_return (s := { s with data := d }) hs hopen (by decide)
    · apply ends_bind
      apply (storeFrom_conduct (s := { s with data := d }) hplain hhangs hmake hstatus hopen rfl data_fd peer
        (s.resolvePath fs' filename)).mono ?_ fun _ => id
      rintro ⟨code, text, used⟩ g ⟨hg, hcode⟩
      exact ends_return (s := { s with data := d }) hs hg hcode
  · exact ends_pure hg

end

lemma handleSTOU_conduct (hplain : s.transferModeZ = false → ∀ l, h l = false)
    (hhangs : s.transferModeZ = true → ∀ l, h l = (decide (l ≠ []) && decide (env.zlib.inflate l = .hangs)))
    (hmake : ∀ p, u ⟨_, .createDirectories p⟩ = true) (hquery : ∀ o, Kinds [.query] o → Hushed u o)
    (filename : Str) :
    Ends (Conduct.calls u fs) (s.handleSTOU env filename) (fun _ => Done h) (Broken h) {} := by
  have hname (base : Str) : (uniqueName s.current_directory_ base 0 10000).Within (Hushed u) fun _ => True :=
    (uniqueName_within (List.mem_singleton_self _) _ _ _ _).mono hquery fun _ => id
  apply ends_hushed (hname _) (uniqueName_returns _ _ _ _)
  intro unique _
  cases unique with
  | none => exact ends_return hs (open_new hh) (by decide)
  | some unique =>
    apply ends_map
    apply handleSTOR_conduct (s := { s with store_unique_name_ := unique, resume_position_ := 0 }) hh hs
      hplain hhangs hmake
    exact fun hpos => absurd hpos (lt_irrefl 0)

lemma handleAPPE_conduct (hstatus : ∀ p, u ⟨_, .status p⟩ = true) (hcalm : ∀ l, h l = false) (filename : Str) :
    Ends (Conduct.calls u fs) (s.handleAPPE filename) (fun _ => Done h) (Broken h) {} := by
  apply ends_ask nameSpace_hushed
  intro fs' _
  apply ends_ite (fun _ => ends_return hs (open_new hh) (by decide))
  intro _
  apply ends_ite (fun _ => ends_return hs (open_new hh) (by decide))
  intro _
  apply ends_ite (fun _ => ends_return hs (open_new hh) (by decide))
  intro _
  apply ends_reply hs
  intro text
  have hopen : Open h { replies := [.final 150 text] } := ⟨rfl, hh, .inr ⟨text, rfl⟩⟩
  apply ends_hushed (acceptDataConnection_hushed _) (DataConnection.acceptDataConnection_returns _)
  rintro ⟨_ | ⟨data_fd, peer⟩, d⟩ _
  · exact ends_return (s := { s with data := d }) hs hopen (by decide)
  · apply ends_try (hstatus _) (fun _ => rfl) rfl rfl
    intro found _
    apply ends_call
    intro opened _
    have hnext (mode : FileSystem.OpenMode) :
        Open h (Conduct.next u { replies := [.final 150 text] }
          (.openWrite (s.resolvePath fs' filename) mode) opened) :=
      hopen.next (o := .openWrite (s.resolvePath fs' filename) mode) rfl (fun _ => rfl) (hcalm _) opened
    cases opened with
    | none =>
      apply ends_ask (hushed_plain rfl rfl (fun _ => rfl) (by simp [Call.kind]))
      exact fun _ _ => ends_return (s := { s with data := d }) hs (hnext _) (by decide)
    | some fd =>
      have hloop := appendLoop_within (List.Subset.refl [Kind.transfer, .write]) data_fd fd peer peer.chunks true
      apply ends_loud (by simp) hcalm hloop (fun _ => id) (appendLoop_returns _ _ _ _ _) (hnext _)
      intro _ g _ hg
      apply ends_ask (hushed_plain rfl rfl (fun _ => rfl) (by simp [Call.kind]))
      intro _ _
      apply ends_ask (hushed_plain rfl rfl (fun _ => rfl) (by simp [Call.kind]))
      exact fun _ _ => ends_return (s := { s with data := d }) hs hg (by decide)

end

end Session

end SimpleSftpd
