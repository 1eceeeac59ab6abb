import SimpleSftpd.Core.Run
import SimpleSftpd.Core.Speech

namespace SimpleSftpd

open Cxx Interaction Prog

namespace Session

variable {lf : Prop} {env : Service} {s : Session} (hs : s.SingleLine lf)

def Goes (lf : Prop) (s s' : Session) : Prop := s'.SingleLine lf ∧ ∀ g, s.Matches g → s'.Matches g

include hs

lemma Goes.refl : Goes lf s s := ⟨hs, fun _ h => h⟩

lemma Goes.data (d : DataConnection) : Goes lf s { s with data := d } := ⟨hs.data d, fun _ h => h⟩

/-! Directories and listings -/

lemma handlePWD_speaks : Speaks lf s s.handlePWD fun _ => True :=
  speaks_answer hs (clean_append.2 ⟨clean_append.2 ⟨clean_const (by decide), hs.directory⟩,
    clean_const (by decide)⟩)

lemma handleCWD_speaks {a : Str} (ha : Clean lf a) : Speaks lf s (s.handleCWD a) (Clean lf) := by
  refine speaks_query (by simp [Call.kind]) fun fs hfs => ?_
  refine speaks_ite (fun _ => speaks_return hs (clean_const (by decide)) hs.directory) fun _ => ?_
  refine speaks_query (by simp [Call.kind]) fun found _ => ?_
  refine speaks_try found fun t => ?_
  refine speaks_ite (fun _ => ?_) fun _ => ?_
  · exact speaks_return hs (clean_const (by decide)) (hs.resolvePath hfs ha)
  · exact speaks_return hs (clean_const (by decide)) hs.directory

lemma handleCDUP_speaks : Speaks lf s s.handleCDUP (Clean lf) := by
  refine speaks_query (by simp [Call.kind]) fun fs hfs => ?_
  refine speaks_ite (fun _ => speaks_return hs (clean_const (by decide)) hs.directory) fun _ => ?_
  refine speaks_query (by simp [Call.kind]) fun found _ => speaks_ite (fun _ => ?_) fun _ => ?_
  · exact speaks_return hs (clean_const (by decide)) (hs.resolvePath hfs (clean_const (by decide)))
  · exact speaks_return hs (clean_const (by decide)) hs.directory

omit hs in
lemma accept_speaks (d : DataConnection) {α : Type} {P : α → Prop} {f : Option (Fd × Peer) × DataConnection → Io α}
    (hf : ∀ r, Speaks lf s (f r) P) : Speaks lf s (d.acceptDataConnection >>= f) P := by
  refine speaks_within (d.acceptDataConnection_within (P := fun _ => True) (List.Subset.refl _)
    fun _ _ _ => trivial) ?_ fun r _ => hf r
  intro k hk hmem
  simp only [List.mem_append, DataConnection.mem_connectKinds] at hmem
  rcases hmem with h | ⟨_, rfl⟩
  · revert k
    decide
  · simp at hk

lemma handleLIST_speaks (a : Str) : Speaks lf s (s.handleLIST a) fun _ => True := by
  refine speaks_query (by simp [Call.kind]) fun fs _ => ?_
  refine speaks_ite (fun _ => speaks_return hs (clean_const (by decide)) trivial) fun _ => ?_
  refine speaks_ite (fun _ => speaks_return hs (clean_const (by decide)) trivial) fun _ => ?_
  refine speaks_query (by simp [Call.kind]) fun found _ => speaks_try found fun t => ?_
  refine speaks_ite (fun _ => speaks_return hs (clean_const (by decide)) trivial) fun _ => ?_
  refine speaks_reply hs (clean_const (by decide)) ?_
  refine accept_speaks _ fun r => ?_
  obtain ⟨_ | ⟨fd, peer⟩, d⟩ := r
  · exact speaks_return hs (clean_const (by decide)) trivial
  · refine speaks_query (by simp [Call.kind]) fun kind _ => speaks_try kind fun t => ?_
    refine speaks_bind (Q := fun _ => True) (speaks_ite (fun _ => ?_) fun _ => ?_) fun l _ => ?_
    · rw [← bind_pure' (listDirectory _)]
      refine speaks_within (listDirectory_within (List.mem_singleton_self Kind.query) _) (by decide) fun _ _ => ?_
      exact speaks_pure trivial
    · refine speaks_query (by simp [Call.kind]) fun n _ => ?_
      exact speaks_try n fun _ => speaks_pure trivial
    · cases l with
      | none =>
        refine speaks_query (by simp [Call.kind]) fun _ _ => ?_
        exact speaks_return hs (clean_const (by decide)) trivial
      | some listing =>
        refine speaks_query (by simp [Call.kind]) fun _ _ => ?_
        refine speaks_query (by simp [Call.kind]) fun _ _ => ?_
        exact speaks_return hs (clean_const (by decide)) trivial

omit hs in
lemma buildMachineFacts_speaks (path : Str) {name : Str} (hname : Clean lf name) :
    Speaks lf s (s.buildMachineFacts path name) (Clean lf) := by
  have hsize (b : Bool) : Speaks lf s (sizeFact b path) (Clean lf) := by
    refine speaks_ite (fun _ => speaks_pure (clean_const (by decide))) fun _ => ?_
    refine speaks_query (by simp [Call.kind]) fun r _ => ?_
    cases r with
    | ok n =>
      exact speaks_pure (clean_append.2 ⟨clean_append.2 ⟨clean_const (by decide), clean_decimal n⟩,
        clean_const (by decide)⟩)
    | error e => exact speaks_pure (clean_const (by decide))
  refine speaks_query (by simp [Call.kind]) fun found _ => ?_
  refine speaks_bind (hsize _) fun size hsize => ?_
  refine speaks_query (by simp [Call.kind]) fun modify hmodify => ?_
  refine speaks_query (by simp [Call.kind]) fun fs _ => speaks_pure ?_
  simp only [clean_append]
  refine ⟨⟨⟨⟨⟨?_, hsize⟩, ?_⟩, ?_⟩, clean_const (by decide)⟩, hname⟩
  · split <;> exact clean_const (by decide)
  · cases modify with
    | none => exact clean_const (by decide)
    | some m =>
      exact clean_append.2 ⟨clean_append.2 ⟨clean_const (by decide), hmodify m rfl⟩, clean_const (by decide)⟩
  · unfold permFact
    split <;> split <;> exact clean_const (by decide)

lemma handleMLSD_speaks (a : Str) : Speaks lf s (s.handleMLSD a) fun _ => True := by
  refine speaks_query (by simp [Call.kind]) fun fs _ => ?_
  refine speaks_ite (fun _ => speaks_return hs (clean_const (by decide)) trivial) fun _ => ?_
  refine speaks_ite (fun _ => speaks_return hs (clean_const (by decide)) trivial) fun _ => ?_
  refine speaks_query (by simp [Call.kind]) fun found _ => ?_
  refine speaks_ite (fun _ => speaks_return hs (clean_const (by decide)) trivial) fun _ => ?_
  refine speaks_reply hs (clean_const (by decide)) ?_
  refine accept_speaks _ fun r => ?_
  obtain ⟨_ | ⟨fd, peer⟩, d⟩ := r
  · exact speaks_return hs (clean_const (by decide)) trivial
  · refine speaks_query (by simp [Call.kind]) fun entries _ => ?_
    refine speaks_within (s.machineEntries_within (List.mem_singleton_self Kind.query) _ _) (by decide)
      fun listing _ => ?_
    obtain ⟨names, _ | failure⟩ := entries
    · refine speaks_query (by simp [Call.kind]) fun _ _ => ?_
      refine speaks_query (by simp [Call.kind]) fun _ _ => ?_
      exact speaks_return hs (clean_const (by decide)) trivial
    · refine speaks_query (by simp [Call.kind]) fun _ _ => ?_
      exact speaks_return hs (clean_const (by decide)) trivial

lemma handleMLST_speaks {a : Str} (ha : Clean lf a) : Speaks lf s (s.handleMLST a) fun _ => True := by
  have hname : Clean lf (if a = [] then s.current_directory_ else a) := .if hs.directory ha
  refine speaks_query (by simp [Call.kind]) fun fs _ => ?_
  refine speaks_ite (fun _ => speaks_answer hs (clean_const (by decide))) fun _ => ?_
  refine speaks_query (by simp [Call.kind]) fun found _ => ?_
  refine speaks_ite (fun _ => speaks_answer hs (clean_const (by decide))) fun _ => ?_
  refine speaks_send hs (clean_opening (clean_append.2 ⟨clean_const (by decide), hname⟩)) ?_
  refine speaks_bind (buildMachineFacts_speaks _ hname) fun facts hfacts => ?_
  exact speaks_send hs (clean_inner hfacts) (speaks_answer hs (clean_const (by decide)))

lemma handleMDTM_speaks (a : Str) : Speaks lf s (s.handleMDTM a) fun _ => True := by
  refine speaks_ite (fun _ => speaks_answer hs (clean_const (by decide))) fun _ => ?_
  refine speaks_query (by simp [Call.kind]) fun fs _ => ?_
  refine speaks_ite (fun _ => speaks_answer hs (clean_const (by decide))) fun _ => ?_
  refine speaks_query (by simp [Call.kind]) fun found _ => ?_
  refine speaks_ite (fun _ => speaks_answer hs (clean_const (by decide))) fun _ => ?_
  refine speaks_query (by simp [Call.kind]) fun modify hmodify => ?_
  cases modify with
  | none => exact speaks_answer hs (clean_const (by decide))
  | some m => exact speaks_answer hs (hmodify m rfl)

lemma statEntries_speaks (dir : Str) (names : List Str) (hnames : ∀ name ∈ names, Clean lf name) :
    Speaks lf s (s.statEntries dir names) fun _ => True := by
  induction names with
  | nil => exact speaks_pure trivial
  | cons name names ih =>
    obtain ⟨hname, hrest⟩ := List.forall_mem_cons.1 hnames
    refine speaks_bind (buildMachineFacts_speaks _ hname) fun facts hfacts => ?_
    exact speaks_send hs (clean_inner hfacts) (ih hrest)

lemma statusLines_clean : ∀ r ∈ s.statusLines, Clean lf r.render := by
  simp only [statusLines, List.forall_mem_cons]
  refine ⟨clean_opening (clean_const (by decide)), ?_, ?_, ?_, ?_, ?_, clean_final (clean_const (by decide)),
    fun _ h => by cases h⟩
  all_goals apply clean_inner
  all_goals simp only [clean_append]
  · refine ⟨clean_const (by decide), ?_⟩
    split
    · exact clean_const (by decide)
    · exact hs.username
  · exact ⟨clean_const (by decide), hs.directory⟩
  · exact ⟨⟨⟨clean_const (by decide), hs.type⟩, clean_const (by decide)⟩, hs.mode⟩
  · refine ⟨clean_const (by decide), ?_⟩
    split <;> exact clean_const (by decide)
  · exact ⟨clean_const (by decide), hs.level⟩

lemma handleSTAT_speaks {a : Str} (ha : Clean lf a) : Speaks lf s (s.handleSTAT a) fun _ => True := by
  refine speaks_ite (fun _ => speaks_lines hs (statusLines_clean hs)) fun _ => ?_
  refine speaks_query (by simp [Call.kind]) fun fs hfs => ?_
  refine speaks_ite (fun _ => speaks_answer hs (clean_const (by decide))) fun _ => ?_
  refine speaks_query (by simp [Call.kind]) fun found _ => ?_
  refine speaks_ite (fun _ => speaks_answer hs (clean_const (by decide))) fun _ => ?_
  refine speaks_send hs (clean_opening (clean_append.2 ⟨clean_const (by decide), ha⟩)) ?_
  refine speaks_query (by simp [Call.kind]) fun kind _ => ?_
  refine speaks_bind (Q := fun _ => True) (speaks_ite (fun _ => ?_) fun _ => ?_) fun _ _ =>
    speaks_answer hs (clean_const (by decide))
  · exact speaks_query (by simp [Call.kind]) fun entries hentries =>
      statEntries_speaks hs _ _ fun name hname hlf => hentries hlf name hname
  · have hname : Clean lf (Path.filename (s.resolvePath fs a)) :=
      fun hlf => Path.notMem_filename (hs.resolvePath hfs ha hlf)
    refine speaks_bind (buildMachineFacts_speaks _ hname) fun facts hfacts => ?_
    exact speaks_last hs (clean_inner hfacts)

lemma handleSIZE_speaks (a : Str) : Speaks lf s (s.handleSIZE a) fun _ => True := by
  refine speaks_query (by simp [Call.kind]) fun fs _ => ?_
  refine speaks_query (by simp [Call.kind]) fun found _ => ?_
  refine speaks_try found fun t => ?_
  refine speaks_ite (fun _ => ?_) fun _ => ?_
  · refine speaks_query (by simp [Call.kind]) fun size _ => ?_
    exact speaks_try size fun n => speaks_answer hs (clean_decimal n)
  · exact speaks_answer hs (clean_const (by decide))

/-! Changes to the tree -/

lemma handleDELE_speaks (a : Str) : Speaks lf s (s.handleDELE a) fun _ => True := by
  refine speaks_query (by simp [Call.kind]) fun fs _ => ?_
  refine speaks_ite (fun _ => speaks_answer hs (clean_const (by decide))) fun _ => ?_
  refine speaks_ite (fun _ => speaks_answer hs (clean_const (by decide))) fun _ => ?_
  refine speaks_query (by simp [Call.kind]) fun found _ => ?_
  refine speaks_try found fun t => ?_
  refine speaks_ite (fun _ => ?_) fun _ => ?_
  · refine speaks_ask silent_remove fun removed _ => speaks_try removed fun r => ?_
    refine speaks_ite (fun _ => speaks_answer hs (clean_const (by decide))) fun _ => ?_
    exact speaks_answer hs (clean_const (by decide))
  · exact speaks_answer hs (clean_const (by decide))

lemma handleMKD_speaks {a : Str} (ha : Clean lf a) : Speaks lf s (s.handleMKD a) fun _ => True := by
  refine speaks_query (by simp [Call.kind]) fun fs hfs => ?_
  have hpath := hs.resolvePath hfs ha
  refine speaks_ite (fun _ => speaks_answer hs (clean_const (by decide))) fun _ => ?_
  refine speaks_ite (fun _ => speaks_answer hs (clean_const (by decide))) fun _ => ?_
  refine speaks_ask (silent_createDirectory hpath) fun made _ => ?_
  refine speaks_try made fun r => speaks_ite (fun _ => ?_) fun _ => ?_
  · exact speaks_answer hs (clean_append.2 ⟨clean_append.2 ⟨clean_const (by decide), hpath⟩,
      clean_const (by decide)⟩)
  · exact speaks_answer hs (clean_const (by decide))

lemma handleRMD_speaks (a : Str) : Speaks lf s (s.handleRMD a) fun _ => True := by
  refine speaks_query (by simp [Call.kind]) fun fs _ => ?_
  refine speaks_ite (fun _ => speaks_answer hs (clean_const (by decide))) fun _ => ?_
  refine speaks_ite (fun _ => speaks_answer hs (clean_const (by decide))) fun _ => ?_
  refine speaks_query (by simp [Call.kind]) fun found _ => ?_
  refine speaks_try found fun t => ?_
  refine speaks_ite (fun _ => ?_) fun _ => ?_
  · refine speaks_ask silent_remove fun removed _ => speaks_try removed fun r => ?_
    refine speaks_ite (fun _ => speaks_answer hs (clean_const (by decide))) fun _ => ?_
    exact speaks_answer hs (clean_const (by decide))
  · exact speaks_answer hs (clean_const (by decide))

lemma handleRNFR_speaks {a : Str} (ha : Clean lf a) : Speaks lf s (s.handleRNFR a) (Clean lf) := by
  refine speaks_query (by simp [Call.kind]) fun fs hfs => ?_
  refine speaks_ite (fun _ => speaks_return hs (clean_const (by decide)) hs.source) fun _ => ?_
  refine speaks_ite (fun _ => speaks_return hs (clean_const (by decide)) hs.source) fun _ => ?_
  refine speaks_query (by simp [Call.kind]) fun found _ => ?_
  refine speaks_try found fun t => ?_
  refine speaks_ite (fun _ => ?_) fun _ => ?_
  · exact speaks_return hs (clean_const (by decide)) hs.source
  · exact speaks_return hs (clean_const (by decide)) (hs.resolvePath hfs ha)

lemma renameTo_speaks {a : Str} (ha : Clean lf a) : Speaks lf s (s.renameTo a) fun _ => True := by
  refine speaks_query (by simp [Call.kind]) fun fs hfs => ?_
  have hpath := hs.resolvePath hfs ha
  refine speaks_ite (fun _ => speaks_answer hs (clean_const (by decide))) fun _ => ?_
  refine speaks_ite (fun _ => speaks_answer hs (clean_const (by decide))) fun _ => ?_
  refine speaks_query (by simp [Call.kind]) fun found _ => speaks_try found fun t => ?_
  refine speaks_ite (fun _ => speaks_answer hs (clean_const (by decide))) fun _ => ?_
  refine speaks_ask (silent_rename hpath) fun renamed _ => ?_
  cases renamed with
  | ok r => exact speaks_answer hs (clean_const (by decide))
  | error e =>
    have hmessage : Clean lf (message e) := by cases e <;> exact clean_const (by decide)
    apply speaks_answer hs
    simp only [clean_append]
    exact ⟨⟨⟨⟨⟨⟨clean_const (by decide), hmessage⟩, clean_const (by decide)⟩, hs.source⟩,
      clean_const (by decide)⟩, hpath⟩,
      clean_const (by decide)⟩

lemma handleRNTO_speaks {a : Str} (ha : Clean lf a) : Speaks lf s (s.handleRNTO a) (Clean lf) := by
  refine speaks_ite (fun _ => speaks_return hs (clean_const (by decide)) (clean_const (by decide))) fun _ => ?_
  exact speaks_bind (renameTo_speaks hs ha) fun _ _ => speaks_pure (clean_const (by decide))

lemma siteChmod_speaks (mode target : Str) : Speaks lf s (s.siteChmod mode target) fun _ => True := by
  refine speaks_ite (fun _ => speaks_answer hs (clean_const (by decide))) fun _ => ?_
  refine speaks_query (by simp [Call.kind]) fun fs _ => ?_
  refine speaks_ite (fun _ => speaks_answer hs (clean_const (by decide))) fun _ => ?_
  refine speaks_ite (fun _ => speaks_answer hs (clean_const (by decide))) fun _ => ?_
  cases stoull mode 8 with
  | none => exact speaks_answer hs (clean_const (by decide))
  | some n =>
    refine speaks_ask (silent_permissions _) fun failure _ => ?_
    cases failure <;> exact speaks_answer hs (clean_const (by decide))

lemma handleSITE_speaks (a : Str) : Speaks lf s (s.handleSITE a) fun _ => True := by
  refine speaks_ite (fun _ => speaks_lines hs fun r hr _ => ?_) fun _ => ?_
  · revert r
    decide
  · refine speaks_ite (fun _ => speaks_answer hs (clean_const (by decide))) fun _ => ?_
    refine speaks_ite (fun _ => siteChmod_speaks hs _ _) fun _ => ?_
    exact speaks_answer hs (clean_const (by decide))

/-! Data connections and settings -/

omit hs in
lemma close_speaks (d : DataConnection) {α : Type} {P : α → Prop} {f : DataConnection → Io α}
    (hf : ∀ d, Speaks lf s (f d) P) : Speaks lf s (d.closeDataSocket >>= f) P := by
  have hclose := d.closeDataSocket_within (P := fun _ => True) (List.mem_singleton_self Kind.close) trivial
  exact speaks_within hclose (by decide) fun d _ => hf d

omit hs in
lemma listen_speaks (d : DataConnection) (c : ConnectionConfig) {α : Type} {P : α → Prop}
    {f : Int × DataConnection → Io α} (hf : ∀ r, Speaks lf s (f r) P) :
    Speaks lf s (d.createPassiveDataSocket c >>= f) P := by
  have hlisten := d.createPassiveDataSocket_within (P := fun _ => True) (List.Subset.refl _) c fun _ _ => trivial
  exact speaks_within hlisten (by decide) fun r _ => hf r

lemma handlePASV_speaks : Speaks lf s (s.handlePASV env) fun _ => True := by
  refine speaks_ite (fun _ => speaks_return hs (clean_const (by decide)) trivial) fun _ => ?_
  refine close_speaks _ fun d => listen_speaks d _ fun r => ?_
  refine speaks_ite (fun _ => speaks_return hs (clean_const (by decide)) trivial) fun _ => ?_
  refine speaks_return hs ?_ trivial
  simp only [formatPassiveResponse, clean_append]
  exact ⟨⟨⟨⟨clean_const (by decide), clean_decimalInt _⟩, clean_const (by decide)⟩, clean_decimalInt _⟩,
    clean_const (by decide)⟩

lemma handleEPSV_speaks (a : Str) : Speaks lf s (s.handleEPSV env a) fun _ => True := by
  refine speaks_ite (fun _ => speaks_return hs (clean_const (by decide)) trivial) fun _ => ?_
  refine speaks_ite (fun _ => speaks_return hs (clean_const (by decide)) trivial) fun _ => ?_
  refine close_speaks _ fun d => listen_speaks d _ fun r => ?_
  refine speaks_ite (fun _ => speaks_return hs (clean_const (by decide)) trivial) fun _ => ?_
  refine speaks_return hs ?_ trivial
  exact clean_append.2 ⟨clean_append.2 ⟨clean_const (by decide), clean_decimalInt _⟩, clean_const (by decide)⟩

lemma handlePORT_speaks (a : Str) : Speaks lf s (s.handlePORT a) fun _ => True := by
  refine speaks_ite (fun _ => speaks_return hs (clean_const (by decide)) trivial) fun _ => ?_
  split
  · refine speaks_ite (fun _ => speaks_return hs (clean_const (by decide)) trivial) fun _ => ?_
    exact close_speaks _ fun d => speaks_return hs (clean_const (by decide)) trivial
  · exact speaks_return hs (clean_const (by decide)) trivial

lemma handleEPRT_speaks (a : Str) : Speaks lf s (s.handleEPRT a) fun _ => True := by
  refine speaks_ite (fun _ => speaks_return hs (clean_const (by decide)) trivial) fun _ => ?_
  refine speaks_ite (fun _ => speaks_return hs (clean_const (by decide)) trivial) fun _ => ?_
  refine speaks_ite (fun _ => speaks_return hs (clean_const (by decide)) trivial) fun _ => ?_
  split
  · refine speaks_ite (fun _ => speaks_return hs (clean_const (by decide)) trivial) fun _ => ?_
    split
    · exact speaks_return hs (clean_const (by decide)) trivial
    · refine speaks_ite (fun _ => speaks_return hs (clean_const (by decide)) trivial) fun _ => ?_
      exact close_speaks _ fun d => speaks_return hs (clean_const (by decide)) trivial
  · exact speaks_return hs (clean_const (by decide)) trivial

lemma handleABOR_speaks : Speaks lf s s.handleABOR fun _ => True :=
  close_speaks _ fun _ => speaks_return hs (clean_const (by decide)) trivial

lemma handleMODE_speaks (a : Str) : Speaks lf s (s.handleMODE env a) (Clean lf) := by
  refine speaks_ite (fun _ => speaks_return hs (clean_const (by decide)) (clean_const (by decide))) fun _ => ?_
  refine speaks_ite (fun _ => speaks_ite (fun _ => ?_) fun _ => ?_) fun _ => ?_
  · exact speaks_return hs (clean_const (by decide)) hs.mode
  · exact speaks_return hs (clean_const (by decide)) (clean_const (by decide))
  · exact speaks_return hs (clean_const (by decide)) hs.mode

lemma handleTYPE_speaks {a : Str} (ha : Clean lf a) : Speaks lf s (s.handleTYPE a) (Clean lf) := by
  refine speaks_ite (fun _ => ?_) fun _ => speaks_return hs (clean_const (by decide)) hs.type
  exact speaks_return hs (clean_append.2 ⟨clean_const (by decide), ha⟩) ha

lemma handleREST_speaks {a : Str} (ha : Clean lf a) : Speaks lf s (s.handleREST a) fun _ => True := by
  refine speaks_ite (fun _ => speaks_return hs (clean_const (by decide)) trivial) fun _ => ?_
  split
  · exact speaks_return hs (clean_append.2 ⟨clean_append.2 ⟨clean_const (by decide), ha⟩,
      clean_const (by decide)⟩) trivial
  · exact speaks_return hs (clean_const (by decide)) trivial

lemma handlePROT_speaks (a : Str) : Speaks lf s (s.handlePROT a) (Clean lf) := by
  have hlevel (r : Str × Str) (hr : protectionLevel a = some r) : Clean lf r.1 ∧ Clean lf r.2 := by
    unfold protectionLevel at hr
    dsimp only at hr
    split_ifs at hr <;> cases hr <;> exact ⟨clean_const (by decide), clean_const (by decide)⟩
  refine speaks_ite (fun _ => speaks_return hs (clean_const (by decide)) hs.level) fun _ => ?_
  cases hfound : protectionLevel a with
  | none => exact speaks_return hs (clean_const (by decide)) hs.level
  | some r =>
    exact speaks_return hs (clean_append.2 ⟨clean_const (by decide), (hlevel r hfound).2⟩) (hlevel r hfound).1

lemma handleOPTS_speaks (a : Str) : Speaks lf s (s.handleOPTS a) fun _ => True := by
  unfold handleOPTS
  dsimp only
  refine speaks_ite (fun _ => speaks_ite (fun _ => ?_) fun _ => speaks_ite (fun _ => ?_) fun _ => ?_) fun _ =>
    speaks_ite (fun _ => ?_) fun _ => ?_
  all_goals exact speaks_return hs (clean_const (by decide)) trivial

omit hs in
lemma features_clean : ∀ r ∈ s.features env, Clean lf r.render := by
  have hall : ∀ r ∈ s.features env, 10 ∉ r.render := by
    unfold features
    split <;> split <;> split <;> decide
  exact fun r hr _ => hall r hr

omit hs in
lemma helpLines_clean : ∀ r ∈ helpLines, Clean lf r.render := by
  have hall : ∀ r ∈ helpLines, 10 ∉ r.render := by decide
  exact fun r hr _ => hall r hr

/-! Transfers -/

omit hs in
lemma sendOpened_speaks (fd file_fd : Fd) (start size : ℕ) :
    Speaks lf s (s.sendOpened env fd file_fd start size) fun r => Clean lf r.2 := by
  refine speaks_ite (fun _ => ?_) fun _ => ?_
  · refine speaks_query (by simp [Call.kind]) fun sought _ => ?_
    refine speaks_ite (fun _ => speaks_pure (clean_const (by decide))) fun _ => ?_
    refine speaks_query (by simp [Call.kind]) fun valid _ => ?_
    refine speaks_ite (fun _ => speaks_pure (clean_const (by decide))) fun _ => ?_
    exact speaks_within (Retrieval.deflateFile_within (List.Subset.refl _) _ _) (by decide) fun _ _ =>
      speaks_pure (clean_const (by decide))
  · refine speaks_within (Retrieval.sendFile_within (List.Subset.refl _) _ _ _ _) (by decide) fun sent _ => ?_
    refine speaks_pure ?_
    cases sent <;> exact clean_const (by decide)

omit hs in
lemma retrieveTo_speaks (fd : Fd) (path : Str) :
    Speaks lf s (s.retrieveTo env fd path) fun r => Clean lf r.2.1 := by
  have hclose {r : ℕ × Str × Bool} (file_fd : Fd) (hr : Clean lf r.2.1) : Speaks lf s (do
      perform (.close file_fd)
      perform (.close fd)
      return r) fun r => Clean lf r.2.1 :=
    speaks_query (by simp [Call.kind]) fun _ _ => speaks_query (by simp [Call.kind]) fun _ _ => speaks_pure hr
  refine speaks_query (by simp [Call.kind]) fun start _ => ?_
  refine speaks_query (by simp [Call.kind]) fun opened _ => ?_
  cases opened with
  | none =>
    refine speaks_query (by simp [Call.kind]) fun _ _ => ?_
    exact speaks_pure (clean_const (by decide))
  | some file_fd =>
    refine speaks_query (by simp [Call.kind]) fun st _ => ?_
    rcases st with _ | ⟨_ | _, size⟩
    · exact hclose file_fd (clean_const (by decide))
    · exact hclose file_fd (clean_const (by decide))
    · refine speaks_ite (fun _ => hclose file_fd (clean_const (by decide))) fun _ => ?_
      exact speaks_bind (sendOpened_speaks fd file_fd start size) fun r hr => hclose file_fd hr

lemma modeZRefusal_speaks : Speaks lf s (s.modeZRefusal env) fun r => ∀ s', r = some s' → Goes lf s s' := by
  refine speaks_ite (fun _ => speaks_pure fun _ h => by cases h) fun _ => ?_
  refine speaks_ite (fun _ => speaks_return hs (clean_const (by decide)) ?_) fun _ => ?_
  · rintro _ ⟨⟩
    exact ⟨hs.position 0, fun _ h => h⟩
  · refine speaks_ite (fun _ => speaks_return hs (clean_const (by decide)) ?_) fun _ => speaks_pure
      fun _ h => by cases h
    rintro _ ⟨⟩
    exact Goes.refl hs

lemma finish_speaks (d : DataConnection) {r : ℕ × Str × Bool} (hr : Clean lf r.2.1) : Speaks lf s (do
    ({ s with data := d } : Session).reply r.1 r.2.1
    return if r.2.2 then { s with data := d, resume_position_ := 0 } else { s with data := d }) (Goes lf s) := by
  refine speaks_return (s := { s with data := d }) (hs.data d) hr ?_
  split
  · exact ⟨(hs.data d).position 0, fun _ h => h⟩
  · exact Goes.data hs d

lemma handleRETR_speaks (a : Str) : Speaks lf s (s.handleRETR env a) (Goes lf s) := by
  refine speaks_query (by simp [Call.kind]) fun fs _ => ?_
  refine speaks_ite (fun _ => speaks_return hs (clean_const (by decide)) (Goes.refl hs)) fun _ => ?_
  refine speaks_ite (fun _ => speaks_return hs (clean_const (by decide)) (Goes.refl hs)) fun _ => ?_
  refine speaks_query (by simp [Call.kind]) fun found _ => speaks_try found fun t => ?_
  refine speaks_ite (fun _ => speaks_return hs (clean_const (by decide)) (Goes.refl hs)) fun _ => ?_
  refine speaks_bind (modeZRefusal_speaks hs) fun refusal hrefusal => ?_
  cases refusal with
  | some s' => exact speaks_pure (hrefusal s' rfl)
  | none =>
    refine speaks_reply hs (clean_append.2 ⟨clean_append.2 ⟨clean_const (by decide), hs.type⟩,
      clean_const (by decide)⟩) ?_
    refine accept_speaks _ fun r => ?_
    obtain ⟨_ | ⟨fd, peer⟩, d⟩ := r
    · exact speaks_return (s := { s with data := d }) (hs.data d) (clean_const (by decide)) (Goes.data hs d)
    · refine speaks_bind (s := s) (retrieveTo_speaks (s := { s with data := d }) fd _) fun r hr => ?_
      exact finish_speaks hs d hr

omit hs in
lemma openTarget_speaks {p : Str} (hp : Clean lf p) : Speaks lf s (s.openTarget p) fun _ => True := by
  refine speaks_bind (Q := fun _ => True) (speaks_ite (fun _ => ?_) fun _ => speaks_pure trivial)
    fun resumed _ => ?_
  · refine speaks_query (by simp [Call.kind]) fun found _ => speaks_try found fun t => ?_
    refine speaks_ite (fun _ => ?_) fun _ => speaks_pure trivial
    rw [← bind_pure' (perform _)]
    exact speaks_ask (silent_openWrite hp _) fun _ _ => speaks_pure trivial
  · cases resumed with
    | some fd => exact speaks_pure trivial
    | none => exact speaks_ask (silent_openWrite hp _) fun _ _ => speaks_pure trivial

omit hs in
lemma receiveTo_speaks (fd : Fd) (peer : Peer) (f : OutFile) :
    Speaks lf s (s.receiveTo env fd peer f) fun r => Clean lf r.2.1 := by
  have hclose {r : ℕ × Str × Bool} (hr : Clean lf r.2.1) : Speaks lf s (do
      perform (.close f.fd)
      perform (.close fd)
      return r) fun r => Clean lf r.2.1 :=
    speaks_query (by simp [Call.kind]) fun _ _ => speaks_query (by simp [Call.kind]) fun _ _ => speaks_pure hr
  refine speaks_query (by simp [Call.kind]) fun start _ => speaks_ite (fun _ => ?_) fun _ => ?_
  · refine speaks_query (by simp [Call.kind]) fun valid _ => ?_
    refine speaks_ite (fun _ => hclose (clean_const (by decide))) fun _ => ?_
    refine speaks_within (inflateLoop_within (List.Subset.refl _) _ _ _ _ _ _ _ _ _) (by decide) fun ok _ => ?_
    refine hclose ?_
    cases ok <;> exact clean_const (by decide)
  · refine speaks_within (receiveLoop_within (List.Subset.refl _) _ _ _ _ _ _ _) (by decide) fun _ _ => ?_
    exact hclose (clean_const (by decide))

omit hs in
lemma storeFrom_speaks (fd : Fd) (peer : Peer) {p : Str} (hp : Clean lf p) :
    Speaks lf s (s.storeFrom env fd peer p) fun r => Clean lf r.2.1 := by
  have hparent : Clean lf (Path.parentPath p) := fun hlf => Path.notMem_parentPath (by decide) (hp hlf)
  refine speaks_bind (Q := fun _ => True) (speaks_ite (fun _ => ?_) fun _ => speaks_pure trivial) fun _ _ => ?_
  · refine speaks_ask (silent_createDirectories hparent) fun made _ => ?_
    exact speaks_try made fun _ => speaks_pure trivial
  · refine speaks_bind (openTarget_speaks hp) fun target _ => ?_
    cases target with
    | none =>
      refine speaks_query (by simp [Call.kind]) fun _ _ => ?_
      exact speaks_pure (clean_const (by decide))
    | some f => exact receiveTo_speaks fd peer f

lemma handleSTOR_speaks {a : Str} (ha : Clean lf a) : Speaks lf s (s.handleSTOR env a) (Goes lf s) := by
  refine speaks_query (by simp [Call.kind]) fun fs hfs => ?_
  have hpath := hs.resolvePath hfs ha
  refine speaks_ite (fun _ => speaks_return hs (clean_const (by decide)) (Goes.refl hs)) fun _ => ?_
  refine speaks_ite (fun _ => speaks_return hs (clean_const (by decide)) (Goes.refl hs)) fun _ => ?_
  refine speaks_within (s.quotaExceeded_within (List.mem_singleton_self Kind.query)) (by decide)
    fun exceeded _ => ?_
  refine speaks_ite (fun _ => speaks_return hs (clean_const (by decide)) (Goes.refl hs)) fun _ => ?_
  refine speaks_bind (modeZRefusal_speaks hs) fun refusal hrefusal => ?_
  cases refusal with
  | some s' => exact speaks_pure (hrefusal s' rfl)
  | none =>
    refine speaks_reply hs ?_ ?_
    · split
      · exact clean_append.2 ⟨clean_append.2 ⟨clean_const (by decide), hs.type⟩, clean_const (by decide)⟩
      · exact clean_append.2 ⟨clean_const (by decide), hs.unique⟩
    · refine accept_speaks _ fun r => ?_
      obtain ⟨_ | ⟨fd, peer⟩, d⟩ := r
      · exact speaks_return (s := { s with data := d }) (hs.data d) (clean_const (by decide)) (Goes.data hs d)
      · refine speaks_bind (s := s) (storeFrom_speaks (s := { s with data := d }) fd peer hpath) fun r hr => ?_
        exact finish_speaks hs d hr

omit hs in
lemma uniqueName_speaks (dir : Str) {base : Str} (hbase : Clean lf base) (n : ℕ) :
    ∀ attempt, Speaks lf s (uniqueName dir base attempt n) fun r => ∀ unique, r = some unique →
      Clean lf unique := by
  induction n with
  | zero => exact fun _ => speaks_pure fun _ h => by cases h
  | succ n ih =>
    intro attempt
    refine speaks_query (by simp [Call.kind]) fun found _ => ?_
    refine speaks_ite (fun _ => speaks_pure ?_) fun _ => ih _
    rintro _ ⟨⟩
    exact clean_append.2 ⟨clean_append.2 ⟨hbase, clean_const (by decide)⟩, clean_decimal _⟩

lemma handleSTOU_speaks {a : Str} (ha : Clean lf a) : Speaks lf s (s.handleSTOU env a) (Goes lf s) := by
  have hbase : Clean lf (if a = [] then "ftpd" else Path.filename a) := by
    split
    · exact clean_const (by decide)
    · exact fun hlf => Path.notMem_filename (ha hlf)
  refine speaks_bind (uniqueName_speaks _ hbase _ _) fun r hr => ?_
  cases r with
  | none => exact speaks_return hs (clean_const (by decide)) (Goes.refl hs)
  | some unique =>
    have hunique := hr unique rfl
    have hnamed : SingleLine lf { s with store_unique_name_ := unique, resume_position_ := 0 } :=
      (hs.named hunique).position 0
    refine speaks_bind (s := s) (handleSTOR_speaks hnamed hunique) fun s' hs' => speaks_pure ?_
    exact ⟨hs'.1.named (clean_const (by decide)), hs'.2⟩

lemma handleAPPE_speaks {a : Str} (ha : Clean lf a) : Speaks lf s (s.handleAPPE a) (Goes lf s) := by
  refine speaks_query (by simp [Call.kind]) fun fs hfs => ?_
  have hpath := hs.resolvePath hfs ha
  refine speaks_ite (fun _ => speaks_return hs (clean_const (by decide)) (Goes.refl hs)) fun _ => ?_
  refine speaks_ite (fun _ => speaks_return hs (clean_const (by decide)) (Goes.refl hs)) fun _ => ?_
  refine speaks_ite (fun _ => speaks_return hs (clean_const (by decide)) (Goes.refl hs)) fun _ => ?_
  refine speaks_reply hs (clean_const (by decide)) ?_
  refine accept_speaks _ fun r => ?_
  obtain ⟨_ | ⟨fd, peer⟩, d⟩ := r
  · exact speaks_return (s := { s with data := d }) (hs.data d) (clean_const (by decide)) (Goes.data hs d)
  · refine speaks_query (by simp [Call.kind]) fun found _ => speaks_try found fun t => ?_
    refine speaks_ask (silent_openWrite hpath _) fun opened _ => ?_
    cases opened with
    | none =>
      refine speaks_query (by simp [Call.kind]) fun _ _ => ?_
      exact speaks_return (s := { s with data := d }) (hs.data d) (clean_const (by decide)) (Goes.data hs d)
    | some file_fd =>
      refine speaks_within (appendLoop_within (List.Subset.refl _) _ _ _ _ _) (by decide) fun _ _ => ?_
      refine speaks_query (by simp [Call.kind]) fun _ _ => ?_
      refine speaks_query (by simp [Call.kind]) fun _ _ => ?_
      exact speaks_return (s := { s with data := d }) (hs.data d) (clean_const (by decide))
        ⟨(hs.data d).position 0, fun _ h => h⟩

/-! Logging in -/

lemma handleUSER_speaks {a : Str} (ha : Clean lf a) : Speaks lf s (s.handleUSER a) (Goes lf s) := by
  refine speaks_return hs (clean_const (by decide)) ⟨?_, fun _ h => h⟩
  exact ⟨ha, hs.directory, hs.level, hs.type, hs.mode, hs.source, hs.unique, hs.home, hs.host⟩

lemma handleQUIT_speaks : Speaks lf s s.handleQUIT fun _ => True := by
  refine speaks_reply hs (clean_const (by decide)) ?_
  rw [← bind_pure' (perform .deactivate)]
  exact speaks_ask silent_deactivate fun _ _ => speaks_pure trivial

lemma handlePBSZ_speaks : Speaks lf s s.handlePBSZ fun _ => True :=
  speaks_ite (fun _ => speaks_answer hs (clean_const (by decide))) fun _ =>
    speaks_answer hs (clean_const (by decide))

omit hs in
lemma sessionLimit_speaks : Speaks lf s (s.sessionLimit env) fun r => ∀ text, r = some text → Clean lf text := by
  have hnone : ∀ text : Str, none = some text → Clean lf text := fun _ h => by cases h
  have hcount {o : Call ℕ} (ho : o.kind = .census) (c : Prop) [Decidable c] :
      Speaks lf s (if c then perform o else pure 0 : Io ℕ) fun _ => True := by
    refine speaks_ite (fun _ => ?_) fun _ => speaks_pure trivial
    rw [← bind_pure' (perform o)]
    exact speaks_query (by simp [ho]) fun _ _ => speaks_pure trivial
  refine speaks_ite (fun _ => speaks_bind (hcount rfl _) fun users _ => ?_) fun _ => speaks_pure hnone
  refine speaks_ite (fun _ => speaks_pure ?_) fun _ => ?_
  · rintro _ ⟨⟩
    exact clean_const (by decide)
  · cases s.current_virtual_host_ with
    | none => exact speaks_pure hnone
    | some h =>
      refine speaks_bind (hcount rfl _) fun sessions _ => ?_
      refine speaks_ite (fun _ => speaks_pure ?_) fun _ => speaks_pure hnone
      rintro _ ⟨⟩
      exact clean_const (by decide)

section

variable (henv : env.SingleLine lf)
include henv

lemma storedUser_clean {u : FTPUser} (hu : s.storedUser env = some u) : Clean lf u.home_directory_ := by
  unfold storedUser at hu
  split at hu
  · rename_i m hm
    obtain ⟨h, hhost, hmanager⟩ := Option.bind_eq_some_iff.1 hm
    exact (hs.host h hhost).users m hmanager _ _ hu
  · exact henv.users _ _ hu

lemma checkPassword_speaks (password : Str) :
    Speaks lf s (s.checkPassword env password) fun r => ∀ u, r.1 = some u → Clean lf u.home_directory_ := by
  have hstored : ∀ u, s.storedUser env = some u → Clean lf u.home_directory_ :=
    fun u hu => storedUser_clean hs henv hu
  refine speaks_query (by simp [Call.kind]) fun now _ => ?_
  refine speaks_ite (fun _ => speaks_pure hstored) fun _ => ?_
  refine speaks_ite (fun _ => ?_) fun _ => speaks_pure hstored
  refine speaks_ask silent_pamAuthenticate fun accepted _ => ?_
  refine speaks_ite (fun _ => ?_) fun _ => speaks_pure hstored
  refine speaks_ask silent_getpwnam fun pw_dir hdir => ?_
  refine speaks_ask (silent_randBytes _) fun salt _ => speaks_pure ?_
  rintro _ ⟨⟩
  rw [FTPUser.make, FTPUser.setPassword_eq]
  unfold pamHome
  dsimp only
  split
  · cases pw_dir with
    | none => exact clean_const (by decide)
    | some dir => exact hdir dir rfl
  · split
    · rename_i u hu
      exact hstored u hu
    · split
      · exact henv.jail
      · exact clean_const (by decide)

omit hs in
lemma loginDirectory_speaks (u : FTPUser) (hu : Clean lf u.home_directory_) :
    Speaks lf s (loginDirectory env u) (Clean lf) := by
  have hrelative (jail : Str) : Clean lf (chrootRelative jail u.home_directory_) := by
    have hdrop := hu.sublist (List.drop_sublist jail.length _)
    unfold chrootRelative
    split
    · dsimp only
      split
      · exact hdrop
      · exact (clean_cons (by decide)).2 hdrop
    · exact clean_const (by decide)
  rw [loginDirectory_eq, applyChroot]
  refine speaks_ite (fun _ => ?_) fun _ => speaks_pure hu
  refine speaks_query (by simp [Call.kind]) fun found _ => ?_
  refine speaks_try found fun t => ?_
  refine speaks_ite (fun _ => speaks_pure hu) fun _ => ?_
  exact speaks_ask (silent_chroot henv.jail) fun confined _ => speaks_pure (.if (hrelative _) hu)

lemma logIn_speaks (u : FTPUser) (hu : Clean lf u.home_directory_) : Speaks lf s (s.logIn env u) (Goes lf s) := by
  refine speaks_bind (loginDirectory_speaks henv u hu) fun directory hdirectory => ?_
  refine speaks_bind (Q := fun _ => True) (speaks_ite (fun _ => ?_) fun _ => speaks_pure trivial)
    fun registered _ => ?_
  · exact speaks_query (by simp [Call.kind]) fun _ _ => speaks_pure trivial
  · refine speaks_return hs (clean_const (by decide)) ⟨?_, fun _ h => h⟩
    exact ⟨hs.username, hdirectory, hs.level, hs.type, hs.mode, hs.source, hs.unique, hs.home, hs.host⟩

lemma handlePASS_speaks (password : Str) : Speaks lf s (s.handlePASS env password) (Goes lf s) := by
  refine speaks_ite (fun _ => speaks_return hs (clean_const (by decide)) (Goes.refl hs)) fun _ => ?_
  refine speaks_bind (checkPassword_speaks hs henv password) fun r hhome => ?_
  have hfound : SingleLine lf { s with current_user_ := r.1 } :=
    ⟨hs.username, hs.directory, hs.level, hs.type, hs.mode, hs.source, hs.unique, hhome, hs.host⟩
  obtain ⟨_ | u, _ | _⟩ := r
  · exact speaks_return hfound (clean_const (by decide)) ⟨hfound, fun _ h => h⟩
  · exact speaks_return hfound (clean_const (by decide)) ⟨hfound, fun _ h => h⟩
  · exact speaks_return hfound (clean_const (by decide)) ⟨hfound, fun _ h => h⟩
  · refine speaks_bind (s := s) (sessionLimit_speaks (s := { s with current_user_ := some u }))
      fun limit hlimit => ?_
    cases limit with
    | some refusal => exact speaks_return hfound (hlimit refusal rfl) ⟨hfound, fun _ h => h⟩
    | none => exact logIn_speaks hfound henv u (hhome u rfl)

lemma handleHOST_speaks {a : Str} (ha : Clean lf a) : Speaks lf s (s.handleHOST env a) (Goes lf s) := by
  have hunknown : Clean lf ("Virtual host not found or disabled: " ++ a) :=
    clean_append.2 ⟨clean_const (by decide), ha⟩
  refine speaks_ite (fun _ => speaks_return hs (clean_const (by decide)) (Goes.refl hs)) fun _ => ?_
  cases hmanager : env.virtual_host_manager_ with
  | none => exact speaks_return hs (clean_const (by decide)) (Goes.refl hs)
  | some hosts =>
    dsimp only
    cases hfound : hosts.getVirtualHost a with
    | none => exact speaks_return hs hunknown (Goes.refl hs)
    | some host =>
      refine speaks_ite (fun _ => speaks_return hs hunknown (Goes.refl hs)) fun _ => ?_
      have hselected : SingleLine lf { s with current_virtual_host_ := some host } := by
        refine ⟨hs.username, hs.directory, hs.level, hs.type, hs.mode, hs.source, hs.unique, hs.home, ?_⟩
        rintro _ ⟨⟩
        exact henv.hosts hosts hmanager a host hfound
      exact speaks_return (s := { s with current_virtual_host_ := some host }) hselected
        (clean_append.2 ⟨clean_const (by decide), ha⟩) ⟨hselected, fun _ h => h⟩

end

/-! Encryption, and the end of a session -/

def Speaking (lf : Prop) (p : Io Session) (g : List Said) : Prop :=
  Meets (speaking lf) p (fun s' g' => s'.SingleLine lf ∧ s'.Matches g') g

omit hs in
lemma Speaking.of_goes {p : Io Session} {g : List Said} (hp : Speaks lf s p (Goes lf s)) (hg : s.Matches g) :
    Speaking lf p g :=
  (hp g hg).mono fun _ g' h => ⟨h.2.1, h.2.2 g' h.1⟩

lemma handleAUTH_speaks (method : Str) {g : List Said} (hg : s.Matches g) :
    Speaking lf (s.handleAUTH method) g := by
  unfold handleAUTH
  dsimp only
  split
  · split
    · exact .of_goes (speaks_return hs (clean_const (by decide)) (Goes.refl hs)) hg
    · rename_i hplain
      have hinactive : s.ssl_active_ = false := by simpa using hplain
      have hloaded : Speaks lf s s.loadHostCertificate
          fun t => ∃ c e, t = { s with ssl_context_ := c, ssl_enabled_ := e } := by
        unfold loadHostCertificate
        split
        · exact speaks_pure ⟨_, _, rfl⟩
        · refine speaks_ite (fun _ => speaks_pure ⟨_, _, rfl⟩) fun _ => ?_
          exact speaks_ask (silent_sslInitialize _) fun ok _ => speaks_pure ⟨_, _, rfl⟩
      refine meets_bind.2 ((hloaded g hg).mono fun t g' ht => ?_)
      obtain ⟨hg', c, e, rfl⟩ := ht
      have ht : SingleLine lf { s with ssl_context_ := c, ssl_enabled_ := e } :=
        ⟨hs.username, hs.directory, hs.level, hs.type, hs.mode, hs.source, hs.unique, hs.home, hs.host⟩
      have hmatches : Matches { s with ssl_context_ := c, ssl_enabled_ := e } g' := by
        refine ⟨hg'.1, .inr ?_⟩
        rw [← hg'.1, hinactive]
        simp
      dsimp only
      split
      · exact Speaking.of_goes (speaks_return ht (clean_const (by decide)) (Goes.refl ht)) hmatches
      · rename_i havailable
        have hcontext : c = true := by
          simp only [Bool.or_eq_true, Bool.not_eq_true', not_or, Bool.not_eq_false] at havailable
          exact havailable.2
        refine meets_bind.2 ((speaks_answer ht (clean_const (by decide)) g' hmatches).mono fun _ g' h => ?_)
        have hfirst : Said.secured ∉ g' := fun hmem => absurd (h.1.1.2 hmem) (by simp [hinactive])
        refine (meets_call _ _).2 ⟨hfirst, fun upgraded _ => ?_⟩
        cases upgraded with
        | false =>
          refine (meets_call _ _).2 ⟨trivial, fun _ _ => (meets_pure _).2 ⟨?_, ?_⟩⟩
          · exact ⟨hs.username, hs.directory, hs.level, hs.type, hs.mode, hs.source, hs.unique, hs.home, hs.host⟩
          · refine ⟨h.1.1, .inr ?_⟩
            change _ ↔ Said.secured ∈ g'
            rw [← h.1.1]
            simp [hinactive]
        | true =>
          refine (meets_pure _).2 ⟨?_, ?_, .inr ?_⟩
          · exact ⟨hs.username, hs.directory, hs.level, hs.type, hs.mode, hs.source, hs.unique, hs.home, hs.host⟩
          · exact iff_of_true rfl List.mem_cons_self
          · exact iff_of_true hcontext List.mem_cons_self
  · exact .of_goes (speaks_return hs (clean_const (by decide)) (Goes.refl hs)) hg

lemma stop_speaks {g : List Said} (hg : s.Matches g) : Speaking lf (s.stop env) g := by
  have hstop : Speaks lf s (s.stop env) fun s' =>
      s'.SingleLine lf ∧ s'.ssl_active_ = s.ssl_active_ ∧ s'.socket_ = none := by
    refine speaks_bind (Q := fun _ => True) (speaks_ite (fun _ => ?_) fun _ => speaks_pure trivial) fun _ _ => ?_
    · rw [← bind_pure' (perform _)]
      exact speaks_query (by simp [Call.kind]) fun _ _ => speaks_pure trivial
    · refine speaks_ask silent_deactivate fun _ _ => close_speaks _ fun d => ?_
      refine speaks_within (closeHeld_within (P := fun _ => True) (List.mem_singleton_self Kind.close) _
        trivial) (by decide)
        fun _ _ => speaks_pure ⟨?_, rfl, rfl⟩
      exact ⟨hs.username, hs.directory, hs.level, hs.type, hs.mode, hs.source, hs.unique, hs.home, hs.host⟩
  refine (hstop g hg).mono fun s' g' h => ⟨h.2.1, ?_, .inl h.2.2.2⟩
  rw [h.2.2.1]
  exact h.1.1

lemma handle_speaks (henv : env.SingleLine lf) (c : Command) (hc : Clean lf c.argument) {g : List Said}
    (hg : s.Matches g) :
    Speaking lf (s.handle env c) g := by
  have hsame {p : Io Unit} (hp : Speaks lf s p fun _ => True) : Speaking lf (p >>= fun _ => pure s) g :=
    .of_goes (speaks_bind hp fun _ _ => speaks_pure (Goes.refl hs)) hg
  have hdata {p : Io DataConnection} (hp : Speaks lf s p fun _ => True) :
      Speaking lf (p >>= fun d => pure { s with data := d }) g :=
    .of_goes (speaks_bind hp fun d _ => speaks_pure (Goes.data hs d)) hg
  have htext {p : Io Str} {f : Str → Session} (hp : Speaks lf s p (Clean lf)) (hf : ∀ text, Clean lf text →
    Goes lf s (f text)) :
      Speaking lf (p >>= fun text => pure (f text)) g :=
    .of_goes (speaks_bind hp fun text ht => speaks_pure (hf text ht)) hg
  obtain ⟨v, a⟩ := c
  cases v with
  | user => exact .of_goes (handleUSER_speaks hs hc) hg
  | pass => exact .of_goes (handlePASS_speaks hs henv a) hg
  | host => exact .of_goes (handleHOST_speaks hs henv hc) hg
  | auth => exact handleAUTH_speaks hs a hg
  | retr => exact .of_goes (handleRETR_speaks hs a) hg
  | stor => exact .of_goes (handleSTOR_speaks hs hc) hg
  | stou => exact .of_goes (handleSTOU_speaks hs hc) hg
  | appe => exact .of_goes (handleAPPE_speaks hs hc) hg
  | quit => exact hsame (handleQUIT_speaks hs)
  | noop | syst | allo | unknown => exact hsame (speaks_answer hs (clean_const (by decide)))
  | feat => exact hsame (speaks_lines hs features_clean)
  | help => exact hsame (speaks_lines hs helpLines_clean)
  | pbsz => exact hsame (handlePBSZ_speaks hs)
  | pwd => exact hsame (handlePWD_speaks hs)
  | mlst => exact hsame (handleMLST_speaks hs hc)
  | mdtm => exact hsame (handleMDTM_speaks hs a)
  | stat => exact hsame (handleSTAT_speaks hs hc)
  | site => exact hsame (handleSITE_speaks hs a)
  | size => exact hsame (handleSIZE_speaks hs a)
  | dele => exact hsame (handleDELE_speaks hs a)
  | mkd => exact hsame (handleMKD_speaks hs hc)
  | rmd => exact hsame (handleRMD_speaks hs a)
  | abor => exact hdata (handleABOR_speaks hs)
  | list => exact hdata (handleLIST_speaks hs a)
  | mlsd => exact hdata (handleMLSD_speaks hs a)
  | pasv => exact hdata (handlePASV_speaks hs)
  | epsv => exact hdata (handleEPSV_speaks hs a)
  | port => exact hdata (handlePORT_speaks hs a)
  | eprt => exact hdata (handleEPRT_speaks hs a)
  | opts =>
    refine .of_goes (speaks_bind (handleOPTS_speaks hs a) fun b _ => speaks_pure ⟨?_, fun _ h => h⟩) hg
    exact ⟨hs.username, hs.directory, hs.level, hs.type, hs.mode, hs.source, hs.unique, hs.home, hs.host⟩
  | rest => exact .of_goes (speaks_bind (handleREST_speaks hs hc) fun n _ => speaks_pure ⟨hs.position n,
    fun _ h => h⟩) hg
  | prot =>
    refine htext (handlePROT_speaks hs a) fun level hlevel => ?_
    refine ⟨?_, fun _ h => h⟩
    exact ⟨hs.username, hs.directory, hlevel, hs.type, hs.mode, hs.source, hs.unique, hs.home, hs.host⟩
  | cwd =>
    refine htext (handleCWD_speaks hs hc) fun dir hdir => ?_
    refine ⟨?_, fun _ h => h⟩
    exact ⟨hs.username, hdir, hs.level, hs.type, hs.mode, hs.source, hs.unique, hs.home, hs.host⟩
  | cdup =>
    refine htext (handleCDUP_speaks hs) fun dir hdir => ?_
    refine ⟨?_, fun _ h => h⟩
    exact ⟨hs.username, hdir, hs.level, hs.type, hs.mode, hs.source, hs.unique, hs.home, hs.host⟩
  | mode =>
    refine htext (handleMODE_speaks hs a) fun m hm => ?_
    refine ⟨?_, fun _ h => h⟩
    exact ⟨hs.username, hs.directory, hs.level, hs.type, hm, hs.source, hs.unique, hs.home, hs.host⟩
  | type =>
    refine htext (handleTYPE_speaks hs hc) fun t ht => ?_
    refine ⟨?_, fun _ h => h⟩
    exact ⟨hs.username, hs.directory, hs.level, ht, hs.mode, hs.source, hs.unique, hs.home, hs.host⟩
  | rnfr =>
    refine htext (handleRNFR_speaks hs hc) fun p hp => ?_
    refine ⟨?_, fun _ h => h⟩
    exact ⟨hs.username, hs.directory, hs.level, hs.type, hs.mode, hp, hs.unique, hs.home, hs.host⟩
  | rnto =>
    refine htext (handleRNTO_speaks hs hc) fun p hp => ?_
    refine ⟨?_, fun _ h => h⟩
    exact ⟨hs.username, hs.directory, hs.level, hs.type, hs.mode, hp, hs.unique, hs.home, hs.host⟩

omit hs in
lemma argument_clean (line : Str) : Clean lf (Command.parse line).argument := by
  intro _ hmem
  have hright : 10 ∈ trimLeft (getline (extract line).2) :=
    List.mem_reverse.1 ((List.dropWhile_sublist _).subset (List.mem_reverse.1 hmem))
  have hleft : 10 ∈ getline (extract line).2 := (List.dropWhile_sublist _).subset hright
  exact absurd (List.all_eq_true.1 List.all_takeWhile 10 hleft) (by decide)

lemma dispatch_speaks (henv : env.SingleLine lf) (line : Str) {g : List Said} (hg : s.Matches g) :
    Speaking lf (s.dispatch env line) g := by
  rcases dispatch_cases env s line with ⟨_, h⟩ | ⟨_, _, h⟩
  · rw [h]
    exact handle_speaks hs henv _ (argument_clean line) hg
  · rw [h]
    exact .of_goes (speaks_return hs (clean_const (by decide)) (Goes.refl hs)) hg

end Session

end SimpleSftpd
