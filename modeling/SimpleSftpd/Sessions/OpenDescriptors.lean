import SimpleSftpd.Sessions.Closing

namespace SimpleSftpd

open Cxx Interaction Prog

/-- The ghost state are the descriptors that a session has opened and not closed since, whatever others do. -/
def tracking : Contract Call (List Fd) where
  pre _ _ := True
  post _ _ _ := True
  next held o r := holding.next held o r

def Shut (o : Σ β, Call β) : Prop := ∀ r, o.2.opened? r = none

namespace World

variable {w : World} {fd n : Fd} {me i : SessionId} {β : Type}

lemma owner_closeFd (h : (w.closeFd n).owner fd = some i) : n ≠ fd ∧ w.owner fd = some i := by
  obtain ⟨d, hd, hi⟩ := Option.map_eq_some_iff.1 h
  have hne : n ≠ fd := by
    rintro rfl
    obtain ⟨l, l', hl, _⟩ := List.lookup_eq_some_iff.1 hd
    have hmem : (n, d) ∈ (w.closeFd n).fds := hl ▸ List.mem_append_right l List.mem_cons_self
    exact of_decide_eq_true (List.mem_filter.1 hmem).2 rfl
  exact ⟨hne, Option.map_eq_some_iff.2 ⟨d, (lookup_closeFd hne).symm.trans hd, hi⟩⟩

lemma owner_of_openFd {d : Descriptor} (h : (w.openFd n d).owner fd = some i) :
    w.owner fd = some i ∨ fd = w.freshFd n ∧ i = d.owner := by
  by_cases hfd : fd = w.freshFd n
  · subst hfd
    rw [owner_new] at h
    exact .inr ⟨rfl, (Option.some.inj h).symm⟩
  · left
    have hne : (fd == w.freshFd n) = false := beq_eq_false_iff_ne.2 hfd
    simpa [owner, openFd, List.lookup_cons, hne] using h

lemma owner_of_answer (o : Call β) (h : (answer me w o).2.owner fd = some i) :
    o.closed? ≠ some fd ∧ (w.owner fd = some i ∨ i = me ∧ o.opened? (answer me w o).1 = some fd) := by
  have hsame {w' : World} (hw : w'.fds = w.fds) (h : w'.owner fd = some i) : w.owner fd = some i :=
    (owner_congr hw).symm.trans h
  have hsought {w' : World} {m : Fd} {p : Int} (hw : w'.fds = (w.seek m p).fds) (h : w'.owner fd = some i) :
      w.owner fd = some i := (owner_seek m p).symm.trans ((owner_congr hw).symm.trans h)
  have hopened {w' v : World} {n : Fd} {k : Opened} (hv : v.fds = w.fds) (hw : w'.fds = (v.openFd n ⟨me, k⟩).fds)
      (h : w'.owner fd = some i) : w.owner fd = some i ∨ i = me ∧ v.freshFd n = fd := by
    rcases owner_of_openFd ((owner_congr hw).symm.trans h) with h | ⟨hfd, hi⟩
    · exact .inl ((owner_congr hv).symm.trans h)
    · exact .inr ⟨hi, hfd.symm⟩
  cases o with
  | close n =>
    obtain ⟨hne, h⟩ := owner_closeFd h
    exact ⟨fun he => hne (Option.some.inj he), .inl h⟩
  | socket =>
    refine ⟨(Option.some_ne_none _).symm, ?_⟩
    simp only [Call.opened?, answer, openSocket] at h ⊢
    split at h
    · rename_i hn
      simpa only [hn, Option.some.injEq] using hopened rfl rfl h
    · exact .inl (hsame rfl h)
  | accept =>
    refine ⟨(Option.some_ne_none _).symm, ?_⟩
    simp only [Call.opened?, answer] at h ⊢
    split at h
    · rename_i hn
      simpa only [hn, openSocket, Option.map_some, Option.some.injEq] using hopened rfl rfl h
    · exact .inl (hsame rfl h)
  | openRead p =>
    refine ⟨(Option.some_ne_none _).symm, ?_⟩
    simp only [Call.opened?, answer, openPath] at h ⊢
    split at h
    · rename_i hn hr
      simpa only [hn, hr, Option.some.injEq] using hopened rfl rfl h
    · exact .inl (hsame rfl h)
  | openWrite p mode =>
    refine ⟨(Option.some_ne_none _).symm, ?_⟩
    simp only [Call.opened?, answer, openPath] at h ⊢
    split at h
    · rename_i hn hr
      simpa only [hn, hr, Option.some.injEq] using hopened (v := w.withFs (w.fs.openWrite p mode).2) rfl rfl h
    · exact .inl (hsame rfl h)
  | lseek | read =>
    refine ⟨(Option.some_ne_none _).symm, .inl ?_⟩
    simp only [answer] at h
    split at h
    · exact hsought rfl h
    · exact hsame rfl h
  | sendfile | mmap | write | appendTo | chroot =>
    refine ⟨(Option.some_ne_none _).symm, .inl ?_⟩
    simp only [answer] at h
    split at h <;> exact hsame rfl h
  | _ => exact ⟨(Option.some_ne_none _).symm, .inl (hsame rfl h)⟩

def KnownTo (i : SessionId) (held : List Fd) (w : World) : Prop := ∀ fd, w.owner fd = some i → fd ∈ held

end World

lemma World.KnownTo.answer {β : Type} {w : World} {i j : SessionId} {held : List Fd} (h : w.KnownTo j held)
    (o : Call β) :
    (answer i w o).2.KnownTo j (if j = i then tracking.next held o (answer i w o).1 else held) := by
  intro fd hfd
  obtain ⟨hclosed, hold⟩ := World.owner_of_answer o hfd
  split
  · simp only [tracking, holding]
    split
    · rename_i n hn
      rcases hold with hold | ⟨_, hopened⟩
      · exact List.mem_filter.2 ⟨h fd hold, decide_eq_true fun he => hclosed (he ▸ hn)⟩
      · cases o with
        | close => cases hopened
        | _ => cases hn
    · rcases hold with hold | ⟨_, hopened⟩
      · exact List.mem_append_right _ (h fd hold)
      · exact List.mem_append_left _ (Option.mem_toList.2 hopened)
  · rename_i hij
    rcases hold with hold | ⟨hi, _⟩
    · exact h fd hold
    · exact absurd hi hij

section

variable {env : Service} {s : Session} {α β : Type} {P : α → List Fd → Prop} {Q : β → Prop} {b : List Fd} {fd : Fd}

def shutKinds : List Kind :=
  [.reply, .clock, .account, .census, .register, .query, .chroot, .close, .transfer, .write, .memory]

lemma allows_shut : Allows Shut shutKinds := by
  rintro ⟨β, o⟩ ho
  change o.kind ∈ shutKinds at ho
  cases o with
  | socket | accept | openRead | openWrite => simp [Call.kind, shutKinds] at ho
  | _ => exact fun _ => rfl

lemma shut_meets {p : Io β} (hp : p.Within Shut Q) :
    ∀ held, Meets tracking p (fun r held' => Q r ∧ held' ⊆ held) held := by
  induction p with
  | ret r => exact fun held => (meets_pure r).2 ⟨(within_pure r).1 hp, List.Subset.refl held⟩
  | throw e => exact fun _ => meets_throw e
  | call o k ih =>
    obtain ⟨ho, hk⟩ := (within_call o k).1 hp
    intro held
    have hnext (r : _) : tracking.next held o r ⊆ held := by
      simp only [tracking, holding]
      split
      · exact List.filter_subset_self held
      · rw [ho r]
        exact List.Subset.refl held
    refine (meets_call o k).2 ⟨trivial, fun r _ => (ih r (hk r) _).mono fun a held' h => ?_⟩
    exact ⟨h.1, List.Subset.trans h.2 (hnext r)⟩

def Leaves (b : List Fd) (p : Io α) (P : α → List Fd → Prop) : Prop := ∀ held ⊆ b, Meets tracking p P held

lemma leaves_pure {a : α} (h : ∀ held ⊆ b, P a held) : Leaves b (pure a) P :=
  fun held hheld => (meets_pure a).2 (h held hheld)

lemma leaves_bind {p : Io β} {f : β → Io α} (h : Leaves b p fun r held => Meets tracking (f r) P held) :
    Leaves b (p >>= f) P :=
  fun held hheld => meets_bind.2 (h held hheld)

lemma leaves_ite {c : Prop} [Decidable c] {p q : Io α} (hp : c → Leaves b p P) (hq : ¬c → Leaves b q P) :
    Leaves b (if c then p else q) P := by
  split
  · exact hp ‹c›
  · exact hq ‹¬c›

lemma leaves_shut {p : Io β} (hp : p.Within Shut Q) {f : β → Io α} (hf : ∀ r, Q r → Leaves b (f r) P) :
    Leaves b (p >>= f) P :=
  fun held hheld => meets_bind.2 ((shut_meets hp held).mono fun r _ h => hf r h.1 _ (List.Subset.trans h.2 hheld))

lemma leaves_kinds {ks : List Kind} {p : Io β} (hp : p.Within (Kinds ks) Q) (hks : ks ⊆ shutKinds) {f : β → Io α}
    (hf : ∀ r, Q r → Leaves b (f r) P) : Leaves b (p >>= f) P :=
    leaves_shut (allows_shut.within (hp.mono (fun _ h => hks h) fun _ => id)) hf

lemma leaves_ask (o : Call β) (ho : o.kind ∈ shutKinds) {f : β → Io α} (hf : ∀ r, Leaves b (f r) P) :
    Leaves b (perform o >>= f) P := by
  have hask : (perform o).Within Shut fun _ => True :=
    (within_perform o).2 ⟨allows_shut ⟨β, o⟩ ho, fun _ => trivial⟩
  exact leaves_shut hask fun r _ => hf r

lemma leaves_try (x : Except Errc β) {f : β → Io α} (hf : ∀ r, Leaves b (f r) P) :
    Leaves b (orThrow x >>= f) P := by
  cases x with
  | ok r => exact hf r
  | error e => exact fun _ _ => meets_throw _

lemma leaves_reply (code : ℕ) (text : Str) {f : Unit → Io α} (hf : Leaves b (f ()) P) :
    Leaves b (s.reply code text >>= f) P := by
  have hp : (s.reply code text).Within (Kinds [.reply]) fun _ => True := by simp
  exact leaves_kinds hp (by simp [shutKinds]) fun _ _ => hf

lemma leaves_return (code : ℕ) (text : Str) {a : α} (hP : ∀ held ⊆ b, P a held) :
    Leaves b (s.reply code text >>= fun _ => pure a) P := leaves_reply code text (leaves_pure hP)

lemma leaves_open {o : Call β} (ho : o.closed? = none) {f : β → Io α}
    (hnone : ∀ r, o.opened? r = none → Leaves b (f r) P)
    (hsome : ∀ r fd, o.opened? r = some fd → Leaves (fd :: b) (f r) P) : Leaves b (perform o >>= f) P := by
  refine fun held hheld => meets_bind.2 ((meets_perform o).2 ⟨trivial, fun r _ => ?_⟩)
  simp only [tracking, holding, ho]
  cases hfd : o.opened? r with
  | none => exact hnone r hfd held hheld
  | some fd => exact hsome r fd hfd _ (List.cons_subset_cons fd hheld)

lemma leaves_close {b' : List Fd} (hb : ∀ n ∈ b, n ≠ fd → n ∈ b') {f : Unit → Io α} (hf : Leaves b' (f ()) P) :
    Leaves b (perform (.close fd) >>= f) P := by
  refine fun held hheld => meets_bind.2 ((meets_perform _).2 ⟨trivial, fun _ _ => ?_⟩)
  refine hf _ fun n hn => ?_
  obtain ⟨hmem, hne⟩ := List.mem_filter.1 hn
  exact hb n (hheld hmem) (of_decide_eq_true hne)

lemma leaves_done {f : Unit → Io α} (hf : Leaves b (f ()) P) : Leaves (fd :: b) (perform (.close fd) >>= f) P := by
  refine leaves_close (fun n hn hne => ?_) hf
  rcases List.mem_cons.1 hn with rfl | hn
  · exact absurd rfl hne
  · exact hn

lemma leaves_accept (d : DataConnection) {f : Option (Fd × Peer) × DataConnection → Io α}
    (hnone : ∀ d', d'.passive_listen_socket_ = d.passive_listen_socket_ → Leaves b (f (none, d')) P)
    (hsome : ∀ fd peer d', d'.passive_listen_socket_ = d.passive_listen_socket_ →
      Leaves (fd :: b) (f (some (fd, peer), d')) P) :
    Leaves b (d.acceptDataConnection >>= f) P := by
  unfold DataConnection.acceptDataConnection DataConnection.connectActiveDataSocket
  refine leaves_bind (leaves_ite (fun _ => leaves_ite (fun _ => ?_) fun _ => ?_) fun _ => ?_)
  · exact leaves_pure (hnone d rfl)
  · refine leaves_open rfl (fun made hmade => ?_) fun made fd hmade => ?_
    · cases hmade
      exact leaves_pure (hnone _ rfl)
    · cases hmade
      cases inetPton d.active_mode_ip_ with
      | none => exact leaves_done (leaves_pure (hnone _ rfl))
      | some _ =>
        have hconnect : (perform (.connect fd d.active_mode_ip_ d.active_mode_port_)).Within Shut fun _ => True :=
          (within_perform _).2 ⟨fun _ => rfl, fun _ => trivial⟩
        refine leaves_shut hconnect fun peer _ => ?_
        cases peer with
        | none => exact leaves_done (leaves_pure (hnone _ rfl))
        | some peer => exact leaves_pure (hsome fd peer _ rfl)
  · cases hlistener : d.passive_listen_socket_ with
    | none => exact leaves_pure (hnone d rfl)
    | some listener =>
      refine leaves_ask (.select listener) (by simp [Call.kind, shutKinds]) fun ready => ?_
      refine leaves_ite (fun _ => leaves_pure (hnone d rfl)) fun _ => ?_
      refine leaves_open rfl (fun accepted h => ?_) fun accepted fd h => ?_
      · obtain rfl : accepted = none := Option.map_eq_none_iff.1 h
        exact leaves_pure (hnone _ hlistener.symm)
      · obtain ⟨⟨n, peer⟩, rfl, rfl⟩ := Option.map_eq_some_iff.1 h
        exact leaves_pure (hsome n peer _ hlistener.symm)

namespace Session

def sockets (s : Session) : List Fd := s.socket_.toList ++ s.data.passive_listen_socket_.toList

def Left (s : Session) (held : List Fd) : Prop := held ⊆ s.sockets

def LeftWith (s : Session) (d : DataConnection) (held : List Fd) : Prop := { s with data := d }.Left held

lemma sockets_of_kept {s' : Session} (hsocket : s'.socket_ = s.socket_)
    (hl : s'.data.passive_listen_socket_ = s.data.passive_listen_socket_) : s'.sockets = s.sockets := by
  rw [sockets, sockets, hsocket, hl]

lemma left_of_kept {s' : Session} (hsocket : s'.socket_ = s.socket_)
    (hl : s'.data.passive_listen_socket_ = s.data.passive_listen_socket_) : ∀ held ⊆ s.sockets, s'.Left held :=
  fun held hheld => by
    rw [Left, sockets_of_kept hsocket hl]
    exact hheld

lemma leftWith_of_kept {d : DataConnection} (hl : d.passive_listen_socket_ = s.data.passive_listen_socket_) :
    ∀ held ⊆ s.sockets, s.LeftWith d held := left_of_kept rfl hl

lemma handleLIST_leaves (path : Str) : Leaves s.sockets (s.handleLIST path) s.LeftWith := by
  have hsame := leftWith_of_kept (s := s) (d := s.data) rfl
  refine leaves_ask .nameSpace (by simp [Call.kind, shutKinds]) fun fs => ?_
  refine leaves_ite (fun _ => leaves_return _ _ hsame) fun _ => ?_
  refine leaves_ite (fun _ => leaves_return _ _ hsame) fun _ => ?_
  refine leaves_ask (.status _) (by simp [Call.kind, shutKinds]) fun r => ?_
  refine leaves_try r fun found => ?_
  refine leaves_ite (fun _ => leaves_return _ _ hsame) fun _ => leaves_reply _ _ ?_
  refine leaves_accept _ (fun d hd => ?_) fun data_fd peer d hd => ?_
  · exact leaves_return _ _ (leftWith_of_kept hd)
  · refine leaves_ask (.status _) (by simp [Call.kind, shutKinds]) fun r => ?_
    refine leaves_try r fun kind => ?_
    have hfile (p : Str) : ((do
        let size ← orThrow (← perform (.fileSize p))
        return some ("-rw-rw-rw- 1 owner group " ++ decimal size ++ " " ++ Path.filename p ++ "\r\n") :
          Io (Option Str))).Within (Kinds [.query]) fun _ => True := by simp [within_bind, Call.kind]
    refine leaves_kinds (within_ite.2 ⟨fun _ => listDirectory_within (by simp) _, fun _ => hfile _⟩)
      (by simp [shutKinds]) fun listing _ => ?_
    cases listing with
    | none => exact leaves_done (leaves_return _ _ (leftWith_of_kept hd))
    | some listing =>
      refine leaves_ask (.send data_fd listing) (by simp [Call.kind, shutKinds]) fun _ => ?_
      exact leaves_done (leaves_return _ _ (leftWith_of_kept hd))

lemma handleMLSD_leaves (path : Str) : Leaves s.sockets (s.handleMLSD path) s.LeftWith := by
  have hsame := leftWith_of_kept (s := s) (d := s.data) rfl
  refine leaves_ask .nameSpace (by simp [Call.kind, shutKinds]) fun fs => ?_
  refine leaves_ite (fun _ => leaves_return _ _ hsame) fun _ => ?_
  refine leaves_ite (fun _ => leaves_return _ _ hsame) fun _ => ?_
  refine leaves_ask (.status _) (by simp [Call.kind, shutKinds]) fun found => ?_
  refine leaves_ite (fun _ => leaves_return _ _ hsame) fun _ => leaves_reply _ _ ?_
  refine leaves_accept _ (fun d hd => ?_) fun data_fd peer d hd => ?_
  · exact leaves_return _ _ (leftWith_of_kept hd)
  · refine leaves_ask (.readDirectory _) (by simp [Call.kind, shutKinds]) fun entries => ?_
    refine leaves_kinds (machineEntries_within (by simp : Kind.query ∈ [.query]) _ _) (by simp [shutKinds])
      fun listing _ => ?_
    obtain ⟨names, _ | failure⟩ := entries
    · refine leaves_ask (.send data_fd listing) (by simp [Call.kind, shutKinds]) fun _ => ?_
      exact leaves_done (leaves_return _ _ (leftWith_of_kept hd))
    · exact leaves_done (leaves_return _ _ (leftWith_of_kept hd))

lemma leaves_both {data_fd file_fd : Fd} {a : α} (hP : ∀ held ⊆ b, P a held) :
    Leaves (file_fd :: data_fd :: b) (do perform (.close file_fd); perform (.close data_fd); return a) P :=
  leaves_done (leaves_done (leaves_pure hP))

lemma retrieveTo_leaves {data_fd : Fd} (path : Str) :
    Leaves (data_fd :: b) (s.retrieveTo env data_fd path) fun _ held => held ⊆ b := by
  refine leaves_ask .steadyNow (by simp [Call.kind, shutKinds]) fun start => ?_
  refine leaves_open rfl (fun opened h => ?_) fun opened file_fd h => ?_
  · obtain rfl : opened = none := h
    exact leaves_done (leaves_pure fun _ => id)
  · obtain rfl : opened = some file_fd := h
    refine leaves_ask (.fstat file_fd) (by simp [Call.kind, shutKinds]) fun st => ?_
    rcases st with _ | ⟨_ | _, size⟩
    · exact leaves_both fun _ => id
    · exact leaves_both fun _ => id
    · refine leaves_ite (fun _ => leaves_both fun _ => id) fun _ => ?_
      refine leaves_kinds (sendOpened_within (List.Subset.refl [Kind.memory, .clock, .transfer]) _ _ _ _)
        (by simp [shutKinds])
        fun r _ => ?_
      exact leaves_both fun _ => id

lemma leaves_modeZ {P : Session → List Fd → Prop} {f : Option Session → Io Session} (hnone : Leaves b (f none) P)
    (hsome : ∀ n, Leaves b (f (some { s with resume_position_ := n })) P) :
    Leaves b (s.modeZRefusal env >>= f) P := by
  refine leaves_kinds (modeZRefusal_within (by simp : Kind.reply ∈ [.reply])) (by simp [shutKinds]) fun r hr => ?_
  cases r with
  | none => exact hnone
  | some s' =>
    obtain ⟨n, rfl⟩ := hr s' rfl
    exact hsome n

lemma leaves_after {γ : Type} {p : Io γ} {b' : List Fd} (hp : Leaves b' p fun _ held => held ⊆ b) {f : γ → Io α}
    (hf : ∀ r, Leaves b (f r) P) : Leaves b' (p >>= f) P :=
  leaves_bind fun held hheld => (hp held hheld).mono fun r held' hheld' => hf r held' hheld'

lemma handleRETR_leaves (filename : Str) : Leaves s.sockets (s.handleRETR env filename) Left := by
  have hsame : ∀ held ⊆ s.sockets, s.Left held := left_of_kept rfl rfl
  refine leaves_ask .nameSpace (by simp [Call.kind, shutKinds]) fun fs => ?_
  refine leaves_ite (fun _ => leaves_return _ _ hsame) fun _ => ?_
  refine leaves_ite (fun _ => leaves_return _ _ hsame) fun _ => ?_
  refine leaves_ask (.status _) (by simp [Call.kind, shutKinds]) fun r => ?_
  refine leaves_try r fun found => ?_
  refine leaves_ite (fun _ => leaves_return _ _ hsame) fun _ => ?_
  refine leaves_modeZ (leaves_reply _ _ ?_) fun n => leaves_pure (left_of_kept rfl rfl)
  refine leaves_accept _ (fun d hd => ?_) fun data_fd peer d hd => ?_
  · exact leaves_return _ _ (left_of_kept rfl hd)
  · refine leaves_after (retrieveTo_leaves _) fun r => ?_
    obtain ⟨code, text, used⟩ := r
    refine leaves_return _ _ ?_
    split <;> exact left_of_kept rfl hd

lemma openTarget_leaves {path : Str} {f : Option OutFile → Io α} (hnone : Leaves b (f none) P)
    (hsome : ∀ g : OutFile, Leaves (g.fd :: b) (f (some g)) P) : Leaves b (s.openTarget path >>= f) P := by
  have htruncate : Leaves b (do
      let opened : Option Fd ← perform (.openWrite path .truncate)
      return opened.map fun fd => (⟨fd, 0, true⟩ : OutFile)) fun r held => Meets tracking (f r) P held := by
    refine leaves_open rfl (fun opened h => ?_) fun opened fd h => ?_
    · obtain rfl : opened = none := h
      exact leaves_pure hnone
    · obtain rfl : opened = some fd := h
      exact leaves_pure (hsome ⟨fd, 0, true⟩)
  refine leaves_bind (leaves_bind (leaves_ite (fun _ => ?_) fun _ => leaves_pure htruncate))
  refine leaves_ask (.status path) (by simp [Call.kind, shutKinds]) fun r => ?_
  refine leaves_try r fun found => ?_
  refine leaves_ite (fun _ => ?_) fun _ => leaves_pure htruncate
  rw [← bind_pure (perform (.openWrite path .update))]
  refine leaves_open rfl (fun opened h => ?_) fun opened fd h => ?_
  · obtain rfl : opened = none := h
    exact leaves_pure htruncate
  · obtain rfl : opened = some fd := h
    refine leaves_pure fun held hheld => ?_
    exact (meets_pure _).2 (hsome ⟨fd, s.resume_position_.toNat, true⟩ held hheld)

lemma receiveTo_leaves {data_fd : Fd} (peer : Peer) (g : OutFile) :
    Leaves (g.fd :: data_fd :: b) (s.receiveTo env data_fd peer g) fun _ held => held ⊆ b := by
  have hkinds : [.clock, .transfer, .write] ⊆ shutKinds := by simp [shutKinds]
  refine leaves_ask .steadyNow (by simp [Call.kind, shutKinds]) fun start => ?_
  refine leaves_ite (fun _ => ?_) fun _ => ?_
  · refine leaves_ask (.zlibInit .inflate) (by simp [Call.kind, shutKinds]) fun valid => ?_
    refine leaves_ite (fun _ => leaves_both fun _ => id) fun _ => ?_
    refine leaves_kinds (inflateLoop_within (List.Subset.refl _) _ _ _ _ _ _ _ _ _) hkinds fun ok _ => ?_
    exact leaves_both fun _ => id
  · refine leaves_kinds (receiveLoop_within (List.Subset.refl _) _ _ _ _ _ _ _) hkinds fun _ _ => ?_
    exact leaves_both fun _ => id

lemma storeFrom_leaves {data_fd : Fd} (peer : Peer) (path : Str) :
    Leaves (data_fd :: b) (s.storeFrom env data_fd peer path) fun _ held => held ⊆ b := by
  have hparents (p : Str) : (perform (.createDirectories p)).Within Shut fun _ => True :=
    (within_perform _).2 ⟨fun _ => rfl, fun _ => trivial⟩
  refine leaves_bind (leaves_ite (fun _ => ?_) fun _ => leaves_pure ?_)
  · refine leaves_shut (hparents _) fun r _ => ?_
    refine leaves_try r fun _ => leaves_pure ?_
    exact openTarget_leaves (leaves_done (leaves_pure fun _ => id)) fun g => receiveTo_leaves peer g
  · exact openTarget_leaves (leaves_done (leaves_pure fun _ => id)) fun g => receiveTo_leaves peer g

lemma handleSTOR_leaves (filename : Str) : Leaves s.sockets (s.handleSTOR env filename) Left := by
  have hsame : ∀ held ⊆ s.sockets, s.Left held := left_of_kept rfl rfl
  refine leaves_ask .nameSpace (by simp [Call.kind, shutKinds]) fun fs => ?_
  refine leaves_ite (fun _ => leaves_return _ _ hsame) fun _ => ?_
  refine leaves_ite (fun _ => leaves_return _ _ hsame) fun _ => ?_
  refine leaves_kinds (quotaExceeded_within (by simp : Kind.query ∈ [.query])) (by simp [shutKinds])
    fun exceeded _ => ?_
  refine leaves_ite (fun _ => leaves_return _ _ hsame) fun _ => ?_
  refine leaves_modeZ (leaves_reply _ _ ?_) fun n => leaves_pure (left_of_kept rfl rfl)
  refine leaves_accept _ (fun d hd => ?_) fun data_fd peer d hd => ?_
  · exact leaves_return _ _ (left_of_kept rfl hd)
  · refine leaves_after (storeFrom_leaves peer _) fun r => ?_
    obtain ⟨code, text, used⟩ := r
    refine leaves_return _ _ ?_
    split <;> exact left_of_kept rfl hd

lemma handleSTOU_leaves (filename : Str) : Leaves s.sockets (s.handleSTOU env filename) Left := by
  refine leaves_kinds (uniqueName_within (by simp : Kind.query ∈ [.query]) _ _ _ _) (by simp [shutKinds])
    fun unique _ => ?_
  cases unique with
  | none => exact leaves_return _ _ (left_of_kept rfl rfl)
  | some unique =>
    refine leaves_bind fun held hheld => ?_
    let s₁ : Session := { s with store_unique_name_ := unique, resume_position_ := 0 }
    have hstored : Leaves s₁.sockets (s₁.handleSTOR env unique) Left := handleSTOR_leaves unique
    exact (hstored held hheld).mono fun s' held' h => (meets_pure _).2 h

lemma handleAPPE_leaves (filename : Str) : Leaves s.sockets (s.handleAPPE filename) Left := by
  have hsame : ∀ held ⊆ s.sockets, s.Left held := left_of_kept rfl rfl
  refine leaves_ask .nameSpace (by simp [Call.kind, shutKinds]) fun fs => ?_
  refine leaves_ite (fun _ => leaves_return _ _ hsame) fun _ => ?_
  refine leaves_ite (fun _ => leaves_return _ _ hsame) fun _ => ?_
  refine leaves_ite (fun _ => leaves_return _ _ hsame) fun _ => leaves_reply _ _ ?_
  refine leaves_accept _ (fun d hd => ?_) fun data_fd peer d hd => ?_
  · exact leaves_return _ _ (left_of_kept rfl hd)
  · refine leaves_ask (.status _) (by simp [Call.kind, shutKinds]) fun r => ?_
    refine leaves_try r fun found => ?_
    refine leaves_open rfl (fun opened h => ?_) fun opened fd h => ?_
    · obtain rfl : opened = none := h
      exact leaves_done (leaves_return _ _ (left_of_kept rfl hd))
    · obtain rfl : opened = some fd := h
      refine leaves_kinds (appendLoop_within (List.Subset.refl _) _ _ _ _ _) (by simp [shutKinds]) fun _ _ => ?_
      exact leaves_done (leaves_done (leaves_return _ _ (left_of_kept rfl hd)))

lemma closeDataSocket_leaves {d : DataConnection} {b' : List Fd}
    (hb : ∀ n ∈ b, d.passive_listen_socket_ ≠ some n → n ∈ b') {f : DataConnection → Io α}
    (hf : Leaves b' (f { d with data_socket_ := none, passive_listen_socket_ := none }) P) :
    Leaves b (d.closeDataSocket >>= f) P := by
  have hdata : (closeHeld d.data_socket_).Within (Kinds [.close]) fun _ => True :=
    closeHeld_within (by simp) _ trivial
  unfold DataConnection.closeDataSocket
  refine leaves_bind (leaves_kinds hdata (by simp [shutKinds]) fun _ _ => ?_)
  cases hl : d.passive_listen_socket_ with
  | none =>
    refine leaves_pure fun held hheld => ?_
    exact hf held fun n hn => hb n (hheld hn) (by simp [hl])
  | some listener => exact leaves_close (fun n hn hne => hb n hn (by simpa [hl] using hne.symm)) (leaves_pure hf)

lemma createPassiveDataSocket_leaves (d : DataConnection) (config : ConnectionConfig)
    {f : Int × DataConnection → Io α}
    (hf : ∀ port d', Leaves (b ++ d'.passive_listen_socket_.toList) (f (port, d')) P) :
    Leaves b (d.createPassiveDataSocket config >>= f) P := by
  have hnone (port : Int) (d' : DataConnection) (h : d'.passive_listen_socket_ = none) :
      Leaves b (f (port, d')) P := by
    have hleaves := hf port d'
    rw [h, Option.toList_none, List.append_nil] at hleaves
    exact hleaves
  refine leaves_bind (closeDataSocket_leaves (fun n hn _ => hn) ?_)
  refine leaves_open rfl (fun made h => ?_) fun made fd h => ?_
  · obtain rfl : made = none := h
    exact leaves_pure (hnone _ _ rfl)
  · obtain rfl : made = some fd := h
    refine leaves_kinds (DataConnection.bindFrom_within (by simp : Kind.transfer ∈ [.transfer]) _ _ _)
      (by simp [shutKinds])
      fun found _ => ?_
    cases found with
    | none => exact leaves_done (leaves_pure (hnone _ _ rfl))
    | some port =>
      refine leaves_pure fun held hheld => hf port _ held (List.Subset.trans hheld ?_)
      exact List.cons_subset.2 ⟨List.mem_append_right _ List.mem_cons_self, List.subset_append_left _ _⟩

lemma closing_leaves {d : DataConnection} (hl : d.passive_listen_socket_ = s.data.passive_listen_socket_)
    {f : DataConnection → Io α}
    (hf : Leaves s.socket_.toList (f { d with data_socket_ := none, passive_listen_socket_ := none }) P) :
    Leaves s.sockets (d.closeDataSocket >>= f) P := by
  refine closeDataSocket_leaves (fun n hn hne => ?_) hf
  rcases List.mem_append.1 hn with hn | hn
  · exact hn
  · exact absurd (hl.trans (Option.mem_toList.1 hn)) hne

lemma leftWith_of_closed {d : DataConnection} (hl : d.passive_listen_socket_ = none) :
    ∀ held ⊆ s.socket_.toList, s.LeftWith d held := by
  intro held hheld
  rw [LeftWith, Left, sockets, hl, Option.toList_none, List.append_nil]
  exact hheld

lemma passive_leaves (config : ConnectionConfig) (f : Int → Str) (code : ℕ) : Leaves s.sockets (do
        let d ← { s.data with active_mode_enabled_ := false }.closeDataSocket
        let (port, d) ← d.createPassiveDataSocket config
        if port < 0 then do
          s.reply 425 "Can't open passive connection"
          return d
        else do
          s.reply code (f port)
          return d : Io DataConnection) s.LeftWith := by
  refine closing_leaves (by rfl) (createPassiveDataSocket_leaves _ config fun port d => ?_)
  refine leaves_ite (fun _ => leaves_return _ _ fun _ => id) fun _ => ?_
  exact leaves_return _ _ fun _ => id

lemma handlePASV_leaves : Leaves s.sockets (s.handlePASV env) s.LeftWith := by
  rw [handlePASV]
  refine leaves_ite (fun _ => leaves_return _ _ (leftWith_of_kept rfl)) fun _ => ?_
  exact passive_leaves _ formatPassiveResponse _

lemma handleEPSV_leaves (a : Str) : Leaves s.sockets (s.handleEPSV env a) s.LeftWith := by
  rw [handleEPSV]
  refine leaves_ite (fun _ => leaves_return _ _ (leftWith_of_kept rfl)) fun _ => ?_
  refine leaves_ite (fun _ => leaves_return _ _ (leftWith_of_kept rfl)) fun _ => ?_
  exact passive_leaves _ (fun port => "Entering Extended Passive Mode (|||" ++ decimalInt port ++ "|)") _

lemma handlePORT_leaves (a : Str) : Leaves s.sockets (s.handlePORT a) s.LeftWith := by
  rw [handlePORT]
  refine leaves_ite (fun _ => leaves_return _ _ (leftWith_of_kept rfl)) fun _ => ?_
  split
  · refine leaves_ite (fun _ => leaves_return _ _ (leftWith_of_kept rfl)) fun _ => ?_
    exact closing_leaves (by rfl) (leaves_return _ _ (leftWith_of_closed rfl))
  · exact leaves_return _ _ (leftWith_of_kept rfl)

lemma handleEPRT_leaves (a : Str) : Leaves s.sockets (s.handleEPRT a) s.LeftWith := by
  have hsame := leftWith_of_kept (s := s) (d := s.data) rfl
  rw [handleEPRT]
  refine leaves_ite (fun _ => leaves_return _ _ hsame) fun _ => ?_
  refine leaves_ite (fun _ => leaves_return _ _ hsame) fun _ => ?_
  refine leaves_ite (fun _ => leaves_return _ _ hsame) fun _ => ?_
  split
  · refine leaves_ite (fun _ => leaves_return _ _ hsame) fun _ => ?_
    split
    · exact leaves_return _ _ hsame
    · refine leaves_ite (fun _ => leaves_return _ _ hsame) fun _ => ?_
      exact closing_leaves (by rfl) (leaves_return _ _ (leftWith_of_closed rfl))
  · exact leaves_return _ _ hsame

lemma handleABOR_leaves : Leaves s.sockets s.handleABOR s.LeftWith :=
  closing_leaves rfl (leaves_return _ _ (leftWith_of_closed rfl))

lemma stop_leaves : Leaves s.sockets (s.stop env) Left := by
  have hunregister : (s.unregister env).Within (Kinds [.register]) fun _ => True := by
    simp [unregister, Call.kind]
  refine leaves_kinds hunregister (by simp [shutKinds]) fun _ _ => ?_
  refine leaves_ask .deactivate (by simp [Call.kind, shutKinds]) fun _ => closing_leaves rfl ?_
  cases s.socket_ with
  | none => exact leaves_pure fun _ => id
  | some fd => exact leaves_done (leaves_pure fun _ => id)

lemma shut_call {o : Call β} (ho : Shut ⟨β, o⟩) {f : β → Io α} {P : α → Prop} (hf : ∀ r, (f r).Within Shut P) :
    (perform o >>= f).Within Shut P := within_bind.2 ((within_perform o).2 ⟨ho, hf⟩)

lemma reply_shut (code : ℕ) (text : Str) : (s.reply code text).Within Shut fun _ => True :=
  allows_shut.within ((reply_within (by simp [shutKinds]) code text).2 trivial)

lemma try_shut (x : Except Errc β) {f : β → Io α} {P : α → Prop} (hf : ∀ r, (f r).Within Shut P) :
    (orThrow x >>= f).Within Shut P :=
  orThrow_calls allows_shut x hf

lemma handleDELE_shut (a : Str) : (s.handleDELE a).Within Shut fun _ => True := by
  refine shut_call (fun _ => rfl) fun fs => ?_
  refine within_ite.2 ⟨fun _ => reply_shut _ _, fun _ => ?_⟩
  refine within_ite.2 ⟨fun _ => reply_shut _ _, fun _ => ?_⟩
  refine shut_call (fun _ => rfl) fun r => ?_
  refine try_shut r fun found => ?_
  refine within_ite.2 ⟨fun _ => ?_, fun _ => reply_shut _ _⟩
  refine shut_call (fun _ => rfl) fun r => try_shut r fun removed => ?_
  exact within_ite.2 ⟨fun _ => reply_shut _ _, fun _ => reply_shut _ _⟩

lemma handleMKD_shut (a : Str) : (s.handleMKD a).Within Shut fun _ => True := by
  refine shut_call (fun _ => rfl) fun fs => ?_
  refine within_ite.2 ⟨fun _ => reply_shut _ _, fun _ => ?_⟩
  refine within_ite.2 ⟨fun _ => reply_shut _ _, fun _ => ?_⟩
  refine shut_call (fun _ => rfl) fun r => try_shut r fun made => ?_
  exact within_ite.2 ⟨fun _ => reply_shut _ _, fun _ => reply_shut _ _⟩

lemma handleRMD_shut (a : Str) : (s.handleRMD a).Within Shut fun _ => True := by
  refine shut_call (fun _ => rfl) fun fs => ?_
  refine within_ite.2 ⟨fun _ => reply_shut _ _, fun _ => ?_⟩
  refine within_ite.2 ⟨fun _ => reply_shut _ _, fun _ => ?_⟩
  refine shut_call (fun _ => rfl) fun r => ?_
  refine try_shut r fun found => ?_
  refine within_ite.2 ⟨fun _ => ?_, fun _ => reply_shut _ _⟩
  refine shut_call (fun _ => rfl) fun r => try_shut r fun removed => ?_
  exact within_ite.2 ⟨fun _ => reply_shut _ _, fun _ => reply_shut _ _⟩

lemma renameTo_shut (a : Str) : (s.renameTo a).Within Shut fun _ => True := by
  refine shut_call (fun _ => rfl) fun fs => ?_
  refine within_ite.2 ⟨fun _ => reply_shut _ _, fun _ => ?_⟩
  refine within_ite.2 ⟨fun _ => reply_shut _ _, fun _ => ?_⟩
  refine shut_call (fun _ => rfl) fun r => ?_
  refine try_shut r fun found => ?_
  refine within_ite.2 ⟨fun _ => reply_shut _ _, fun _ => ?_⟩
  refine shut_call (fun _ => rfl) fun renamed => ?_
  cases renamed <;> exact reply_shut _ _

lemma siteChmod_shut (mode target : Str) : (s.siteChmod mode target).Within Shut fun _ => True := by
  refine within_ite.2 ⟨fun _ => reply_shut _ _, fun _ => ?_⟩
  refine shut_call (fun _ => rfl) fun fs => ?_
  refine within_ite.2 ⟨fun _ => reply_shut _ _, fun _ => ?_⟩
  refine within_ite.2 ⟨fun _ => reply_shut _ _, fun _ => ?_⟩
  split
  · exact reply_shut _ _
  · refine shut_call (fun _ => rfl) fun failure => ?_
    cases failure <;> exact reply_shut _ _

lemma handleRNTO_shut (a : Str) : (s.handleRNTO a).Within Shut fun _ => True := by
  refine within_ite.2 ⟨fun _ => ?_, fun _ => ?_⟩
  · exact (reply_shut _ _).andReturn fun _ => trivial
  · exact (renameTo_shut a).andReturn fun _ => trivial

lemma handleSITE_shut (a : Str) : (s.handleSITE a).Within Shut fun _ => True := by
  refine within_ite.2 ⟨fun _ => ?_, fun _ => ?_⟩
  · exact allows_shut.within (sendLines_within (by simp [shutKinds]) _)
  · refine within_ite.2 ⟨fun _ => reply_shut _ _, fun _ => ?_⟩
    exact within_ite.2 ⟨fun _ => siteChmod_shut _ _, fun _ => reply_shut _ _⟩

lemma quiet_shut (c : Command) (hc : c.verb.usesData = false) : (s.handle env c).Within Shut fun _ => True := by
  have hkinds (h : c.verb.kinds s.data ⊆ shutKinds) : (s.handle env c).Within Shut fun _ => True :=
    allows_shut.within ((handle_within c).mono (fun _ ho => h ho) fun _ _ => trivial)
  rcases c with ⟨v, a⟩
  cases v with
  | dele => exact (handleDELE_shut a).andReturn fun _ => trivial
  | mkd => exact (handleMKD_shut a).andReturn fun _ => trivial
  | rmd => exact (handleRMD_shut a).andReturn fun _ => trivial
  | rnto => exact (handleRNTO_shut a).andReturn fun _ => trivial
  | site => exact (handleSITE_shut a).andReturn fun _ => trivial
  | list | mlsd | retr | stor | stou | appe | pasv | epsv | port | eprt | abor => cases hc
  | _ => exact hkinds (by simp [Verb.kinds, passKinds, shutKinds])

lemma handle_leaves (c : Command) : Leaves s.sockets (s.handle env c) Left := by
  have hkeeps {p : Io DataConnection} (hp : Leaves s.sockets p s.LeftWith) :
      Leaves s.sockets (p >>= fun d => pure { s with data := d }) Left :=
    leaves_bind fun held hheld => (hp held hheld).mono fun _ _ hd => (meets_pure _).2 hd
  by_cases hc : c.verb.usesData = true
  · rcases c with ⟨v, a⟩
    cases v with
    | list => exact hkeeps (handleLIST_leaves a)
    | mlsd => exact hkeeps (handleMLSD_leaves a)
    | retr => exact handleRETR_leaves a
    | stor => exact handleSTOR_leaves a
    | stou => exact handleSTOU_leaves a
    | appe => exact handleAPPE_leaves a
    | pasv => exact hkeeps handlePASV_leaves
    | epsv => exact hkeeps (handleEPSV_leaves a)
    | port => exact hkeeps (handlePORT_leaves a)
    | eprt => exact hkeeps (handleEPRT_leaves a)
    | abor => exact hkeeps handleABOR_leaves
    | _ => simp [Verb.usesData] at hc
  · have hquiet : c.verb.usesData = false := by simpa using hc
    have hwithin : (s.handle env c).Within _ fun s' => Verb.Effect c.argument s s' c.verb := handle_within c
    have hboth := (hwithin.both (quiet_shut c hquiet)).mono (fun _ ho => (ho.2 : Shut _)) fun _ => id
    refine fun held hheld => (shut_meets hboth held).mono fun s' held' h => ?_
    exact left_of_kept h.1.frame.socket (by rw [h.1.frame.data hquiet]) held' (List.Subset.trans h.2 hheld)

lemma welcome_leaves : Leaves s.sockets s.welcome Left := leaves_return _ _ fun _ => id

lemma take_leaves (t : Turn) : Leaves s.sockets (s.take env t) Left := by
  cases t with
  | line line =>
    change Leaves s.sockets (s.dispatch env line) Left
    rcases dispatch_cases env s line with ⟨_, hd⟩ | ⟨_, _, hd⟩
    · rw [hd]
      exact handle_leaves _
    · rw [hd]
      exact leaves_return _ _ fun _ => id
  | stop => exact stop_leaves

end Session

end

def Serving.Fresh (st : Serving (List Fd)) : Prop := st.Unopened [] ∧ st.world.fds = []

variable {env : Service}

lemma trackers_keep {st : Serving (List Fd)} (h : ((owners env).system Serving.Fresh).Reach System.anyStep st) :
    st.Keeps tracking World.KnownTo fun _ => Session.Left := by
  induction h with
  | @init st hst =>
    intro i
    rw [(hst.1 i).1, (hst.1 i).2]
    exact ⟨by simp [World.KnownTo, World.owner, hst.2], by simp⟩
  | @step st st' l hreach _ hnext ih =>
    refine ih.step ?_ ?_ ?_ (fun _ _ hR hP => ⟨hR, hP⟩) (fun _ _ _ => rfl) hnext
    · rintro i e rfl hi
      have hnone := Threads.unentered _ (fun st hst i => (hst.1 i).2) hreach i hi
      refine ⟨fun fd hfd => ?_, Session.welcome_leaves _ (List.Subset.refl _), fun j hj fd hfd => ?_⟩
      · rcases World.owner_of_openFd hfd with hfd | ⟨rfl, _⟩
        · have hmem := (ih i).1 fd hfd
          rw [hnone] at hmem
          cases hmem
        · exact List.mem_singleton_self _
      · rcases World.owner_of_openFd hfd with hfd | ⟨_, hij⟩
        · exact (ih j).1 fd hfd
        · exact absurd hij hj
    · rintro i s t rfl hs _
      exact ⟨(ih i).1, Session.take_leaves t _ hs⟩
    · rintro β i o rfl _ _
      have hown := (ih i).1.answer (i := i) o
      rw [if_pos rfl] at hown
      refine ⟨trivial, hown, fun j hj => ?_⟩
      have hother := (ih j).1.answer (i := i) o
      rw [if_neg hj] at hother
      exact hother

theorem sessions_leave_nothing_open {st : Serving (List Fd)}
    (h : ((owners env).system Serving.Fresh).Reach System.anyStep st)
    {i : SessionId} {s : Session} (hs : st.waiting i = some s) {fd : Fd} (hfd : st.world.owner fd = some i) :
    s.socket_ = some fd ∨ s.data.passive_listen_socket_ = some fd := by
  have hleft : s.Left (st.history i) := by
    have hidle := (trackers_keep h i).2
    unfold Pool.waiting at hs
    split at hs
    · rename_i t ht
      cases hs
      exact hidle _ ht
    · cases hs
  have hmem := hleft ((trackers_keep h i).1 fd hfd)
  rw [Session.sockets, List.mem_append, Option.mem_toList, Option.mem_toList] at hmem
  exact hmem

theorem sessions_leave_nothing_open_list : ∃ (st : Serving (List Fd)) (s : Session), st.waiting 0 = some s ∧
    st.world.owner 0 = some 0 ∧ (s.socket_ = some 0 ∨ s.data.passive_listen_socket_ = some 0) := by
  obtain ⟨st, hst, he⟩ := Option.map_eq_some_iff.1 (show
    (((owners Attested.sampleService).system Serving.Fresh).run System.anyStep
      (Serving.sampleStart [] Serving.emptyWorld)
      (Serving.sampleSteps 0 3 ++ Serving.sampleTurn 0 "LIST" 10)).map
      (fun st => ((st.waiting 0).isSome, st.world.owner 0)) = some (true, some 0) by decide +kernel)
  simp only [Prod.mk.injEq] at he
  obtain ⟨s, hs⟩ := Option.isSome_iff_exists.1 he.1
  exact ⟨st, s, hs, he.2,
    sessions_leave_nothing_open (.run (.init ⟨Serving.sampleStart_unopened _ _, rfl⟩) hst) hs he.2⟩

end SimpleSftpd
