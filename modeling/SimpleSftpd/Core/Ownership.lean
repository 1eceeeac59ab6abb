import SimpleSftpd.Core.Descriptors
import SimpleSftpd.Core.Run

namespace SimpleSftpd

open Cxx Interaction Prog

namespace Call

variable {β : Type}

def closed? : Call β → Option Fd
  | close fd => some fd
  | _ => none

def opened? : Call β → β → Option Fd
  | socket => fun made => made
  | accept _ => fun accepted => accepted.map Prod.fst
  | openRead _ => fun opened => opened
  | openWrite _ _ => fun opened => opened
  | _ => fun _ => none

end Call

/-- The ghost state are the descriptors that a session has opened and not closed since. -/
def holding : Contract Call (List Fd) where
  pre held o := ∀ fd, o.closed? = some fd → fd ∈ held
  post held o r := ∀ fd, o.opened? r = some fd → fd ∉ held
  next held o r := match o.closed? with
    | some fd => held.filter (· ≠ fd)
    | none => (o.opened? r).toList ++ held

namespace World

variable {w : World} {fd n : Fd} {me i : SessionId} {β : Type}

def owner (w : World) (fd : Fd) : Option SessionId := (w.fds.lookup fd).map Descriptor.owner

def Owns (i : SessionId) (held : List Fd) (w : World) : Prop := ∀ fd ∈ held, w.owner fd = some i

lemma owner_congr {w' : World} (h : w'.fds = w.fds) : w'.owner fd = w.owner fd := by
  rw [owner, owner, h]

lemma owner_openFd (h : w.owner fd = some i) (d : Descriptor) : (w.openFd n d).owner fd = some i := by
  obtain ⟨d', hd, hi⟩ := Option.map_eq_some_iff.1 h
  rw [owner, lookup_openFd hd, Option.map_some, hi]

lemma owner_new (w : World) (n : Fd) (d : Descriptor) : (w.openFd n d).owner (w.freshFd n) = some d.owner := by
  simp [owner, openFd]

lemma owner_freshFd (w : World) (n : Fd) : w.owner (w.freshFd n) = none := by
  rw [owner, lookup_freshFd, Option.map_none]

lemma owner_seek (m : Fd) (p : Int) : (w.seek m p).owner fd = w.owner fd := by
  rw [owner, owner, lookup_seek, Option.map_map]
  congr 1
  funext d
  rcases d with ⟨o, _ | _⟩ <;> simp only [Function.comp_apply] <;> split <;> rfl

lemma owner_answer (o : Call β) (h : w.owner fd = some i) (ho : o.closed? ≠ some fd) :
    (answer me w o).2.owner fd = some i := by
  have hsame {w' : World} (hw : w'.fds = w.fds) : w'.owner fd = some i := (owner_congr hw).trans h
  have hopened {w' : World} {n : Fd} {d : Descriptor} (hw : w'.fds = (w.openFd n d).fds) : w'.owner fd = some i :=
    (owner_congr hw).trans (owner_openFd h d)
  have hsought {w' : World} {m : Fd} {p : Int} (hw : w'.fds = (w.seek m p).fds) : w'.owner fd = some i :=
    (owner_congr hw).trans ((owner_seek m p).trans h)
  cases o with
  | close n =>
    have hn : n ≠ fd := fun he => ho (congrArg some he)
    exact (congrArg (Option.map Descriptor.owner) (lookup_closeFd hn)).trans h
  | socket | accept =>
    simp only [answer, openSocket]
    split
    · exact hopened rfl
    · exact hsame rfl
  | openRead | openWrite =>
    simp only [answer, openPath]
    split
    · exact hopened rfl
    · exact hsame rfl
  | lseek | read =>
    simp only [answer]
    split
    · exact hsought rfl
    · exact hsame rfl
  | sendfile | mmap | write | appendTo | chroot =>
    simp only [answer]
    split <;> exact hsame rfl
  | _ => exact hsame rfl

lemma owner_opened (o : Call β) (h : o.opened? (answer me w o).1 = some fd) :
    w.owner fd = none ∧ (answer me w o).2.owner fd = some me := by
  have hopened {w' v : World} {n : Fd} {k : Opened} (hv : v.fds = w.fds) (hw : w'.fds = (v.openFd n ⟨me, k⟩).fds)
      (hfd : v.freshFd n = fd) : w.owner fd = none ∧ w'.owner fd = some me := by
    subst hfd
    exact ⟨(owner_congr hv).symm.trans (owner_freshFd v n), (owner_congr hw).trans (owner_new v n _)⟩
  cases o with
  | socket =>
    simp only [Call.opened?, answer, openSocket] at h ⊢
    split at h
    · exact hopened rfl rfl (Option.some.inj h)
    · cases h
  | accept =>
    simp only [Call.opened?, answer] at h ⊢
    split at h
    · exact hopened rfl rfl (Option.some.inj h)
    · cases h
  | openRead | openWrite =>
    simp only [Call.opened?, answer, openPath] at h ⊢
    split at h
    · exact hopened rfl rfl (Option.some.inj h)
    · cases h
  | _ => cases h

end World

lemma holding_describes (me : SessionId) : holding.Describes (World.machine me) (World.Owns me) := by
  intro β held w o hw hpre
  refine ⟨fun fd hfd hmem => ?_, fun fd hfd => ?_⟩
  · have hnone := (World.owner_opened o hfd).1
    rw [hw fd hmem] at hnone
    cases hnone
  · simp only [holding] at hfd
    split at hfd
    · rename_i n hn
      obtain ⟨hfd, hne⟩ := List.mem_filter.1 hfd
      refine World.owner_answer o (hw fd hfd) fun h => ?_
      rw [hn] at h
      exact of_decide_eq_true hne (Option.some.inj h).symm
    · rename_i hn
      rcases List.mem_append.1 hfd with hfd | hfd
      · exact (World.owner_opened o (Option.mem_toList.1 hfd)).2
      · exact World.owner_answer o (hw fd hfd) (by simp [hn])

lemma World.Owns.other {β : Type} {w : World} {i j : SessionId} {held held' : List Fd} {o : Call β}
    (h : w.Owns j held')
    (hi : w.Owns i held) (hpre : holding.pre held o) (hij : j ≠ i) : (answer i w o).2.Owns j held' := by
  refine fun fd hfd => World.owner_answer o (h fd hfd) fun hc => hij ?_
  exact Option.some.inj ((h fd hfd).symm.trans (hi fd (hpre fd hc)))

section

variable {s : Session} {α β : Type} {P : α → List Fd → Prop} {held : List Fd} {fd : Fd} {ks : List Kind}

def stillKinds : List Kind :=
  [.reply, .clock, .account, .census, .register, .query, .chroot, .transfer, .write, .memory]

def Still (o : Σ β, Call β) : Prop := o.2.closed? = none ∧ ∀ r, o.2.opened? r = none

lemma still_of_kind {o : Σ β, Call β} (ho : o.2.kind ∈ stillKinds) : Still o := by
  obtain ⟨β, o⟩ := o
  cases o with
  | close | socket | accept | openRead | openWrite => simp [Call.kind, stillKinds] at ho
  | _ => exact ⟨rfl, fun _ => rfl⟩

lemma Still.kept {o : Call β} (ho : Still ⟨β, o⟩) : holding.pre held o ∧ ∀ r, holding.next held o r = held := by
  refine ⟨fun fd h => ?_, fun r => ?_⟩
  · rw [ho.1] at h
    cases h
  · simp [holding, ho.1, ho.2 r]

lemma holding_call {o : Call β} (ho : Still ⟨β, o⟩) {f : β → Io α} (hf : ∀ r, Meets holding (f r) P held) :
    Meets holding (perform o >>= f) P held := by
  refine meets_bind.2 ((meets_perform o).2 ⟨ho.kept.1, fun r _ => ?_⟩)
  rw [ho.kept.2 r]
  exact hf r

lemma holding_still {p : Io β} {f : β → Io α} {Q : β → Prop} (hp : p.Within (Kinds ks) Q) (hks : ks ⊆ stillKinds)
    (hf : ∀ r, Q r → Meets holding (f r) P held) : Meets holding (p >>= f) P held :=
  meets_bind.2 (hp.meets (fun o ho => (still_of_kind (o := ⟨_, o⟩) (hks ho)).kept) hf)

lemma holding_ask (o : Call β) (ho : o.kind ∈ stillKinds) {f : β → Io α} (hf : ∀ r, Meets holding (f r) P held) :
    Meets holding (perform o >>= f) P held := holding_call (still_of_kind ho) hf

lemma holding_try (x : Except Errc β) {f : β → Io α} (hf : ∀ r, Meets holding (f r) P held) :
    Meets holding (orThrow x >>= f) P held := by
  cases x with
  | ok r => exact hf r
  | error e => exact meets_throw _

lemma holding_reply (code : ℕ) (text : Str) {f : Unit → Io α} (hf : Meets holding (f ()) P held) :
    Meets holding (s.reply code text >>= f) P held := by
  have hp : (s.reply code text).Within (Kinds [.reply]) fun _ => True := by simp
  exact holding_still hp (by simp [stillKinds]) fun _ _ => hf

lemma holding_return (code : ℕ) (text : Str) {a : α} (hP : P a held) :
    Meets holding (s.reply code text >>= fun _ => pure a) P held :=
  holding_reply code text ((meets_pure a).2 hP)

lemma holding_open {o : Call β} (ho : o.closed? = none) {f : β → Io α}
    (hnone : ∀ r, o.opened? r = none → Meets holding (f r) P held)
    (hsome : ∀ r fd, o.opened? r = some fd → fd ∉ held → Meets holding (f r) P (fd :: held)) :
    Meets holding (perform o >>= f) P held := by
  refine meets_bind.2 ((meets_perform o).2 ⟨fun fd h => ?_, fun r hr => ?_⟩)
  · rw [ho] at h
    cases h
  · cases hfd : o.opened? r with
    | none =>
      have hnext : holding.next held o r = held := by simp [holding, ho, hfd]
      rw [hnext]
      exact hnone r hfd
    | some fd =>
      have hnext : holding.next held o r = fd :: held := by simp [holding, ho, hfd]
      rw [hnext]
      exact hsome r fd hfd (hr fd hfd)

lemma holding_close (hfd : fd ∈ held) {f : Unit → Io α} (hf : Meets holding (f ()) P (held.filter (· ≠ fd))) :
    Meets holding (perform (.close fd) >>= f) P held := by
  refine meets_bind.2 ((meets_perform _).2 ⟨fun n hn => ?_, fun _ _ => hf⟩)
  cases hn
  exact hfd

lemma holding_done (hfd : fd ∉ held) {f : Unit → Io α} (hf : Meets holding (f ()) P held) :
    Meets holding (perform (.close fd) >>= f) P (fd :: held) := by
  refine holding_close List.mem_cons_self ?_
  have hrest : (fd :: held).filter (· ≠ fd) = held := by
    rw [List.filter_cons_of_neg (by simp), List.filter_eq_self]
    exact fun n hn => decide_eq_true fun he => hfd (he ▸ hn)
  rw [hrest]
  exact hf

lemma holding_kept {p : Io α} {Q : α → Prop} (hp : p.Within (Kinds ks) Q) (hks : .close ∉ ks) :
    Meets holding p (fun a held' => Q a ∧ held ⊆ held') held := by
  suffices ∀ held', held ⊆ held' → Meets holding p (fun a held' => Q a ∧ held ⊆ held') held' from
    this held (List.Subset.refl held)
  induction p with
  | ret a => exact fun held' h => (meets_pure a).2 ⟨(within_pure a).1 hp, h⟩
  | throw e => exact fun _ _ => meets_throw e
  | call o k ih =>
    intro held' h
    obtain ⟨ho, hk⟩ := (within_call o k).1 hp
    have hopen : o.closed? = none := by
      cases o with
      | close => exact absurd ho hks
      | _ => rfl
    refine (meets_call o k).2 ⟨fun fd hfd => ?_, fun r _ => ih r (hk r) _ ?_⟩
    · rw [hopen] at hfd
      cases hfd
    · simp only [holding, hopen]
      exact List.subset_append_of_subset_right _ h

end

section

variable {env : Service} {s : Session} {α : Type} {P : α → List Fd → Prop} {held : List Fd} {data_fd : Fd}

lemma holding_accept (d : DataConnection) {f : Option (Fd × Peer) × DataConnection → Io α}
    (hnone : ∀ d', d'.passive_listen_socket_ = d.passive_listen_socket_ → Meets holding (f (none, d')) P held)
    (hsome : ∀ fd peer d', d'.passive_listen_socket_ = d.passive_listen_socket_ → fd ∉ held →
      Meets holding (f (some (fd, peer), d')) P (fd :: held)) :
    Meets holding (d.acceptDataConnection >>= f) P held := by
  unfold DataConnection.acceptDataConnection DataConnection.connectActiveDataSocket
  refine meets_bind.2 (meets_ite.2 ⟨fun _ => meets_ite.2 ⟨fun _ => ?_, fun _ => ?_⟩, fun _ => ?_⟩)
  · exact (meets_pure _).2 (hnone d rfl)
  · refine holding_open rfl (fun made hmade => ?_) fun made fd hmade hfd => ?_
    · cases hmade
      exact (meets_pure _).2 (hnone _ rfl)
    · cases hmade
      cases inetPton d.active_mode_ip_ with
      | none => exact holding_done hfd ((meets_pure _).2 (hnone _ rfl))
      | some _ =>
        refine holding_call ⟨rfl, fun _ => rfl⟩ fun peer => ?_
        cases peer with
        | none => exact holding_done hfd ((meets_pure _).2 (hnone _ rfl))
        | some peer => exact (meets_pure _).2 (hsome fd peer _ rfl hfd)
  · cases hlistener : d.passive_listen_socket_ with
    | none => exact (meets_pure _).2 (hnone d rfl)
    | some listener =>
      refine holding_ask (.select listener) (by simp [Call.kind, stillKinds]) fun ready => ?_
      refine meets_ite.2 ⟨fun _ => (meets_pure _).2 (hnone d rfl), fun _ => ?_⟩
      refine holding_open rfl (fun accepted h => ?_) fun accepted fd h hfd => ?_
      · obtain rfl : accepted = none := Option.map_eq_none_iff.1 h
        exact (meets_pure _).2 (hnone _ hlistener.symm)
      · obtain ⟨⟨n, peer⟩, rfl, rfl⟩ := Option.map_eq_some_iff.1 h
        exact (meets_pure _).2 (hsome n peer _ hlistener.symm hfd)

namespace Session

def Returned (s : Session) (held : List Fd) (d : DataConnection) (held' : List Fd) : Prop :=
  d.passive_listen_socket_ = s.data.passive_listen_socket_ ∧ held' = held

lemma handleLIST_holding (path : Str) : Meets holding (s.handleLIST path) (s.Returned held) held := by
  have hsame : s.Returned held s.data held := ⟨rfl, rfl⟩
  refine holding_ask .nameSpace (by simp [Call.kind, stillKinds]) fun fs => ?_
  refine meets_ite.2 ⟨fun _ => holding_return _ _ hsame, fun _ => ?_⟩
  refine meets_ite.2 ⟨fun _ => holding_return _ _ hsame, fun _ => ?_⟩
  refine holding_ask (.status _) (by simp [Call.kind, stillKinds]) fun r => ?_
  refine holding_try r fun found => ?_
  refine meets_ite.2 ⟨fun _ => holding_return _ _ hsame, fun _ => holding_reply _ _ ?_⟩
  refine holding_accept _ (fun d hd => ?_) fun data_fd peer d hd hfd => ?_
  · exact holding_return _ _ ⟨hd, rfl⟩
  · refine holding_ask (.status _) (by simp [Call.kind, stillKinds]) fun r => ?_
    refine holding_try r fun kind => ?_
    have hfile (p : Str) : ((do
        let size ← orThrow (← perform (.fileSize p))
        return some ("-rw-rw-rw- 1 owner group " ++ decimal size ++ " " ++ Path.filename p ++ "\r\n") :
          Io (Option Str))).Within (Kinds [.query]) fun _ => True := by simp [within_bind, Call.kind]
    refine holding_still (within_ite.2 ⟨fun _ => listDirectory_within (by simp) _, fun _ => hfile _⟩)
      (by simp [stillKinds]) fun listing _ => ?_
    cases listing with
    | none => exact holding_done hfd (holding_return _ _ ⟨hd, rfl⟩)
    | some listing =>
      refine holding_ask (.send data_fd listing) (by simp [Call.kind, stillKinds]) fun _ => ?_
      exact holding_done hfd (holding_return _ _ ⟨hd, rfl⟩)

lemma handleMLSD_holding (path : Str) : Meets holding (s.handleMLSD path) (s.Returned held) held := by
  have hsame : s.Returned held s.data held := ⟨rfl, rfl⟩
  refine holding_ask .nameSpace (by simp [Call.kind, stillKinds]) fun fs => ?_
  refine meets_ite.2 ⟨fun _ => holding_return _ _ hsame, fun _ => ?_⟩
  refine meets_ite.2 ⟨fun _ => holding_return _ _ hsame, fun _ => ?_⟩
  refine holding_ask (.status _) (by simp [Call.kind, stillKinds]) fun found => ?_
  refine meets_ite.2 ⟨fun _ => holding_return _ _ hsame, fun _ => holding_reply _ _ ?_⟩
  refine holding_accept _ (fun d hd => ?_) fun data_fd peer d hd hfd => ?_
  · exact holding_return _ _ ⟨hd, rfl⟩
  · refine holding_ask (.readDirectory _) (by simp [Call.kind, stillKinds]) fun entries => ?_
    refine holding_still (machineEntries_within (by simp : Kind.query ∈ [.query]) _ _) (by simp [stillKinds])
      fun listing _ => ?_
    obtain ⟨names, _ | failure⟩ := entries
    · refine holding_ask (.send data_fd listing) (by simp [Call.kind, stillKinds]) fun _ => ?_
      exact holding_done hfd (holding_return _ _ ⟨hd, rfl⟩)
    · exact holding_done hfd (holding_return _ _ ⟨hd, rfl⟩)

lemma retrieveTo_holding (hfd : data_fd ∉ held) (path : Str) :
    Meets holding (s.retrieveTo env data_fd path) (fun _ held' => held' = held) (data_fd :: held) := by
  have hboth {file_fd : Fd} (hfile : file_fd ∉ data_fd :: held) (r : ℕ × Str × Bool) :
      Meets holding (do perform (.close file_fd); perform (.close data_fd); return r) (fun _ held' => held' = held)
        (file_fd :: data_fd :: held) :=
    holding_done hfile (holding_done hfd ((meets_pure _).2 rfl))
  refine holding_ask .steadyNow (by simp [Call.kind, stillKinds]) fun start => ?_
  refine holding_open rfl (fun opened h => ?_) fun opened file_fd h hfile => ?_
  · obtain rfl : opened = none := h
    exact holding_done hfd ((meets_pure _).2 rfl)
  · obtain rfl : opened = some file_fd := h
    refine holding_ask (.fstat file_fd) (by simp [Call.kind, stillKinds]) fun st => ?_
    rcases st with _ | ⟨_ | _, size⟩
    · exact hboth hfile _
    · exact hboth hfile _
    · refine meets_ite.2 ⟨fun _ => hboth hfile _, fun _ => ?_⟩
      refine holding_still (sendOpened_within (List.Subset.refl [Kind.memory, .clock, .transfer]) _ _ _ _)
        (by simp [stillKinds])
        fun r _ => ?_
      exact hboth hfile _

def Resumes (s : Session) (held : List Fd) (s' : Session) (held' : List Fd) : Prop :=
  s'.socket_ = s.socket_ ∧ s.Returned held s'.data held'

lemma holding_modeZ {f : Option Session → Io Session} {P : Session → List Fd → Prop}
    (hnone : Meets holding (f none) P held)
    (hsome : ∀ n, Meets holding (f (some { s with resume_position_ := n })) P held) :
    Meets holding (s.modeZRefusal env >>= f) P held := by
  refine holding_still (modeZRefusal_within (by simp : Kind.reply ∈ [.reply])) (by simp [stillKinds])
    fun r hr => ?_
  cases r with
  | none => exact hnone
  | some s' =>
    obtain ⟨n, rfl⟩ := hr s' rfl
    exact hsome n

lemma handleRETR_holding (filename : Str) : Meets holding (s.handleRETR env filename) (s.Resumes held) held := by
  have hsame : s.Resumes held s held := ⟨rfl, rfl, rfl⟩
  refine holding_ask .nameSpace (by simp [Call.kind, stillKinds]) fun fs => ?_
  refine meets_ite.2 ⟨fun _ => holding_return _ _ hsame, fun _ => ?_⟩
  refine meets_ite.2 ⟨fun _ => holding_return _ _ hsame, fun _ => ?_⟩
  refine holding_ask (.status _) (by simp [Call.kind, stillKinds]) fun r => ?_
  refine holding_try r fun found => ?_
  refine meets_ite.2 ⟨fun _ => holding_return _ _ hsame, fun _ => ?_⟩
  refine holding_modeZ (holding_reply _ _ ?_) fun n => (meets_pure _).2 ⟨rfl, rfl, rfl⟩
  refine holding_accept _ (fun d hd => ?_) fun data_fd peer d hd hfd => meets_bind.2 ?_
  · exact holding_return _ _ ⟨rfl, hd, rfl⟩
  · refine (retrieveTo_holding hfd _).mono ?_
    rintro ⟨code, text, used⟩ _ rfl
    refine holding_return _ _ ?_
    split <;> exact ⟨rfl, hd, rfl⟩

lemma openTarget_holding {path : Str} {f : Option OutFile → Io α} (hnone : Meets holding (f none) P held)
    (hsome : ∀ g : OutFile, g.fd ∉ held → Meets holding (f (some g)) P (g.fd :: held)) :
    Meets holding (s.openTarget path >>= f) P held := by
  have htruncate : Meets holding (do
      let opened : Option Fd ← perform (.openWrite path .truncate)
      return opened.map fun fd => (⟨fd, 0, true⟩ : OutFile)) (fun r => Meets holding (f r) P) held := by
    refine holding_open rfl (fun opened h => ?_) fun opened fd h hfd => ?_
    · obtain rfl : opened = none := h
      exact (meets_pure _).2 hnone
    · obtain rfl : opened = some fd := h
      exact (meets_pure _).2 (hsome ⟨fd, 0, true⟩ hfd)
  refine meets_bind.2 (meets_bind.2 (meets_ite.2 ⟨fun _ => ?_, fun _ => (meets_pure _).2 htruncate⟩))
  refine holding_ask (.status path) (by simp [Call.kind, stillKinds]) fun r => ?_
  refine holding_try r fun found => ?_
  refine meets_ite.2 ⟨fun _ => ?_, fun _ => (meets_pure _).2 htruncate⟩
  rw [← bind_pure (perform (.openWrite path .update))]
  refine holding_open rfl (fun opened h => ?_) fun opened fd h hfd => ?_
  · obtain rfl : opened = none := h
    exact (meets_pure _).2 htruncate
  · obtain rfl : opened = some fd := h
    exact (meets_pure _).2 ((meets_pure _).2 (hsome ⟨fd, s.resume_position_.toNat, true⟩ hfd))

lemma receiveTo_holding {g : OutFile} (hfile : g.fd ∉ data_fd :: held) (hfd : data_fd ∉ held) (peer : Peer) :
    Meets holding (s.receiveTo env data_fd peer g) (fun _ held' => held' = held) (g.fd :: data_fd :: held) := by
  have hboth (r : ℕ × Str × Bool) : Meets holding (do perform (.close g.fd); perform (.close data_fd); return r)
      (fun _ held' => held' = held) (g.fd :: data_fd :: held) :=
    holding_done hfile (holding_done hfd ((meets_pure _).2 rfl))
  have hkinds : [.clock, .transfer, .write] ⊆ stillKinds := by simp [stillKinds]
  refine holding_ask .steadyNow (by simp [Call.kind, stillKinds]) fun start => ?_
  refine meets_ite.2 ⟨fun _ => ?_, fun _ => ?_⟩
  · refine holding_ask (.zlibInit .inflate) (by simp [Call.kind, stillKinds]) fun valid => ?_
    refine meets_ite.2 ⟨fun _ => hboth _, fun _ => ?_⟩
    refine holding_still (inflateLoop_within (List.Subset.refl _) _ _ _ _ _ _ _ _ _) hkinds fun ok _ => ?_
    exact hboth _
  · refine holding_still (receiveLoop_within (List.Subset.refl _) _ _ _ _ _ _ _) hkinds fun _ _ => ?_
    exact hboth _

lemma storeFrom_holding (hfd : data_fd ∉ held) (peer : Peer) (path : Str) :
    Meets holding (s.storeFrom env data_fd peer path) (fun _ held' => held' = held) (data_fd :: held) := by
  refine meets_bind.2 (meets_ite.2 ⟨fun _ => ?_, fun _ => (meets_pure _).2 ?_⟩)
  · refine holding_call ⟨rfl, fun _ => rfl⟩ fun r => ?_
    refine holding_try r fun _ => (meets_pure _).2 ?_
    refine openTarget_holding (holding_done hfd ((meets_pure _).2 rfl)) fun g hfile => ?_
    exact receiveTo_holding hfile hfd peer
  · refine openTarget_holding (holding_done hfd ((meets_pure _).2 rfl)) fun g hfile => ?_
    exact receiveTo_holding hfile hfd peer

lemma handleSTOR_holding (filename : Str) : Meets holding (s.handleSTOR env filename) (s.Resumes held) held := by
  have hsame : s.Resumes held s held := ⟨rfl, rfl, rfl⟩
  refine holding_ask .nameSpace (by simp [Call.kind, stillKinds]) fun fs => ?_
  refine meets_ite.2 ⟨fun _ => holding_return _ _ hsame, fun _ => ?_⟩
  refine meets_ite.2 ⟨fun _ => holding_return _ _ hsame, fun _ => ?_⟩
  refine holding_still (quotaExceeded_within (by simp : Kind.query ∈ [.query])) (by simp [stillKinds])
    fun exceeded _ => ?_
  refine meets_ite.2 ⟨fun _ => holding_return _ _ hsame, fun _ => ?_⟩
  refine holding_modeZ (holding_reply _ _ ?_) fun n => (meets_pure _).2 ⟨rfl, rfl, rfl⟩
  refine holding_accept _ (fun d hd => ?_) fun data_fd peer d hd hfd => meets_bind.2 ?_
  · exact holding_return _ _ ⟨rfl, hd, rfl⟩
  · refine (storeFrom_holding hfd peer _).mono ?_
    rintro ⟨code, text, used⟩ _ rfl
    refine holding_return _ _ ?_
    split <;> exact ⟨rfl, hd, rfl⟩

lemma handleSTOU_holding (filename : Str) : Meets holding (s.handleSTOU env filename) (s.Resumes held) held := by
  refine holding_still (uniqueName_within (by simp : Kind.query ∈ [.query]) _ _ _ _) (by simp [stillKinds])
    fun unique _ => ?_
  cases unique with
  | none => exact holding_return _ _ ⟨rfl, rfl, rfl⟩
  | some unique =>
    refine meets_bind.2 ((handleSTOR_holding unique).mono fun s' held' h => (meets_pure _).2 ?_)
    exact ⟨h.1, h.2.1, h.2.2⟩

lemma handleAPPE_holding (filename : Str) : Meets holding (s.handleAPPE filename) (s.Resumes held) held := by
  have hsame : s.Resumes held s held := ⟨rfl, rfl, rfl⟩
  refine holding_ask .nameSpace (by simp [Call.kind, stillKinds]) fun fs => ?_
  refine meets_ite.2 ⟨fun _ => holding_return _ _ hsame, fun _ => ?_⟩
  refine meets_ite.2 ⟨fun _ => holding_return _ _ hsame, fun _ => ?_⟩
  refine meets_ite.2 ⟨fun _ => holding_return _ _ hsame, fun _ => holding_reply _ _ ?_⟩
  refine holding_accept _ (fun d hd => ?_) fun data_fd peer d hd hfd => ?_
  · exact holding_return _ _ ⟨rfl, hd, rfl⟩
  · refine holding_ask (.status _) (by simp [Call.kind, stillKinds]) fun r => ?_
    refine holding_try r fun found => ?_
    refine holding_open rfl (fun opened h => ?_) fun opened fd h hfile => ?_
    · obtain rfl : opened = none := h
      exact holding_done hfd (holding_return _ _ ⟨rfl, hd, rfl⟩)
    · obtain rfl : opened = some fd := h
      refine holding_still (appendLoop_within (List.Subset.refl _) _ _ _ _ _) (by simp [stillKinds]) fun _ _ => ?_
      exact holding_done hfile (holding_done hfd (holding_return _ _ ⟨rfl, hd, rfl⟩))

end Session

end

end SimpleSftpd
