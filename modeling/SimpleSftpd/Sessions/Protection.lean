import SimpleSftpd.Core.Answered
import SimpleSftpd.Sessions.Encryption
import SimpleSftpd.Sessions.Restarts

namespace SimpleSftpd

open Cxx Interaction Prog

def Call.inClear {β : Type} : Call β → Bool
  | send _ _ | recv _ _ | sendfile _ _ _ _ | sendMapped _ _ _ _ => true
  | _ => false

structure Wire where
  opened : Bool := false
  failed : Bool := false
  unseen : Bool := false
  regular : Bool := false
  target : Bool := false
  prepared : Bool := false
  used : Bool := false

namespace Wire

section

variable (z : Bool) (offset : Int)

def next (g : Wire) {β : Type} (o : Call β) : β → Wire := match o with
  | .accept _ => fun r => { g with opened := g.opened || r.isSome }
  | .connect _ _ _ => fun r => { g with opened := g.opened || r.isSome }
  | .readDirectory _ => fun r => { g with failed := g.failed || r.2.isSome }
  | .status _ => fun r => { g with unseen := g.unseen || !r.isOk }
  | .fileSize _ => fun r => { g with unseen := g.unseen || !r.isOk }
  | .lastWriteTime _ => fun r => { g with unseen := g.unseen || !r.isOk }
  | .fstat _ => fun r =>
    { g with regular := g.regular || r.any fun (regular, size) => regular && (z || offset < size) }
  | .openWrite _ _ => fun r => { g with target := g.target || r.isSome }
  | .zlibInit _ => fun valid => { g with prepared := g.prepared || valid }
  | .send _ _ | .recv _ _ | .sendfile _ _ _ _ | .sendMapped _ _ _ _ => fun _ => { g with used := true }
  | _ => fun _ => g

def watching : Contract Call Wire where
  pre _ _ := True
  post _ _ _ := True
  next g o r := g.next z offset o r

/-- What a data command has to come to before it exchanges data: a data connection and a listing
that can be made; a regular file with something to send; or a target, and the decompression it
needs. -/
def Ready (g : Wire) : Verb → Prop
  | .list => g.opened = true ∧ g.failed = false ∧ g.unseen = false
  | .mlsd => g.opened = true ∧ g.failed = false
  | .retr => g.regular = true
  | .stor | .stou | .appe => g.target = true ∧ (z = true → g.prepared = true)
  | _ => False

def Guarded (v : Verb) (g : Wire) : Prop := g.used = true → g.Ready z v

end

variable {g : Wire} {z : Bool} {offset : Int} {v : Verb} {α β : Type} {s : Session}

lemma next_used {o : Call β} (ho : o.inClear = false) (r : β) : (g.next z offset o r).used = g.used := by
  cases o with
  | send | recv | sendfile | sendMapped => cases ho
  | _ => rfl

lemma inClear_of_kind {o : Call β} (ho : o.kind ≠ .transfer) : o.inClear = false := by
  cases o with
  | send | recv | sendfile | sendMapped => exact absurd rfl ho
  | _ => rfl

lemma guarded_of_unused {g : Wire} (h : g.used = false) : g.Guarded z v :=
  fun hu => absurd (h.symm.trans hu) Bool.false_ne_true

lemma ends_clear {p : Io α} {K : (Σ β, Call β) → Prop} {P : α → Prop} {P' : α → Wire → Prop} (h : p.Within K P)
    (hK : ∀ {β : Type} (o : Call β), K ⟨_, o⟩ → o.inClear = false) (hg : g.used = false)
    (hP : ∀ a g, P a → g.used = false → P' a g) : Ends (watching z offset) p P' (Guarded z v) g := by
  have hunused : Ends (watching z offset) p (fun a g => P a ∧ g.used = false) (fun g : Wire => g.used = false) g :=
    h.ends (J := fun g : Wire => g.used = false)
      (fun o g ho hJ => ⟨trivial, fun r _ => (next_used (hK o ho) r).trans hJ⟩) hg
  exact hunused.mono (fun a g h => hP a g h.1 h.2) fun g h => guarded_of_unused h

lemma ends_unused {p : Io α} {ks : List Kind} {P : α → Prop} {P' : α → Wire → Prop} (h : p.Within (Kinds ks) P)
    (hk : .transfer ∉ ks) (hg : g.used = false) (hP : ∀ a g, P a → g.used = false → P' a g) :
    Ends (watching z offset) p P' (Guarded z v) g :=
  ends_clear h (fun _ ho => inClear_of_kind fun he => hk (he ▸ ho)) hg hP

lemma ready_next (hv : v ∈ [.retr, .stor, .stou, .appe]) (hg : g.Ready z v) (o : Call β) (r : β) :
    (g.next z offset o r).Ready z v := by
  simp only [List.mem_cons, List.not_mem_nil, or_false] at hv
  cases o with
  | fstat | openWrite | zlibInit =>
    rcases hv with rfl | rfl | rfl | rfl <;> simp_all [Ready, next]
  | _ => rcases hv with rfl | rfl | rfl | rfl <;> exact hg

lemma ends_ready {p : Io α} (hv : v ∈ [.retr, .stor, .stou, .appe]) (hg : g.Ready z v) :
    Ends (watching z offset) p (fun _ g => g.Guarded z v) (Guarded z v) g := by
  have hall : p.Within (fun _ => True) fun _ => True := by
    induction p with
    | ret a => exact (within_pure a).2 trivial
    | throw e => exact within_throw e
    | call o k ih => exact (within_call o k).2 ⟨trivial, fun r => ih r⟩
  refine (hall.ends (J := fun g : Wire => g.Ready z v)
    (fun o g _ hJ => ⟨trivial, fun r _ => ready_next hv hJ o r⟩) hg).mono
    ?_ ?_
  · exact fun _ g h _ => h.2
  · exact fun g h _ => h

lemma ends_reply {code : ℕ} {text : Str} {P : Unit → Wire → Prop} {E : Wire → Prop} (h : P () g) :
    Ends (watching z offset) (s.reply code text) P E g := by
  unfold Session.reply Session.sendResponse
  refine ends_ite (fun _ => ends_pure h) fun _ => ends_bind (ends_perform trivial fun sent _ => ?_)
  refine ends_ite (fun _ => ends_pure h) fun _ => ?_
  exact ends_perform trivial fun _ _ => h

lemma ends_reply_return {a : α} {code : ℕ} {text : Str} {P : α → Wire → Prop} {E : Wire → Prop} (h : P a g) :
    Ends (watching z offset) (s.reply code text >>= fun _ => pure a) P E g := ends_bind (ends_reply (ends_pure h))

lemma ends_orThrow {x : Except Errc α} {P : α → Wire → Prop} {E : Wire → Prop} (h : ∀ a, x = .ok a → P a g)
    (hE : E g) : Ends (watching z offset) (orThrow x) P E g := by
  cases x with
  | ok a => exact ends_pure (h a rfl)
  | error e => exact ends_throw hE

lemma accept_wire (d : DataConnection) (g : Wire) {E : Wire → Prop}
    (hg : g.used = false) : Ends (watching z offset) d.acceptDataConnection (fun r g' => g'.used = false ∧
      g'.failed = g.failed ∧ g'.unseen = g.unseen ∧ (r.1.isSome = true → g'.opened = true)) E g := by
  have hnone (d' : DataConnection) : Ends (watching z offset) (pure (none, d') :
    Io (Option (Fd × Peer) × DataConnection))
      (fun r g' => g'.used = false ∧ g'.failed = g.failed ∧ g'.unseen = g.unseen ∧
        (r.1.isSome = true → g'.opened = true)) E g :=
    ends_pure ⟨hg, rfl, rfl, fun h => (by cases h)⟩
  unfold DataConnection.acceptDataConnection DataConnection.connectActiveDataSocket
  refine ends_ite (fun _ => ends_ite (fun _ => hnone d) fun _ => ends_bind (ends_perform trivial fun made _ => ?_))
    fun _ => ?_
  · cases made with
    | none => exact hnone _
    | some fd =>
      cases inetPton d.active_mode_ip_ with
      | none => exact ends_bind (ends_perform trivial fun _ _ => hnone _)
      | some _ =>
        refine ends_bind (ends_perform trivial fun peer _ => ?_)
        cases peer with
        | none =>
          refine ends_bind (ends_perform trivial fun _ _ => ends_pure ⟨hg, rfl, rfl, fun h => ?_⟩)
          cases h
        | some peer => exact ends_pure ⟨hg, rfl, rfl, fun _ => Bool.or_true _⟩
  · cases d.passive_listen_socket_ with
    | none => exact hnone d
    | some listener =>
      refine ends_bind (ends_perform trivial fun ready _ => ends_ite (fun _ => hnone d) fun _ => ?_)
      refine ends_bind (ends_perform trivial fun accepted _ => ?_)
      refine ends_pure ⟨hg, rfl, rfl, fun h => ?_⟩
      have hsome : accepted.isSome = true := h
      simp [watching, next, hsome]

def Lists (g : Wire) (r : Option Str) (g' : Wire) : Prop :=
  g'.used = false ∧ g'.opened = g.opened ∧ (r.isSome = true → g'.failed = g.failed ∧ g'.unseen = g.unseen)

lemma ends_failed {g g' : Wire} {r : Option Str} {E : Wire → Prop} (hr : r = none) (hu : g'.used = false)
    (ho : g'.opened = g.opened) : Ends (watching z offset) (pure r : Io (Option Str)) (fun r => g.Lists r) E g' :=
  ends_pure ⟨hu, ho, fun h => by simp [hr] at h⟩

lemma Lists.trans {g' g'' : Wire} {line r : Option Str} (h : g.Lists line g') (hline : line.isSome = true)
    (h' : g'.Lists r g'') : g.Lists r g'' := by
  obtain ⟨_, hopened, hquery⟩ := h
  obtain ⟨hused, hopened', hquery'⟩ := h'
  obtain ⟨hf, hu⟩ := hquery hline
  refine ⟨hused, hopened'.trans hopened, fun hr => ?_⟩
  obtain ⟨hf', hu'⟩ := hquery' hr
  exact ⟨hf'.trans hf, hu'.trans hu⟩

lemma listEntry_wire {E : Wire → Prop} (dir name : Str) (hg : g.used = false) :
    Ends (watching z offset) (Session.listEntry dir name) (fun r => g.Lists r) E g := by
  refine ends_bind (ends_perform trivial fun st _ => ?_)
  cases st with
  | error e => exact ends_failed rfl hg rfl
  | ok t =>
    have hsize : Ends (watching z offset)
        (if t = .directory then pure (.ok 0) else perform (.fileSize (Path.join dir name)) : Io (Except Errc ℕ))
        (fun size g' => g'.used = false ∧ g'.opened = g.opened ∧
          ∀ n, size = .ok n → g'.failed = g.failed ∧ g'.unseen = g.unseen) E
        ((watching z offset).next g (.status (Path.join dir name)) (.ok t)) := by
      refine ends_ite (fun _ => ends_pure ⟨hg, rfl, fun _ _ => ⟨rfl, Bool.or_false _⟩⟩) fun _ => ?_
      refine ends_perform trivial fun size _ => ?_
      refine ⟨hg, rfl, fun n hn => ⟨rfl, ?_⟩⟩
      subst hn
      simp [watching, next, Except.isOk, Except.toBool]
    refine ends_bind (hsize.mono (fun size g₁ h₁ => ?_) fun _ h => h)
    obtain ⟨hused, hopened, hquery⟩ := h₁
    cases size with
    | error e => exact ends_failed rfl hused hopened
    | ok n =>
      obtain ⟨hf, hu⟩ := hquery n rfl
      refine ends_bind (ends_perform trivial fun time _ => ?_)
      cases time with
      | error e => exact ends_failed rfl hused hopened
      | ok t => exact ends_pure ⟨hused, hopened, fun _ => ⟨hf, (Bool.or_false _).trans hu⟩⟩

lemma listEntries_wire {E : Wire → Prop} (dir : Str) (names : List Str) : ∀ g : Wire, g.used = false →
    Ends (watching z offset) (Session.listEntries dir names) (fun r => g.Lists r) E g := by
  induction names with
  | nil => exact fun g hg => ends_pure ⟨hg, rfl, fun _ => ⟨rfl, rfl⟩⟩
  | cons name names ih =>
    intro g hg
    refine ends_bind ((listEntry_wire dir name hg).mono (fun line g₁ h₁ => ?_) fun _ h => h)
    cases line with
    | none => exact ends_failed rfl h₁.1 h₁.2.1
    | some line =>
      refine ends_bind ((ih g₁ h₁.1).mono (fun rest g₂ h₂ => ?_) fun _ h => h)
      cases rest with
      | none => exact ends_failed rfl h₂.1 (h₂.2.1.trans h₁.2.1)
      | some rest => exact ends_pure (h₁.trans rfl h₂)

lemma listDirectory_wire {E : Wire → Prop} (dir : Str) (hg : g.used = false) :
    Ends (watching z offset) (Session.listDirectory dir) (fun r => g.Lists r) E g := by
  refine ends_bind (ends_perform trivial fun r _ => ?_)
  obtain ⟨names, failure⟩ := r
  let g' := (watching z offset).next g (.readDirectory dir) (names, failure)
  have hentries : Ends (watching z offset) (Session.listEntries dir names) (fun r => g'.Lists r) E g' :=
    listEntries_wire dir names g' hg
  refine ends_bind (hentries.mono (fun listing g₁ h₁ => ?_) fun _ h => h)
  obtain ⟨hused, hopened, hquery⟩ := h₁
  cases listing with
  | none => cases failure <;> exact ends_failed rfl hused hopened
  | some listing =>
    cases failure with
    | some e => exact ends_failed rfl hused hopened
    | none =>
      obtain ⟨hf, hu⟩ := hquery rfl
      exact ends_pure ⟨hused, hopened, fun _ => ⟨hf.trans (Bool.or_false _), hu⟩⟩

end Wire

open Wire

namespace Session

variable {env : Service} {s : Session} {z : Bool} {offset : Int} {g : Wire}

lemma refused_wire {α : Type} {v : Verb} {code : ℕ} {text : Str} {a : α} (hg : g.used = false) :
    Ends (watching z offset) (s.reply code text >>= fun _ => pure a) (fun _ g => g.Guarded z v) (Guarded z v) g :=
  ends_reply_return (guarded_of_unused hg)

lemma handleLIST_wire (path : Str) :
    Ends (watching z offset) (s.handleLIST path) (fun _ g => g.Guarded z .list) (Guarded z .list) {} := by
  refine ends_bind (ends_perform trivial fun fs _ => ?_)
  refine ends_ite (fun _ => refused_wire rfl) fun _ => ?_
  refine ends_ite (fun _ => refused_wire rfl) fun _ => ?_
  refine ends_bind (ends_perform trivial fun st _ => ?_)
  refine ends_bind (ends_orThrow (fun found hfound => ?_) (guarded_of_unused rfl))
  subst hfound
  refine ends_ite (fun _ => refused_wire rfl) fun _ => ends_bind (ends_reply ?_)
  refine ends_bind ((accept_wire s.data _ rfl).mono (fun r g h => ?_) fun _ h => h)
  obtain ⟨hused, hfailed, hunseen, hopened⟩ := h
  obtain ⟨_ | ⟨data_fd, peer⟩, d⟩ := r
  · exact refused_wire hused
  refine ends_bind (ends_perform trivial fun st _ => ?_)
  refine ends_bind (ends_orThrow (fun kind hkind => ?_) (guarded_of_unused hused))
  subst hkind
  let g' := (watching z offset).next g
    (.status (if path = [] then s.current_directory_ else s.resolvePath fs path)) (.ok kind)
  have hunseen' : g'.unseen = g.unseen := Bool.or_false _
  have hlisting (list_path : Str) : Ends (watching z offset) (if kind = .directory then listDirectory list_path
      else do
        let size ← orThrow (← perform (.fileSize list_path))
        return some ("-rw-rw-rw- 1 owner group " ++ decimal size ++ " " ++ Path.filename list_path ++ "\r\n") :
      Io (Option Str)) (fun r => g'.Lists r) (Guarded z .list) g' := by
    refine ends_ite (fun _ => listDirectory_wire _ hused) fun _ => ?_
    refine ends_bind (ends_perform trivial fun size _ => ?_)
    refine ends_bind (ends_orThrow (fun n hn => ?_) (guarded_of_unused hused))
    subst hn
    exact ends_pure ⟨hused, rfl, fun _ => ⟨rfl, Bool.or_false _⟩⟩
  refine ends_bind ((hlisting _).mono (fun listing g₁ h₁ => ?_) fun _ h => h)
  obtain ⟨hused₁, hopened₁, hquery⟩ := h₁
  cases listing with
  | none => exact ends_bind (ends_perform trivial fun _ _ => refused_wire hused₁)
  | some listing =>
    obtain ⟨hf, hu⟩ := hquery rfl
    have hready : g₁.Ready z .list :=
      ⟨hopened₁.trans (hopened rfl), hf.trans hfailed, hu.trans (hunseen'.trans hunseen)⟩
    refine ends_bind (ends_perform trivial fun _ _ => ?_)
    refine ends_bind (ends_perform trivial fun _ _ => ?_)
    exact ends_reply_return fun _ => hready

def Looks (o : Σ β, Call β) : Prop := ∀ (z : Bool) (offset : Int) (g : Wire) (r : o.1),
  (g.next z offset o.2 r).used = g.used ∧ (g.next z offset o.2 r).opened = g.opened ∧
    (g.next z offset o.2 r).failed = g.failed

lemma machineEntries_looks (dir : Str) (names : List Str) :
    (s.machineEntries dir names).Within Looks fun _ => True := by
  have hfacts (path name : Str) : (s.buildMachineFacts path name).Within Looks fun _ => True := by
    have hlook {β : Type} (o : Call β) (ho : Looks ⟨β, o⟩) : (perform o).Within Looks fun _ => True :=
      (within_perform o).2 ⟨ho, fun _ => trivial⟩
    refine Within.bind (hlook _ fun _ _ _ _ => ⟨rfl, rfl, rfl⟩) fun found => ?_
    refine Within.bind (within_ite.2 ?_) fun size => ?_
    · refine ⟨fun _ => (within_pure _).2 trivial, fun _ => ?_⟩
      refine Within.bind (hlook _ fun _ _ _ _ => ⟨rfl, rfl, rfl⟩) ?_
      rintro (_ | _) <;> exact (within_pure _).2 trivial
    · refine Within.bind (hlook _ fun _ _ _ _ => ⟨rfl, rfl, rfl⟩) fun modify => ?_
      exact Within.bind (hlook _ fun _ _ _ _ => ⟨rfl, rfl, rfl⟩) fun fs => (within_pure _).2 trivial
  induction names with
  | nil => exact (within_pure _).2 trivial
  | cons name names ih =>
    refine Within.bind (hfacts _ _) fun _ => ?_
    exact Within.bind ih fun _ => (within_pure _).2 trivial

lemma handleMLSD_wire (path : Str) :
    Ends (watching z offset) (s.handleMLSD path) (fun _ g => g.Guarded z .mlsd) (Guarded z .mlsd) {} := by
  refine ends_bind (ends_perform trivial fun fs _ => ?_)
  refine ends_ite (fun _ => refused_wire rfl) fun _ => ?_
  refine ends_ite (fun _ => refused_wire rfl) fun _ => ?_
  refine ends_bind (ends_perform trivial fun st _ => ?_)
  refine ends_ite (fun _ => refused_wire rfl) fun _ => ends_bind (ends_reply ?_)
  refine ends_bind ((accept_wire s.data _ rfl).mono (fun r g h => ?_) fun _ h => h)
  obtain ⟨hused, hfailed, hunseen, hopened⟩ := h
  obtain ⟨_ | ⟨data_fd, peer⟩, d⟩ := r
  · exact refused_wire hused
  refine ends_bind (ends_perform trivial fun r _ => ?_)
  obtain ⟨names, failure⟩ := r
  let g' := (watching z offset).next g (.readDirectory (if path = [] then s.current_directory_ else
    s.resolvePath fs path))
    (names, failure)
  have hlisting (dir : Str) : Ends (watching z offset) (s.machineEntries dir names)
    (fun _ g'' => g''.used = false ∧
      g''.opened = g'.opened ∧ g''.failed = g'.failed) (Guarded z .mlsd) g' := by
    refine ((machineEntries_looks dir names).ends (J := fun g'' : Wire => g''.used = false ∧
      g''.opened = g'.opened ∧
      g''.failed = g'.failed) (fun o g₁ ho hJ => ⟨trivial, fun r _ => ?_⟩)
      ⟨show g'.used = false from hused, rfl, rfl⟩).mono ?_ ?_
    · obtain ⟨hu, ho, hf⟩ := ho z offset g₁ r
      exact ⟨hu.trans hJ.1, ho.trans hJ.2.1, hf.trans hJ.2.2⟩
    · exact fun _ _ h => h.2
    · exact fun _ h => guarded_of_unused h.1
  refine ends_bind ((hlisting _).mono (fun listing g₁ h₁ => ?_) fun _ h => h)
  obtain ⟨hused₁, hopened₁, hfailed₁⟩ := h₁
  cases failure with
  | some e => exact ends_bind (ends_perform trivial fun _ _ => refused_wire hused₁)
  | none =>
    have hready : g₁.Ready z .mlsd := by
      refine ⟨hopened₁.trans (hopened rfl), hfailed₁.trans ?_⟩
      exact (Bool.or_false _).trans hfailed
    refine ends_bind (ends_perform trivial fun _ _ => ?_)
    refine ends_bind (ends_perform trivial fun _ _ => ?_)
    exact ends_reply_return fun _ => hready

lemma sendFile_clear (t : Retrieval) (use_sendfile use_mmap : Bool) {size : ℕ} (h : (size : Int) ≤ offset) :
    (t.sendFile use_sendfile use_mmap size offset).Within (fun o => o.2.inClear = false) fun _ => True := by
  have hzero : (size - offset).toNat = 0 := by omega
  have hfirst : (if use_sendfile then t.sendfileLoop 0 offset ⟨0, 0⟩ else return (offset, ⟨0, 0⟩) :
      Io (Int × Progress)) = pure (offset, ⟨0, 0⟩) := by
    split <;> rfl
  have hmap : ¬(use_mmap ∧ 0 < size ∧ offset < size) := fun h' => absurd h'.2.2 (not_lt.2 h)
  unfold Retrieval.sendFile
  simp only [hzero, hfirst, hmap, if_false, pure_bind', lt_irrefl, decide_false, Bool.false_and, Bool.and_false,
    Bool.false_eq_true]
  refine within_bind.2 ((within_perform _).2 ⟨rfl, fun sought => ?_⟩)
  refine within_ite.2 ⟨fun _ => ?_, fun _ => ?_⟩
  · exact (within_pure _).2 trivial
  · refine within_bind.2 (within_bind.2 ((within_perform _).2 ⟨rfl, fun made => ?_⟩))
    refine within_ite.2 ⟨fun _ => ?_, fun _ => ?_⟩
    · exact (within_pure _).2 (within_bind.2 ((within_pure _).2 ((within_pure _).2 trivial)))
    · exact within_throw _

lemma retrieveTo_wire (data_fd : Fd) (filepath : Str) {g : Wire} (hg : g.used = false) :
    Ends (watching s.transferModeZ s.resume_position_) (s.retrieveTo env data_fd filepath)
      (fun _ g => g.Guarded s.transferModeZ .retr) (Guarded s.transferModeZ .retr) g := by
  have hclose (file_fd : Fd) (r : ℕ × Str × Bool) {g : Wire} (hg : g.used = false) :
      Ends (watching s.transferModeZ s.resume_position_) (do
        perform (.close file_fd)
        perform (.close data_fd)
        return r : Io (ℕ × Str × Bool)) (fun _ g => g.Guarded s.transferModeZ .retr)
          (Guarded s.transferModeZ .retr) g :=
    ends_bind (ends_perform trivial fun _ _ => ends_bind (ends_perform trivial fun _ _ =>
      ends_pure (guarded_of_unused hg)))
  refine ends_bind (ends_perform trivial fun start_time _ => ?_)
  refine ends_bind (ends_perform trivial fun opened _ => ?_)
  cases opened with
  | none => exact ends_bind (ends_perform trivial fun _ _ => ends_pure (guarded_of_unused hg))
  | some file_fd =>
    refine ends_bind (ends_perform trivial fun st _ => ?_)
    obtain _ | ⟨_ | _, size⟩ := st
    · exact hclose file_fd _ hg
    · exact hclose file_fd _ hg
    · refine ends_ite (fun _ => hclose file_fd _ hg) fun _ => ?_
      by_cases hready : s.transferModeZ = true ∨ s.resume_position_ < size
      · have hregular :
          ((watching s.transferModeZ s.resume_position_).next g (.fstat file_fd) (some (true, size))).Ready
            s.transferModeZ .retr := by
          have hsome : (s.transferModeZ || decide (s.resume_position_ < size)) = true := by simpa using hready
          simp [watching, next, Ready, hsome]
        exact ends_ready (by simp) hregular
      · have hplain : s.transferModeZ = false := by simpa using fun h => hready (.inl h)
        have hend : (size : Int) ≤ s.resume_position_ := not_lt.1 fun h => hready (.inr h)
        have hsend : (s.sendOpened env data_fd file_fd start_time size).Within (fun o => o.2.inClear = false)
            fun _ => True := by
          refine within_ite.2 ⟨fun hz => absurd (hplain.symm.trans hz) Bool.false_ne_true, fun _ => ?_⟩
          exact Within.bind (sendFile_clear _ _ _ hend) fun _ => (within_pure _).2 trivial
        exact ends_bind (ends_clear hsend (fun _ ho => ho) hg fun r g _ hg => hclose file_fd _ hg)

lemma handleRETR_wire (name : Str) : Ends (watching s.transferModeZ s.resume_position_) (s.handleRETR env name)
    (fun _ g => g.Guarded s.transferModeZ .retr) (Guarded s.transferModeZ .retr) {} := by
  refine ends_bind (ends_perform trivial fun fs _ => ?_)
  refine ends_ite (fun _ => refused_wire rfl) fun _ => ?_
  refine ends_ite (fun _ => refused_wire rfl) fun _ => ?_
  refine ends_bind (ends_perform trivial fun st _ => ?_)
  refine ends_bind (ends_orThrow (fun found hfound => ?_) (guarded_of_unused rfl))
  refine ends_ite (fun _ => refused_wire rfl) fun _ => ends_bind ?_
  refine ends_unused (modeZRefusal_within (List.mem_singleton_self _)) (by simp) rfl fun r g _ hg => ?_
  cases r with
  | some s' => exact ends_pure (guarded_of_unused hg)
  | none =>
    refine ends_bind (ends_reply (ends_bind ((accept_wire s.data _ hg).mono (fun r g h => ?_) fun _ h => h)))
    obtain ⟨_ | ⟨data_fd, peer⟩, d⟩ := r
    · exact refused_wire h.1
    · refine ends_bind ((retrieveTo_wire (s := { s with data := d }) data_fd _ h.1).mono
        (fun r g h => ?_) fun _ h => h)
      exact ends_reply_return h

variable {v : Verb}

lemma openTarget_wire (filepath : Str) {g : Wire} (hg : g.used = false) :
    Ends (watching z offset) (s.openTarget filepath)
      (fun r g => g.used = false ∧ ∀ f, r = some f → g.target = true) (Guarded z v) g := by
  have hopen (mode : FileSystem.OpenMode) {g : Wire} (hg : g.used = false) :
      Ends (watching z offset) (perform (.openWrite filepath mode) : Io (Option Fd))
        (fun r g => g.used = false ∧ ∀ fd, r = some fd → g.target = true) (Guarded z v) g := by
    refine ends_perform trivial fun r _ => ⟨hg, fun fd hfd => ?_⟩
    subst hfd
    exact Bool.or_true _
  have hresumed : Ends (watching z offset) (if 0 < s.resume_position_ then do
        let found ← orThrow (← perform (.status filepath))
        if found ≠ .notFound then perform (.openWrite filepath .update) else return none
      else return none : Io (Option Fd))
      (fun r g => g.used = false ∧ ∀ fd, r = some fd → g.target = true) (Guarded z v) g := by
    refine ends_ite (fun _ => ends_bind (ends_perform trivial fun st _ => ?_)) fun _ =>
      ends_pure ⟨hg, fun fd h => by cases h⟩
    refine ends_bind (ends_orThrow (fun found _ => ?_) (guarded_of_unused hg))
    refine ends_ite (fun _ => hopen .update hg) fun _ => ?_
    exact ends_pure ⟨hg, fun fd h => by cases h⟩
  refine ends_bind (hresumed.mono (fun r g h => ?_) fun _ h => h)
  cases r with
  | some fd => exact ends_pure ⟨h.1, fun _ _ => h.2 fd rfl⟩
  | none =>
    refine ends_bind ((hopen .truncate h.1).mono (fun r g h => ends_pure ⟨h.1, fun f hf => ?_⟩) fun _ h => h)
    cases r with
    | none => cases hf
    | some fd => exact h.2 fd rfl

variable (env offset) in
lemma storeFrom_wire (hv : v ∈ [.stor, .stou]) (data_fd : Fd) (peer : Peer) (filepath : Str) {g : Wire}
    (hg : g.used = false) : Ends (watching s.transferModeZ offset) (s.storeFrom env data_fd peer filepath)
      (fun _ g => g.Guarded s.transferModeZ v) (Guarded s.transferModeZ v) g := by
  have hparents : (if Path.hasParentPath filepath then do
        let _ ← orThrow (← perform (.createDirectories (Path.parentPath filepath)))
        return ()
      else return () : Io Unit).Within (Kinds [.change]) fun _ => True := by
    refine within_ite.2 ⟨fun _ => ?_, fun _ => (within_pure _).2 trivial⟩
    simp [within_bind, Call.kind]
  refine ends_bind (ends_unused hparents (by simp) hg fun _ g _ hg => ends_bind ?_)
  refine (openTarget_wire filepath hg).mono (fun r g h => ?_) fun _ h => h
  cases r with
  | none => exact ends_bind (ends_perform trivial fun _ _ => ends_pure (guarded_of_unused h.1))
  | some f =>
    have htarget : g.target = true := h.2 f rfl
    have hready {g : Wire} (ht : g.target = true) (hp : s.transferModeZ = true → g.prepared = true) :
        g.Ready s.transferModeZ v := by
      rcases List.mem_pair.1 hv with rfl | rfl <;> exact ⟨ht, hp⟩
    have hmem : v ∈ [.retr, .stor, .stou, .appe] := by
      rcases List.mem_pair.1 hv with rfl | rfl <;> simp
    refine ends_bind (ends_perform trivial fun _ _ => ends_ite (fun hz => ?_) fun hz => ?_)
    · refine ends_bind (ends_perform trivial fun valid _ => ends_ite (fun _ => ?_) fun hvalid => ?_)
      · exact ends_bind (ends_perform trivial fun _ _ => ends_bind (ends_perform trivial fun _ _ =>
          ends_pure (guarded_of_unused h.1)))
      · have hprepared : valid = true := by simpa using hvalid
        exact ends_ready hmem (hready htarget fun _ => by simp [watching, next, hprepared])
    · exact ends_ready hmem (hready htarget fun h => absurd h hz)

variable (env offset) in
lemma handleSTOR_wire (hv : v ∈ [.stor, .stou]) (name : Str) {g : Wire} (hg : g.used = false) :
    Ends (watching s.transferModeZ offset) (s.handleSTOR env name)
      (fun _ g => g.Guarded s.transferModeZ v) (Guarded s.transferModeZ v) g := by
  refine ends_bind (ends_perform trivial fun fs _ => ?_)
  refine ends_ite (fun _ => refused_wire hg) fun _ => ?_
  refine ends_ite (fun _ => refused_wire hg) fun _ => ends_bind ?_
  refine ends_unused (quotaExceeded_within (List.mem_singleton_self _)) (by simp) hg fun exceeded g _ hg => ?_
  refine ends_ite (fun _ => refused_wire hg) fun _ => ends_bind ?_
  refine ends_unused (modeZRefusal_within (List.mem_singleton_self _)) (by simp) hg fun r g _ hg => ?_
  cases r with
  | some s' => exact ends_pure (guarded_of_unused hg)
  | none =>
    refine ends_bind (ends_reply (ends_bind ((accept_wire s.data _ hg).mono (fun r g h => ?_) fun _ h => h)))
    obtain ⟨_ | ⟨data_fd, peer⟩, d⟩ := r
    · exact refused_wire h.1
    · have hstore := storeFrom_wire (s := { s with data := d }) env offset hv data_fd peer
        (s.resolvePath fs name) h.1
      exact ends_bind (hstore.mono (fun r g h => ends_reply_return h) fun _ h => h)

lemma handleSTOU_wire (argument : Str) : Ends (watching s.transferModeZ offset) (s.handleSTOU env argument)
    (fun _ g => g.Guarded s.transferModeZ .stou) (Guarded s.transferModeZ .stou) {} := by
  refine ends_bind (ends_unused (uniqueName_within (List.mem_singleton_self _) _ _ _ _) (by simp) rfl
    fun r g _ hg => ?_)
  cases r with
  | none => exact refused_wire hg
  | some unique =>
    have hstor := handleSTOR_wire (s := { s with store_unique_name_ := unique, resume_position_ := 0 }) env offset
      (v := .stou) (by simp) unique hg
    exact ends_bind (hstor.mono (fun _ g h => ends_pure h) fun _ h => h)

lemma handleAPPE_wire (name : Str) : Ends (watching s.transferModeZ offset) (s.handleAPPE name)
    (fun _ g => g.Guarded s.transferModeZ .appe) (Guarded s.transferModeZ .appe) {} := by
  refine ends_bind (ends_perform trivial fun fs _ => ?_)
  refine ends_ite (fun _ => refused_wire rfl) fun _ => ?_
  refine ends_ite (fun _ => refused_wire rfl) fun _ => ?_
  refine ends_ite (fun _ => refused_wire rfl) fun hz => ?_
  refine ends_bind (ends_reply (ends_bind ((accept_wire s.data _ rfl).mono (fun r g h => ?_) fun _ h => h)))
  obtain ⟨_ | ⟨data_fd, peer⟩, d⟩ := r
  · exact refused_wire h.1
  refine ends_bind (ends_perform trivial fun st _ => ?_)
  refine ends_bind (ends_orThrow (fun found _ => ?_) (guarded_of_unused h.1))
  refine ends_bind (ends_perform trivial fun opened _ => ?_)
  cases opened with
  | none => exact ends_bind (ends_perform trivial fun _ _ => refused_wire h.1)
  | some fd =>
    have hplain : s.transferModeZ = false := by simpa using hz
    refine ends_ready (by simp) ⟨Bool.or_true _, fun hz => ?_⟩
    exact absurd (hplain.symm.trans hz) Bool.false_ne_true

end Session

abbrev Clear (o : Σ β, Call β) : Prop := o.2.inClear = false

lemma bindFrom_clear (fd : Fd) (n : ℕ) :
    ∀ port, (DataConnection.bindFrom fd port n).Within Clear fun _ => True := by
  induction n with
  | zero => exact fun port => (within_pure _).2 trivial
  | succ n ih =>
    intro port
    refine Within.bind ((within_perform _).2 ⟨rfl, fun _ => trivial⟩) fun bound => ?_
    refine within_ite.2 ⟨fun _ => ?_, fun _ => ih _⟩
    refine Within.bind ((within_perform _).2 ⟨rfl, fun _ => trivial⟩) fun listening => ?_
    exact within_ite.2 ⟨fun _ => (within_pure _).2 trivial, fun _ => ih _⟩

lemma closeDataSocket_clear (d : DataConnection) : d.closeDataSocket.Within Clear fun _ => True := by
  have hclose : d.closeDataSocket.Within (Kinds [.close]) fun _ => True :=
    DataConnection.closeDataSocket_within d (List.mem_singleton_self _) trivial
  refine hclose.mono (fun o ho => inClear_of_kind fun he => ?_) fun _ h => h
  cases he.symm.trans (List.mem_singleton.1 ho)

lemma createPassiveDataSocket_clear (c : ConnectionConfig) (d : DataConnection) :
    (d.createPassiveDataSocket c).Within Clear fun _ => True := by
  refine Within.bind (closeDataSocket_clear d) fun d => ?_
  refine Within.bind ((within_perform _).2 ⟨rfl, fun _ => trivial⟩) ?_
  rintro (_ | fd)
  · exact (within_pure _).2 trivial
  · refine Within.bind (bindFrom_clear fd _ _) fun found => ?_
    cases found with
    | some port => exact (within_pure _).2 trivial
    | none =>
      refine Within.bind ((within_perform _).2 ⟨rfl, fun _ => trivial⟩) fun _ => ?_
      exact (within_pure _).2 trivial

lemma Session.reply_clear (s : Session) (code : ℕ) (text : Str) {α : Type} (a : α) :
    (s.reply code text >>= fun _ => pure a).Within Clear fun _ => True := by
  have hreply : (s.reply code text).Within (Kinds [.reply]) fun _ => True := by simp
  refine Within.bind (hreply.mono (fun o ho => inClear_of_kind fun he => ?_) fun _ h => h) fun _ =>
    (within_pure _).2 trivial
  cases he.symm.trans (List.mem_singleton.1 ho)

lemma Session.listen_clear (s : Session) (d : DataConnection) (c : ConnectionConfig) (code : ℕ)
    (text : Int → Str) :
    (do
      let d ← d.closeDataSocket
      let (port, d) ← d.createPassiveDataSocket c
      if port < 0 then do
        s.reply 425 "Can't open passive connection"
        return d
      else do
        s.reply code (text port)
        return d : Io DataConnection).Within Clear fun _ => True := by
  refine Within.bind (closeDataSocket_clear d) fun d => ?_
  refine Within.bind (createPassiveDataSocket_clear c d) fun r => ?_
  exact within_ite.2 ⟨fun _ => s.reply_clear _ _ _, fun _ => s.reply_clear _ _ _⟩

lemma Session.handle_wire (env : Service) (s : Session) (c : Command) :
    Ends (watching s.transferModeZ s.resume_position_) (s.handle env c)
      (fun _ g => g.Guarded s.transferModeZ c.verb) (Guarded s.transferModeZ c.verb) {} := by
  rcases c with ⟨v, a⟩
  cases v with
  | list => exact ends_bind ((handleLIST_wire a).mono (fun _ _ h => ends_pure h) fun _ h => h)
  | mlsd => exact ends_bind ((handleMLSD_wire a).mono (fun _ _ h => ends_pure h) fun _ h => h)
  | retr => exact handleRETR_wire a
  | stor => exact handleSTOR_wire env _ (by simp) a rfl
  | stou => exact handleSTOU_wire a
  | appe => exact handleAPPE_wire a
  | pasv =>
    have hclear : (s.handlePASV env).Within Clear fun _ => True :=
      within_ite.2 ⟨fun _ => s.reply_clear _ _ _, fun _ => s.listen_clear _ _ 227 formatPassiveResponse⟩
    have hall : (s.handle env ⟨.pasv, a⟩).Within Clear fun _ => True :=
      Within.bind hclear fun _ => (within_pure _).2 trivial
    exact ends_clear hall (fun _ ho => ho) rfl fun _ _ _ hg => guarded_of_unused hg
  | epsv =>
    have hclear : (s.handleEPSV env a).Within Clear fun _ => True := by
      refine within_ite.2 ⟨fun _ => s.reply_clear _ _ _, fun _ => ?_⟩
      refine within_ite.2 ⟨fun _ => s.reply_clear _ _ _, fun _ => ?_⟩
      exact s.listen_clear _ _ 229 fun port => "Entering Extended Passive Mode (|||" ++ decimalInt port ++ "|)"
    have hall : (s.handle env ⟨.epsv, a⟩).Within Clear fun _ => True :=
      Within.bind hclear fun _ => (within_pure _).2 trivial
    exact ends_clear hall (fun _ ho => ho) rfl fun _ _ _ hg => guarded_of_unused hg
  | _ =>
    refine ends_unused (handle_within ⟨_, a⟩) (by simp [Verb.kinds, passKinds]) rfl fun _ _ _ hg => ?_
    exact guarded_of_unused hg

variable (env : Service) (me : SessionId)

def Session.wire (s : Session) (a : Arrival) : Wire :=
  (watching s.transferModeZ s.resume_position_).final (World.machine me) {} (s.trace env me a)

/-- A session and, as history, the level of the last PROT answered 200. -/
structure Protected where
  session : Session
  level : Option Str

def protectedSystem : System Protected Arrival where
  init v := v.session.IsNew ∧ v.level = none
  next v a := (v.session.after env me a).map fun s' => ⟨s',
    if a.command.verb = .prot ∧ (v.session.trace env me a).answers 200 then
      (Session.protectionLevel a.command.argument).map Prod.fst
    else v.level⟩

def Protected.StaysPrivate (v : Protected) (a : Arrival) : Prop :=
  v.session.protection_level_ = "P" → ¬(v.session.wire env me a).Ready v.session.transferModeZ a.command.verb

structure Protected.Sound (v : Protected) : Prop where
  connected : v.session.socket_ ≠ none
  level : ∀ l, v.level = some l → v.session.protection_level_ = l

variable {env me}

namespace Session

variable {s s' : Session} {a : Arrival}

lemma handlePROT_answered (hs : s.socket_ ≠ none) (level : Str) {w : World} :
    Answered me (s.handlePROT level) w fun code l _ =>
      (code = 200 ∧ ∃ name, protectionLevel level = some (l, name)) ∨ (code ≠ 200 ∧ l = s.protection_level_) := by
  unfold handlePROT
  refine answered_ite (fun _ => answered_return hs fun _ _ => .inr ⟨by decide, rfl⟩) fun _ => ?_
  split
  · rename_i letter name hl
    exact answered_return hs fun _ _ => .inl ⟨rfl, name, hl⟩
  · exact answered_return hs fun _ _ => .inr ⟨by decide, rfl⟩

lemma prot_answered (hs : s.socket_ ≠ none) (hv : a.command.verb = .prot) (h : s.after env me a = some s') :
    ∃ code, (∀ c, (s.trace env me a).answers c = decide (code = c)) ∧
      ((code = 200 ∧ ∃ name, protectionLevel a.command.argument = some (s'.protection_level_, name)) ∨
        (code ≠ 200 ∧ s'.protection_level_ = s.protection_level_)) := by
  refine answered_dispatch hs h (P := fun code s' _ =>
    (code = 200 ∧ ∃ name, protectionLevel a.command.argument = some (s'.protection_level_, name)) ∨
      (code ≠ 200 ∧ s'.protection_level_ = s.protection_level_)) (fun _ => ?_) fun _ _ _ _ => .inr ⟨by decide, rfl⟩
  rw [Arrival.command_eq hv]
  exact answered_pure (handlePROT_answered hs _)

lemma used_of_mem {z : Bool} {offset : Int} {c : World × Σ β, Call β} (t : Trace) : ∀ g : Wire,
    g.used = true ∨ (c ∈ t ∧ c.2.2.inClear = true) →
      ((watching z offset).final (World.machine me) g t).used = true := by
  induction t with
  | nil => exact fun g h => h.elim id fun h => absurd h.1 List.not_mem_nil
  | cons c' t ih =>
    intro g h
    refine ih _ ?_
    have hkept (hg : g.used = true) {β : Type} (o : Call β) (r : β) : (g.next z offset o r).used = true := by
      cases o <;> first | exact hg | rfl
    rcases h with hg | ⟨hc, hclear⟩
    · exact .inl (hkept hg _ _)
    · rcases List.mem_cons.1 hc with rfl | hc
      · refine .inl ?_
        obtain ⟨w, β, o⟩ := c
        cases o with
        | send | recv | sendfile | sendMapped => rfl
        | _ => cases hclear
      · exact .inr ⟨hc, hclear⟩

lemma ready_of_inClear {c : World × Σ β, Call β} (hc : c ∈ s.trace env me a) (hclear : c.2.2.inClear = true) :
    (s.wire env me a).Ready s.transferModeZ a.command.verb := by
  have hused : (s.wire env me a).used = true := used_of_mem _ {} (.inr ⟨hc, hclear⟩)
  have hM : (watching s.transferModeZ s.resume_position_).Describes (World.machine me) fun _ _ => True :=
    fun _ _ _ _ _ => ⟨trivial, trivial⟩
  unfold wire trace at hused ⊢
  rcases dispatch_cases env s a.line with ⟨_, hd⟩ | ⟨_, _, hd⟩
  · rw [hd] at hused ⊢
    exact (handle_wire env s a.command).final hM (w := a.world) trivial hused
  · rw [hd] at hused ⊢
    have hrefused : Ends (watching s.transferModeZ s.resume_position_)
        (s.reply 530 "Please login with USER and PASS" >>= fun _ => pure s)
        (fun _ g => g.Guarded s.transferModeZ a.command.verb) (Guarded s.transferModeZ a.command.verb) {} :=
      refused_wire rfl
    exact hrefused.final hM (w := a.world) trivial hused

end Session

namespace Protected

variable {v v' : Protected} {a : Arrival}

lemma sound_step (hv : v.Sound) (h : (protectedSystem env me).next v a = some v') : v'.Sound := by
  obtain ⟨s', hs', rfl⟩ := Option.map_eq_some_iff.1 h
  have hconn : s'.socket_ ≠ none := (Session.after_frame hs').socket ▸ hv.connected
  refine ⟨hconn, ?_⟩
  by_cases hprot : a.command.verb = .prot
  · obtain ⟨code, hcode, hP⟩ := Session.prot_answered hv.connected hprot hs'
    simp only [hprot, hcode, true_and, decide_eq_true_eq]
    rcases hP with ⟨rfl, name, hl⟩ | ⟨hne, hkept⟩
    · intro l hlevel
      rw [if_pos rfl, hl] at hlevel
      exact Option.some_inj.1 hlevel
    · rw [if_neg hne, hkept]
      exact hv.level
  · have hkept : s'.protection_level_ = v.session.protection_level_ := (Session.after_frame hs').protection hprot
    simp only [hprot, hkept, false_and, if_false]
    exact hv.level

lemma sound_of_reach {ok : Protected → Arrival → Prop} (h : (protectedSystem env me).Reach ok v) : v.Sound := by
  refine h.invariant ?_ fun _ _ _ hv _ hn => sound_step hv hn
  rintro v ⟨⟨fd, context, ssl, hs⟩, hlevel⟩
  exact ⟨by simp [hs, Session.opened], by simp [hlevel]⟩

end Protected

variable (env me)

theorem protected_data_is_private {v : Protected}
    (h : (protectedSystem env me).Reach (Protected.StaysPrivate env me) v) (hlevel : v.level = some (ascii "P"))
    {a : Arrival} (hok : v.StaysPrivate env me a) : ∀ c ∈ v.session.trace env me a, c.2.2.inClear = false := by
  intro c hc
  by_contra hclear
  have hstored : v.session.protection_level_ = ascii "P" := (Protected.sound_of_reach h).level _ hlevel
  exact hok hstored (Session.ready_of_inClear hc (Bool.eq_true_of_not_eq_false hclear))

namespace Protected

instance (g : Wire) (z : Bool) (v : Verb) : Decidable (g.Ready z v) := by
  unfold Wire.Ready
  split <;> infer_instance

instance (v : Protected) (a : Arrival) : Decidable (v.StaysPrivate env me a) := by
  unfold StaysPrivate
  infer_instance

def sampleLines : List Arrival := ["AUTH TLS", "USER u", "PASS p", "PBSZ 0", "PROT P"].map Restarting.sampleLine

def sendsInClear (v : Protected) (line : String) : Bool :=
  (v.session.trace Session.secureService 0 (Restarting.sampleLine line)).any fun c => c.2.2.inClear

end Protected

theorem protected_data_is_private_list : ∃ v : Protected, v.level = some (ascii "P") ∧
    ∀ c ∈ v.session.trace Session.secureService 0 (Restarting.sampleLine "LIST"), c.2.2.inClear = false := by
  obtain ⟨v, hv, he⟩ := Option.map_eq_some_iff.1 (show
    ((protectedSystem Session.secureService 0).run (Protected.StaysPrivate Session.secureService 0)
      ⟨.opened 3 true true, none⟩ Protected.sampleLines).map (fun v =>
        (v.level, decide (v.StaysPrivate Session.secureService 0 (Restarting.sampleLine "LIST")))) =
        some (some (ascii "P"), true) by decide +kernel)
  simp only [Prod.mk.injEq] at he
  exact ⟨v, he.1, protected_data_is_private Session.secureService 0 (.run (.init ⟨⟨_, _, _, rfl⟩, rfl⟩) hv) he.1
    (of_decide_eq_true he.2)⟩

theorem protected_data_is_in_clear : ∃ v : Protected,
    (protectedSystem Session.secureService 0).Reach System.anyStep v ∧ v.level = some (ascii "P") ∧
      v.sendsInClear "LIST" = true ∧ v.sendsInClear "RETR f" = true ∧ v.sendsInClear "STOR g" = true := by
  obtain ⟨v, hv, he⟩ := Option.map_eq_some_iff.1 (show
    ((protectedSystem Session.secureService 0).run System.anyStep ⟨.opened 3 true true, none⟩
      (Protected.sampleLines ++ [Restarting.sampleLine "PORT 127,0,0,1,4,28"])).map (fun v =>
        (v.level, v.sendsInClear "LIST", v.sendsInClear "RETR f", v.sendsInClear "STOR g")) =
        some (some (ascii "P"), true, true, true) by decide +kernel)
  simp only [Prod.mk.injEq] at he
  exact ⟨v, .run (.init ⟨⟨_, _, _, rfl⟩, rfl⟩) hv, he.1, he.2.1, he.2.2.1, he.2.2.2⟩

end SimpleSftpd
