import Mathlib.Logic.Function.Basic
import SimpleSftpd.Core.Descriptors
import SimpleSftpd.Core.Answered

/-! The tree and the open files as a session knows them from the answers to its calls, and what
passes over its data connections. -/

namespace SimpleSftpd

open Cxx Interaction Prog

inductive Way
  | sendfile | mapped | send
  deriving DecidableEq

/-- Bytes offered to the data connection, where in their file they lie, and how many it has taken;
no more than zero for an error. -/
structure Move where
  way : Way
  place : Int
  offered : ℕ
  count : Int
  deriving DecidableEq

structure Storage where
  fs : FileSystem
  files : Fd → Option (Location × Int)
  peers : List Peer := []
  targets : List (Location × FileSystem.OpenMode) := []
  prepared : Bool := false
  mapped : Bool := false
  reads : List Str := []
  held : Int := 0
  moves : List Move := []
  sent : Str := []
  unsent : Bool := false
  unread : Bool := false
  unwritten : Bool := false
  unopened : Bool := false
  completed : Bool := false

namespace Storage

def opened (g : Storage) (fd : Fd) (r : Except Errc Location) : Storage :=
  { g with files := match r with
      | .ok l => Function.update g.files fd (some (l, 0))
      | .error _ => g.files }

def seek (g : Storage) (fd : Fd) (pos : Int) : Storage :=
  { g with files := Function.update g.files fd ((g.files fd).map fun (l, _) => (l, pos)) }

def offer (g : Storage) (way : Way) (place : Int) (data : Str) (n : Int) : Storage :=
  { g with moves := g.moves ++ [⟨way, place, data.length, n⟩], sent := g.sent ++ data.take n.toNat }

def refused (g : Storage) (mode : FileSystem.OpenMode) : Storage :=
  { g with unopened := g.unopened || mode = .update }

/-- What falls short is remembered: a `send` that does not take all, a mapping of which no more is
taken, a read without bytes, a write that fails. -/
def next (g : Storage) {β : Type} (o : Call β) : β → Storage := match o with
  | .sendControl _ line => fun _ => { g with completed := g.completed || answeredWith 226 [line] }
  | .createDirectory p => fun _ => { g with fs := (g.fs.createDirectory p).2 }
  | .createDirectories p => fun _ => { g with fs := (g.fs.createDirectories p).2 }
  | .remove p => fun _ => { g with fs := (g.fs.remove p).2 }
  | .rename p q => fun _ => { g with fs := (g.fs.rename p q).2 }
  | .permissions p mode => fun _ => { g with fs := (g.fs.permissions p mode).2 }
  | .chroot p => fun granted => match granted, g.fs.locate p with
    | true, .ok l => { g with fs := { g.fs with root := l } }
    | _, _ => g
  | .accept _ => fun r => { g with peers := g.peers ++ (r.map Prod.snd).toList }
  | .connect _ _ _ => fun r => { g with peers := g.peers ++ r.toList }
  | .close fd => fun _ => { g with files := Function.update g.files fd none }
  | .openRead p => fun
    | some fd => g.opened fd (g.fs.openRead p)
    | none => g
  | .openWrite p mode => fun
    | some fd => { g with
        fs := (g.fs.openWrite p mode).2
        targets := g.targets ++ ((g.fs.openWrite p mode).1.toOption.map (·, mode)).toList }.opened fd
          (g.fs.openWrite p mode).1
    | none => { g with fs := (g.fs.openWrite p mode).2 }.refused mode
  | .lseek fd pos => fun sought => if sought then g.seek fd pos else g
  | .read fd _ => fun
    | none => { g with unread := true }
    | some data => match g.files fd with
      | some (_, pos) =>
        { g with held := pos, reads := g.reads ++ [data], unread := g.unread || data = [] }.seek fd
          (pos + data.length)
      | none => g
  | .write fd pos data => fun ok => match ok, g.files fd with
    | true, some (l, _) => { g with fs := g.fs.writeAt l pos data }
    | _, _ => { g with unwritten := true }
  | .appendTo fd data => fun ok => match ok, g.files fd with
    | true, some (l, _) => { g with fs := g.fs.append l data }
    | _, _ => { g with unwritten := true }
  | .send _ data => fun n => { g with unsent := g.unsent || n < data.length }.offer .send g.held data n
  | .sendMapped _ bytes index count => fun n =>
    { g with mapped := g.mapped || 0 < n, unsent := g.unsent || g.mapped && n ≤ 0 }.offer .mapped index
      ((bytes.drop index.toNat).take count) n
  | .sendfile _ file offset count => fun n => match g.files file with
    | some (l, _) => g.offer .sendfile offset (((g.fs.content l).drop offset.toNat).take count) n
    | none => g.offer .sendfile offset [] n
  | .zlibInit _ => fun valid => { g with prepared := g.prepared || valid }
  | _ => fun _ => g

def stat (fs : FileSystem) (file : Option (Location × Int)) : Option (Bool × ℕ) :=
  file.bind fun (l, _) => (fs.node l).map fun n => match n with
    | .regular b => (true, b.length)
    | _ => (false, 0)

def calls (J : Storage → Prop) : Contract Call Storage where
  pre g _ := J g
  post g o := match o with
    | .nameSpace => fun r => r = g.fs
    | .status p => fun r => r = g.fs.status p
    | .fileSize p => fun r => r = g.fs.fileSize p
    | .regularFilesBelow p => fun r => r = g.fs.regularFilesBelow p
    | .createDirectory p => fun r => r = (g.fs.createDirectory p).1
    | .createDirectories p => fun r => r = (g.fs.createDirectories p).1
    | .remove p => fun r => r = (g.fs.remove p).1
    | .rename p q => fun r => r = (g.fs.rename p q).1
    | .socket => fun r => ∀ fd ∈ r, g.files fd = none
    | .accept _ => fun r => ∀ p ∈ r, g.files p.1 = none
    | .openRead p => fun r => ∀ fd ∈ r, g.files fd = none ∧ ∃ l, g.fs.openRead p = .ok l
    | .openWrite p mode => fun r => ∀ fd ∈ r, g.files fd = none ∧ ∃ l, (g.fs.openWrite p mode).1 = .ok l
    | .fstat fd => fun r => r = stat g.fs (g.files fd)
    | .lseek fd pos => fun r => r = decide (0 ≤ pos ∧ (g.files fd).isSome)
    | .read fd n => fun r => ∀ data ∈ r, ∃ l pos, g.files fd = some (l, pos) ∧
        data <+: ((g.fs.content l).drop pos.toNat).take n
    | .sendfile _ file offset count => fun n => 0 < n → 0 ≤ offset ∧ ∃ l pos, g.files file = some (l, pos) ∧
        n ≤ min count ((g.fs.content l).length - offset.toNat)
    | .mmap fd len =>
      fun r => ∀ mapped ∈ r, ∃ l pos, g.files fd = some (l, pos) ∧ mapped = (g.fs.content l).take len
    | .send _ data => fun n => n ≤ data.length
    | .sendMapped _ _ _ count => fun n => n ≤ count
    | .write fd _ _ => fun ok => ok = true → (g.files fd).isSome
    | .appendTo fd _ => fun ok => ok = true → (g.files fd).isSome
    | _ => fun _ => True
  next g o r := g.next o r

def Holds (g : Storage) (w : World) : Prop := w.fs = g.fs ∧ ∀ fd, w.fileAt fd = g.files fd

end Storage

namespace World

variable {w : World} {fd n m : Fd} {l : Location} {pos : Int} {me : SessionId}

lemma fileAt_congr {w' : World} (h : w'.fds = w.fds) : w'.fileAt fd = w.fileAt fd := by
  unfold fileAt
  rw [h]

lemma fileAt_freshFd (w : World) (n : Fd) : w.fileAt (w.freshFd n) = none := by
  unfold fileAt
  rw [lookup_freshFd]

lemma fileAt_openFd (d : Descriptor) : (w.openFd n d).fileAt fd = if fd = w.freshFd n then
    match d.what with
    | .file l pos => some (l, pos)
    | .socket => none
    else w.fileAt fd := by
  unfold fileAt openFd
  rw [List.lookup_cons]
  by_cases h : fd = w.freshFd n
  · obtain ⟨owner, _ | ⟨l, pos⟩⟩ := d <;> simp [h]
  · rw [beq_eq_false_iff_ne.2 h, if_neg h]

lemma fileAt_closeFd : (w.closeFd n).fileAt fd = if fd = n then none else w.fileAt fd := by
  split
  · rename_i h
    unfold fileAt
    have hnone : (w.closeFd n).fds.lookup fd = none := by
      rw [List.lookup_eq_none_iff]
      intro e he
      have hne : e.1 ≠ n := by simpa using (List.mem_filter.1 he).2
      exact bne_iff_ne.2 (h ▸ hne.symm)
    rw [hnone]
  · rename_i h
    unfold fileAt
    rw [lookup_closeFd (Ne.symm h)]

lemma fileAt_seek : (w.seek m pos).fileAt fd = if fd = m then (w.fileAt fd).map fun (l, _) => (l, pos)
    else w.fileAt fd := by
  unfold fileAt
  rw [lookup_seek]
  by_cases h : fd = m
  · simp only [h, if_true]
    rcases w.fds.lookup m with _ | ⟨owner, _ | ⟨l, p⟩⟩ <;> rfl
  · simp only [h, if_false, Option.map_id']

end World

namespace Storage

variable {g : Storage} {w w' : World} {fd : Fd} {me : SessionId} {β : Type}

lemma Holds.same (h : g.Holds w) (hfs : w'.fs = w.fs) (hfds : w'.fds = w.fds) : g.Holds w' :=
  ⟨hfs.trans h.1, fun fd => (World.fileAt_congr hfds).trans (h.2 fd)⟩

lemma Holds.withFs (h : g.Holds w) (fs : FileSystem) : { g with fs := fs }.Holds (w.withFs fs) := ⟨rfl, h.2⟩

lemma Holds.openSocket (h : g.Holds w) (me : SessionId) (chosen : Option Fd) :
    (∀ fd ∈ (w.openSocket me chosen).1, g.files fd = none) ∧ g.Holds (w.openSocket me chosen).2 := by
  cases chosen with
  | none => exact ⟨by simp [World.openSocket], h.1, h.2⟩
  | some n =>
    refine ⟨fun fd hfd => ?_, h.1, fun fd => ?_⟩
    · cases hfd
      exact (h.2 _).symm.trans (World.fileAt_freshFd w n)
    · have hopen : (w.openSocket me (some n)).2.fileAt fd = (w.openFd n ⟨me, .socket⟩).fileAt fd :=
        World.fileAt_congr rfl
      rw [hopen, World.fileAt_openFd]
      split
      · rename_i hfd
        rw [hfd, ← h.2, World.fileAt_freshFd]
      · exact h.2 fd

lemma Holds.openPath (h : g.Holds w) (me : SessionId) (chosen : Option Fd) (r : Except Errc Location) :
    match (w.openPath me chosen r).1 with
    | some fd => g.files fd = none ∧ (∃ l, r = .ok l) ∧ (g.opened fd r).Holds (w.openPath me chosen r).2
    | none => g.Holds (w.openPath me chosen r).2 := by
  cases chosen with
  | none => exact ⟨h.1, h.2⟩
  | some n =>
    cases r with
    | error e => exact ⟨h.1, h.2⟩
    | ok l =>
      refine ⟨(h.2 _).symm.trans (World.fileAt_freshFd w n), ⟨l, rfl⟩, h.1, fun fd => ?_⟩
      have hopen : (w.openPath me (some n) (.ok l)).2.fileAt fd = (w.openFd n ⟨me, .file l 0⟩).fileAt fd :=
        World.fileAt_congr rfl
      rw [hopen, World.fileAt_openFd, h.2]
      simp only [opened, Function.update_apply]

lemma Holds.closeFd (h : g.Holds w) (n : Fd) :
    { g with files := Function.update g.files n none }.Holds (w.closeFd n) := by
  refine ⟨h.1, fun fd => ?_⟩
  rw [World.fileAt_closeFd, h.2]
  simp only [Function.update_apply]

lemma Holds.seek (h : g.Holds w) (n : Fd) (pos : Int) : (g.seek n pos).Holds (w.seek n pos) := by
  refine ⟨h.1, fun fd => ?_⟩
  rw [World.fileAt_seek, h.2]
  simp only [Storage.seek, Function.update_apply]
  split
  · rename_i hfd
    rw [hfd]
  · rfl

lemma Holds.of_eq {g' : Storage} (h : g.Holds w) (hfs : g'.fs = g.fs) (hfiles : g'.files = g.files) : g'.Holds w :=
  ⟨h.1.trans hfs.symm, fun fd => (h.2 fd).trans (congrFun hfiles.symm fd)⟩

lemma calls_describes (J : Storage → Prop) (me : SessionId) : (calls J).Describes (World.machine me) Holds := by
  intro β g w o h _
  obtain ⟨fs, files, peers, targets, prepared, mapped, reads, held, moves, sent, unsent, unread, unwritten,
    unopened, completed⟩ := g
  obtain ⟨hfs, hfiles⟩ := id h
  obtain rfl : w.fs = fs := hfs
  obtain rfl : w.fileAt = files := funext hfiles
  cases o with
  | sendControl tls line => exact ⟨trivial, (h.same rfl rfl).of_eq rfl rfl⟩
  | nameSpace | status p | fileSize p | regularFilesBelow p => exact ⟨rfl, h⟩
  | createDirectory p | createDirectories p | remove p | rename p q => exact ⟨rfl, h.withFs _⟩
  | permissions p mode => exact ⟨trivial, h.withFs _⟩
  | chroot p =>
    refine ⟨trivial, ?_⟩
    simp only [World.machine, World.answer, calls, next]
    cases w.choose w.time (.chroot p) with
    | false => exact h.same rfl rfl
    | true =>
      cases w.fs.locate p with
      | error e => exact h.same rfl rfl
      | ok l => exact (h.withFs { w.fs with root := l }).same rfl rfl
  | socket => exact h.openSocket me _
  | connect | zlibInit => exact ⟨trivial, (h.same rfl rfl).of_eq rfl rfl⟩
  | accept fd =>
    simp only [World.machine, World.answer, calls, next]
    cases w.choose w.time (.accept fd) with
    | none => exact ⟨by simp, h.same rfl rfl⟩
    | some r =>
      obtain ⟨n, peer⟩ := r
      obtain ⟨hfree, hholds⟩ := h.openSocket me (some n)
      refine ⟨fun p hp => ?_, hholds.of_eq rfl rfl⟩
      change (w.openSocket me (some n)).1.map (·, peer) = some p at hp
      obtain ⟨fd, hfd, rfl⟩ := Option.map_eq_some_iff.1 hp
      exact hfree fd hfd
  | close fd => exact ⟨trivial, h.closeFd fd⟩
  | openRead p =>
    have hopen := h.openPath me (w.choose w.time (.openRead p)) (w.fs.openRead p)
    simp only [World.machine, World.answer, calls, next]
    cases hr : (w.openPath me (w.choose w.time (.openRead p)) (w.fs.openRead p)).1 with
    | none =>
      rw [hr] at hopen
      exact ⟨by simp, hopen⟩
    | some fd =>
      rw [hr] at hopen
      obtain ⟨hfree, hl, hholds⟩ := hopen
      exact ⟨fun fd' hfd => by cases hfd; exact ⟨hfree, hl⟩, hholds⟩
  | openWrite p mode =>
    have hopen := (h.withFs (w.fs.openWrite p mode).2).openPath me (w.choose w.time (.openWrite p mode))
      (w.fs.openWrite p mode).1
    simp only [World.machine, World.answer, calls, next]
    cases hr : ((w.withFs (w.fs.openWrite p mode).2).openPath me (w.choose w.time (.openWrite p mode))
      (w.fs.openWrite p mode).1).1 with
    | none =>
      rw [hr] at hopen
      exact ⟨by simp, hopen.of_eq rfl rfl⟩
    | some fd =>
      rw [hr] at hopen
      obtain ⟨hfree, hl, hholds⟩ := hopen
      exact ⟨fun fd' hfd => by cases hfd; exact ⟨hfree, hl⟩, hholds.of_eq rfl rfl⟩
  | fstat fd => exact ⟨rfl, h⟩
  | lseek fd pos =>
    simp only [World.machine, World.answer, calls, next]
    split
    · rename_i hc
      exact ⟨(decide_eq_true hc).symm, h.seek fd pos⟩
    · rename_i hc
      exact ⟨(decide_eq_false hc).symm, h⟩
  | read fd n =>
    simp only [World.machine, World.answer, calls, next]
    cases hfile : w.fileAt fd with
    | none => exact ⟨by simp, (h.same rfl rfl).of_eq rfl rfl⟩
    | some file =>
      obtain ⟨l, pos⟩ := file
      cases w.choose w.time (.read fd n) with
      | none => exact ⟨by simp, (h.same rfl rfl).of_eq rfl rfl⟩
      | some b =>
        refine ⟨fun data hdata => ?_, ?_⟩
        · cases hdata
          exact ⟨l, pos, rfl, List.take_prefix_take_left (min_le_left _ _)⟩
        · exact ((h.seek fd _).same rfl rfl).of_eq rfl rfl
  | sendfile out file offset count =>
    simp only [World.machine, World.answer, calls, next]
    cases hfile : w.fileAt file with
    | none =>
      refine ⟨fun h => ?_, h.same rfl rfl⟩
      exact absurd h (not_lt.2 (min_le_right _ _))
    | some f =>
      by_cases hoffset : 0 ≤ offset
      · rw [decide_eq_true hoffset]
        exact ⟨fun _ => ⟨hoffset, f.1, f.2, rfl, min_le_right _ _⟩, (h.same rfl rfl).of_eq rfl rfl⟩
      · rw [decide_eq_false hoffset]
        refine ⟨fun h => ?_, (h.same rfl rfl).of_eq rfl rfl⟩
        exact absurd h (not_lt.2 (min_le_right _ _))
  | mmap fd len =>
    simp only [World.machine, World.answer, calls, next]
    cases hfile : w.fileAt fd with
    | none => exact ⟨by simp, h.same rfl rfl⟩
    | some file =>
      cases w.choose w.time (.mmap fd len) with
      | none => exact ⟨by simp, h.same rfl rfl⟩
      | some b =>
        refine ⟨fun mapped hmapped => ?_, h.same rfl rfl⟩
        cases hmapped
        exact ⟨file.1, file.2, rfl, rfl⟩
  | send fd data => exact ⟨min_le_right _ _, (h.same rfl rfl).of_eq rfl rfl⟩
  | sendMapped fd mapped index count => exact ⟨min_le_right _ _, (h.same rfl rfl).of_eq rfl rfl⟩
  | write fd pos data =>
    simp only [World.machine, World.answer, calls, next]
    cases hfile : w.fileAt fd with
    | none => exact ⟨by simp, (h.same rfl rfl).of_eq rfl rfl⟩
    | some file =>
      cases w.choose w.time (.write fd pos data) with
      | false => exact ⟨by simp, (h.same rfl rfl).of_eq rfl rfl⟩
      | true => exact ⟨fun _ => rfl, (h.withFs (w.fs.writeAt file.1 pos data)).same rfl rfl⟩
  | appendTo fd data =>
    simp only [World.machine, World.answer, calls, next]
    cases hfile : w.fileAt fd with
    | none => exact ⟨by simp, (h.same rfl rfl).of_eq rfl rfl⟩
    | some file =>
      cases w.choose w.time (.appendTo fd data) with
      | false => exact ⟨by simp, (h.same rfl rfl).of_eq rfl rfl⟩
      | true => exact ⟨fun _ => rfl, (h.withFs (w.fs.append file.1 data)).same rfl rfl⟩
  | _ => exact ⟨trivial, h⟩

def of (w : World) : Storage := { fs := w.fs, files := w.fileAt }

lemma of_holds (w : World) : (of w).Holds w := ⟨rfl, fun _ => rfl⟩

structure Fresh (g : Storage) : Prop where
  peers : g.peers = []
  targets : g.targets = []
  prepared : g.prepared = false
  reads : g.reads = []
  moves : g.moves = []
  sent : g.sent = []
  completed : g.completed = false

lemma of_fresh (w : World) : (of w).Fresh := ⟨rfl, rfl, rfl, rfl, rfl, rfl, rfl⟩

/-! Rules -/

section

variable {α : Type} {J : Storage → Prop} {P : α → Storage → Prop} {E : Storage → Prop} {s : Session} {g' : Storage}

lemma ends_call {o : Call β} {f : β → Io α} (hJ : J g)
    (h : ∀ r, (calls J).post g o r → Ends (calls J) (f r) P E (g.next o r)) :
    Ends (calls J) (perform o >>= f) P E g := ⟨hJ, h⟩

lemma ends_orThrow {x : Except Errc β} {f : β → Io α} (h : ∀ b, x = .ok b → Ends (calls J) (f b) P E g)
    (hE : ∀ e, x = .error e → E g) : Ends (calls J) (orThrow x >>= f) P E g := by
  cases x with
  | ok b => exact h b rfl
  | error e => exact hE e rfl

lemma next_fs {o : Call β} (ho : o.kind ∉ [.change, .write, .chroot]) (r : β) : (g.next o r).fs = g.fs := by
  cases o with
  | createDirectory | createDirectories | remove | rename | permissions | openWrite | chroot | write | appendTo =>
    simp [Call.kind] at ho
  | openRead | lseek => cases r <;> rfl
  | read fd n =>
    cases r with
    | none => rfl
    | some data =>
      simp only [next]
      split <;> rfl
  | sendfile out file offset count =>
    simp only [next]
    split <;> rfl
  | _ => rfl

lemma next_completed {o : Call β} (ho : o.kind ≠ .reply) (r : β) : (g.next o r).completed = g.completed := by
  cases o with
  | sendControl | deactivate => exact absurd rfl ho
  | openRead | openWrite | lseek => cases r <;> rfl
  | read fd n =>
    cases r with
    | none => rfl
    | some data =>
      simp only [next]
      split <;> rfl
  | sendfile | chroot | write | appendTo =>
    simp only [next]
    split <;> rfl
  | _ => rfl

lemma ends_kept {ks : List Kind} {p : Io α} {P' : α → Prop} (hp : p.Within (Kinds ks) P')
    (hk : ∀ k ∈ ks, k ≠ .reply ∧ k ∉ [.change, .write, .chroot]) : Ends (calls fun _ => True) p
      (fun _ g' => g'.fs = g.fs ∧ g'.completed = g.completed) (fun g' => g'.fs = g.fs ∧
        g'.completed = g.completed) g := by
  have hrun := Within.ends hp (C := calls fun _ => True) (g := g) (J := fun g' => g'.fs = g.fs ∧
    g'.completed = g.completed)
    (fun o g' ho hg => ⟨trivial, fun r _ => ?_⟩) ⟨rfl, rfl⟩
  · exact hrun.mono (fun _ _ h => h.2) fun _ => id
  · obtain ⟨hreply, htree⟩ := hk o.kind ho
    exact ⟨(next_fs htree r).trans hg.1, (next_completed hreply r).trans hg.2⟩

lemma ends_throttle {rate : Int} {start bytes : ℕ} {f : Unit → Io α} (hJ : J g) (h : Ends (calls J) (f ()) P E g) :
    Ends (calls J) (applyThrottle rate start bytes >>= f) P E g := by
  unfold applyThrottle
  split
  · exact h
  · refine ends_bind (ends_call hJ fun now _ => ?_)
    dsimp only
    split
    · exact ends_perform hJ fun _ _ => h
    · exact h

lemma next_opened {p : Str} {mode : FileSystem.OpenMode} {l : Location} (h : (g.fs.openWrite p mode).1 = .ok l) :
    g.next (.openWrite p mode) (some fd) = { g with
      fs := (g.fs.openWrite p mode).2, files := Function.update g.files fd (some (l, 0)),
      targets := g.targets ++ [(l, mode)] } := by
  simp only [next, opened, h]
  rfl

lemma next_read {n : ℕ} {data : Str} {l : Location} {pos : Int} (h : g.files fd = some (l, pos)) :
    g.next (.read fd n) (some data) = { g with
      files := Function.update g.files fd (some (l, pos + data.length)), held := pos, reads := g.reads ++ [data],
      unread := g.unread || data = [] } := by
  simp only [next, h, seek, Option.map_some]

def took (g : Storage) (ms : List Move) (data : Str) : Storage :=
  { g with moves := g.moves ++ ms, sent := g.sent ++ data }

lemma took_nil (g : Storage) : g.took [] [] = g := by simp [took]

lemma took_took (g : Storage) (ms ms' : List Move) (data data' : Str) :
    (g.took ms data).took ms' data' = g.took (ms ++ ms') (data ++ data') := by
  simp [took]

lemma offer_took (g : Storage) (way : Way) (place : Int) (data : Str) (n : Int) :
    g.offer way place data n = g.took [⟨way, place, data.length, n⟩] (data.take n.toNat) := rfl

def replied (g : Storage) (code : ℕ) : Storage := { g with completed := g.completed || code = 226 }

@[simp] lemma replied_other {code : ℕ} (h : code ≠ 226) : g.replied code = g := by simp [replied, h]

lemma next_final (tls : Bool) (host : Option FTPVirtualHost) (code : ℕ) (text : Str) (r : Bool) :
    g.next (.sendControl tls ((Reply.final code text).customized host)) r = g.replied code := by
  simp only [next, answeredWith_final, replied]

lemma ends_reply {P : Unit → Storage → Prop} (hs : s.socket_ ≠ none) (hJ : ∀ done, J { g with completed := done })
    {code : ℕ} {text : Str} (h : P () (g.replied code)) : Ends (calls J) (s.reply code text) P E g := by
  unfold Session.reply Session.sendResponse
  rw [if_neg hs]
  refine ends_call (hJ g.completed) fun sent _ => ?_
  rw [next_final]
  cases sent with
  | true => exact ends_pure h
  | false => exact ends_perform (hJ _) fun _ _ => h

lemma ends_reply_bind (hs : s.socket_ ≠ none) (hJ : ∀ done, J { g with completed := done }) {code : ℕ} {text : Str}
    {f : Unit → Io α} (h : Ends (calls J) (f ()) P E (g.replied code)) :
    Ends (calls J) (s.reply code text >>= f) P E g :=
  ends_bind (ends_reply hs hJ h)

lemma ends_return (hs : s.socket_ ≠ none) (hJ : ∀ done, J { g with completed := done }) {code : ℕ}
    {text : Str} {a : α}
    (h : P a (g.replied code)) : Ends (calls J) (s.reply code text >>= fun _ => pure a) P E g :=
  ends_reply_bind hs hJ (ends_pure h)

lemma ends_accept (d : DataConnection) (hJ : ∀ files peers, J { g with files := files, peers := peers })
    {f : Option (Fd × Peer) × DataConnection → Io α}
    (h : ∀ opened d' files, Ends (calls J) (f (opened, d')) P E
      { g with files := files, peers := g.peers ++ (opened.map Prod.snd).toList }) :
    Ends (calls J) (d.acceptDataConnection >>= f) P E g := by
  have hnone (d' : DataConnection) (files : Fd → Option (Location × Int)) :
      Ends (calls J) (f (none, d')) P E { g with files := files } := by
    simpa using h none d' files
  unfold DataConnection.acceptDataConnection DataConnection.connectActiveDataSocket
  split
  · split
    · exact hnone d g.files
    · refine ends_bind (ends_call (hJ g.files g.peers) fun made _ => ?_)
      cases made with
      | none => exact ends_pure (hnone _ g.files)
      | some fd =>
        dsimp only
        cases inetPton d.active_mode_ip_ with
        | none => exact ends_call (hJ g.files g.peers) fun _ _ => ends_pure (hnone _ _)
        | some _ =>
          refine ends_call (hJ g.files g.peers) fun peer _ => ?_
          cases peer with
          | none =>
            have hpeers : g.peers ++ (none : Option Peer).toList = g.peers := List.append_nil _
            refine ends_call (hJ g.files _) fun _ _ => ends_pure ?_
            simp only [next, hpeers]
            exact hnone _ _
          | some peer => exact ends_pure (h (some (fd, peer)) _ g.files)
  · cases d.passive_listen_socket_ with
    | none => exact hnone d g.files
    | some listener =>
      refine ends_bind (ends_call (hJ g.files g.peers) fun ready _ => ?_)
      split
      · exact ends_pure (hnone d g.files)
      · exact ends_call (hJ g.files g.peers) fun accepted _ => ends_pure (h accepted _ g.files)

end

end Storage

namespace Session

variable {J : Storage → Prop} {E : Storage → Prop} {g : Storage} {env : Service} {s : Session}

lemma modeZRefusal_storage {P : Option Session → Storage → Prop} (hs : s.socket_ ≠ none)
    (hJ : ∀ done, J { g with completed := done }) (hrefused : ∀ s', P (some s') g)
    (hgo : (s.transferModeZ = true → s.resume_position_ ≤ 0) → P none g) :
    Ends (Storage.calls J) (s.modeZRefusal env) P E g := by
  have hcode {code : ℕ} (h : code ≠ 226) {s' : Session} : P (some s') (g.replied code) := by
    rw [Storage.replied_other h]
    exact hrefused s'
  unfold modeZRefusal
  refine ends_ite (fun hz => ends_pure (hgo fun h => by simp [h] at hz)) fun _ =>
    ends_ite (fun _ => ?_) fun hpos =>
    ends_ite (fun _ => ?_) fun _ => ends_pure (hgo fun _ => not_lt.1 hpos)
  · exact Storage.ends_return hs hJ (hcode (by decide))
  · exact Storage.ends_return hs hJ (hcode (by decide))

end Session

def Session.storage (env : Service) (me : SessionId) (s : Session) (a : Arrival) : Storage :=
  (Storage.calls fun _ => True).final (World.machine me) (.of a.world) (s.trace env me a)

end SimpleSftpd
