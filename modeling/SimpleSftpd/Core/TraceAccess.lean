import SimpleSftpd.Core.Descriptors
import SimpleSftpd.Core.HandlerAccess
import SimpleSftpd.Cxx.Resolution

namespace SimpleSftpd

open Cxx Interaction Prog

def Phase.Holds : Phase → World → Prop
  | named fs, w => w.fs = fs
  | writing fs fd p, w => fs.SameShape w.fs ∧ ∃ l, fs.locate p = .ok l ∧ ∃ pos, w.fileAt fd = some (l, pos)
  | ended, _ => True

variable {A : FileSystem → Act → Prop}

variable {me : SessionId} {w : World} {fs : FileSystem} {β : Type}

lemma Phase.Holds.keep {g : Phase} (h : g.Holds w) (c : Call β)
    (hc : c.kind ∈ Kind.openRead :: Kind.query :: quietKinds) : g.Holds (World.answer me w c).2 := by
  have hfs : (World.answer me w c).2.fs = w.fs :=
    World.answer_fs c fun hbad => by
      revert hc hbad
      cases c.kind <;> simp [quietKinds]
  cases g with
  | named fs => exact hfs.trans h
  | writing fs fd p =>
    obtain ⟨hshape, l, hl, hfile⟩ := h
    exact ⟨hfs ▸ hshape, l, hl, World.answer_fileAt c hfile (List.mem_cons_of_mem _ hc)⟩
  | ended => trivial

lemma openWrite_holds (p : Str) (mode : FileSystem.OpenMode) :
    ((onFiles A).next (.named w.fs) (.openWrite p mode) (World.answer me w (.openWrite p mode)).1).Holds
      (World.answer me w (.openWrite p mode)).2 := by
  simp only [World.answer]
  rcases hr : (w.fs.openWrite p mode).1 with e | l
  · cases w.choose w.time (Call.openWrite p mode) <;> exact rfl
  · cases w.choose w.time (Call.openWrite p mode) with
    | none => exact rfl
    | some n =>
      refine ⟨.refl, l, FileSystem.openWrite_locate hr, 0, ?_⟩
      simp [World.openPath, World.fileAt, World.tick, World.openFd]

lemma write_holds {fd n : Fd} {p : Str} (h : (Phase.writing fs fd p).Holds w) (c : Call β)
    (hc : c.writesTo = some n)
    (hn : n = fd) : (Phase.writing fs fd p).Holds (World.answer me w c).2 := by
  subst hn
  obtain ⟨hshape, l, hl, pos, hfile⟩ := h
  cases c with
  | write m at_ data =>
    cases hc
    simp only [World.answer, hfile]
    cases w.choose w.time (Call.write n at_ data) with
    | true => exact ⟨hshape.trans (FileSystem.writeAt_sameShape _ _ _), l, hl, pos, hfile⟩
    | false => exact ⟨hshape, l, hl, pos, hfile⟩
  | appendTo m data =>
    cases hc
    simp only [World.answer, hfile]
    cases w.choose w.time (Call.appendTo n data) with
    | true => exact ⟨hshape.trans (FileSystem.writeAt_sameShape _ _ _), l, hl, pos, hfile⟩
    | false => exact ⟨hshape, l, hl, pos, hfile⟩
  | _ => cases hc

lemma onFiles_describes (me : SessionId) : (onFiles A).Describes (World.machine me) Phase.Holds := by
  intro β g w o hw ho
  cases g with
  | ended =>
    refine ⟨?_, ?_⟩
    · cases o <;> trivial
    · cases o <;> trivial
  | named fs =>
    obtain rfl : w.fs = fs := hw
    cases o with
    | write | appendTo => exact absurd ho.2 (Option.some_ne_none _)
    | openWrite p mode => exact ⟨trivial, openWrite_holds p mode⟩
    | nameSpace | status | readDirectory | regularFilesBelow | createDirectories => exact ⟨rfl, rfl⟩
    | createDirectory | remove | rename | permissions => exact ⟨trivial, rfl⟩
    | chroot => exact ⟨trivial, trivial⟩
    | close | connect => exact ⟨trivial, rfl⟩
    | _ => exact ⟨trivial, Phase.Holds.keep (g := .named w.fs) rfl _ (by simp [Call.kind, quietKinds])⟩
  | writing fs fd p =>
    cases o with
    | write | appendTo => exact ⟨trivial, write_holds hw _ rfl (ho.2 _ rfl).1⟩
    | close n =>
      refine ⟨trivial, ?_⟩
      obtain ⟨hshape, l, hl, pos, hfile⟩ := hw
      by_cases hn : n = fd
      · simp [onFiles, hn, Phase.Holds]
      · obtain ⟨owner, hfd⟩ := World.fileAt_iff.1 hfile
        simp only [onFiles, if_neg hn]
        exact ⟨hshape, l, hl, pos, World.fileAt_iff.2 ⟨owner, (World.lookup_closeFd hn).trans hfd⟩⟩
    | status | fileSize | lastWriteTime | modifiedTimeUtc | readDirectory | regularFilesBelow | openRead
    | createDirectory | createDirectories | remove | rename | permissions | openWrite | chroot =>
      exact absurd ho.1 (Option.some_ne_none _)
    | connect => exact ⟨trivial, hw⟩
    | _ => exact ⟨trivial, hw.keep _ (by simp [Call.kind, quietKinds])⟩

namespace Session

variable {env : Service} {s : Session} {a : Arrival}

lemma dispatch_access (fs : FileSystem) (line : Str) :
    Handled env s fs (Command.parse line) (s.dispatch env line) := by
  rcases dispatch_cases env s line with ⟨_, h⟩ | ⟨_, _, h⟩
  · rw [h]
    exact handle_access _
  · rw [h]
    simp [Handled]

/-- Every call of a command that acts on a path is one the command may make of the tree it found,
and meets the tree it is allowed for. -/
theorem trace_access {c : World × Σ β, Call β} (hc : c ∈ s.trace env me a) {act : Act}
    (hact : c.2.2.act? = some act) : s.Access env a.world.fs a.command c.1.fs act := by
  obtain ⟨g, hg, hpre⟩ := (dispatch_access a.world.fs a.line).calls (onFiles_describes me)
    (show Phase.Holds (.named a.world.fs) a.world from rfl) c hc
  cases g with
  | named fs =>
    obtain rfl : c.1.fs = fs := hg
    exact hpre.1 act hact
  | writing fs fd p => exact absurd (hpre.1.symm.trans hact) (Option.some_ne_none _).symm
  | ended => exact absurd (hpre.1.symm.trans hact) (Option.some_ne_none _).symm

theorem trace_writes {c : World × Σ β, Call β} (hc : c ∈ s.trace env me a) {fd : Fd}
    (hw : c.2.2.writesTo = some fd) : ∃ fs p l pos, s.Access env a.world.fs a.command fs (.write p) ∧
      fs.SameShape c.1.fs ∧ c.1.fs.locate p = .ok l ∧ c.1.fileAt fd = some (l, pos) := by
  obtain ⟨g, hg, hpre⟩ := (dispatch_access a.world.fs a.line).calls (onFiles_describes me)
    (show Phase.Holds (.named a.world.fs) a.world from rfl) c hc
  cases g with
  | named fs => exact absurd (hpre.2.symm.trans hw) (Option.some_ne_none _).symm
  | writing fs fd' p =>
    obtain ⟨rfl, ha⟩ := hpre.2 fd hw
    obtain ⟨hshape, l, hl, pos, hfile⟩ := hg
    exact ⟨fs, p, l, pos, ha, hshape, by rw [hshape.locate, hl], hfile⟩
  | ended => exact absurd (hpre.2.symm.trans hw) (Option.some_ne_none _).symm

end Session

end SimpleSftpd
