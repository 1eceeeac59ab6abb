import SimpleSftpd.Interaction.Projection
import SimpleSftpd.Sessions.UniqueNames

namespace SimpleSftpd

open Cxx Interaction Prog

namespace Cxx.FileSystem

variable {fs fs' : FileSystem} {mode : OpenMode} {p q : Str} {l : Location}

lemma locate_of_nodes (hroot : fs'.root = fs.root) (hnode : ∀ l n, fs.node l = some n → fs'.node l = some n)
    (hl : fs.locate p = .ok l) : fs'.locate p = .ok l := by
  obtain ⟨hp, k, hk, hwalks⟩ := locate_walks hl
  have hkept := hwalks.keep hroot hnode
  rw [← hroot] at hkept
  exact locate_of_walks hkept hk hp

lemma openWrite_keeps (hl : fs.locate q = .ok l) : (fs.openWrite p mode).2.locate q = .ok l := by
  unfold openWrite
  split
  · exact hl
  · split
    · exact hl
    · split
      · exact hl
      · rename_i hfree
        split
        · exact hl
        · exact (set_grows hfree _).locate hl
      · rename_i hold
        split
        · rw [(set_sameShape hold _).locate]
          exact hl
        · exact hl
      · exact hl
      · exact hl

lemma openWrite_grows (h : fs.status p = .ok .notFound) : Grows fs (fs.openWrite p .truncate).2 := by
  rw [openWrite]
  split
  · exact .refl
  · simp only [if_neg (show ¬OpenMode.truncate = .update by decide)]
    cases hplace : fs.place p with
    | error e => exact .refl
    | ok l =>
      have hfree := free_of_notFound h hplace
      simp only [hfree]
      exact set_grows hfree _

end Cxx.FileSystem

/-- The calls after which a path may lead elsewhere, or nowhere. -/
def Call.relocates {β : Type} : Call β → Bool
  | .remove _ | .rename _ _ | .chroot _ => true
  | _ => false

lemma World.answer_locate {β : Type} (i : SessionId) {w : World} {o : Call β} (ho : o.relocates = false) {p : Str}
    {l : Location} (hl : w.fs.locate p = .ok l) : (World.answer i w o).2.fs.locate p = .ok l := by
  by_cases h : o.kind ∈ [Kind.change, Kind.write, Kind.chroot]
  · cases o with
    | createDirectory q => exact (FileSystem.createDirectory_grows q).locate hl
    | createDirectories q => exact (FileSystem.createDirectories_grows q).locate hl
    | permissions q mode =>
      refine FileSystem.locate_of_nodes (FileSystem.permissions_root _ q mode) (fun m n hm => ?_) hl
      rw [World.answer, World.withFs, FileSystem.permissions_node, hm]
    | openWrite q mode =>
      simp only [answer, openPath]
      split <;> exact FileSystem.openWrite_keeps hl
    | write | appendTo =>
      simp only [answer]
      split
      · exact ((FileSystem.writeAt_sameShape _ _ _).locate _).trans hl
      · exact hl
    | remove | rename | chroot => cases ho
    | _ => simp [Call.kind] at h
  · rw [World.answer_fs o h]
    exact hl

lemma World.openWrite_opened {i : SessionId} {w : World} {p : Str} {mode : FileSystem.OpenMode} {fd : Fd}
    (h : (World.answer i w (.openWrite p mode)).1 = some fd) :
    ∃ l, (w.fs.openWrite p mode).1 = .ok l ∧
      (World.answer i w (.openWrite p mode)).2.fs = (w.fs.openWrite p mode).2 := by
  simp only [World.answer] at h ⊢
  cases hr : (w.fs.openWrite p mode).1 with
  | error e =>
    rw [hr] at h
    cases hc : w.choose w.time (Call.openWrite p mode) <;> rw [hc] at h <;> cases h
  | ok l =>
    refine ⟨l, rfl, ?_⟩
    unfold openPath
    split <;> rfl

/-- The stage that a session's turn is at, and, as history, the paths that its STOUs have opened. -/
structure Upload where
  stage : UploadStage
  made : List Str

def UploadStage.opens {β : Type} : UploadStage → Call β → β → List Str
  | .resolved _ _ _ _, .openWrite p _, some _ => [p]
  | _, _, _ => []

def uniqueUploads (env : Service) : Threads Call Abort Session Accepted Turn Upload World :=
  serving env (fun _ => ⟨.outside, []⟩) (fun g s t => ⟨g.stage.begin s t, g.made⟩)
    (fun g o r => ⟨g.stage.next o r, g.made ++ g.stage.opens o r⟩) fun g => ⟨.outside, g.made⟩

namespace Serving

def stages (st : Serving Upload) : Serving UploadStage := st.project Upload.stage

def Unbegun (st : Serving Upload) : Prop := st.Unopened ⟨.outside, []⟩ ∧ st.world.fs.KeepsAnswering

/-- A look for a name is answered, the directory is there when a name has been found, making the directories of
its path does not take the name, and neither does another session before the opening. -/
def Untaken (st : Serving Upload) (l : PoolStep Accepted Turn) : Prop := st.stages.Undisturbed l

/-- The files that STOUs have made stay where they are. -/
def Keeping (st : Serving Upload) : PoolStep Accepted Turn → Prop
  | .call j => ∀ {β : Type} (o : Call β), st.About j o → ∀ i, ∀ p ∈ (st.history i).made, ∀ l,
      st.world.fs.locate p = .ok l → (World.answer j st.world o).2.fs.locate p = .ok l
  | _ => True

def Lasting (st : Serving Upload) (l : PoolStep Accepted Turn) : Prop := st.Untaken l ∧ st.Keeping l

/-- A STOU opens the file it has announced, there is none of that name, and what there is stays as it is. -/
def StoresNew (st : Serving Upload) : Prop :=
  ∀ i p mode, (st.history i).stage ≠ .outside → st.About i (.openWrite p mode) →
    ∃ s name fs, (st.history i).stage = .resolved s name fs (s.announced name) ∧ p = s.resolvePath fs name ∧
      st.world.fs.status p = .ok .notFound ∧
      (∀ l n, st.world.fs.node l = some n → (st.world.fs.openWrite p mode).2.node l = some n) ∧
      ∀ q l, st.world.fs.locate q = .ok l → (st.world.fs.openWrite p mode).1 ≠ .ok l

/-- Uploads of STOU that lead to one file are one upload. -/
def Apart (st : Serving Upload) : Prop :=
  ∀ (i j : SessionId) (m n : ℕ) p q l, (st.history i).made[m]? = some p → (st.history j).made[n]? = some q →
    st.world.fs.locate p = .ok l → st.world.fs.locate q = .ok l → i = j ∧ m = n

def Located (st : Serving Upload) : Prop := ∀ i, ∀ p ∈ (st.history i).made, ∃ l, st.world.fs.locate p = .ok l

def Distinct (st : Serving Upload) : Prop := st.Located ∧ st.Apart

end Serving

section

variable {env : Service} {st : Serving Upload} {i : SessionId}

lemma uniqueUploads_projects (env : Service) :
    Threads.Projects Upload.stage (uniqueUploads env) (uploads env) where
  machine := rfl
  enter _ _ _ := rfl
  greet := rfl
  turn := rfl
  begin _ _ _ := rfl
  note _ _ _ := rfl
  finish _ := rfl

lemma uniqueUploads_keep (h : ((uniqueUploads env).system Serving.Unbegun).Reach Serving.Untaken st) :
    st.stages.Keeps uploading (fun _ g w => w.fs.KeepsAnswering ∧ g.Holds w) fun _ _ _ => True := by
  refine uploads_keep ((uniqueUploads_projects env).reach (fun st hst => ⟨fun i => ?_, hst.2⟩) (fun _ _ => id) h)
  exact ⟨(hst.1 i).1, congrArg Upload.stage (hst.1 i).2⟩

namespace Serving

/-- What one step may do to the files made: at most one is added, and there was none where it leads. -/
lemma Distinct.set (h : st.Distinct) {t : Thread Call Abort Session} {g : Upload} {w : World} (new : List Str)
    (hnew : g.made = (st.history i).made ++ new) (hone : new.length ≤ 1)
    (hkept : ∀ j, ∀ p ∈ (st.history j).made, ∀ l, st.world.fs.locate p = .ok l → w.fs.locate p = .ok l)
    (hopened : ∀ p ∈ new, ∃ l, w.fs.locate p = .ok l ∧ st.world.fs.node l = none) :
    Serving.Distinct (st.set i t g w) := by
  obtain ⟨hlocated, hapart⟩ := h
  have hmade {j : SessionId} {n : ℕ} {p : Str} (hp : ((st.set i t g w).history j).made[n]? = some p) :
      (st.history j).made[n]? = some p ∨ (j = i ∧ n = (st.history i).made.length) ∧ p ∈ new := by
    by_cases hj : j = i
    · subst hj
      simp only [Pool.set, Function.update_self, hnew] at hp
      rw [List.getElem?_append] at hp
      split at hp
      · exact .inl hp
      · rename_i hn
        obtain ⟨hlt, _⟩ := List.getElem?_eq_some_iff.1 hp
        exact .inr ⟨⟨rfl, by omega⟩, List.mem_of_getElem? hp⟩
    · simp only [Pool.set, Function.update_of_ne hj] at hp
      exact .inl hp
  have hold {j : SessionId} {n : ℕ} {p : Str} (hp : (st.history j).made[n]? = some p) :
      ∃ l, st.world.fs.locate p = .ok l ∧ w.fs.locate p = .ok l := by
    obtain ⟨l, hl⟩ := hlocated j p (List.mem_of_getElem? hp)
    exact ⟨l, hl, hkept j p (List.mem_of_getElem? hp) l hl⟩
  have hmixed {j : SessionId} {n : ℕ} {p q : Str} {l : Location}
      (hp : (st.history j).made[n]? = some p) (hl : w.fs.locate p = .ok l) (hq : q ∈ new)
      (hl' : w.fs.locate q = .ok l) : False := by
    obtain ⟨m, hm, hm'⟩ := hold hp
    obtain ⟨m', hq', hfree⟩ := hopened q hq
    obtain rfl : m = m' := Except.ok.inj (hm'.symm.trans (hl.trans (hl'.symm.trans hq')))
    obtain ⟨e, he, _⟩ := (FileSystem.locate_real hm).node
    rw [hfree] at he
    cases he
  constructor
  · intro j p hp
    obtain ⟨n, hn⟩ := List.mem_iff_getElem?.1 hp
    rcases hmade hn with hn | ⟨_, hp⟩
    · obtain ⟨l, _, hl⟩ := hold hn
      exact ⟨l, hl⟩
    · obtain ⟨l, hl, _⟩ := hopened p hp
      exact ⟨l, hl⟩
  · intro j k m n p q l hp hq hl hl'
    rcases hmade hp with hpold | ⟨⟨rfl, rfl⟩, hpnew⟩ <;> rcases hmade hq with hqold | ⟨⟨rfl, rfl⟩, hqnew⟩
    · obtain ⟨a, ha, ha'⟩ := hold hpold
      obtain ⟨b, hb, hb'⟩ := hold hqold
      obtain rfl : a = l := Except.ok.inj (ha'.symm.trans hl)
      obtain rfl : b = a := Except.ok.inj (hb'.symm.trans hl')
      exact hapart j k m n p q b hpold hqold ha hb
    · exact (hmixed hpold hl hqnew hl').elim
    · exact (hmixed hqold hl' hpnew hl).elim
    · exact ⟨rfl, rfl⟩

lemma opens_new (h : ((uniqueUploads env).system Unbegun).Reach Untaken st) {β : Type} {o : Call β}
    (ho : st.About i o) {p : Str} (hp : p ∈ (st.history i).stage.opens o (World.answer i st.world o).1) :
    ∃ l, (World.answer i st.world o).2.fs.locate p = .ok l ∧ st.world.fs.node l = none := by
  cases hg : (st.history i).stage with
  | resolved s name fs lines =>
    rw [hg] at hp
    cases o with
    | openWrite q mode =>
      have hstou : (st.history i).stage ≠ .outside := by simp [hg]
      obtain ⟨_, _, _, _, _, rfl, hfree⟩ := opening_free (uniqueUploads_keep h) hstou ho
      cases hr : (World.answer i st.world (.openWrite q .truncate)).1 with
      | none =>
        rw [hr] at hp
        cases hp
      | some fd =>
        rw [hr] at hp
        obtain rfl := List.mem_singleton.1 hp
        obtain ⟨l, hl, hfs⟩ := World.openWrite_opened hr
        rw [hfs]
        exact ⟨l, FileSystem.openWrite_locate hl, (FileSystem.openWrite_new hfree hl).1⟩
    | _ => simp [UploadStage.opens] at hp
  | _ => simp [hg, UploadStage.opens] at hp

lemma distinct_of_reach (h : ((uniqueUploads env).system Unbegun).Reach Lasting st) : st.Distinct := by
  induction h with
  | init h =>
    refine ⟨fun i p hp => ?_, fun i j m n p q l hp => ?_⟩
    · rw [(h.1 i).2] at hp
      cases hp
    · rw [(h.1 i).2] at hp
      cases hp
  | @step st st' l hreach hok hnext ih =>
    cases (uniqueUploads env).step_effect hnext with
    | @entered i e hi =>
      have hnone : st.history i = ⟨.outside, []⟩ :=
        (uniqueUploads env).unentered (fun st hst i => (hst.1 i).2) hreach i hi
      refine ih.set [] ?_ (by simp) (fun _ _ _ _ hl => hl) (by simp)
      rw [hnone]
      rfl
    | began | finished => exact ih.set [] (List.append_nil _).symm (by simp) (fun _ _ _ _ hl => hl) (by simp)
    | @called i β o k hi =>
      refine ih.set _ rfl ?_ (hok.2 o ⟨k, hi⟩) fun p hp => ?_
      · unfold UploadStage.opens
        split <;> simp
      · exact opens_new (hreach.mono fun _ _ h => h.1) ⟨k, hi⟩ hp

end Serving

end

namespace Serving

def solitary (st : Serving Upload) (l : PoolStep Accepted Turn) : Bool :=
  st.stages.alone l && match l with
    | .call i => match st.thread i with
      | some (.busy (.call o _)) => !o.relocates
      | _ => true
    | _ => true

abbrev Solitary (st : Serving Upload) (l : PoolStep Accepted Turn) : Prop := st.solitary l = true

lemma lasting_solitary {env : Service} {st : Serving Upload}
    (h : ((uniqueUploads env).system Unbegun).Reach Solitary st) :
    ((uniqueUploads env).system Unbegun).Reach Lasting st := by
  refine h.under (P := fun st => Beside (stages st)) ?_ ?_ ?_
  · exact fun st hst i _ => congrArg Upload.stage (hst.1 i).2
  · intro st l st' hst hok hnext
    exact hst.step (Bool.and_eq_true_iff.1 hok).1 ((uniqueUploads_projects env).step hnext)
  · intro st l hst hok
    obtain ⟨halone, hquiet⟩ := Bool.and_eq_true_iff.1 hok
    refine ⟨hst.undisturbed halone, ?_⟩
    cases l with
    | call i =>
      rintro β o ⟨k, hk⟩ j p _ m hm
      simp only [hk, Bool.not_eq_true'] at hquiet
      exact World.answer_locate i hquiet hm
    | _ => trivial

def sampleStore : World := .start ⟨[], [], fun _ _ _ => none, []⟩ fun _ c => match c with
  | .accept _ => some (0, ⟨["ab"], true, by decide⟩)
  | c => c.favourable

lemma sampleStart_unbegun : Unbegun (sampleStart ⟨.outside, []⟩ sampleStore) :=
  ⟨sampleStart_unopened _ _, fun _ _ => ⟨rfl, rfl⟩⟩

end Serving

def UploadStage.announcement : UploadStage → Option Str
  | .resolved s name _ lines => if lines = s.announced name then some name else none
  | _ => none

end SimpleSftpd
