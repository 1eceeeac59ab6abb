import Mathlib.Data.Nat.Notation
import Mathlib.Logic.Function.Basic
import SimpleSftpd.Interaction.Contract
import SimpleSftpd.Interaction.System

namespace SimpleSftpd.Interaction

inductive Thread (I : Interface) (ε S : Type) : Type 1
  | idle (s : S)
  | busy (p : Prog I ε S)

/-- `E` are the ways a thread comes in, `T` the turns it takes after its greeting, and `H` is what is kept
of its history. -/
structure Threads (I : Interface) (ε S E T H : Type) (W : Type 1) where
  machine : ℕ → Machine I W
  enter : ℕ → E → W → (S × H) × W
  greet : S → Prog I ε S
  turn : S → T → Prog I ε S
  begin : H → S → T → H
  note : ∀ {β : Type}, H → I β → β → H
  finish : H → H

structure Pool (I : Interface) (ε S H : Type) (W : Type 1) where
  world : W
  thread : ℕ → Option (Thread I ε S)
  history : ℕ → H

inductive PoolStep (E T : Type)
  | enter (i : ℕ) (e : E)
  | turn (i : ℕ) (t : T)
  | call (i : ℕ)
  | done (i : ℕ)

variable {I : Interface} {ε S E T H β : Type} {W : Type 1}

namespace Pool

variable (st : Pool I ε S H W)

def set (i : ℕ) (t : Thread I ε S) (h : H) (w : W) : Pool I ε S H W :=
  ⟨w, Function.update st.thread i (some t), Function.update st.history i h⟩

def About (i : ℕ) (o : I β) : Prop := ∃ k, st.thread i = some (.busy (.call o k))

def waiting (i : ℕ) : Option S :=
  match st.thread i with
  | some (.idle s) => some s
  | _ => none

variable {st} in
lemma waiting_idle {i : ℕ} {s : S} (h : st.thread i = some (.idle s)) : st.waiting i = some s := by
  rw [waiting, h]

end Pool

namespace Threads

variable (D : Threads I ε S E T H W)

def step (st : Pool I ε S H W) : PoolStep E T → Option (Pool I ε S H W)
  | .enter i e => match st.thread i with
    | none =>
      let entered := D.enter i e st.world
      some (st.set i (.busy (D.greet entered.1.1)) entered.1.2 entered.2)
    | some _ => none
  | .turn i t => match st.thread i with
    | some (.idle s) => some (st.set i (.busy (D.turn s t)) (D.begin (st.history i) s t) st.world)
    | _ => none
  | .call i => match st.thread i with
    | some (.busy (.call o k)) =>
      let answered := D.machine i st.world o
      some (st.set i (.busy (k answered.1)) (D.note (st.history i) o answered.1) answered.2)
    | _ => none
  | .done i => match st.thread i with
    | some (.busy (.ret s)) => some (st.set i (.idle s) (D.finish (st.history i)) st.world)
    | _ => none

inductive Effect (st : Pool I ε S H W) : PoolStep E T → Pool I ε S H W → Prop
  | entered {i : ℕ} {e : E} (h : st.thread i = none) :
      Effect st (.enter i e)
        (st.set i (.busy (D.greet (D.enter i e st.world).1.1)) (D.enter i e st.world).1.2
          (D.enter i e st.world).2)
  | began {i : ℕ} {t : T} {s : S} (h : st.thread i = some (.idle s)) :
      Effect st (.turn i t) (st.set i (.busy (D.turn s t)) (D.begin (st.history i) s t) st.world)
  | called {i : ℕ} {β : Type} {o : I β} {k : β → Prog I ε S} (h : st.thread i = some (.busy (.call o k))) :
      Effect st (.call i)
        (st.set i (.busy (k (D.machine i st.world o).1)) (D.note (st.history i) o (D.machine i st.world o).1)
          (D.machine i st.world o).2)
  | finished {i : ℕ} {s : S} (h : st.thread i = some (.busy (.ret s))) :
      Effect st (.done i) (st.set i (.idle s) (D.finish (st.history i)) st.world)

lemma step_effect {st st' : Pool I ε S H W} {l : PoolStep E T} (h : D.step st l = some st') :
    D.Effect st l st' := by
  cases l with
  | enter i e =>
    dsimp only [step] at h
    split at h
    · rename_i hi
      cases h
      exact .entered hi
    · cases h
  | turn i t =>
    dsimp only [step] at h
    split at h
    · rename_i s hi
      cases h
      exact .began hi
    · cases h
  | call i =>
    dsimp only [step] at h
    split at h
    · rename_i hi
      cases h
      exact .called hi
    · cases h
  | done i =>
    dsimp only [step] at h
    split at h
    · rename_i s hi
      cases h
      exact .finished hi
    · cases h

def system (start : Pool I ε S H W → Prop) : System (Pool I ε S H W) (PoolStep E T) where
  init := start
  next := D.step

lemma unentered {start : Pool I ε S H W → Prop} {ok : Pool I ε S H W → PoolStep E T → Prop} {h₀ : H}
    (hstart : ∀ st, start st → ∀ i, st.history i = h₀) {st : Pool I ε S H W} (h : (D.system start).Reach ok st) :
    ∀ i, st.thread i = none → st.history i = h₀ := by
  refine h.invariant (P := fun st => ∀ i, st.thread i = none → st.history i = h₀)
    (fun st hst i _ => hstart st hst i) ?_
  intro st l st' hst _ hnext i
  have hset (j : ℕ) (t : Thread I ε S) (x : H) (w : W) (hi : (st.set j t x w).thread i = none) :
      (st.set j t x w).history i = h₀ := by
    by_cases hij : i = j
    · subst hij
      simp [Pool.set] at hi
    · simp only [Pool.set, Function.update_of_ne hij] at hi ⊢
      exact hst i hi
  cases D.step_effect hnext <;> exact hset _ _ _ _

end Threads

section Keeps

variable (C : Contract I H) (R : ℕ → H → W → Prop) (P : ℕ → S → H → Prop)

def Thread.Keeps (Q : S → H → Prop) (h : H) : Thread I ε S → Prop
  | idle s => Q s h
  | busy p => Prog.Meets C p Q h

/-- The environment is as each thread's history has it, and the threads keep to the contract. -/
def Pool.Keeps (st : Pool I ε S H W) : Prop :=
  ∀ i, R i (st.history i) st.world ∧ ∀ t, st.thread i = some t → t.Keeps C (P i) (st.history i)

variable {C R P} {D : Threads I ε S E T H W} {st : Pool I ε S H W} {i : ℕ}

lemma Pool.Keeps.set (h : st.Keeps C R P) {t : Thread I ε S} {x : H} {w : W} (hR : R i x w)
    (ht : t.Keeps C (P i) x) (hother : ∀ j, j ≠ i → R j (st.history j) w) : (st.set i t x w).Keeps C R P := by
  intro j
  by_cases hj : j = i
  · subst hj
    simp only [Pool.set, Function.update_self]
    refine ⟨hR, fun t' ht' => ?_⟩
    cases ht'
    exact ht
  · simp only [Pool.set, Function.update_of_ne hj]
    exact ⟨hother j hj, (h j).2⟩

lemma Pool.Keeps.step {st' : Pool I ε S H W} {l : PoolStep E T} (hst : st.Keeps C R P)
    (henter : ∀ i e, l = .enter i e → st.thread i = none →
      R i (D.enter i e st.world).1.2 (D.enter i e st.world).2 ∧
        Prog.Meets C (D.greet (D.enter i e st.world).1.1) (P i) (D.enter i e st.world).1.2 ∧
        ∀ j, j ≠ i → R j (st.history j) (D.enter i e st.world).2)
    (hturn : ∀ i s t, l = .turn i t → P i s (st.history i) → st.waiting i = some s →
      R i (D.begin (st.history i) s t) st.world ∧ Prog.Meets C (D.turn s t) (P i) (D.begin (st.history i) s t))
    (hcall : ∀ {β : Type} i (o : I β), l = .call i → st.About i o → C.pre (st.history i) o →
      C.post (st.history i) o (D.machine i st.world o).1 ∧
        R i (C.next (st.history i) o (D.machine i st.world o).1) (D.machine i st.world o).2 ∧
        ∀ j, j ≠ i → R j (st.history j) (D.machine i st.world o).2)
    (hdone : ∀ i s, R i (st.history i) st.world → P i s (st.history i) →
      R i (D.finish (st.history i)) st.world ∧ P i s (D.finish (st.history i)))
    (hnote : ∀ {β : Type} (x : H) (o : I β) (r : β), D.note x o r = C.next x o r)
    (hnext : D.step st l = some st') : st'.Keeps C R P := by
  cases D.step_effect hnext with
  | entered hi =>
    obtain ⟨hR, hmeets, hrest⟩ := henter _ _ rfl hi
    exact hst.set hR hmeets hrest
  | began hi =>
    obtain ⟨hR, hmeets⟩ := hturn _ _ _ rfl ((hst _).2 _ hi) (Pool.waiting_idle hi)
    exact hst.set hR hmeets fun j _ => (hst j).1
  | called hi =>
    obtain ⟨hpre, hk⟩ := (Prog.meets_call _ _).1 ((hst _).2 _ hi)
    obtain ⟨hpost, hR, hother⟩ := hcall _ _ rfl ⟨_, hi⟩ hpre
    refine hst.set ?_ ?_ hother
    · rw [hnote]
      exact hR
    · rw [hnote]
      exact hk _ hpost
  | finished hi =>
    obtain ⟨hR, hP⟩ := hdone _ _ (hst _).1 ((Prog.meets_pure _).1 ((hst _).2 _ hi))
    exact hst.set hR hP fun j _ => (hst j).1

theorem Pool.keeps_of_reach {start : Pool I ε S H W → Prop} {ok : Pool I ε S H W → PoolStep E T → Prop}
    (hstart : ∀ st, start st → st.Keeps C R P)
    (henter : ∀ (st : Pool I ε S H W) i e, st.Keeps C R P → st.thread i = none →
      R i (D.enter i e st.world).1.2 (D.enter i e st.world).2 ∧
        Prog.Meets C (D.greet (D.enter i e st.world).1.1) (P i) (D.enter i e st.world).1.2 ∧
        ∀ j, j ≠ i → R j (st.history j) (D.enter i e st.world).2)
    (hturn : ∀ (st : Pool I ε S H W) i s t, st.Keeps C R P → P i s (st.history i) → st.waiting i = some s →
      ok st (.turn i t) → R i (D.begin (st.history i) s t) st.world ∧
        Prog.Meets C (D.turn s t) (P i) (D.begin (st.history i) s t))
    (hcall : ∀ {β : Type} (st : Pool I ε S H W) i (o : I β), st.Keeps C R P → st.About i o → ok st (.call i) →
      C.pre (st.history i) o → C.post (st.history i) o (D.machine i st.world o).1 ∧
        R i (C.next (st.history i) o (D.machine i st.world o).1) (D.machine i st.world o).2 ∧
        ∀ j, j ≠ i → R j (st.history j) (D.machine i st.world o).2)
    (hdone : ∀ (st : Pool I ε S H W) i s, R i (st.history i) st.world → P i s (st.history i) →
      R i (D.finish (st.history i)) st.world ∧ P i s (D.finish (st.history i)))
    (hnote : ∀ {β : Type} (x : H) (o : I β) (r : β), D.note x o r = C.next x o r)
    (h : (D.system start).Reach ok st) : st.Keeps C R P := by
  refine h.invariant hstart fun st l st' hst hok hnext => hst.step ?_ ?_ ?_ (hdone st) hnote hnext
  · rintro i e rfl hi
    exact henter st i e hst hi
  · rintro i s t rfl hP hi
    exact hturn st i s t hst hP hi hok
  · rintro β i o rfl ho hpre
    exact hcall st i o hst ho hok hpre

lemma Pool.Keeps.pre (h : st.Keeps C R P) {o : I β} (ho : st.About i o) :
    C.pre (st.history i) o ∧ R i (st.history i) st.world := by
  obtain ⟨k, hk⟩ := ho
  exact ⟨((Prog.meets_call _ _).1 ((h i).2 _ hk)).1, (h i).1⟩

end Keeps

end SimpleSftpd.Interaction
