import SimpleSftpd.Interaction.Pool

namespace SimpleSftpd.Interaction

universe u v w

lemma System.Reach.map {S : Type u} {S' : Type v} {L : Type w} {T : System S L} {T' : System S' L}
    {ok : S → L → Prop} {ok' : S' → L → Prop} (f : S → S') (hinit : ∀ s, T.init s → T'.init (f s))
    (hok : ∀ s l, ok s l → ok' (f s) l)
    (hnext : ∀ s l s', T.next s l = some s' → T'.next (f s) l = some (f s')) {s : S} (h : T.Reach ok s) :
    T'.Reach ok' (f s) := by
  induction h with
  | init h => exact .init (hinit _ h)
  | step _ hl h ih => exact ih.step (hok _ _ hl) (hnext _ _ _ h)

variable {I : Interface} {ε S E T H H' : Type} {W : Type 1} {f : H → H'}

def Pool.project (f : H → H') (st : Pool I ε S H W) : Pool I ε S H' W :=
  ⟨st.world, st.thread, fun i => f (st.history i)⟩

@[simp] lemma Pool.project_set (st : Pool I ε S H W) (i : ℕ) (t : Thread I ε S) (h : H) (w : W) :
    (st.set i t h w).project f = (st.project f).set i t (f h) w := by
  simp only [project, set, Pool.mk.injEq, true_and]
  funext j
  by_cases hj : j = i
  · subst hj
    rw [Function.update_self, Function.update_self]
  · rw [Function.update_of_ne hj, Function.update_of_ne hj]

/-- The threads run alike, and `f` is what is left of the longer history. -/
structure Threads.Projects (f : H → H') (D : Threads I ε S E T H W) (D' : Threads I ε S E T H' W) : Prop where
  machine : D'.machine = D.machine
  enter : ∀ i e w, D'.enter i e w = (((D.enter i e w).1.1, f (D.enter i e w).1.2), (D.enter i e w).2)
  greet : D'.greet = D.greet
  turn : D'.turn = D.turn
  begin : ∀ h s t, D'.begin (f h) s t = f (D.begin h s t)
  note : ∀ {β : Type} (h : H) (o : I β) (r : β), D'.note (f h) o r = f (D.note h o r)
  finish : ∀ h, D'.finish (f h) = f (D.finish h)

variable {D : Threads I ε S E T H W} {D' : Threads I ε S E T H' W} {st st' : Pool I ε S H W} {l : PoolStep E T}

lemma Threads.Projects.step (hD : Threads.Projects f D D') (h : D.step st l = some st') :
    D'.step (st.project f) l = some (st'.project f) := by
  cases D.step_effect h with
  | @entered i _ hi =>
    replace hi : (st.project f).thread i = none := hi
    rw [Pool.project_set]
    simp only [Threads.step, hi, hD.enter, hD.greet]
    rfl
  | @began i _ _ hi =>
    replace hi : (st.project f).thread i = _ := hi
    rw [Pool.project_set, ← hD.begin]
    simp only [Threads.step, hi, hD.turn]
    rfl
  | @called i _ _ _ hi =>
    replace hi : (st.project f).thread i = _ := hi
    rw [Pool.project_set, ← hD.note]
    simp only [Threads.step, hi, hD.machine]
    rfl
  | @finished i _ hi =>
    replace hi : (st.project f).thread i = _ := hi
    rw [Pool.project_set, ← hD.finish]
    simp only [Threads.step, hi]
    rfl

lemma Threads.Projects.reach (hD : Threads.Projects f D D') {start : Pool I ε S H W → Prop}
    {start' : Pool I ε S H' W → Prop} {ok : Pool I ε S H W → PoolStep E T → Prop}
    {ok' : Pool I ε S H' W → PoolStep E T → Prop} (hstart : ∀ st, start st → start' (st.project f))
    (hok : ∀ st l, ok st l → ok' (st.project f) l) (h : (D.system start).Reach ok st) :
    (D'.system start').Reach ok' (st.project f) :=
  h.map (Pool.project f) hstart hok fun _ _ _ => hD.step

end SimpleSftpd.Interaction
