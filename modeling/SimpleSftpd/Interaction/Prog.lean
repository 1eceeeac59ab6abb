import Mathlib.Logic.Basic
import Mathlib.Tactic.Basic

/-! Programs as trees of calls to an environment. A machine answers the calls and fixes a run;
a contract describes every machine at once and gives the rules of pre- and postconditions. -/

namespace SimpleSftpd.Interaction

abbrev Interface := Type → Type

inductive Prog (I : Interface) (ε α : Type) : Type 1
  | ret (a : α)
  | throw (e : ε)
  | call {β : Type} (o : I β) (k : β → Prog I ε α)

namespace Prog

variable {I : Interface} {ε α β γ : Type}

def bind : Prog I ε α → (α → Prog I ε β) → Prog I ε β
  | ret a, f => f a
  | throw e, _ => throw e
  | call o k, f => call o (fun r => (k r).bind f)

instance : Monad (Prog I ε) where
  pure := ret
  bind := bind

def perform (o : I β) : Prog I ε β := call o ret

@[simp] lemma ret_eq_pure (a : α) : (ret a : Prog I ε α) = pure a := rfl
@[simp] lemma pure_bind' (a : α) (f : α → Prog I ε β) : (pure a >>= f : Prog I ε β) = f a := rfl
@[simp] lemma throw_bind (e : ε) (f : α → Prog I ε β) : (throw e >>= f : Prog I ε β) = throw e := rfl
@[simp] lemma call_bind (o : I γ) (k : γ → Prog I ε α) (f : α → Prog I ε β) :
    (call o k >>= f) = call o (fun r => k r >>= f) := rfl

lemma bind_pure' (p : Prog I ε α) : (p >>= pure) = p := by
  induction p with
  | ret a => rfl
  | throw e => rfl
  | call o k ih => exact congrArg (call o) (funext ih)

lemma bind_assoc' (p : Prog I ε α) (f : α → Prog I ε β) (g : β → Prog I ε γ) :
    (p >>= f >>= g) = (p >>= fun a => f a >>= g) := by
  induction p with
  | ret a => rfl
  | throw e => rfl
  | call o k ih => exact congrArg (call o) (funext ih)

instance : LawfulMonad (Prog I ε) :=
  LawfulMonad.mk' _ bind_pure' (fun _ _ => rfl) bind_assoc'

end Prog

abbrev Machine (I : Interface) (W : Type 1) := ∀ ⦃β : Type⦄, W → I β → β × W

namespace Prog

variable {I : Interface} {W : Type 1} {ε α β γ : Type} (M : Machine I W)

def exec : Prog I ε α → W → Except ε α × W
  | ret a, w => (.ok a, w)
  | throw e, w => (.error e, w)
  | call o k, w => (k (M w o).1).exec (M w o).2

def calls : Prog I ε α → W → List (W × Σ β, I β)
  | ret _, _ => []
  | throw _, _ => []
  | call o k, w => (w, ⟨_, o⟩) :: (k (M w o).1).calls (M w o).2

@[simp] lemma exec_pure (a : α) (w : W) : (pure a : Prog I ε α).exec M w = (.ok a, w) := rfl
@[simp] lemma exec_throw (e : ε) (w : W) : (throw e : Prog I ε α).exec M w = (.error e, w) := rfl
@[simp] lemma exec_call (o : I γ) (k : γ → Prog I ε α) (w : W) :
    (call o k).exec M w = (k (M w o).1).exec M (M w o).2 := rfl
@[simp] lemma exec_perform (o : I γ) (w : W) :
    (perform o : Prog I ε γ).exec M w = (.ok (M w o).1, (M w o).2) := rfl

@[simp] lemma exec_perform_bind (o : I γ) (f : γ → Prog I ε α) (w : W) :
    (perform o >>= f).exec M w = (f (M w o).1).exec M (M w o).2 := rfl

@[simp] lemma exec_ite {c : Prop} [Decidable c] (p q : Prog I ε α) (w : W) :
    (if c then p else q).exec M w = if c then p.exec M w else q.exec M w := by
  by_cases hc : c <;> simp [hc]

@[simp] lemma calls_pure (a : α) (w : W) : (pure a : Prog I ε α).calls M w = [] := rfl
@[simp] lemma calls_throw (e : ε) (w : W) : (throw e : Prog I ε α).calls M w = [] := rfl
@[simp] lemma calls_call (o : I γ) (k : γ → Prog I ε α) (w : W) :
    (call o k).calls M w = (w, ⟨_, o⟩) :: (k (M w o).1).calls M (M w o).2 := rfl
@[simp] lemma calls_perform (o : I γ) (w : W) :
    (perform o : Prog I ε γ).calls M w = [(w, ⟨_, o⟩)] := rfl

@[simp] lemma calls_perform_bind (o : I γ) (f : γ → Prog I ε α) (w : W) :
    (perform o >>= f).calls M w = (w, ⟨_, o⟩) :: (f (M w o).1).calls M (M w o).2 := rfl

lemma exec_bind (p : Prog I ε α) (f : α → Prog I ε β) (w : W) :
    (p >>= f).exec M w = match p.exec M w with
      | (.ok a, v) => (f a).exec M v
      | (.error e, v) => (.error e, v) := by
  induction p generalizing w with
  | ret a => rfl
  | throw e => rfl
  | call o k ih => exact ih _ _

lemma calls_bind (p : Prog I ε α) (f : α → Prog I ε β) (w : W) :
    (p >>= f).calls M w = p.calls M w ++ match p.exec M w with
      | (.ok a, v) => (f a).calls M v
      | (.error _, _) => [] := by
  induction p generalizing w with
  | ret a => rfl
  | throw e => rfl
  | call o k ih => exact congrArg (_ :: ·) (ih _ _)

lemma calls_bind_pure (p : Prog I ε α) (f : α → β) (w : W) :
    (p >>= fun a => pure (f a)).calls M w = p.calls M w := by
  rw [calls_bind]
  split <;> simp

lemma exec_bind_ok {p : Prog I ε α} {f : α → Prog I ε β} {w v : W} {b : β}
    (h : (p >>= f).exec M w = (.ok b, v)) :
    ∃ a w', p.exec M w = (.ok a, w') ∧ (f a).exec M w' = (.ok b, v) := by
  rw [exec_bind] at h
  split at h
  · rename_i a w' hp
    exact ⟨a, w', hp, h⟩
  · cases h

lemma calls_keep {p : Prog I ε α} {J : W → Prop} {w : W}
    (hJ : ∀ c ∈ p.calls M w, J c.1 → J (M c.1 c.2.2).2) (hw : J w) :
    (∀ c ∈ p.calls M w, J c.1) ∧ J (p.exec M w).2 := by
  induction p generalizing w with
  | ret a => exact ⟨fun _ hc => absurd hc List.not_mem_nil, hw⟩
  | throw e => exact ⟨fun _ hc => absurd hc List.not_mem_nil, hw⟩
  | call o k ih =>
    rw [calls_call] at hJ ⊢
    have hnext : J (M w o).2 := hJ _ List.mem_cons_self hw
    obtain ⟨hcalls, hend⟩ := ih _ (fun c hc => hJ c (List.mem_cons_of_mem _ hc)) hnext
    exact ⟨List.forall_mem_cons.2 ⟨hw, hcalls⟩, hend⟩

end Prog

end SimpleSftpd.Interaction
