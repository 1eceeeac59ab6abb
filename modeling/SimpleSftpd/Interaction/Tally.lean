import Mathlib.Algebra.BigOperators.Group.Finset.Basic
import Mathlib.Data.Finset.Card

namespace SimpleSftpd.Interaction

variable {K : Type} [DecidableEq K]

def tally (n : ℕ) (label : ℕ → Option K) (k : K) : ℕ :=
  ((Finset.range n).filter fun i => label i = some k).card

lemma tally_congr {n : ℕ} {f g : ℕ → Option K} (h : ∀ i < n, f i = g i) : tally n f = tally n g := by
  funext k
  refine congrArg Finset.card (Finset.filter_congr fun i hi => ?_)
  rw [h i (Finset.mem_range.1 hi)]

lemma tally_succ (n : ℕ) (f : ℕ → Option K) (k : K) :
    tally (n + 1) f k = tally n f k + if f n = some k then 1 else 0 := by
  unfold tally
  rw [Finset.range_add_one, Finset.filter_insert]
  split
  · rw [Finset.card_insert_of_notMem (by simp)]
  · rfl

lemma tally_update {n i : ℕ} (hi : i < n) (f : ℕ → Option K) (x : Option K) (k : K) :
    tally n (Function.update f i x) k + (if f i = some k then 1 else 0) =
      tally n f k + if x = some k then 1 else 0 := by
  induction n with
  | zero => omega
  | succ n ih =>
    rw [tally_succ, tally_succ]
    rcases Nat.lt_succ_iff_lt_or_eq.1 hi with hlt | rfl
    · rw [Function.update_of_ne (Nat.ne_of_gt hlt)]
      have := ih hlt
      omega
    · have hsame : tally i (Function.update f i x) = tally i f :=
        tally_congr fun j hj => Function.update_of_ne (Nat.ne_of_lt hj) _ _
      rw [Function.update_self, hsame]
      omega

lemma tally_update_le {n i : ℕ} (hi : i < n) {f : ℕ → Option K} {x : Option K} {k : K} {m : ℤ}
    (hold : (tally n f k : ℤ) ≤ m) (hnew : x = some k → f i ≠ some k → (tally n f k : ℤ) < m) :
    (tally n (Function.update f i x) k : ℤ) ≤ m := by
  have hmoved := tally_update hi f x k
  by_cases hx : x = some k
  · rw [if_pos hx] at hmoved
    by_cases hf : f i = some k
    · rw [if_pos hf] at hmoved
      omega
    · have hlt := hnew hx hf
      rw [if_neg hf] at hmoved
      omega
  · rw [if_neg hx] at hmoved
    omega

lemma tally_le_add {n : ℕ} {f g h : ℕ → Option K} {k : K}
    (hk : ∀ i < n, f i = some k → g i = some k ∨ h i = some k) :
    tally n f k ≤ tally n g k + tally n h k := by
  unfold tally
  rw [← Finset.card_union_add_card_inter]
  refine le_trans (Finset.card_le_card fun i hi => ?_) (Nat.le_add_right _ _)
  simp only [Finset.mem_union, Finset.mem_filter] at hi ⊢
  exact (hk i (Finset.mem_range.1 hi.1) hi.2).imp (⟨hi.1, ·⟩) (⟨hi.1, ·⟩)

end SimpleSftpd.Interaction
