import Mathlib.Data.List.GetD
import Mathlib.Data.Nat.Bitwise
import SimpleSftpd.Security.Password

namespace SimpleSftpd.Password

open Cxx

variable {a b : Str} {d : Byte}

def ZeroTailed (a b : Str) : Prop := ∃ n, 0 < n ∧ b = a ++ List.replicate (256 * n) 0

lemma foldl_difference_eq_zero (b : Str) :
    ∀ d : Byte, b.foldl (fun d y => d ||| (0 ^^^ y)) d = 0 ↔ d = 0 ∧ ∀ y ∈ b, y = 0 := by
  induction b with
  | nil => exact fun d => by simp
  | cons y b ih =>
    intro d
    rw [List.foldl_cons, ih, UInt8.or_eq_zero_iff, UInt8.xor_eq_zero_iff, List.forall_mem_cons, and_assoc,
      eq_comm (a := (0 : Byte))]

lemma differenceFrom_eq_zero (a : Str) : ∀ (b : Str) (d : Byte),
    differenceFrom d a b = 0 ↔ d = 0 ∧ ∀ i, a.getD i 0 = b.getD i 0 := by
  induction a with
  | nil =>
    intro b d
    unfold differenceFrom
    rw [foldl_difference_eq_zero]
    apply and_congr_right
    intro _
    constructor
    · intro h i
      rcases Nat.lt_or_ge i b.length with hi | hi
      · have hzero : b[i] = 0 := h _ (List.getElem_mem hi)
        simp [hi, hzero]
      · simp [hi]
    · intro h y hy
      obtain ⟨i, hi, rfl⟩ := List.getElem_of_mem hy
      have hzero := h i
      simp only [List.getD_nil, List.getD_eq_getElem _ _ hi] at hzero
      exact hzero.symm
  | cons x a ih =>
    intro b d
    unfold differenceFrom
    rw [ih, UInt8.or_eq_zero_iff, UInt8.xor_eq_zero_iff, and_assoc]
    apply and_congr_right
    intro _
    have htail (i : ℕ) : b.tail.getD i 0 = b.getD (i + 1) 0 := by
      cases b <;> simp
    have hhead : b.headD 0 = b.getD 0 0 := by
      cases b <;> simp
    constructor
    · rintro ⟨hx, h⟩ i
      cases i with
      | zero => rw [← hhead, ← hx, List.getD_cons_zero]
      | succ i => rw [List.getD_cons_succ, h, htail]
    · intro h
      refine ⟨?_, fun i => ?_⟩
      · rw [hhead, ← h 0, List.getD_cons_zero]
      · rw [htail, ← h (i + 1), List.getD_cons_succ]

lemma eq_zeros (hlen : a.length ≤ b.length) (h : ∀ i, a.getD i 0 = b.getD i 0) :
    b = a ++ List.replicate (b.length - a.length) 0 := by
  apply List.ext_getElem
  · rw [List.length_append, List.length_replicate]
    omega
  · intro i hi _
    have hb : b.getD i 0 = b[i] := List.getD_eq_getElem _ _ hi
    rw [← hb, ← h i]
    rcases Nat.lt_or_ge i a.length with hia | hia
    · rw [List.getD_eq_getElem _ _ hia, List.getElem_append_left hia]
    · rw [List.getD_eq_default _ _ hia, List.getElem_append_right hia, List.getElem_replicate]

lemma length_difference (m n : ℕ) : UInt8.ofNat (m ^^^ n) = 0 ↔ m % 256 = n % 256 := by
  have hbyte : UInt8.ofNat (m ^^^ n) = 0 ↔ (m ^^^ n) % 2 ^ 8 = 0 := by
    rw [← UInt8.toNat_inj, UInt8.toNat_ofNat']
    rfl
  rw [hbyte, Nat.xor_mod_two_pow, Nat.xor_eq_zero_iff]

lemma constantTimeEquals_iff : constantTimeEquals a b = true ↔ a = b ∨ ZeroTailed a b ∨ ZeroTailed b a := by
  unfold constantTimeEquals
  rw [decide_eq_true_eq, differenceFrom_eq_zero, length_difference]
  constructor
  · rintro ⟨hlen, h⟩
    rcases Nat.lt_trichotomy a.length b.length with hlt | heq | hgt
    · refine .inr (.inl ⟨(b.length - a.length) / 256, by omega, ?_⟩)
      rw [Nat.mul_div_cancel' (by omega)]
      exact eq_zeros hlt.le h
    · have hsame := eq_zeros heq.le h
      rw [heq, Nat.sub_self, List.replicate_zero, List.append_nil] at hsame
      exact .inl hsame.symm
    · refine .inr (.inr ⟨(a.length - b.length) / 256, by omega, ?_⟩)
      rw [Nat.mul_div_cancel' (by omega)]
      exact eq_zeros hgt.le fun i => (h i).symm
  · have hzeros (a : Str) (n i : ℕ) : a.getD i 0 = (a ++ List.replicate (256 * n) 0).getD i 0 := by
      rcases Nat.lt_or_ge i a.length with hi | hi
      · rw [List.getD_append _ _ _ _ hi]
      · rw [List.getD_append_right _ _ _ _ hi, List.getD_eq_default _ _ hi, List.getD_eq_getElem?_getD,
          List.getElem?_getD_replicate_default_eq]
    rintro (rfl | ⟨n, _, rfl⟩ | ⟨n, _, rfl⟩)
    · exact ⟨rfl, fun _ => rfl⟩
    · refine ⟨?_, hzeros a n⟩
      rw [List.length_append, List.length_replicate]
      omega
    · refine ⟨?_, fun i => (hzeros b n i).symm⟩
      rw [List.length_append, List.length_replicate]
      omega

lemma ZeroTailed.ne (h : ZeroTailed a b) : a ≠ b := by
  obtain ⟨n, hn, rfl⟩ := h
  intro heq
  have hlen := congrArg List.length heq
  rw [List.length_append, List.length_replicate] at hlen
  omega

theorem constantTimeEquals_compares (a b : Str) :
    (constantTimeEquals a b = true ↔ a = b) ↔ ¬ZeroTailed a b ∧ ¬ZeroTailed b a := by
  rw [constantTimeEquals_iff]
  constructor
  · intro h
    refine ⟨fun hz => hz.ne (h.1 (.inr (.inl hz))), fun hz => hz.ne (h.1 (.inr (.inr hz))).symm⟩
  · rintro ⟨hab, hba⟩
    simp [hab, hba]

theorem constantTimeEquals_zeros : constantTimeEquals (ascii "p" ++ List.replicate 256 0) "p" = true ∧
    (ascii "p" ++ List.replicate 256 0) ≠ ascii "p" := by decide +kernel

end SimpleSftpd.Password
