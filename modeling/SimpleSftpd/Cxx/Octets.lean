import Mathlib.Data.BitVec
import SimpleSftpd.Cxx.Strings

namespace SimpleSftpd.Cxx

def bigEndian : List ℕ → ℕ
  | [] => 0
  | o :: os => 2 ^ (8 * os.length) * o + bigEndian os

def OctetAgrees (n a b : Int) : Prop :=
  if 8 ≤ n then a = b else if 0 < n then a % 256 / 2 ^ (8 - n).toNat = b % 256 / 2 ^ (8 - n).toNat else True

instance (n a b : Int) : Decidable (OctetAgrees n a b) := inferInstanceAs (Decidable (if 8 ≤ n then a = b else
  if 0 < n then a % 256 / 2 ^ (8 - n).toNat = b % 256 / 2 ^ (8 - n).toNat else True))

def FirstBits : Int → List Int → List Int → Prop
  | n, a :: as, b :: bs => OctetAgrees n a b ∧ FirstBits (n - 8) as bs
  | _, _, _ => True

def FirstBits.decidable : ∀ n as bs, Decidable (FirstBits n as bs)
  | n, _ :: as, _ :: bs => @instDecidableAnd _ _ inferInstance (FirstBits.decidable (n - 8) as bs)
  | _, [], _ => .isTrue trivial
  | _, _ :: _, [] => .isTrue trivial

variable {os ps : List ℕ} {as bs : List Int} {n : ℕ}

lemma firstBits_of_nonpos {n : Int} (hn : n ≤ 0) : FirstBits n as bs := by
  induction as generalizing n bs with
  | nil => trivial
  | cons a as ih =>
    cases bs with
    | nil => trivial
    | cons b bs =>
      refine ⟨?_, ih (by omega)⟩
      rw [OctetAgrees, if_neg (by omega), if_neg (by omega)]
      trivial

lemma bigEndian_lt (h : ∀ o ∈ os, o < 256) : bigEndian os < 2 ^ (8 * os.length) := by
  induction os with
  | nil => exact Nat.one_pos
  | cons o os ih =>
    obtain ⟨ho, hos⟩ := List.forall_mem_cons.1 h
    have hpow : 2 ^ (8 * (os.length + 1)) = 2 ^ (8 * os.length) * 256 := by rw [Nat.mul_succ, Nat.pow_add]
    have hlow : bigEndian os < 2 ^ (8 * os.length) := ih hos
    have hhigh : 2 ^ (8 * os.length) * (o + 1) ≤ 2 ^ (8 * os.length) * 256 := Nat.mul_le_mul_left _ (by omega)
    rw [Nat.mul_succ] at hhigh
    rw [bigEndian, List.length_cons, hpow]
    omega

section

variable {k m o p v u : ℕ}

lemma div_high (hm : m ≤ k) : (2 ^ k * o + v) / 2 ^ m = 2 ^ (k - m) * o + v / 2 ^ m := by
  have hsplit : 2 ^ k * o = 2 ^ m * (2 ^ (k - m) * o) := by
    rw [← Nat.mul_assoc, ← Nat.pow_add, Nat.add_sub_of_le hm]
  rw [hsplit, Nat.mul_add_div (Nat.two_pow_pos m)]

lemma div_low (hv : v < 2 ^ k) : (2 ^ k * o + v) / 2 ^ (k + m) = o / 2 ^ m := by
  rw [Nat.pow_add, ← Nat.div_div_eq_div_mul, Nat.mul_add_div (Nat.two_pow_pos k),
    Nat.div_eq_of_lt hv, Nat.add_zero]

lemma high_low_inj (hv : v < 2 ^ k) (hu : u < 2 ^ k) : 2 ^ k * o + v = 2 ^ k * p + u ↔ o = p ∧ v = u := by
  refine ⟨fun h => ?_, fun h => by rw [h.1, h.2]⟩
  have ho : (2 ^ k * o + v) / 2 ^ k = o := by simpa using! div_low (m := 0) (o := o) hv
  have hp : (2 ^ k * p + u) / 2 ^ k = p := by simpa using! div_low (m := 0) (o := p) hu
  have hop : o = p := by rw [← ho, h, hp]
  exact ⟨hop, by rw [hop] at h; omega⟩

end

lemma octetAgrees_iff {o p : ℕ} (hn : n < 8) (ho : o < 256) (hp : p < 256) :
    OctetAgrees n (o : Int) (p : Int) ↔ o / 2 ^ (8 - n) = p / 2 ^ (8 - n) := by
  rw [OctetAgrees, if_neg (by omega)]
  by_cases hzero : n = 0
  · have hgone : ∀ v < 256, v / 2 ^ (8 - n) = 0 := by
      intro v hv
      rw [hzero]
      exact Nat.div_eq_of_lt hv
    rw [if_neg (by omega), hgone o ho, hgone p hp]
    exact iff_of_true trivial rfl
  · have hpart : (8 - (n : Int)).toNat = 8 - n := by omega
    rw [if_pos (by omega), hpart, Int.emod_eq_of_lt (by omega) (by omega), Int.emod_eq_of_lt (by omega) (by omega)]
    norm_cast

lemma firstBits_iff (hlength : os.length = ps.length) (hos : ∀ o ∈ os, o < 256) (hps : ∀ p ∈ ps, p < 256)
    (hn : n ≤ 8 * os.length) : FirstBits n (os.map Int.ofNat) (ps.map Int.ofNat) ↔
      bigEndian os / 2 ^ (8 * os.length - n) = bigEndian ps / 2 ^ (8 * os.length - n) := by
  induction os generalizing ps n with
  | nil =>
    obtain rfl : ps = [] := List.length_eq_zero_iff.1 hlength.symm
    exact iff_of_true trivial rfl
  | cons o os ih =>
    cases ps with
    | nil => cases hlength
    | cons p ps =>
      have hlen : os.length = ps.length := Nat.succ.inj hlength
      obtain ⟨ho, hos⟩ := List.forall_mem_cons.1 hos
      obtain ⟨hp, hps⟩ := List.forall_mem_cons.1 hps
      have hv := bigEndian_lt hos
      have hu := bigEndian_lt hps
      rw [← hlen] at hu
      rw [List.length_cons] at hn ⊢
      rw [List.map_cons, List.map_cons, FirstBits, bigEndian, bigEndian, ← hlen]
      by_cases hwhole : 8 ≤ n
      · have hm : 8 * (os.length + 1) - n = 8 * os.length - (n - 8) := by omega
        have hrest : ((n : Int) - 8) = ((n - 8 : ℕ) : Int) := by omega
        have hshort : ∀ v < 2 ^ (8 * os.length), v / 2 ^ (8 * os.length - (n - 8)) < 2 ^
            (8 * os.length - (8 * os.length - (n - 8))) := by
          intro v hv
          rw [Nat.div_lt_iff_lt_mul (Nat.two_pow_pos _), ← Nat.pow_add, Nat.sub_add_cancel (Nat.sub_le _ _)]
          exact hv
        rw [OctetAgrees, if_pos (by omega), hrest, ih hlen hos hps (by omega), hm, div_high (Nat.sub_le _ _),
          div_high (Nat.sub_le _ _),
          high_low_inj (hshort _ hv) (hshort _ hu)]
        exact and_congr_left' Int.ofNat_inj
      · have hrest : FirstBits ((n : Int) - 8) (os.map Int.ofNat) (ps.map Int.ofNat) :=
          firstBits_of_nonpos (by omega)
        have hm : 8 * (os.length + 1) - n = 8 * os.length + (8 - n) := by omega
        rw [and_iff_left hrest, hm, div_low hv, div_low hu]
        exact octetAgrees_iff (by omega) ho hp

lemma and_highBits (x k : ℕ) (hk : k ≤ 8) : x &&& (255 <<< k &&& 255) = x % 2 ^ 8 / 2 ^ k * 2 ^ k := by
  apply Nat.eq_of_testBit_eq
  intro j
  have hones : ∀ i, (255 : ℕ).testBit i = decide (i < 8) := fun i => Nat.testBit_two_pow_sub_one 8 i
  rw [Nat.testBit_and, Nat.testBit_and, Nat.testBit_shiftLeft, hones, hones, Nat.testBit_mul_two_pow,
    Nat.testBit_div_two_pow,
    Nat.testBit_mod_two_pow]
  by_cases hj : k ≤ j
  · rw [Nat.sub_add_cancel hj]
    by_cases h8 : j < 8
    · have hlow : j - k < 8 := by omega
      simp [hj, h8, hlow]
    · simp [hj, h8]
  · simp [hj]

lemma div_two_pow_eq_iff {w x y : ℕ} (hx : x < 2 ^ w) (hy : y < 2 ^ w) (hn : n ≤ w) :
    x / 2 ^ (w - n) = y / 2 ^ (w - n) ↔ ∀ i < n, (BitVec.ofNat w x).getMsbD i = (BitVec.ofNat w y).getMsbD i := by
  have hbit : ∀ z, ∀ i < n, (BitVec.ofNat w z).getMsbD i = (z / 2 ^ (w - n)).testBit (n - 1 - i) := by
    intro z i hi
    have hindex : n - 1 - i + (w - n) = w - 1 - i := by omega
    rw [BitVec.getMsbD_eq_getLsbD, BitVec.getLsbD_ofNat, Nat.testBit_div_two_pow, hindex,
      decide_eq_true (by omega : i < w),
      decide_eq_true (by omega : w - 1 - i < w), Bool.true_and, Bool.true_and]
  constructor
  · intro h i hi
    rw [hbit x i hi, hbit y i hi, h]
  · intro h
    apply Nat.eq_of_testBit_eq
    intro j
    by_cases hj : j < n
    · have hi : n - 1 - (n - 1 - j) = j := by omega
      have hsame := h (n - 1 - j) (by omega)
      rwa [hbit x _ (by omega), hbit y _ (by omega), hi] at hsame
    · have hhigh : ∀ z < 2 ^ w, (z / 2 ^ (w - n)).testBit j = false := by
        intro z hz
        have hpow : 2 ^ w ≤ 2 ^ (j + (w - n)) := Nat.pow_le_pow_right (by decide) (by omega)
        rw [Nat.testBit_div_two_pow]
        exact Nat.testBit_lt_two_pow (hz.trans_le hpow)
      rw [hhigh x hx, hhigh y hy]

end SimpleSftpd.Cxx
