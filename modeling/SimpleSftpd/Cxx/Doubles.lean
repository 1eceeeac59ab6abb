import Mathlib.Algebra.Group.Nat.Even
import Mathlib.Data.Nat.Log

namespace SimpleSftpd.Cxx

def ulp (a : ℕ) : ℕ := 2 ^ (a.log2 - 52)

def nearest (a : ℕ) : ℕ :=
  let q := a / ulp a
  if 2 * (a % ulp a) < ulp a ∨ 2 * (a % ulp a) = ulp a ∧ q % 2 = 0 then q * ulp a else (q + 1) * ulp a

def elevenTenths : ℕ := 4953959590107546

def estimate (size extra : ℕ) : ℕ := nearest (nearest (nearest size * elevenTenths) + extra * 2 ^ 52) / 2 ^ 52

variable {a b k size extra : ℕ}

lemma ulp_pos (a : ℕ) : 0 < ulp a := Nat.two_pow_pos _

lemma ulp_dvd (h : a < 2 ^ (k + 53)) : ulp a ∣ 2 ^ k := by
  apply Nat.pow_dvd_pow
  by_cases ha : a = 0
  · simp [ha]
  · have hlog := (Nat.log2_lt ha).2 h
    omega

lemma le_nearest (hdvd : ulp a ∣ b) (h : b ≤ a) : b ≤ nearest a := by
  obtain ⟨m, rfl⟩ := hdvd
  have hm : m ≤ a / ulp a := (Nat.le_div_iff_mul_le (ulp_pos a)).2 (by rwa [Nat.mul_comm])
  have hlow : ulp a * m ≤ a / ulp a * ulp a := by
    rw [Nat.mul_comm]
    exact Nat.mul_le_mul_right _ hm
  unfold nearest
  dsimp only
  split_ifs
  · exact hlow
  · exact hlow.trans (Nat.mul_le_mul_right _ (Nat.le_succ _))

lemma nearest_le (a : ℕ) : 2 * nearest a ≤ 2 * a + ulp a := by
  have hsplit := Nat.div_add_mod a (ulp a)
  rw [Nat.mul_comm] at hsplit
  unfold nearest
  dsimp only
  split_ifs with h
  · omega
  · rw [Nat.add_mul, Nat.one_mul]
    omega

lemma nearest_of_lt (h : a < 2 ^ 53) : nearest a = a := by
  have hone : ulp a = 1 := Nat.dvd_one.1 (ulp_dvd (k := 0) h)
  simp [nearest, hone, Nat.mod_one]

lemma estimate_eq (hsize : size < 2 ^ 32) (hextra : extra < 2 ^ 10) :
    estimate size extra = 11 * size / 10 + extra := by
  have hexact : nearest size = size := nearest_of_lt (hsize.trans (by decide))
  have hproduct : size * elevenTenths * 10 = 11 * size * 2 ^ 52 + 4 * size := by
    unfold elevenTenths
    omega
  have hulp : ulp (size * elevenTenths) ∣ 2 ^ 32 := ulp_dvd (by omega)
  have hunit : (2 : ℕ) ^ 32 ∣ 2 ^ 52 := Nat.pow_dvd_pow 2 (by decide)
  have hlow : 11 * size / 10 * 2 ^ 52 ≤ nearest (size * elevenTenths) :=
    le_nearest (Nat.dvd_mul_left_of_dvd (Nat.dvd_trans hulp hunit) _) (by omega)
  have hhigh := nearest_le (size * elevenTenths)
  have hulp_le := Nat.le_of_dvd (Nat.two_pow_pos 32) hulp
  have hulp₂ : ulp (nearest (size * elevenTenths) + extra * 2 ^ 52) ∣ 2 ^ 33 := ulp_dvd (by omega)
  have hunit₂ : (2 : ℕ) ^ 33 ∣ 2 ^ 52 := Nat.pow_dvd_pow 2 (by decide)
  have hlow₂ : (11 * size / 10 + extra) * 2 ^ 52 ≤ nearest (nearest (size * elevenTenths) + extra * 2 ^ 52) := by
    apply le_nearest (Nat.dvd_mul_left_of_dvd (Nat.dvd_trans hulp₂ hunit₂) _)
    rw [Nat.add_mul]
    exact Nat.add_le_add_right hlow _
  have hhigh₂ := nearest_le (nearest (size * elevenTenths) + extra * 2 ^ 52)
  have hulp_le₂ := Nat.le_of_dvd (Nat.two_pow_pos 33) hulp₂
  unfold estimate
  rw [hexact]
  omega

end SimpleSftpd.Cxx
