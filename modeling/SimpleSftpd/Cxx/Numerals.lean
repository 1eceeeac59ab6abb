import Mathlib.Tactic.IntervalCases
import SimpleSftpd.Cxx.Strings

namespace SimpleSftpd.Cxx

lemma toUInt8_digitChar {d : ℕ} (hd : d < 10) : d.digitChar.toUInt8 = UInt8.ofNat (48 + d) := by
  interval_cases d <;> rfl

lemma decimal_of_lt {n : ℕ} (hn : n < 10) : decimal n = [UInt8.ofNat (48 + n)] := by
  rw [decimal, Nat.toDigits_of_lt_base hn, List.map_singleton, toUInt8_digitChar hn]

lemma decimal_of_le {n : ℕ} (hn : 10 ≤ n) : decimal n = decimal (n / 10) ++ [UInt8.ofNat (48 + n % 10)] := by
  rw [decimal, Nat.toDigits_of_base_le (by decide) hn, List.map_append, List.map_singleton,
    toUInt8_digitChar (Nat.mod_lt n (by decide)), decimal]

lemma digit_ofNat {d : ℕ} (hd : d < 10) : digit 10 (UInt8.ofNat (48 + d)) = some d := by
  interval_cases d <;> rfl

lemma readDigits_append {s : Str} (hs : ∀ c ∈ s, (digit 10 c).isSome = true) (acc : ℕ) (rest : Str) :
    readDigits 10 acc (s ++ rest) = readDigits 10 (readDigits 10 acc s) rest := by
  induction s generalizing acc with
  | nil => rfl
  | cons c s ih =>
    obtain ⟨d, hd⟩ := Option.isSome_iff_exists.1 (hs c List.mem_cons_self)
    simp only [List.cons_append, readDigits, hd]
    exact ih (fun c hc => hs c (List.mem_cons_of_mem _ hc)) _

lemma decimal_isDigit (n : ℕ) : ∀ c ∈ decimal n, (digit 10 c).isSome = true := by
  induction n using Nat.strongRecOn with
  | ind n ih =>
    intro c hc
    rcases Nat.lt_or_ge n 10 with hn | hn
    · rw [decimal_of_lt hn, List.mem_singleton] at hc
      rw [hc, digit_ofNat hn]
      rfl
    · rw [decimal_of_le hn, List.mem_append, List.mem_singleton] at hc
      rcases hc with hc | rfl
      · exact ih _ (by omega) c hc
      · rw [digit_ofNat (Nat.mod_lt n (by decide))]
        rfl

lemma readDigits_decimal (n : ℕ) : readDigits 10 0 (decimal n) = n := by
  induction n using Nat.strongRecOn with
  | ind n ih =>
    rcases Nat.lt_or_ge n 10 with hn | hn
    · simp only [decimal_of_lt hn, readDigits, digit_ofNat hn]
      omega
    · have hquot := ih (n / 10) (by omega)
      rw [decimal_of_le hn, readDigits_append (decimal_isDigit _), hquot]
      simp only [readDigits, digit_ofNat (Nat.mod_lt n (show 0 < 10 by decide))]
      omega

lemma decimal_ne_nil (n : ℕ) : decimal n ≠ [] := by
  rw [decimal, ne_eq, List.map_eq_nil_iff]
  exact Nat.toDigits_ne_nil

lemma decimal_injective : Function.Injective decimal := fun m n h => by
  rw [← readDigits_decimal m, h, readDigits_decimal n]

lemma not_mem_decimal {c : Byte} (hc : digit 10 c = none) (n : ℕ) : c ∉ decimal n := fun h => by
  have hdigit := decimal_isDigit n c h
  rw [hc] at hdigit
  cases hdigit

lemma mem_decimalInt {c : Byte} {n : Int} (h : c ∈ decimalInt n) : (digit 10 c).isSome = true ∨ c = 45 := by
  unfold decimalInt at h
  split at h
  · rcases List.mem_cons.1 h with rfl | h
    · exact .inr rfl
    · exact .inl (decimal_isDigit _ c h)
  · exact .inl (decimal_isDigit _ c h)

lemma not_mem_decimalInt {c : Byte} (hc : digit 10 c = none) (hminus : c ≠ 45) (n : Int) : c ∉ decimalInt n := by
  intro h
  rcases mem_decimalInt h with hdigit | rfl
  · rw [hc] at hdigit
    cases hdigit
  · exact hminus rfl

lemma decimalInt_injective : Function.Injective decimalInt := fun m n h => by
  have hsign (k : ℕ) (l : Str) : (45 : Byte) :: l ≠ decimal k := fun he =>
    not_mem_decimal (c := 45) rfl k (he ▸ List.mem_cons_self)
  unfold decimalInt at h
  split at h <;> split at h
  · have := decimal_injective (List.cons.inj h).2
    omega
  · exact absurd h (hsign _ _)
  · exact absurd h.symm (hsign _ _)
  · have := decimal_injective h
    omega

lemma digit_range {c : Byte} (h : (digit 10 c).isSome = true) : 48 ≤ c.toNat ∧ c.toNat < 58 := by
  unfold digit at h
  split at h
  · rename_i hc
    have hlow : 48 ≤ c.toNat := UInt8.le_iff_toNat_le.1 hc.1
    exact ⟨hlow, by omega⟩
  · cases h

lemma isspace_of_digit {c : Byte} (h : (digit 10 c).isSome = true) : isspace c = false := by
  obtain ⟨hlow, _⟩ := digit_range h
  have hblank : c ≠ 32 := by
    rintro rfl
    exact absurd hlow (by decide)
  have hcontrol : ¬c ≤ 13 := by
    intro hc
    have hc : c.toNat ≤ 13 := UInt8.le_iff_toNat_le.1 hc
    omega
  simp [isspace, hblank, hcontrol]

lemma numeral_digits {s : Str} (hs : s ≠ []) (hdigits : ∀ c ∈ s, (digit 10 c).isSome = true) :
    numeral 10 s = some ⟨false, readDigits 10 0 s⟩ ∧ numeral 10 (45 :: s) = some ⟨true, readDigits 10 0 s⟩ := by
  obtain ⟨c, rest, rfl⟩ := List.exists_cons_of_ne_nil hs
  have hc : (digit 10 c).isSome = true := hdigits c List.mem_cons_self
  obtain ⟨d, hdigit⟩ := Option.isSome_iff_exists.1 hc
  obtain ⟨hlow, _⟩ := digit_range hc
  have hminus : c ≠ 45 := by
    rintro rfl
    exact absurd hlow (by decide)
  have hplus : c ≠ 43 := by
    rintro rfl
    exact absurd hlow (by decide)
  constructor
  · unfold numeral
    rw [List.dropWhile_cons_of_neg (by simp [isspace_of_digit hc])]
    simp only [if_neg hminus, if_neg hplus, hdigit, Option.map_some]
  · unfold numeral
    rw [List.dropWhile_cons_of_neg (by decide)]
    simp only [if_true, hdigit, Option.map_some]

lemma numeral_decimal (n : ℕ) :
    numeral 10 (decimal n) = some ⟨false, n⟩ ∧ numeral 10 (45 :: decimal n) = some ⟨true, n⟩ := by
  have h := numeral_digits (decimal_ne_nil n) (decimal_isDigit n)
  rwa [readDigits_decimal] at h

lemma stoi_decimalInt {n : Int} (h : -2 ^ 31 ≤ n) (h' : n < 2 ^ 31) : stoi (decimalInt n) = some n := by
  obtain ⟨hpos, hneg⟩ := numeral_decimal n.natAbs
  unfold decimalInt stoi
  split
  · have hvalue : (⟨true, n.natAbs⟩ : Numeral).value = n := by
      unfold Numeral.value
      simp only [if_true]
      omega
    rw [hneg, Option.bind_some, hvalue, if_pos ⟨h, h'⟩]
  · have hvalue : (⟨false, n.natAbs⟩ : Numeral).value = n := by
      unfold Numeral.value
      simp only [Bool.false_eq_true, if_false]
      omega
    rw [hpos, Option.bind_some, hvalue, if_pos ⟨h, h'⟩]

lemma stoull_decimal {n : ℕ} (h : n < 2 ^ 64) : stoull (decimal n) = some n := by
  unfold stoull
  rw [(numeral_decimal n).1, Option.bind_some, if_pos h]
  rfl

end SimpleSftpd.Cxx
