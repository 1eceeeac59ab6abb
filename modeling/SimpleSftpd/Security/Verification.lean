import SimpleSftpd.Cxx.Numerals
import SimpleSftpd.Security.Password

namespace SimpleSftpd.Password

open Cxx

def letter (v : ℕ) : Byte := kBase64Alphabet.getD v 0

lemma letter_spec : ∀ v < 64, base64Value (letter v) = some v ∧ letter v ≠ 61 ∧ letter v ≠ 36 := by decide +kernel

lemma symbol_value (triple shift : ℕ) : base64Value (symbol triple shift) = some ((triple >>> shift) % 64) :=
  (letter_spec _ (Nat.mod_lt _ (by decide))).1

lemma symbol_ne_padding (triple shift : ℕ) : symbol triple shift ≠ 61 :=
  (letter_spec _ (Nat.mod_lt _ (by decide))).2.1

lemma symbol_ne_dollar (triple shift : ℕ) : symbol triple shift ≠ 36 :=
  (letter_spec _ (Nat.mod_lt _ (by decide))).2.2

lemma quadValues_symbol (triple shift : ℕ) (cs : List Byte) : quadValues 0 (symbol triple shift :: cs) =
    (quadValues 0 cs).map fun (vs, n) => ((triple >>> shift) % 64 :: vs, n) := by
  simp only [quadValues, if_neg (symbol_ne_padding triple shift), gt_iff_lt, Nat.lt_irrefl, if_false,
    symbol_value, Option.bind_some]

lemma values_sum {triple : ℕ} (h : triple < 2 ^ 24) :
    ((triple >>> 18) % 64) <<< 18 + ((triple >>> 12) % 64) <<< 12 +
    ((triple >>> 6) % 64) <<< 6 + ((triple >>> 0) % 64) = triple := by
  simp only [Nat.shiftRight_eq_div_pow, Nat.shiftLeft_eq]
  omega

lemma byte_of_triple (n : ℕ) (b : Byte) (h : n % 256 = b.toNat) : UInt8.ofNat n = b := by
  apply UInt8.toNat.inj
  rw [UInt8.toNat_ofNat', ← h]

lemma base64Decode_base64Encode (bs : List Byte) : base64Decode (base64Encode bs) = some bs := by
  fun_induction base64Encode bs with
  | case1 a b c rest triple ih =>
    have ha := a.toNat_lt
    have hb := b.toNat_lt
    have hc := c.toNat_lt
    have htriple : triple = a.toNat * 2 ^ 16 + b.toNat * 2 ^ 8 + c.toNat := by simp only [triple, Nat.shiftLeft_eq]
    have hsum := values_sum (show triple < 2 ^ 24 by omega)
    have h16 : UInt8.ofNat (triple >>> 16) = a := byte_of_triple _ _ (by rw [Nat.shiftRight_eq_div_pow]; omega)
    have h8 : UInt8.ofNat (triple >>> 8) = b := byte_of_triple _ _ (by rw [Nat.shiftRight_eq_div_pow]; omega)
    have h0 : UInt8.ofNat triple = c := byte_of_triple _ _ (by omega)
    have hquad : quadValues 0 [symbol triple 18, symbol triple 12, symbol triple 6, symbol triple 0] =
        some ([(triple >>> 18) % 64, (triple >>> 12) % 64, (triple >>> 6) % 64, (triple >>> 0) % 64], 0) := by
      simp only [quadValues_symbol]
      rfl
    simp only [base64Decode, hquad, Option.bind_some, ih, Option.map_some, quadBytes, List.getD_cons_zero,
      List.getD_cons_succ, hsum]
    simp [h16, h8, h0]
  | case2 a triple =>
    have ha := a.toNat_lt
    have htriple : triple = a.toNat * 2 ^ 16 := by simp only [triple, Nat.shiftLeft_eq]
    have hsum : ((triple >>> 18) % 64) <<< 18 + ((triple >>> 12) % 64) <<< 12 + 0 <<< 6 + 0 = triple := by
      simp only [Nat.shiftRight_eq_div_pow, Nat.shiftLeft_eq]
      omega
    have h16 : UInt8.ofNat (triple >>> 16) = a := byte_of_triple _ _ (by rw [Nat.shiftRight_eq_div_pow]; omega)
    have hquad : quadValues 0 [symbol triple 18, symbol triple 12, '=', '='] =
        some ([(triple >>> 18) % 64, (triple >>> 12) % 64, 0, 0], 2) := by
      simp only [quadValues_symbol]
      rfl
    simp only [base64Decode, hquad, Option.bind_some, Option.map_some, quadBytes, List.getD_cons_zero,
      List.getD_cons_succ, hsum]
    simp [h16]
  | case3 a b triple =>
    have ha := a.toNat_lt
    have hb := b.toNat_lt
    have htriple : triple = a.toNat * 2 ^ 16 + b.toNat * 2 ^ 8 := by simp only [triple, Nat.shiftLeft_eq]
    have hsum : ((triple >>> 18) % 64) <<< 18 + ((triple >>> 12) % 64) <<< 12 + ((triple >>> 6) % 64) <<< 6 +
        0 = triple := by
      simp only [Nat.shiftRight_eq_div_pow, Nat.shiftLeft_eq]
      omega
    have h16 : UInt8.ofNat (triple >>> 16) = a := byte_of_triple _ _ (by rw [Nat.shiftRight_eq_div_pow]; omega)
    have h8 : UInt8.ofNat (triple >>> 8) = b := byte_of_triple _ _ (by rw [Nat.shiftRight_eq_div_pow]; omega)
    have hquad : quadValues 0 [symbol triple 18, symbol triple 12, symbol triple 6, '='] =
        some ([(triple >>> 18) % 64, (triple >>> 12) % 64, (triple >>> 6) % 64, 0], 1) := by
      simp only [quadValues_symbol]
      rfl
    simp only [base64Decode, hquad, Option.bind_some, Option.map_some, quadBytes, List.getD_cons_zero,
      List.getD_cons_succ, hsum]
    simp [h16, h8]
  | case4 => rfl

lemma not_mem_base64Encode (bs : List Byte) : (36 : Byte) ∉ base64Encode bs := by
  have hsymbol (triple shift : ℕ) : (36 : Byte) ≠ symbol triple shift := (symbol_ne_dollar triple shift).symm
  have hpadding : (36 : Byte) ≠ '=' := by decide
  fun_induction base64Encode bs with
  | case1 a b c rest triple ih => simp [hsymbol, ih]
  | case2 a triple => simp [hsymbol, hpadding]
  | case3 a b triple => simp [hsymbol, hpadding]
  | case4 => exact List.not_mem_nil

def Derives (pbkdf2 : Pbkdf2) : Prop :=
  ∀ plaintext salt iterations n, ∃ digest, pbkdf2 plaintext salt iterations n = some digest ∧ digest.length = n

variable {pbkdf2 : Pbkdf2} {salt : List Byte}

lemma hash_eq (hd : Derives pbkdf2) (salt : List Byte) (plaintext : Str) : ∃ digest,
    derive pbkdf2 plaintext salt kDefaultIterations = some digest ∧ digest.length = kDigestBytes ∧
      hash pbkdf2 (some salt) plaintext =
        kPrefix ++ (decimal kDefaultIterations ++ 36 :: (base64Encode salt ++ 36 :: base64Encode digest)) := by
  obtain ⟨digest, hdigest, hlength⟩ := hd plaintext salt (wrapInt kDefaultIterations) kDigestBytes
  have hderive : derive pbkdf2 plaintext salt kDefaultIterations = some digest := hdigest
  refine ⟨digest, hderive, hlength, ?_⟩
  unfold hash
  simp only [if_neg (show ¬kDefaultIterations = 0 by decide), hderive, List.append_assoc]
  rfl

lemma hash_isHashed (hd : Derives pbkdf2) (salt : List Byte) (plaintext : Str) :
    isHashed (hash pbkdf2 (some salt) plaintext) = true := by
  obtain ⟨digest, _, _, he⟩ := hash_eq hd salt plaintext
  rw [he, isHashed, List.isPrefixOf_iff_prefix]
  exact List.prefix_append _ _

theorem verify_hash (hd : Derives pbkdf2) (hs : salt ≠ []) (plaintext : Str) :
    verify pbkdf2 plaintext (hash pbkdf2 (some salt) plaintext) = true := by
  obtain ⟨digest, hderive, hlength, he⟩ := hash_eq hd salt plaintext
  have hnumber : stoull (decimal kDefaultIterations) = some kDefaultIterations := by decide
  have hbody : verifyHashed pbkdf2 plaintext (decimal kDefaultIterations ++ 36 :: (base64Encode salt ++ 36 ::
      base64Encode digest)) = some true := by
    have hfirst : cut '$' (decimal kDefaultIterations ++ 36 :: (base64Encode salt ++ 36 :: base64Encode digest)) =
        some (decimal kDefaultIterations, base64Encode salt ++ 36 :: base64Encode digest) :=
          cut_append (not_mem_decimal rfl _) _
    have hsecond : cut '$' (base64Encode salt ++ 36 :: base64Encode digest) = some (base64Encode salt,
        base64Encode digest) :=
      cut_append (not_mem_base64Encode _) _
    simp only [verifyHashed, hfirst, hsecond, hnumber, base64Decode_base64Encode, hderive,
      Option.bind_eq_bind, Option.bind_some]
    simp [hs, hlength, kDefaultIterations, guard]
  unfold verify
  rw [hash_isHashed hd, he, List.drop_left, hbody]
  rfl

end SimpleSftpd.Password
