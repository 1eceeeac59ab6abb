import SimpleSftpd.Security.Verification

namespace SimpleSftpd.Password

open Cxx

variable {pbkdf2 : Pbkdf2} {plaintext body text : Str} {bytes salt digest : List Byte} {iterations count n : ℕ}

def PaddedLast (text : Str) : Prop :=
  ∃ chars padding, text = chars ++ List.replicate padding 61 ∧ padding ≤ 2 ∧ (61 : Byte) ∉ chars

def Encodes (n : ℕ) (text : Str) : Prop :=
  ∃ chars padding, text = chars ++ List.replicate padding 61 ∧ padding ≤ 2 ∧
  (∀ c ∈ chars, (base64Value c).isSome = true) ∧ 3 * text.length = 4 * (n + padding)

def WellFormed (body : Str) : Prop :=
  ∃ number salt64 digest64 n, body = number ++ 36 :: (salt64 ++ 36 :: digest64) ∧
  number ≠ [] ∧ (∀ c ∈ number, (digit 10 c).isSome = true) ∧ Encodes n salt64 ∧ Encodes kDigestBytes digest64

structure Reads (body number salt64 digest64 : Str) (count : ℕ) (salt digest : List Byte) : Prop where
  split : body = number ++ 36 :: (salt64 ++ 36 :: digest64)
  number_end : (36 : Byte) ∉ number
  salt_end : (36 : Byte) ∉ salt64
  number : stoull number = some count
  positive : 0 < count
  bounded : count ≤ 100000000
  salt_text : base64Decode salt64 = some salt
  salted : salt ≠ []
  digest_text : base64Decode digest64 = some digest
  size : digest.length = kDigestBytes

lemma derive_of_small (h : count < 2 ^ 31) :
    derive pbkdf2 plaintext salt count = pbkdf2 plaintext salt count kDigestBytes := by
  have hcount : wrapInt count = count := wrapInt_eq (by omega) (by omega)
  unfold derive
  rw [hcount]

lemma Reads.cut {number salt64 digest64 : Str} (h : Reads body number salt64 digest64 count salt digest) :
    Cxx.cut '$' body = some (number, salt64 ++ 36 :: digest64) ∧ Cxx.cut '$' (salt64 ++ 36 :: digest64) =
      some (salt64, digest64) := by
  rw [h.split]
  exact ⟨cut_append h.number_end _, cut_append h.salt_end _⟩

lemma verify_iff : verify pbkdf2 plaintext (kPrefix ++ body) = true ↔ ∃ number salt64 digest64 count salt digest,
    Reads body number salt64 digest64 count salt digest ∧
      pbkdf2 plaintext salt count kDigestBytes = some digest := by
  have hhashed : isHashed (kPrefix ++ body) = true := List.isPrefixOf_iff_prefix.2 (List.prefix_append _ _)
  unfold verify
  rw [hhashed, List.drop_left]
  constructor
  · intro h
    have hbody : verifyHashed pbkdf2 plaintext body = some true := by
      cases hv : verifyHashed pbkdf2 plaintext body with
      | none =>
        rw [hv] at h
        cases h
      | some b =>
        rw [hv] at h
        exact congrArg some h
    obtain ⟨⟨number, rest⟩, hfirst, hbody⟩ := Option.bind_eq_some_iff.1 hbody
    obtain ⟨⟨salt64, digest64⟩, hsecond, hbody⟩ := Option.bind_eq_some_iff.1 hbody
    obtain ⟨count, hnumber, hbody⟩ := Option.bind_eq_some_iff.1 hbody
    obtain ⟨_, hrange, hbody⟩ := Option.bind_eq_some_iff.1 hbody
    obtain ⟨salt, hsalt, hbody⟩ := Option.bind_eq_some_iff.1 hbody
    obtain ⟨digest, hdigest, hbody⟩ := Option.bind_eq_some_iff.1 hbody
    obtain ⟨_, hsizes, hbody⟩ := Option.bind_eq_some_iff.1 hbody
    obtain ⟨actual, hactual, hsame⟩ := Option.bind_eq_some_iff.1 hbody
    have hrange := (Option.guard_eq_some' _).1 hrange
    have hsizes := (Option.guard_eq_some' _).1 hsizes
    obtain ⟨rfl, hnumber_end⟩ := cut_eq_some hfirst
    obtain ⟨rfl, hsalt_end⟩ := cut_eq_some hsecond
    have hsame : actual = digest := of_decide_eq_true (Option.some.inj hsame)
    rw [derive_of_small (by omega)] at hactual
    refine ⟨number, salt64, digest64, count, salt, digest, ?_, hsame ▸ hactual⟩
    exact ⟨rfl, hnumber_end, hsalt_end, hnumber, by omega, by omega, hsalt, hsizes.1, hdigest, hsizes.2⟩
  · rintro ⟨number, salt64, digest64, count, salt, digest, h, hkey⟩
    have hpositive := h.positive
    have hbounded := h.bounded
    have hderive : derive pbkdf2 plaintext salt count = some digest := (derive_of_small (by omega)).trans hkey
    have hbody : verifyHashed pbkdf2 plaintext body = some true := by
      simp only [verifyHashed, h.cut.1, h.cut.2, h.number, h.salt_text, h.digest_text, hderive,
        Option.bind_eq_bind, Option.bind_some]
      simp [h.salted, h.size, guard, hpositive.ne', hbounded]
    simp [hbody]

section Base64

variable {c : Byte} {cs : List Byte}

lemma quadValues_char (hc : c ≠ 61) : quadValues 0 (c :: cs) =
    (base64Value c).bind fun v => (quadValues 0 cs).map fun (vs, n) => (v :: vs, n) := by
  simp only [quadValues, if_neg hc, gt_iff_lt, Nat.lt_irrefl, if_false]

lemma base64Decode_quad {a b c d : Byte} {rest : Str} (hquad : (61 : Byte) ∉ [a, b, c, d])
    (h : base64Decode (a :: b :: c :: d :: rest) = some bytes) :
    (∀ x ∈ [a, b, c, d], (base64Value x).isSome = true) ∧
      ∃ more, base64Decode rest = some more ∧ bytes.length = more.length + 3 := by
  simp only [List.mem_cons, List.not_mem_nil, or_false, not_or] at hquad
  obtain ⟨ha, hb, hc, hd⟩ := hquad
  obtain ⟨⟨vs, padding⟩, hvalues, h⟩ := Option.bind_eq_some_iff.1 h
  obtain ⟨more, hmore, rfl⟩ := Option.map_eq_some_iff.1 h
  rw [quadValues_char (Ne.symm ha), quadValues_char (Ne.symm hb), quadValues_char (Ne.symm hc),
    quadValues_char (Ne.symm hd)] at hvalues
  simp only [quadValues, Option.bind_eq_some_iff, Option.map_eq_some_iff, Prod.exists, Prod.mk.injEq] at hvalues
  obtain ⟨va, hva, _, _, ⟨vb, hvb, _, _, ⟨vc, hvc, _, _, ⟨vd, hvd, _, _, hnil, rfl, rfl⟩, rfl, rfl⟩, rfl,
    rfl⟩, rfl, rfl⟩ := hvalues
  obtain ⟨_, rfl⟩ := Prod.mk.inj (Option.some.inj hnil)
  refine ⟨by simp [hva, hvb, hvc, hvd], more, hmore, ?_⟩
  simp [quadBytes]

lemma encodes_chars {padding : ℕ} (hpadding : padding ≤ 2) :
    ∀ (chars : Str) (bytes : List Byte), (61 : Byte) ∉ chars →
    base64Decode (chars ++ List.replicate padding 61) = some bytes →
    (∀ c ∈ chars, (base64Value c).isSome = true) ∧ 3 * (chars.length + padding) = 4 * (bytes.length + padding)
  | [], bytes, _, h => by
    interval_cases padding
    · obtain rfl : [] = bytes := Option.some.inj h
      exact ⟨fun _ hc => absurd hc List.not_mem_nil, rfl⟩
    · cases h
    · cases h
  | [a], bytes, _, h => by interval_cases padding <;> cases h
  | [a, b], bytes, hchars, h => by
    simp only [List.mem_cons, List.not_mem_nil, or_false, not_or] at hchars
    interval_cases padding
    · cases h
    · cases h
    · change base64Decode [a, b, 61, 61] = some bytes at h
      simp only [base64Decode, quadValues_char (Ne.symm hchars.1), quadValues_char (Ne.symm hchars.2)] at h
      cases hva : base64Value a <;> cases hvb : base64Value b <;> simp [hva, hvb, quadValues, quadBytes] at h
      obtain rfl := h
      simp [hva, hvb]
  | [a, b, c], bytes, hchars, h => by
    simp only [List.mem_cons, List.not_mem_nil, or_false, not_or] at hchars
    obtain ⟨ha, hb, hc⟩ := hchars
    interval_cases padding
    · cases h
    · change base64Decode [a, b, c, 61] = some bytes at h
      simp only [base64Decode, quadValues_char (Ne.symm ha), quadValues_char (Ne.symm hb),
        quadValues_char (Ne.symm hc)] at h
      cases hva : base64Value a <;> cases hvb : base64Value b <;> cases hvc : base64Value c <;>
        simp [hva, hvb, hvc, quadValues, quadBytes] at h
      obtain rfl := h
      simp [hva, hvb, hvc]
    · obtain ⟨_, _, h⟩ := Option.bind_eq_some_iff.1 h
      obtain ⟨_, hshort, _⟩ := Option.map_eq_some_iff.1 h
      cases hshort
  | a :: b :: c :: d :: rest, bytes, hchars, h => by
    have hquad : (61 : Byte) ∉ [a, b, c, d] := fun hmem => hchars (List.mem_append_left rest hmem)
    have hrest : (61 : Byte) ∉ rest := fun hmem => hchars (List.mem_append_right [a, b, c, d] hmem)
    obtain ⟨hvalues, more, hmore, hlength⟩ := base64Decode_quad hquad h
    obtain ⟨hall, hsize⟩ := encodes_chars hpadding rest more hrest hmore
    refine ⟨fun x hx => ?_, ?_⟩
    · rcases List.mem_append.1 (show x ∈ [a, b, c, d] ++ rest from hx) with hx | hx
      · exact hvalues x hx
      · exact hall x hx
    · simp only [List.length_cons]
      omega

lemma not_mem_of_values {chars : Str} (h : ∀ c ∈ chars, (base64Value c).isSome = true) :
    (61 : Byte) ∉ chars ∧ (36 : Byte) ∉ chars :=
  ⟨fun hmem => absurd (h 61 hmem) (by decide), fun hmem => absurd (h 36 hmem) (by decide)⟩

lemma encodes_iff (h : base64Decode text = some bytes) : PaddedLast text ↔ Encodes bytes.length text := by
  constructor
  · rintro ⟨chars, padding, rfl, hpadding, hchars⟩
    obtain ⟨hvalues, hsize⟩ := encodes_chars hpadding chars bytes hchars h
    refine ⟨chars, padding, rfl, hpadding, hvalues, ?_⟩
    rw [List.length_append, List.length_replicate]
    exact hsize
  · rintro ⟨chars, padding, rfl, hpadding, hvalues, _⟩
    exact ⟨chars, padding, rfl, hpadding, (not_mem_of_values hvalues).1⟩

lemma Encodes.no_dollar (h : Encodes n text) : (36 : Byte) ∉ text := by
  obtain ⟨chars, padding, rfl, _, hvalues, _⟩ := h
  intro hmem
  rcases List.mem_append.1 hmem with hmem | hmem
  · exact (not_mem_of_values hvalues).2 hmem
  · exact absurd (List.eq_of_mem_replicate hmem) (by decide)

lemma Encodes.paddedLast (h : Encodes n text) : PaddedLast text := by
  obtain ⟨chars, padding, rfl, hpadding, hvalues, _⟩ := h
  exact ⟨chars, padding, rfl, hpadding, (not_mem_of_values hvalues).1⟩

lemma PaddedLast.symbols (h : PaddedLast text) (quad : Str) (hquad : (61 : Byte) ∉ quad) :
    PaddedLast (quad ++ text) := by
  obtain ⟨chars, padding, rfl, hpadding, hchars⟩ := h
  refine ⟨quad ++ chars, padding, by rw [List.append_assoc], hpadding, fun hmem => ?_⟩
  rcases List.mem_append.1 hmem with hmem | hmem
  · exact hquad hmem
  · exact hchars hmem

lemma base64Encode_paddedLast (bs : List Byte) : PaddedLast (base64Encode bs) := by
  have hsymbol (triple shift : ℕ) : (61 : Byte) ≠ symbol triple shift := (symbol_ne_padding triple shift).symm
  fun_induction base64Encode bs with
  | case1 a b c rest triple ih =>
    exact ih.symbols [symbol triple 18, symbol triple 12, symbol triple 6, symbol triple 0] (by simp [hsymbol])
  | case2 a triple => exact ⟨[symbol triple 18, symbol triple 12], 2, rfl, le_rfl, by simp [hsymbol]⟩
  | case3 a b triple =>
    exact ⟨[symbol triple 18, symbol triple 12, symbol triple 6], 1, rfl, one_le_two, by simp [hsymbol]⟩
  | case4 => exact ⟨[], 0, rfl, Nat.zero_le 2, List.not_mem_nil⟩

theorem base64_reads_back (b : List Byte) : base64Decode (base64Encode b) = some b ∧
    (base64Encode b).length = 4 * ((b.length + 2) / 3) ∧ PaddedLast (base64Encode b) := by
  have hpadded := base64Encode_paddedLast b
  obtain ⟨_, padding, _, hpadding, _, hsize⟩ := (encodes_iff (base64Decode_base64Encode b)).1 hpadded
  exact ⟨base64Decode_base64Encode b, by omega, hpadded⟩

end Base64

lemma wellFormed_iff {number salt64 digest64 : Str} (h : Reads body number salt64 digest64 count salt digest) :
    WellFormed body ↔ (∀ c ∈ number, (digit 10 c).isSome = true) ∧ PaddedLast salt64 ∧ PaddedLast digest64 := by
  constructor
  · rintro ⟨number', salt64', digest64', n, hsplit, _, hdigits, hsalt, hdigest⟩
    have hnumber : (36 : Byte) ∉ number' := fun hmem => absurd (hdigits 36 hmem) (by decide)
    have hfirst : Cxx.cut 36 body = some (number, salt64 ++ 36 :: digest64) := h.cut.1
    rw [hsplit, cut_append hnumber] at hfirst
    obtain ⟨rfl, hrest⟩ := Prod.mk.inj (Option.some.inj hfirst)
    have hsecond : Cxx.cut 36 (salt64 ++ 36 :: digest64) = some (salt64, digest64) := h.cut.2
    rw [← hrest, cut_append hsalt.no_dollar] at hsecond
    obtain ⟨rfl, rfl⟩ := Prod.mk.inj (Option.some.inj hsecond)
    exact ⟨hdigits, hsalt.paddedLast, hdigest.paddedLast⟩
  · rintro ⟨hdigits, hsalt, hdigest⟩
    refine ⟨number, salt64, digest64, salt.length, h.split, ?_, hdigits, (encodes_iff h.salt_text).1 hsalt, ?_⟩
    · rintro rfl
      cases h.number
    · rw [← h.size]
      exact (encodes_iff h.digest_text).1 hdigest

theorem verify_reads (pbkdf2 : Pbkdf2) (plaintext body : Str) :
    (verify pbkdf2 plaintext (kPrefix ++ body) = true → WellFormed body) ↔
      ∀ number salt64 digest64 count salt digest, Reads body number salt64 digest64 count salt digest →
        pbkdf2 plaintext salt count kDigestBytes = some digest →
          (∀ c ∈ number, (digit 10 c).isSome = true) ∧ PaddedLast salt64 ∧ PaddedLast digest64 := by
  rw [verify_iff]
  constructor
  · intro h number salt64 digest64 count salt digest hreads hkey
    exact (wellFormed_iff hreads).1 (h ⟨number, salt64, digest64, count, salt, digest, hreads, hkey⟩)
  · rintro h ⟨number, salt64, digest64, count, salt, digest, hreads, hkey⟩
    exact (wellFormed_iff hreads).2 (h _ _ _ _ _ _ hreads hkey)

def sampleSalt : List Byte := [0, 1, 2, 3, 4, 5, 6, 7, 8, 9, 10, 11, 12, 13, 14, 15]

def knownKeys : Pbkdf2 := fun plaintext salt iterations n =>
  if plaintext = "x" ∧ salt = [0, 0] ∧ iterations = 1000 ∧ n = 32 then some [245, 217, 51, 58, 248, 214, 110,
    248, 236, 115, 238, 21, 54, 180, 54, 167,
      13, 168, 46, 223, 127, 219, 170, 183, 118, 93, 66, 239, 192, 35, 28, 50]
  else if plaintext = "p" ∧ salt = sampleSalt ∧ iterations = 1000 ∧ n = 32 then
    some [93, 169, 248, 153, 99, 118, 58, 245, 165, 30, 212, 154, 204, 189, 153, 88,
      52, 82, 29, 195, 26, 77, 252, 132, 42, 165, 104, 207, 162, 41, 55, 60]
  else if plaintext = "p" ∧ salt = sampleSalt ∧ iterations = 100000001 ∧ n = 32 then
    some [175, 47, 80, 56, 85, 161, 40, 138, 148, 134, 162, 222, 137, 166, 27, 103,
      101, 175, 51, 203, 160, 191, 74, 103, 26, 254, 196, 103, 76, 76, 45, 218]
  else if 0 < iterations then some (List.replicate n 0)
  else none

theorem verify_reads_loosely :
    verify knownKeys "x" (kPrefix ++ ascii "+1000x$AA==AA==$9dkzOvjWbvjsc+4VNrQ2pw2oLt9/26q3dl1C78AjHDI=") = true ∧
    ¬WellFormed (ascii "+1000x$AA==AA==$9dkzOvjWbvjsc+4VNrQ2pw2oLt9/26q3dl1C78AjHDI=") := by
  refine ⟨by decide +kernel, ?_⟩
  rintro ⟨number, salt64, digest64, n, hsplit, _, hdigits, _⟩
  have hnumber : (36 : Byte) ∉ number := fun hmem => absurd (hdigits 36 hmem) (by decide)
  have hfirst : Cxx.cut 36 (ascii "+1000x$AA==AA==$9dkzOvjWbvjsc+4VNrQ2pw2oLt9/26q3dl1C78AjHDI=") =
      some (number, salt64 ++ 36 :: digest64) := by
    rw [hsplit, cut_append hnumber]
  have hread : (Cxx.cut 36 (ascii "+1000x$AA==AA==$9dkzOvjWbvjsc+4VNrQ2pw2oLt9/26q3dl1C78AjHDI=")).map
    Prod.fst = some (ascii "+1000x") := by decide +kernel
  rw [hfirst] at hread
  obtain rfl := Option.some.inj hread
  exact absurd (hdigits 43 (by decide)) (by decide)

def Succeeds (pbkdf2 : Pbkdf2) : Prop :=
  ∀ (plaintext : Str) (salt : List Byte) (rounds : Int) (n : ℕ), 0 < rounds → rounds < 2 ^ 31 →
  ∃ key, pbkdf2 plaintext salt rounds n = some key ∧ key.length = n

def rounds (iterations : ℕ) : ℕ := if iterations = 0 then kDefaultIterations else iterations

lemma hash_of_key (h : derive pbkdf2 plaintext salt (rounds iterations) = some digest) :
    hash pbkdf2 (some salt) plaintext iterations =
    kPrefix ++ (decimal (rounds iterations) ++ 36 :: (base64Encode salt ++ 36 :: base64Encode digest)) := by
  unfold hash
  unfold rounds at h ⊢
  simp only [h, List.append_assoc]
  rfl

lemma hash_of_none (h : derive pbkdf2 plaintext salt (rounds iterations) = none) :
    hash pbkdf2 (some salt) plaintext iterations = [] := by
  unfold hash
  unfold rounds at h
  simp only [h]

lemma reads_written (digest : List Byte) (hn : count < 2 ^ 64) (hpositive : 0 < count) (hsalt : salt ≠ []) :
    (count ≤ 100000000 → digest.length = kDigestBytes →
      Reads (decimal count ++ 36 :: (base64Encode salt ++ 36 :: base64Encode digest)) (decimal count)
      (base64Encode salt) (base64Encode digest) count salt digest) ∧
    ∀ number salt64 digest64 count' salt' digest',
      Reads (decimal count ++ 36 :: (base64Encode salt ++ 36 :: base64Encode digest))
      number salt64 digest64 count' salt' digest' → count' = count := by
  refine ⟨fun hbounded hdigest => ?_, ?_⟩
  · exact ⟨rfl, not_mem_decimal rfl _, not_mem_base64Encode _, stoull_decimal hn, hpositive, hbounded,
      base64Decode_base64Encode _, hsalt, base64Decode_base64Encode _, hdigest⟩
  · intro number salt64 digest64 count' salt' digest' h
    have hfirst : Cxx.cut 36 _ = some (number, salt64 ++ 36 :: digest64) := h.cut.1
    rw [cut_append (not_mem_decimal rfl _)] at hfirst
    obtain ⟨rfl, _⟩ := Prod.mk.inj (Option.some.inj hfirst)
    exact Option.some.inj (h.number.symm.trans (stoull_decimal hn))

theorem hash_is_verified (pbkdf2 : Pbkdf2) (hp : Succeeds pbkdf2) (salt : Option (List Byte))
    (hsalt : ∀ bytes ∈ salt, bytes.length = kSaltBytes) (plaintext : Str) (iterations : ℕ)
    (hi : iterations < 2 ^ 32) :
    (hash pbkdf2 salt plaintext iterations ≠ [] →
      verify pbkdf2 plaintext (hash pbkdf2 salt plaintext iterations) = true) ↔
      (iterations ≤ 100000000 ∨ salt = none ∨
        2 ^ 31 ≤ iterations ∧
          ∀ bytes ∈ salt, pbkdf2 plaintext bytes (wrapInt iterations) kDigestBytes = none) := by
  cases salt with
  | none => exact ⟨fun _ => .inr (.inl rfl), fun _ h => absurd rfl h⟩
  | some salt =>
    have hne : salt ≠ [] := by
      rintro rfl
      cases hsalt [] rfl
    have hrounds : 0 < rounds iterations ∧ rounds iterations < 2 ^ 32 ∧
        (rounds iterations ≤ 100000000 ↔ iterations ≤ 100000000) := by
      unfold rounds kDefaultIterations
      split <;> omega
    have hlarge (h : 100000000 < iterations) : rounds iterations = iterations := by
      unfold rounds
      rw [if_neg (by omega)]
    cases hkey : derive pbkdf2 plaintext salt (rounds iterations) with
    | none =>
      have hmany : 2 ^ 31 ≤ rounds iterations := by
        by_contra hfew
        obtain ⟨key, hkey', _⟩ := hp plaintext salt (rounds iterations) kDigestBytes (by omega) (by omega)
        rw [derive_of_small (by omega), hkey'] at hkey
        cases hkey
      have hempty := hash_of_none hkey
      have hsame := hlarge (by omega)
      rw [hsame] at hkey hmany
      refine ⟨fun _ => .inr (.inr ⟨hmany, ?_⟩), fun _ h => absurd hempty h⟩
      rintro bytes ⟨⟩
      exact hkey
    | some digest =>
      have hhead : kPrefix ≠ [] := List.cons_ne_nil _ _
      have hlength (hfew : rounds iterations < 2 ^ 31) : digest.length = kDigestBytes := by
        obtain ⟨key, hkey', hlength⟩ := hp plaintext salt (rounds iterations) kDigestBytes (by omega) (by omega)
        rw [derive_of_small hfew, hkey'] at hkey
        obtain rfl := Option.some.inj hkey
        exact hlength
      have hwritten := reads_written digest (show rounds iterations < 2 ^ 64 by omega) hrounds.1 hne
      rw [hash_of_key hkey, verify_iff]
      constructor
      · intro h
        obtain ⟨number, salt64, digest64, count, salt', digest', hreads, _⟩ :=
          h fun hnil => hhead (List.append_eq_nil_iff.1 hnil).1
        obtain rfl : count = rounds iterations := hwritten.2 _ _ _ _ _ _ hreads
        exact .inl (hrounds.2.2.1 hreads.bounded)
      · rintro (hfew | hnone | ⟨hmany, hfailed⟩) _
        · exact ⟨_, _, _, _, _, _, hwritten.1 (hrounds.2.2.2 hfew) (hlength (by omega)),
            (derive_of_small (by omega)).symm.trans hkey⟩
        · cases hnone
        · have hsame := hlarge (by omega)
          rw [hsame] at hkey
          exact absurd (hkey.symm.trans (hfailed salt rfl)) (Option.some_ne_none _)

lemma knownKeys_succeeds : Succeeds knownKeys := by
  intro plaintext salt iterations n hpositive _
  unfold knownKeys
  split
  · rename_i h
    exact ⟨_, rfl, h.2.2.2.symm⟩
  · split
    · rename_i h
      exact ⟨_, rfl, h.2.2.2.symm⟩
    · split
      · rename_i h
        exact ⟨_, rfl, h.2.2.2.symm⟩
      · exact ⟨_, rfl, List.length_replicate⟩

theorem hash_is_verified_thousand : verify knownKeys "p" (hash knownKeys (some sampleSalt) "p" 1000) = true := by
  refine (hash_is_verified knownKeys knownKeys_succeeds (some sampleSalt) ?_ "p" 1000 (by decide)).2
    (.inl (by decide)) ?_
  · rintro bytes ⟨⟩
    rfl
  · decide +kernel

theorem hash_is_not_verified : hash knownKeys (some sampleSalt) "p" 100000001 ≠ [] ∧
    verify knownKeys "p" (hash knownKeys (some sampleSalt) "p" 100000001) = false := by decide +kernel

end SimpleSftpd.Password
