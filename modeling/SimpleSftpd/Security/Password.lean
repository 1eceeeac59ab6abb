import SimpleSftpd.Cxx.Strings

/-! password.cpp: salted password hashes and their verification. -/

namespace SimpleSftpd.Password

open Cxx

abbrev Pbkdf2 := Str → List Byte → Int → ℕ → Option (List Byte)

def kPrefix : Str := "$pbkdf2-sha256$"

def kBase64Alphabet : Str := "ABCDEFGHIJKLMNOPQRSTUVWXYZabcdefghijklmnopqrstuvwxyz0123456789+/"

def kDefaultIterations : ℕ := 210000
def kSaltBytes : ℕ := 16
def kDigestBytes : ℕ := 32

def symbol (triple shift : ℕ) : Byte := kBase64Alphabet.getD ((triple >>> shift) % 64) 0

def base64Encode : List Byte → Str
  | a :: b :: c :: rest =>
    let triple := a.toNat <<< 16 + b.toNat <<< 8 + c.toNat
    symbol triple 18 :: symbol triple 12 :: symbol triple 6 :: symbol triple 0 :: base64Encode rest
  | [a] =>
    let triple := a.toNat <<< 16
    [symbol triple 18, symbol triple 12, '=', '=']
  | [a, b] =>
    let triple := a.toNat <<< 16 + b.toNat <<< 8
    [symbol triple 18, symbol triple 12, symbol triple 6, '=']
  | [] => []

def base64Value (c : Byte) : Option ℕ :=
  if (65 : Byte) ≤ c ∧ c ≤ 90 then some (c.toNat - 65)
  else if (97 : Byte) ≤ c ∧ c ≤ 122 then some (c.toNat - 97 + 26)
  else if (48 : Byte) ≤ c ∧ c ≤ 57 then some (c.toNat - 48 + 52)
  else if c = 43 then some 62
  else if c = 47 then some 63
  else none

def quadValues (padding : ℕ) : List Byte → Option (List ℕ × ℕ)
  | [] => some ([], padding)
  | c :: cs =>
    if c = 61 then (quadValues (padding + 1) cs).map fun (vs, n) => (0 :: vs, n)
    else if padding > 0 then none
    else (base64Value c).bind fun v => (quadValues padding cs).map fun (vs, n) => (v :: vs, n)

def quadBytes (vs : List ℕ) (padding : ℕ) : List Byte :=
  let triple := vs.getD 0 0 <<< 18 + vs.getD 1 0 <<< 12 + vs.getD 2 0 <<< 6 + vs.getD 3 0
  UInt8.ofNat (triple >>> 16) ::
    ((if padding < 2 then [UInt8.ofNat (triple >>> 8)] else []) ++
      (if padding < 1 then [UInt8.ofNat triple] else []))

def base64Decode : Str → Option (List Byte)
  | [] => some []
  | a :: b :: c :: d :: rest =>
    (quadValues 0 [a, b, c, d]).bind fun (vs, padding) =>
      (base64Decode rest).map (quadBytes vs padding ++ ·)
  | _ => none

def derive (pbkdf2 : Pbkdf2) (plaintext : Str) (salt : List Byte) (iterations : ℕ) :
    Option (List Byte) :=
  pbkdf2 plaintext salt (wrapInt iterations) kDigestBytes

/-- The loop of `constantTimeEquals` from a difference collected so far; the shorter string is
read as if zeros followed it. -/
def differenceFrom (difference : Byte) : Str → Str → Byte
  | [], b => b.foldl (fun d y => d ||| (0 ^^^ y)) difference
  | x :: a, b => differenceFrom (difference ||| (x ^^^ b.headD 0)) a b.tail

def constantTimeEquals (a b : Str) : Bool :=
  differenceFrom (UInt8.ofNat (a.length ^^^ b.length)) a b = 0

def isHashed (stored : Str) : Bool := kPrefix.isPrefixOf stored

def hash (pbkdf2 : Pbkdf2) (salt : Option (List Byte)) (plaintext : Str)
    (iterations : ℕ := kDefaultIterations) : Str :=
  let iterations := if iterations = 0 then kDefaultIterations else iterations
  match salt with
  | none => []
  | some salt => match derive pbkdf2 plaintext salt iterations with
    | none => []
    | some digest =>
      kPrefix ++ decimal iterations ++ "$" ++ base64Encode salt ++ "$" ++ base64Encode digest

lemma isHashed_hash {pbkdf2 : Pbkdf2} {salt : Option (List Byte)} {plaintext : Str} {iterations : ℕ}
    (h : hash pbkdf2 salt plaintext iterations ≠ []) :
    isHashed (hash pbkdf2 salt plaintext iterations) = true := by
  cases salt with
  | none => exact absurd rfl h
  | some salt =>
    unfold hash at h ⊢
    dsimp only at h ⊢
    split
    · rename_i hfailed
      rw [hfailed] at h
      exact absurd rfl h
    · simp only [isHashed, List.append_assoc, List.isPrefixOf_iff_prefix]
      exact List.prefix_append _ _

def verifyHashed (pbkdf2 : Pbkdf2) (plaintext body : Str) : Option Bool := do
  let (number, rest) ← cut '$' body
  let (salt64, digest64) ← cut '$' rest
  let parsed ← stoull number
  guard (¬(parsed = 0 ∨ parsed > 100000000))
  let salt ← base64Decode salt64
  let expected ← base64Decode digest64
  guard (salt ≠ [] ∧ expected.length = kDigestBytes)
  let actual ← derive pbkdf2 plaintext salt parsed
  return actual = expected

def verify (pbkdf2 : Pbkdf2) (plaintext stored : Str) : Bool :=
  if !isHashed stored then constantTimeEquals plaintext stored
  else (verifyHashed pbkdf2 plaintext (stored.drop kPrefix.length)).getD false

end SimpleSftpd.Password
