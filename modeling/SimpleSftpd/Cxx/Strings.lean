import Mathlib.Data.List.Basic
import Mathlib.Data.UInt

namespace SimpleSftpd

abbrev Byte := UInt8
abbrev Str := List Byte

def ascii (s : String) : Str := s.toList.map Char.toUInt8

instance : Coe String Str := ⟨ascii⟩
instance : Coe Char Byte := ⟨Char.toUInt8⟩

namespace Cxx

def toupper (c : Byte) : Byte := if (97 : Byte) ≤ c ∧ c ≤ 122 then c - 32 else c

def upper (s : Str) : Str := s.map toupper

def isspace (c : Byte) : Bool := c = 32 || ((9 : Byte) ≤ c && c ≤ 13)

def isBlank (c : Byte) : Bool := c = 32 || c = 9

def trimLeft (s : Str) : Str := s.dropWhile isBlank

def trimRight (s : Str) : Str := (s.reverse.dropWhile isBlank).reverse

lemma trimLeft_self {s : Str} (h : ∀ c ∈ s.head?, isBlank c = false) : trimLeft s = s := by
  cases s with
  | nil => rfl
  | cons c s => exact List.dropWhile_cons_of_neg (by simp [h c rfl])

lemma trimRight_self {s : Str} (h : ∀ c ∈ s.getLast?, isBlank c = false) : trimRight s = s := by
  unfold trimRight
  cases hr : s.reverse with
  | nil => simpa using congrArg List.reverse hr
  | cons c rest =>
    have hc : isBlank c = false := h c (by rw [List.getLast?_eq_head?_reverse, hr]; rfl)
    rw [List.dropWhile_cons_of_neg (by simp [hc]), ← hr, List.reverse_reverse]

def extract (s : Str) : Str × Str :=
  let t := s.dropWhile isspace
  (t.takeWhile (!isspace ·), t.dropWhile (!isspace ·))

/-- `std::getline(iss, rest)` -/
def getline (s : Str) : Str := s.takeWhile (· != 10)

/-- The tokens of `while (std::getline(iss, token, d))`; `acc` is the token being read. -/
def tokensFrom (d : Byte) (acc : Str) : Str → List Str
  | [] => if acc = [] then [] else [acc]
  | c :: s => if c = d then acc :: tokensFrom d [] s else tokensFrom d (acc ++ [c]) s

def tokens (d : Byte) (s : Str) : List Str := tokensFrom d [] s

def cut (d : Byte) (s : Str) : Option (Str × Str) :=
  match s.dropWhile (· ≠ d) with
  | [] => none
  | _ :: rest => some (s.takeWhile (· ≠ d), rest)

lemma cut_append {d : Byte} {s : Str} (hd : d ∉ s) (rest : Str) : cut d (s ++ d :: rest) = some (s, rest) := by
  have hs : ∀ c ∈ s, decide (c ≠ d) = true := fun c hc => decide_eq_true fun h => hd (h ▸ hc)
  have hstop : (d :: rest).dropWhile (· ≠ d) = d :: rest := List.dropWhile_cons_of_neg (by simp)
  have htake : (d :: rest).takeWhile (· ≠ d) = [] := List.takeWhile_cons_of_neg (by simp)
  unfold cut
  rw [List.dropWhile_append_of_pos hs, hstop, List.takeWhile_append_of_pos hs, htake, List.append_nil]

lemma cut_eq_some {d : Byte} {s before rest : Str} (h : cut d s = some (before, rest)) :
    s = before ++ d :: rest ∧ d ∉ before := by
  have hs : s = s.takeWhile (· ≠ d) ++ s.dropWhile (· ≠ d) := List.takeWhile_append_dropWhile.symm
  unfold cut at h
  cases hdrop : s.dropWhile (· ≠ d) with
  | nil =>
    rw [hdrop] at h
    cases h
  | cons c after =>
    rw [hdrop] at h hs
    obtain ⟨rfl, rfl⟩ := Prod.mk.inj (Option.some.inj h)
    have hc := List.head_dropWhile_not (· ≠ d) (l := s) (by rw [hdrop]; exact List.cons_ne_nil _ _)
    simp only [hdrop, List.head_cons, decide_eq_false_iff_not, not_not] at hc
    rw [hc] at hs
    refine ⟨hs, fun hmem => ?_⟩
    have hne := List.all_eq_true.1 List.all_takeWhile d hmem
    exact of_decide_eq_true hne rfl

def digit (base : ℕ) (c : Byte) : Option ℕ :=
  if (48 : Byte) ≤ c ∧ c.toNat - 48 < base then some (c.toNat - 48) else none

def readDigits (base : ℕ) (acc : ℕ) : Str → ℕ
  | [] => acc
  | c :: s => match digit base c with
    | some d => readDigits base (acc * base + d) s
    | none => acc

structure Numeral where
  negative : Bool
  magnitude : ℕ

def numeral (base : ℕ) (s : Str) : Option Numeral :=
  let t := s.dropWhile isspace
  let signed : Bool × Str := match t with
    | c :: u => if c = 45 then (true, u) else if c = 43 then (false, u) else (false, t)
    | [] => (false, [])
  match signed.2 with
  | c :: _ => (digit base c).map fun _ => ⟨signed.1, readDigits base 0 signed.2⟩
  | [] => none

def Numeral.value (n : Numeral) : Int := if n.negative then -n.magnitude else n.magnitude

/-- `std::stoi`; `none` stands for `invalid_argument` and `out_of_range`. -/
def stoi (s : Str) : Option Int :=
  (numeral 10 s).bind fun n =>
    if -2 ^ 31 ≤ n.value ∧ n.value < 2 ^ 31 then some n.value else none

/-- `std::stoul` and `std::stoull` on 64-bit machines: a sign negates modulo `2 ^ 64`. -/
def stoull (s : Str) (base : ℕ := 10) : Option ℕ :=
  (numeral base s).bind fun n =>
    if n.magnitude < 2 ^ 64 then
      some (if n.negative then (2 ^ 64 - n.magnitude) % 2 ^ 64 else n.magnitude)
    else none

lemma stoi_range {s : Str} {n : Int} (h : stoi s = some n) : -2 ^ 31 ≤ n ∧ n < 2 ^ 31 := by
  obtain ⟨m, _, hm⟩ := Option.bind_eq_some_iff.1 h
  split at hm
  · rename_i hrange
    cases hm
    exact hrange
  · cases hm

lemma stoull_range {s : Str} {base n : ℕ} (h : stoull s base = some n) : n < 2 ^ 64 := by
  obtain ⟨m, _, hm⟩ := Option.bind_eq_some_iff.1 h
  split at hm
  · rename_i hrange
    cases hm
    split
    · exact Nat.mod_lt _ (by decide)
    · exact hrange
  · cases hm

/-- `std::to_string` -/
def decimal (n : ℕ) : Str := (Nat.toDigits 10 n).map Char.toUInt8

def decimalInt (n : Int) : Str := if n < 0 then (45 : Byte) :: decimal n.natAbs else decimal n.natAbs

/-- The value an `int` expression has when its exact value is `n` and the machine wraps. -/
def wrapInt (n : Int) : Int := (n + 2 ^ 31) % 2 ^ 32 - 2 ^ 31

lemma wrapInt_eq {n : Int} (h : -2 ^ 31 ≤ n) (h' : n < 2 ^ 31) : wrapInt n = n := by
  simp only [wrapInt]
  omega

end Cxx

end SimpleSftpd
