import Mathlib.Data.Rat.Init
import SimpleSftpd.Cxx.Strings

namespace SimpleSftpd.Cxx

inductive Json
  | null
  | bool (b : Bool)
  | int (n : Int)
  | real (x : ℚ) (text : Str)
  | string (s : Str)
  | array (values : List Json)
  | object (members : List (Str × Json))

/-- What jsoncpp throws: at a value of the wrong type or out of range, or at values nested too deeply. -/
inductive JsonError
  | LogicError
  | RuntimeError
  deriving DecidableEq

namespace Json

def isArray : Json → Bool
  | array _ => true
  | _ => false

def isObject : Json → Bool
  | object _ => true
  | _ => false

def values : Json → List Json
  | array vs => vs
  | object ms => ms.map Prod.snd
  | _ => []

def getMemberNames : Json → List Str
  | object ms => ms.map Prod.fst
  | _ => []

def isMember (key : Str) : Json → Except JsonError Bool
  | null => .ok false
  | object ms => .ok (ms.lookup key).isSome
  | _ => .error .LogicError

def member (key : Str) : Json → Except JsonError Json
  | null => .ok null
  | object ms => .ok ((ms.lookup key).getD null)
  | _ => .error .LogicError

def asString : Json → Except JsonError Str
  | null => .ok []
  | string s => .ok s
  | bool b => .ok (if b then "true" else "false")
  | int n => .ok (decimalInt n)
  | real _ text => .ok text
  | _ => .error .LogicError

def asBool : Json → Except JsonError Bool
  | null => .ok false
  | bool b => .ok b
  | int n => .ok (n ≠ 0)
  | real x _ => .ok (x ≠ 0)
  | _ => .error .LogicError

def asIntegral (lo hi : Int) : Json → Except JsonError Int
  | null => .ok 0
  | bool b => .ok (if b then 1 else 0)
  | int n => if lo ≤ n ∧ n < hi then .ok n else .error .LogicError
  | real x _ => if (lo : ℚ) ≤ x ∧ x ≤ (hi - 1 : Int) then .ok (x.num.tdiv x.den) else .error .LogicError
  | _ => .error .LogicError

def asInt : Json → Except JsonError Int := asIntegral (-2 ^ 31) (2 ^ 31)

def asInt64 : Json → Except JsonError Int := asIntegral (-2 ^ 63) (2 ^ 63)

def asUInt (j : Json) : Except JsonError ℕ := Int.toNat <$> asIntegral 0 (2 ^ 32) j

def asUInt64 (j : Json) : Except JsonError ℕ := Int.toNat <$> asIntegral 0 (2 ^ 64) j

def assign {α : Type} (j : Json) (key : Str) (convert : Json → Except JsonError α) (x : α) :
    Except JsonError α := do
  if ← j.isMember key then convert (← j.member key) else return x

def strings : Json → Except JsonError (List Str) := fun j => j.values.mapM asString

section

variable {ms : List (Str × Json)} {key : Str} {n : Int} {α : Type} {convert : Json → Except JsonError α} {x : α}

@[simp] lemma isMember_object : (object ms).isMember key = .ok (ms.lookup key).isSome := rfl

@[simp] lemma member_object : (object ms).member key = .ok ((ms.lookup key).getD null) := rfl

@[simp] lemma asString_string (s : Str) : (string s).asString = .ok s := rfl

@[simp] lemma asBool_bool (b : Bool) : (bool b).asBool = .ok b := rfl

lemma asInt_int (h : -2 ^ 31 ≤ n) (h' : n < 2 ^ 31) : (int n).asInt = .ok n := by
  rw [asInt, asIntegral, if_pos ⟨h, h'⟩]

lemma asInt64_int (h : -2 ^ 63 ≤ n) (h' : n < 2 ^ 63) : (int n).asInt64 = .ok n := by
  rw [asInt64, asIntegral, if_pos ⟨h, h'⟩]

lemma asUInt_int {n : ℕ} (h : n < 2 ^ 32) : (int n).asUInt = .ok n := by
  have hrange : asIntegral 0 (2 ^ 32) (int n) = .ok (n : Int) := by
    rw [asIntegral, if_pos ⟨Int.natCast_nonneg n, by omega⟩]
  rw [asUInt, hrange]
  rfl

lemma asUInt_large {n : ℕ} (h : ¬n < 2 ^ 32) : (int n).asUInt = .error .LogicError := by
  have hrange : asIntegral 0 (2 ^ 32) (int n) = .error .LogicError := by
    rw [asIntegral, if_neg (by omega)]
  rw [asUInt, hrange]
  rfl

lemma asUInt64_int {n : ℕ} (h : n < 2 ^ 64) : (int n).asUInt64 = .ok n := by
  have hrange : asIntegral 0 (2 ^ 64) (int n) = .ok (n : Int) := by
    rw [asIntegral, if_pos ⟨Int.natCast_nonneg n, by omega⟩]
  rw [asUInt64, hrange]
  rfl

lemma assign_some {j : Json} (h : ms.lookup key = some j) : (object ms).assign key convert x = convert j := by
  rw [assign, isMember_object, member_object, h]
  rfl

lemma assign_none (h : ms.lookup key = none) : (object ms).assign key convert x = .ok x := by
  rw [assign, isMember_object, h]
  rfl

lemma strings_map (l : List Str) : (array (l.map string)).strings = .ok l := by
  unfold strings values
  induction l with
  | nil => rfl
  | cons s l ih =>
    simp only [List.map_cons, List.mapM_cons, ih, asString_string]
    rfl

lemma bind_eq_ok {β : Type} {p : Except JsonError α} {f : α → Except JsonError β} {b : β} :
    (p >>= f) = .ok b ↔ ∃ a, p = .ok a ∧ f a = .ok b := by
  cases p with
  | ok a => simp [bind, Except.bind]
  | error e => simp [bind, Except.bind]

lemma truncated_range {lo hi : Int} {x : ℚ} (hlo : lo ≤ 0) (hhi : 0 ≤ hi) (h : (lo : ℚ) ≤ x) (h' : x ≤ (hi : ℚ)) :
    lo ≤ x.num.tdiv x.den ∧ x.num.tdiv x.den ≤ hi := by
  have hlow : lo * x.den ≤ x.num := by simpa using (Rat.le_iff _ _).1 h
  have hhigh : x.num ≤ hi * x.den := by simpa using (Rat.le_iff _ _).1 h'
  have hden : (0 : Int) < x.den := Int.natCast_pos.2 x.den_pos
  rcases Int.le_total 0 x.num with hpos | hneg
  · rw [Int.tdiv_eq_ediv_of_nonneg hpos]
    exact ⟨hlo.trans (Int.ediv_nonneg hpos hden.le), Int.ediv_le_of_le_mul hden hhigh⟩
  · have hflip : x.num.tdiv x.den = -(-x.num / x.den) := by
      rw [← Int.tdiv_eq_ediv_of_nonneg (Int.neg_nonneg.2 hneg), Int.neg_tdiv, Int.neg_neg]
    have hquotient : 0 ≤ -x.num / x.den := Int.ediv_nonneg (Int.neg_nonneg.2 hneg) hden.le
    have hbound : -x.num / x.den ≤ -lo := Int.ediv_le_of_le_mul hden (by rw [Int.neg_mul]; omega)
    omega

lemma asIntegral_range {lo hi : Int} (hlo : lo ≤ 0) (hhi : 1 < hi) {j : Json} (h : j.asIntegral lo hi = .ok n) :
    lo ≤ n ∧ n < hi := by
  cases j with
  | null =>
    cases h
    exact ⟨hlo, by omega⟩
  | bool b =>
    cases h
    cases b <;> simp <;> omega
  | int m =>
    rw [asIntegral] at h
    split at h
    · rename_i hrange
      cases h
      exact hrange
    · cases h
  | real x _ =>
    rw [asIntegral] at h
    split at h
    · rename_i hrange
      cases h
      have htruncated := truncated_range hlo (by omega) hrange.1 hrange.2
      omega
    · cases h
  | _ => cases h

lemma asUInt64_range {j : Json} {n : ℕ} (h : j.asUInt64 = .ok n) : n < 2 ^ 64 := by
  rw [asUInt64] at h
  cases hm : j.asIntegral 0 (2 ^ 64) with
  | error e =>
    rw [hm] at h
    cases h
  | ok m =>
    rw [hm] at h
    have hrange := asIntegral_range (by decide) (by decide) hm
    have hn : m.toNat = n := Except.ok.inj h
    omega

lemma assign_eq_ok {j : Json} {y : α} (h : j.assign key convert x = .ok y) : y = x ∨ ∃ j', convert j' = .ok y := by
  obtain ⟨present, _, h⟩ := bind_eq_ok.1 h
  split at h
  · obtain ⟨j', _, h⟩ := bind_eq_ok.1 h
    exact .inr ⟨j', h⟩
  · cases h
    exact .inl rfl

lemma assign_quota_range {j : Json} {n : ℕ} (h : j.assign key asUInt64 0 = .ok n) : n < 2 ^ 64 := by
  rcases assign_eq_ok h with rfl | ⟨j', hj'⟩
  · decide
  · exact asUInt64_range hj'

end

end Json

inductive StoredFile
  | missing
  | unparsable
  | json (root : Json)

end SimpleSftpd.Cxx
