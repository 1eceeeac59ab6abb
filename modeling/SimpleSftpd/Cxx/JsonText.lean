import Mathlib.Tactic.IntervalCases
import SimpleSftpd.Cxx.Strings

namespace SimpleSftpd.Cxx.JsonText

def hexValue (c : Byte) : Option ℕ :=
  if (48 : Byte) ≤ c ∧ c ≤ 57 then some (c.toNat - 48)
  else if (97 : Byte) ≤ c ∧ c ≤ 102 then some (c.toNat - 87)
  else if (65 : Byte) ≤ c ∧ c ≤ 70 then some (c.toNat - 55)
  else none

def codeUnit (digits : Str) : Option ℕ := digits.foldlM (fun u c => (hexValue c).map (16 * u + ·)) 0

def named (c : Byte) : Option Byte :=
  [((34 : Byte), (34 : Byte)), (92, 92), (47, 47), (98, 8), (102, 12), (110, 10), (114, 13), (116, 9)].lookup c

/-- What one character of the text stands for: a byte of the string, or a code unit of UTF-16. -/
inductive Piece
  | byte (c : Byte)
  | unit (u : ℕ)
  deriving DecidableEq

def push (p : Piece) (read : List Piece × Str) : List Piece × Str := (p :: read.1, read.2)

def readPieces : Str → Option (List Piece × Str)
  | [] => none
  | c :: s =>
    if c = 34 then some ([], s)
    else if c < 32 then none
    else if c ≠ 92 then (readPieces s).map (push (.byte c))
    else match s with
      | [] => none
      | e :: s =>
        if e ≠ 117 then (named e).bind fun b => (readPieces s).map (push (.byte b))
        else match s with
          | d₀ :: d₁ :: d₂ :: d₃ :: s =>
            (codeUnit [d₀, d₁, d₂, d₃]).bind fun u => (readPieces s).map (push (.unit u))
          | _ => none

def utf8 (n : ℕ) : Str := String.utf8EncodeChar (Char.ofNat n)

def isHigh (u : ℕ) : Bool := 0xD800 ≤ u && u < 0xDC00
def isLow (u : ℕ) : Bool := 0xDC00 ≤ u && u < 0xE000

def assemble : List Piece → Option Str
  | [] => some []
  | .byte c :: ps => (assemble ps).map (c :: ·)
  | .unit u :: ps =>
    if isLow u then none
    else if isHigh u then
      match ps with
      | .unit v :: ps =>
        if isLow v then (assemble ps).map (utf8 (0x10000 + (u - 0xD800) * 0x400 + (v - 0xDC00)) ++ ·) else none
      | _ => none
    else (assemble ps).map (utf8 u ++ ·)

def readString (s : Str) : Option (Str × Str) :=
  (readPieces s).bind fun read => (assemble read.1).map fun value => (value, read.2)

def expect (c : Byte) : Str → Option Str
  | [] => none
  | x :: s => if x = c then some s else none

def readMember (s : Str) : Option ((Str × Str) × Str) := do
  let (name, s) ← readString (← expect 34 s)
  let (value, s) ← readString (← expect 34 (← expect 58 s))
  return ((name, value), s)

def readMembers : ℕ → Str → Option (List (Str × Str))
  | 0, _ => none
  | fuel + 1, s => do
    let (member, s) ← readMember s
    if s = [125] then return [member]
    return member :: (← readMembers fuel (← expect 44 s))

def readObject (s : Str) : Option (List (Str × Str)) := do
  let members ← expect 123 s
  if members = [125] then return []
  readMembers members.length members

def hasBareQuote : Str → Bool
  | [] => false
  | c :: s =>
    if c = 34 then true
    else if c ≠ 92 then hasBareQuote s
    else match s with
      | [] => false
      | _ :: s => hasBareQuote s

structure Spells (t : Str) (c : Byte) : Prop where
  reads : ∃ p, (∀ rest, readPieces (t ++ rest) = (readPieces rest).map (push p)) ∧
    ∀ ps, assemble (p :: ps) = (assemble ps).map (c :: ·)
  escaped : ∀ rest, hasBareQuote (t ++ rest) = hasBareQuote rest
  printable : ∀ x ∈ t, 32 ≤ x

structure Plain (c : Byte) : Prop where
  printable : 32 ≤ c
  quote : c ≠ 34
  backslash : c ≠ 92

def PlainText (s : Str) : Prop := ∀ c ∈ s, Plain c

instance (c : Byte) : Decidable (Plain c) :=
  decidable_of_iff (32 ≤ c ∧ c ≠ 34 ∧ c ≠ 92) ⟨fun h => ⟨h.1, h.2.1, h.2.2⟩,
    fun h => ⟨h.printable, h.quote, h.backslash⟩⟩

instance (s : Str) : Decidable (PlainText s) := List.decidableBAll (fun c : Byte => Plain c) s

@[simp] lemma plainText_append {s t : Str} : PlainText (s ++ t) ↔ PlainText s ∧ PlainText t :=
  List.forall_mem_append

lemma readPieces_quote (s : Str) : readPieces (34 :: s) = some ([], s) := by
  rw [readPieces.eq_def]
  exact if_pos rfl

lemma readPieces_plain {c : Byte} (h : Plain c) (s : Str) :
    readPieces (c :: s) = (readPieces s).map (push (.byte c)) := by
  rw [readPieces.eq_def]
  simp only [if_neg h.quote, if_neg (UInt8.not_lt.2 h.printable), if_pos h.backslash]

lemma readPieces_named {e : Byte} (h : e ≠ 117) (s : Str) :
    readPieces (92 :: e :: s) = (named e).bind fun c => (readPieces s).map (push (.byte c)) := by
  rw [readPieces.eq_def]
  exact if_pos h

lemma readPieces_unit (d₀ d₁ d₂ d₃ : Byte) (s : Str) :
    readPieces (92 :: 117 :: d₀ :: d₁ :: d₂ :: d₃ :: s) =
      (codeUnit [d₀, d₁, d₂, d₃]).bind fun u => (readPieces s).map (push (.unit u)) := by
  rw [readPieces.eq_def]
  rfl

lemma hasBareQuote_plain {c : Byte} (h : Plain c) (s : Str) : hasBareQuote (c :: s) = hasBareQuote s := by
  rw [hasBareQuote.eq_def]
  simp only [if_neg h.quote, if_pos h.backslash]

lemma hasBareQuote_escape (e : Byte) (s : Str) : hasBareQuote (92 :: e :: s) = hasBareQuote s := by
  rw [hasBareQuote.eq_def]
  rfl

lemma Plain.spells {c : Byte} (h : Plain c) : Spells [c] c where
  reads := ⟨.byte c, readPieces_plain h, fun _ => rfl⟩
  escaped := hasBareQuote_plain h
  printable _ hx := List.mem_singleton.1 hx ▸ h.printable

lemma named_range {e c : Byte} (h : named e = some c) : 32 ≤ e ∧ e ≠ 117 := by
  obtain ⟨before, after, htable, _⟩ := List.lookup_eq_some_iff.1 h
  have hmem : (e, c) ∈ before ++ (e, c) :: after := List.mem_append_right _ List.mem_cons_self
  rw [← htable] at hmem
  simp only [List.mem_cons, Prod.mk.injEq, List.not_mem_nil, or_false] at hmem
  rcases hmem with h | h | h | h | h | h | h | h <;> rw [h.1] <;> decide

lemma spells_named {e c : Byte} (h : named e = some c) : Spells [92, e] c where
  reads := by
    refine ⟨.byte c, fun rest => ?_, fun ps => rfl⟩
    rw [List.cons_append, List.singleton_append, readPieces_named (named_range h).2, h, Option.bind_some]
  escaped := hasBareQuote_escape e
  printable x hx := by
    rcases List.mem_pair.1 hx with rfl | rfl
    · decide
    · exact (named_range h).1

lemma hexValue_plain {d : Byte} (h : (hexValue d).isSome = true) : Plain d := by
  have hrange : 48 ≤ d.toNat ∧ d.toNat ≠ 92 := by
    unfold hexValue at h
    split at h
    · rename_i hd
      have hlow : 48 ≤ d.toNat := UInt8.le_iff_toNat_le.1 hd.1
      have hhigh : d.toNat ≤ 57 := UInt8.le_iff_toNat_le.1 hd.2
      omega
    · split at h
      · rename_i hd
        have hlow : 97 ≤ d.toNat := UInt8.le_iff_toNat_le.1 hd.1
        omega
      · split at h
        · rename_i hd
          have hlow : 65 ≤ d.toNat := UInt8.le_iff_toNat_le.1 hd.1
          have hhigh : d.toNat ≤ 70 := UInt8.le_iff_toNat_le.1 hd.2
          omega
        · cases h
  refine ⟨UInt8.le_iff_toNat_le.2 (le_trans (by decide) hrange.1), ?_, ?_⟩
  · rintro rfl
    exact absurd hrange.1 (by decide)
  · rintro rfl
    exact hrange.2 rfl

lemma codeUnit_plain {digits : Str} {u v : ℕ}
    (h : digits.foldlM (fun u c => (hexValue c).map (16 * u + ·)) v = some u) :
    PlainText digits := by
  induction digits generalizing v with
  | nil => exact List.forall_mem_nil _
  | cons d digits ih =>
    obtain ⟨w, hw, hrest⟩ := Option.bind_eq_some_iff.1 h
    obtain ⟨_, hvalue, _⟩ := Option.map_eq_some_iff.1 hw
    have hd : (hexValue d).isSome = true := Option.isSome_of_eq_some hvalue
    exact List.forall_mem_cons.2 ⟨hexValue_plain hd, ih hrest⟩

lemma utf8_of_lt {u : ℕ} (hu : u < 128) : utf8 u = [UInt8.ofNat u] := by
  have hval : (Char.ofNat u).val.toNat = u := by
    rw [Char.ofNat, dif_pos (Or.inl (by omega))]
    rfl
  simp only [utf8, String.utf8EncodeChar, hval]
  exact if_pos (by omega)

lemma spells_unit {d₀ d₁ d₂ d₃ : Byte} {u : ℕ} (h : codeUnit [d₀, d₁, d₂, d₃] = some u) (hu : u < 128) :
    Spells [92, 117, d₀, d₁, d₂, d₃] (UInt8.ofNat u) where
  reads := by
    refine ⟨.unit u, fun rest => ?_, fun ps => ?_⟩
    · change readPieces (92 :: 117 :: d₀ :: d₁ :: d₂ :: d₃ :: rest) = _
      rw [readPieces_unit, h, Option.bind_some]
    · have hlow : isLow u = false := by simp [isLow]; omega
      have hhigh : isHigh u = false := by simp [isHigh]; omega
      rw [assemble.eq_def]
      simp only [hlow, hhigh, utf8_of_lt hu]
      rfl
  escaped rest := by
    obtain ⟨h₀, hplain⟩ := List.forall_mem_cons.1 (codeUnit_plain h)
    simp only [List.forall_mem_cons] at hplain
    obtain ⟨h₁, h₂, h₃, _⟩ := hplain
    change hasBareQuote (92 :: 117 :: d₀ :: d₁ :: d₂ :: d₃ :: rest) = _
    rw [hasBareQuote_escape, hasBareQuote_plain h₀, hasBareQuote_plain h₁, hasBareQuote_plain h₂,
      hasBareQuote_plain h₃]
  printable x hx := by
    simp only [List.mem_cons] at hx
    rcases hx with rfl | rfl | hx
    · decide
    · decide
    · exact (codeUnit_plain h x (by simpa using hx)).printable

def IsText (t s : Str) : Prop := ∀ rest, readString (t ++ 34 :: rest) = some (s, rest)

section Strings

variable {escape : Byte → Str} {s : Str}

lemma readPieces_flatMap (h : ∀ c ∈ s, Spells (escape c) c) :
    ∃ ps, assemble ps = some s ∧ ∀ rest, readPieces (s.flatMap escape ++ 34 :: rest) = some (ps, rest) := by
  induction s with
  | nil => exact ⟨[], rfl, readPieces_quote⟩
  | cons c s ih =>
    obtain ⟨⟨p, hread, hvalue⟩, _, _⟩ := h c List.mem_cons_self
    obtain ⟨ps, hps, hrest⟩ := ih fun x hx => h x (List.mem_cons_of_mem _ hx)
    refine ⟨p :: ps, by rw [hvalue, hps, Option.map_some], fun rest => ?_⟩
    rw [List.flatMap_cons, List.append_assoc, hread, hrest, Option.map_some, push]

lemma isText_flatMap (h : ∀ c ∈ s, Spells (escape c) c) : IsText (s.flatMap escape) s := by
  intro rest
  obtain ⟨ps, hps, hread⟩ := readPieces_flatMap h
  rw [readString, hread, Option.bind_some, hps, Option.map_some]

lemma PlainText.isText (h : PlainText s) : IsText s s := by
  have hread := isText_flatMap fun c hc => (h c hc).spells
  rwa [List.flatMap_singleton'] at hread

lemma PlainText.printable (h : PlainText s) : ∀ c ∈ s, 32 ≤ c := fun c hc => (h c hc).printable

lemma hasBareQuote_flatMap (h : ∀ c ∈ s, Spells (escape c) c) : hasBareQuote (s.flatMap escape) = false := by
  induction s with
  | nil => rfl
  | cons c s ih =>
    rw [List.flatMap_cons, (h c List.mem_cons_self).escaped]
    exact ih fun x hx => h x (List.mem_cons_of_mem _ hx)

lemma printable_flatMap (h : ∀ c ∈ s, Spells (escape c) c) : ∀ x ∈ s.flatMap escape, 32 ≤ x := by
  intro x hx
  obtain ⟨c, hc, hx⟩ := List.mem_flatMap.1 hx
  exact (h c hc).printable x hx

end Strings

def memberText (texts : Str × Str) : Str := 34 :: (texts.1 ++ 34 :: 58 :: 34 :: (texts.2 ++ [34]))

def objectText (members : List (Str × Str)) : Str :=
  123 :: (List.intercalate [44] (members.map memberText) ++ [125])

section Objects

variable {texts member : Str × Str} {members : List (Str × Str)}

lemma readMember_memberText (hname : IsText texts.1 member.1) (hvalue : IsText texts.2 member.2) (rest : Str) :
    readMember (memberText texts ++ rest) = some (member, rest) := by
  have htext : memberText texts ++ rest = 34 :: (texts.1 ++ 34 :: 58 :: 34 :: (texts.2 ++ 34 :: rest)) := by
    simp [memberText]
  rw [htext, readMember]
  simp only [expect, if_pos, Option.bind_eq_bind, Option.bind_some]
  rw [hname, Option.bind_some]
  simp only [if_pos, Option.bind_some]
  rw [hvalue]
  rfl

lemma readMembers_objectText {texts : List (Str × Str)}
    (h : List.Forall₂ (fun t m => IsText t.1 m.1 ∧ IsText t.2 m.2) texts members) (hmembers : members ≠ [])
    {fuel : ℕ} (hfuel : members.length ≤ fuel) :
    readMembers fuel (List.intercalate [44] (texts.map memberText) ++ [125]) = some members := by
  induction h generalizing fuel with
  | nil => exact absurd rfl hmembers
  | @cons t m ts ms htext hrest ih =>
    obtain ⟨fuel, rfl⟩ : ∃ n, fuel = n + 1 := ⟨fuel - 1, by simp at hfuel; omega⟩
    cases hrest with
    | nil =>
      rw [List.map_singleton, List.intercalate_singleton, readMembers, readMember_memberText htext.1 htext.2]
      rfl
    | @cons t' m' ts ms htext' hrest =>
      have hmore := ih (List.cons_ne_nil _ _) (Nat.le_of_succ_le_succ hfuel)
      rw [List.map_cons, List.map_cons, List.intercalate_cons_cons, ← List.map_cons, List.append_assoc,
        List.append_assoc,
        readMembers, readMember_memberText htext.1 htext.2]
      simp only [Option.bind_eq_bind, Option.bind_some, List.singleton_append, expect, if_pos]
      rw [if_neg (by simp), hmore]
      rfl

lemma length_le_length_intercalate (texts : List (Str × Str)) :
    texts.length ≤ (List.intercalate [44] (texts.map memberText)).length := by
  induction texts with
  | nil => exact Nat.le_refl 0
  | cons t ts ih =>
    cases ts with
    | nil => simp [memberText]
    | cons t' ts =>
      simp only [List.map_cons, List.intercalate_cons_cons, List.length_append, List.length_cons] at ih ⊢
      simp only [List.length_nil]
      omega

lemma readObject_objectText {texts : List (Str × Str)}
    (h : List.Forall₂ (fun t m => IsText t.1 m.1 ∧ IsText t.2 m.2) texts members) :
    readObject (objectText texts) = some members := by
  cases members with
  | nil =>
    rw [List.forall₂_nil_right_iff.1 h]
    rfl
  | cons m ms =>
    have hlength := h.length_eq.symm.trans_le (length_le_length_intercalate texts)
    have htext : (List.intercalate [44] (texts.map memberText) ++ [125]).length =
        (List.intercalate [44] (texts.map memberText)).length + 1 := by
      rw [List.length_append, List.length_singleton]
    have hread :=
      readMembers_objectText h (List.cons_ne_nil _ _) ((hlength.trans (Nat.le_succ _)).trans_eq htext.symm)
    have hopen : List.intercalate [44] (texts.map memberText) ++ [125] ≠ [125] := by
      intro hempty
      rw [hempty] at htext
      simp only [List.length_cons, List.length_nil] at htext hlength
      omega
    rw [objectText, readObject, expect, if_pos rfl]
    change (if _ then _ else _) = _
    rw [if_neg hopen, hread]

lemma printable_objectText {texts : List (Str × Str)} (h : ∀ t ∈ texts, (∀ c ∈ t.1, 32 ≤ c) ∧ ∀ c ∈ t.2, 32 ≤ c) :
    ∀ c ∈ objectText texts, 32 ≤ c := by
  have hmember : ∀ t ∈ texts, ∀ c ∈ memberText t, 32 ≤ c := by
    intro t ht
    simp only [memberText, List.forall_mem_cons, List.forall_mem_append]
    exact ⟨by decide, (h t ht).1, by decide, by decide, by decide, (h t ht).2, by decide, List.forall_mem_nil _⟩
  have hmembers : ∀ c ∈ List.intercalate [44] (texts.map memberText), 32 ≤ c := by
    clear h
    induction texts with
    | nil => exact List.forall_mem_nil _
    | cons t ts ih =>
      have hrest := ih fun u hu => hmember u (List.mem_cons_of_mem _ hu)
      cases ts with
      | nil =>
        rw [List.map_singleton, List.intercalate_singleton]
        exact hmember t List.mem_cons_self
      | cons u ts =>
        rw [List.map_cons, List.map_cons, List.intercalate_cons_cons, ← List.map_cons, List.forall_mem_append,
          List.forall_mem_append]
        exact ⟨⟨hmember t List.mem_cons_self, by simp⟩, hrest⟩
  simp only [objectText, List.forall_mem_cons, List.forall_mem_append]
  exact ⟨by decide, hmembers, by decide, List.forall_mem_nil _⟩

end Objects

end SimpleSftpd.Cxx.JsonText
