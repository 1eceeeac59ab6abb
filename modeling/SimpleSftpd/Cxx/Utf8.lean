import Mathlib.Data.List.Basic
import SimpleSftpd.Cxx.Strings

namespace SimpleSftpd.Cxx

/-! Which texts are UTF-8. A lead byte says how many bytes continue it; some lead bytes narrow the first of
them. -/

def Ascii (s : Str) : Prop := ∀ c ∈ s, c < 0x80

instance (s : Str) : Decidable (Ascii s) := List.decidableBAll (fun c : Byte => c < 0x80) s

@[simp] lemma ascii_append {s t : Str} : Ascii (s ++ t) ↔ Ascii s ∧ Ascii t := List.forall_mem_append

inductive Utf8
  | lead
  | one | two | three
  | afterE0 | afterED | afterF0 | afterF4
  deriving DecidableEq

namespace Utf8

def ofLead (c : Byte) : Option Utf8 :=
  if c < 0x80 then some lead
  else if c < 0xC2 then none
  else if c < 0xE0 then some one
  else if c = 0xE0 then some afterE0
  else if c = 0xED then some afterED
  else if c < 0xF0 then some two
  else if c = 0xF0 then some afterF0
  else if c < 0xF4 then some three
  else if c = 0xF4 then some afterF4
  else none

def continued (low high : Byte) (q : Utf8) (c : Byte) : Option Utf8 := if low ≤ c ∧ c ≤ high then some q else none

def next : Utf8 → Byte → Option Utf8
  | lead => ofLead
  | one => continued 0x80 0xBF lead
  | two => continued 0x80 0xBF one
  | three => continued 0x80 0xBF two
  | afterE0 => continued 0xA0 0xBF one
  | afterED => continued 0x80 0x9F one
  | afterF0 => continued 0x90 0xBF two
  | afterF4 => continued 0x80 0x8F two

def read (q : Utf8) (s : Str) : Option Utf8 := s.foldlM next q

lemma read_append (q : Utf8) (s t : Str) : q.read (s ++ t) = (q.read s).bind (·.read t) := List.foldlM_append

lemma next_ascii {c : Byte} (hc : c < 0x80) (q : Utf8) : q.next c = if q = lead then some lead else none := by
  have hlow {low high : Byte} (hlow : 0x80 ≤ low) (q : Utf8) : continued low high q c = none := by
    unfold continued
    rw [if_neg]
    exact fun h => UInt8.not_lt.2 h.1 (UInt8.lt_of_lt_of_le hc hlow)
  cases q with
  | lead => exact if_pos hc
  | _ => exact hlow (by decide) _

lemma read_ascii {s : Str} (hs : Ascii s) (hne : s ≠ []) (q : Utf8) :
    q.read s = if q = lead then some lead else none := by
  induction s generalizing q with
  | nil => exact absurd rfl hne
  | cons c s ih =>
    obtain ⟨hc, hs⟩ := List.forall_mem_cons.1 hs
    have hread : q.read (c :: s) = (q.next c).bind (·.read s) := rfl
    rw [hread, next_ascii hc]
    split
    · rcases eq_or_ne s [] with rfl | hs'
      · rfl
      · exact ih hs hs' lead
    · rfl

end Utf8

def IsUtf8 (s : Str) : Prop := Utf8.lead.read s = some .lead

instance (s : Str) : Decidable (IsUtf8 s) := inferInstanceAs (Decidable (_ = _))

lemma Utf8.read_flatMap {f : Byte → Str} (hf : ∀ c, f c = [c] ∨ c < 0x80 ∧ f c ≠ [] ∧ Ascii (f c))
    (s : Str) (q : Utf8) :
    q.read (s.flatMap f) = q.read s := by
  induction s generalizing q with
  | nil => rfl
  | cons c s ih =>
    have hread : q.read (c :: s) = (q.next c).bind (·.read s) := rfl
    have hone : q.read (f c) = q.next c := by
      rcases hf c with hsame | ⟨hc, hne, hascii⟩
      · rw [hsame]
        cases hnext : q.next c <;> simp [read, hnext]
      · rw [read_ascii hascii hne, next_ascii hc]
    rw [List.flatMap_cons, read_append, hone, hread]
    exact congrArg (q.next c).bind (funext fun q' => ih q')

lemma isUtf8_between {before after : Str} (hbefore : Ascii before) (hafter : Ascii after)
    (hne : before ≠ [] ∧ after ≠ []) (s : Str) : IsUtf8 (before ++ (s ++ after)) ↔ IsUtf8 s := by
  unfold IsUtf8
  rw [Utf8.read_append, Utf8.read_ascii hbefore hne.1, if_pos rfl, Option.bind_some, Utf8.read_append]
  cases hs : Utf8.lead.read s with
  | none => simp
  | some q =>
    rw [Option.bind_some, Utf8.read_ascii hafter hne.2]
    cases q <;> simp

end SimpleSftpd.Cxx
