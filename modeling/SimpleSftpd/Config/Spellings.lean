import Mathlib.Data.List.Nodup
import SimpleSftpd.Config.Loaders
import SimpleSftpd.Cxx.Fields

namespace SimpleSftpd

open Cxx

/-- The values that a key can be given in all formats: a text file has no way to write a comment sign
or the end of a line, and a number is one of its C++ type. -/
def ValueKind.Valid : (k : ValueKind) → k.type → Prop
  | .text, v => 10 ∉ v ∧ 35 ∉ v
  | .flag, _ => True
  | .number, n => -2 ^ 31 ≤ n ∧ n < 2 ^ 31
  | .size, n => n < 2 ^ 64

def ValueKind.spell (digit : Bool) : (k : ValueKind) → k.type → Str
  | .text, v => "\"" ++ v ++ "\""
  | .flag, b => match digit, b with
    | false, false => "false"
    | false, true => "true"
    | true, false => "0"
    | true, true => "1"
  | .number, n => decimalInt n
  | .size, n => decimal n

def ValueKind.toJson (digit : Bool) : (k : ValueKind) → k.type → Json
  | .text, v => .string v
  | .flag, b => if digit then .int (if b then 1 else 0) else .bool b
  | .number, n => .int n
  | .size, n => .int n

def ValueKind.Fits : (k : ValueKind) → k.type → Prop
  | .size, n => n < 2 ^ 32
  | _, _ => True

structure Entry where
  row : Row
  known : row ∈ iniRows ∨ row ∈ jsonRows ∨ row ∈ yamlRows
  value : row.setting.kind.type
  valid : row.setting.kind.Valid value
  digit : Bool

namespace Entry

variable (e : Entry)

abbrev setting : Setting := e.row.setting

def text : Str := e.setting.kind.spell e.digit e.value

def json : Json := e.setting.kind.toJson e.digit e.value

def valueAs (s : Setting) : s.kind.type :=
  if h : e.setting = s then h ▸ e.value else s.read {}

def IsCommon : Prop := e.row ∈ iniRows ∧ e.row ∈ jsonRows ∧ e.row ∈ yamlRows

instance : DecidablePred IsCommon :=
  fun e => inferInstanceAs (Decidable (e.row ∈ iniRows ∧ e.row ∈ jsonRows ∧ e.row ∈ yamlRows))

end Entry

structure Assignment where
  sections : List (Str × List Entry)
  nonempty : ∀ p ∈ sections, p.2 ≠ []
  placed : ∀ p ∈ sections, ∀ e ∈ p.2, e.row.section_ = p.1
  sections_nodup : (sections.map Prod.fst).Nodup
  keys_nodup : ∀ p ∈ sections, (p.2.map (·.row.key)).Nodup

def document (lines : List Str) : Str := lines.flatMap (· ++ "\n")

def lastFor (entries : List Entry) (s : Setting) : Option Entry := (entries.filter (·.setting = s)).getLast?

def valueFrom (entries : List Entry) (s : Setting) : s.kind.type := match lastFor entries s with
  | some e => e.valueAs s
  | none => s.read {}

namespace Assignment

variable (A : Assignment)

def entries : List Entry := A.sections.flatMap Prod.snd

def iniLines : List Str :=
  A.sections.flatMap fun p => ("[" ++ p.1 ++ "]") :: p.2.map fun e => e.row.key ++ " = " ++ e.text

def toINI : Str := document A.iniLines

def yamlLines : List Str :=
  A.sections.flatMap fun p => (p.1 ++ ":") :: p.2.map fun e => "  " ++ e.row.key ++ ": " ++ e.text

def toYAML : Str := document A.yamlLines

def toJSON : Json := .object (A.sections.map fun p => (p.1, .object (p.2.map fun e => (e.row.key, e.json))))

/-- Every size is one that JSON holds. An entry whose key is not known to all loaders comes before another
that sets the same field, or has the value that the field has without it. -/
def Harmless : Prop := (∀ e ∈ A.entries, e.setting.kind.Fits e.value) ∧
  ∀ before e after, A.entries = before ++ e :: after → e.IsCommon ∨ (∃ e' ∈ after, e'.setting = e.setting) ∨
    e.value = valueFrom before e.setting

end Assignment

namespace Setting

lemma read_store_self (s : Setting) (c : FTPServerConfig) (v : s.kind.type) : s.read (s.store c v) = v := by
  cases s <;> rfl

lemma read_store_ne {s s' : Setting} (h : s ≠ s') (c : FTPServerConfig) (v : s.kind.type) :
    s'.read (s.store c v) = s'.read c := by
  cases s <;> cases s' <;> first | rfl | exact absurd rfl h

lemma exists_ne (s : Setting) (x : s.kind.type) : ∃ c : FTPServerConfig, s.read c ≠ x := by
  have hother : ∀ (k : ValueKind) (x : k.type), ∃ y : k.type, y ≠ x
    | .text, x => ⟨0 :: x, List.cons_ne_self 0 x⟩
    | .flag, x => ⟨!x, by cases x <;> decide⟩
    | .number, x => ⟨Int.add x 1, (lt_add_one (x : Int)).ne'⟩
    | .size, x => ⟨x + 1, Nat.succ_ne_self x⟩
  obtain ⟨y, hy⟩ := hother s.kind x
  exact ⟨s.store {} y, by rwa [Setting.read_store_self]⟩

end Setting

def IsWord (s : Str) : Prop := s ≠ [] ∧ ∀ c ∈ s, c = 95 ∨ 97 ≤ c ∧ c ≤ 122

instance (s : Str) : Decidable (IsWord s) :=
  @instDecidableAnd _ _ _ (List.decidableBAll (fun c : Byte => c = 95 ∨ 97 ≤ c ∧ c ≤ 122) s)

def knownRows : List Row := iniRows ++ jsonRows ++ yamlRows

lemma knownRows_words : ∀ r ∈ knownRows, IsWord r.section_ ∧ IsWord r.key := by decide +kernel

lemma findSetting_known : ∀ r ∈ knownRows,
    findSetting iniRows r.section_ r.key = (if r ∈ iniRows then some r.setting else none) ∧
      findSetting yamlRows r.section_ r.key = (if r ∈ yamlRows then some r.setting else none) := by decide +kernel

lemma Entry.mem_knownRows (e : Entry) : e.row ∈ knownRows := by
  have hknown := e.known
  simp only [knownRows, List.mem_append]
  tauto

section Lines

variable {s t line : Str} {lines : List Str}

lemma IsWord.not_mem (h : IsWord s) {c : Byte} (hc : c < 95) : c ∉ s := by
  intro hmem
  rcases h.2 c hmem with rfl | ⟨hlow, _⟩
  · exact absurd hc (by decide)
  · have hc : c.toNat < 95 := UInt8.lt_iff_toNat_lt.1 hc
    have hlow : 97 ≤ c.toNat := UInt8.le_iff_toNat_le.1 hlow
    omega

lemma tokens_document (h : ∀ line ∈ lines, 10 ∉ line) : tokens '\n' (document lines) = lines := tokens_lines h

lemma takeWhile_ne_self {c : Byte} (h : c ∉ s) : s.takeWhile (· ≠ c) = s := by
  induction s with
  | nil => rfl
  | cons x s ih =>
    simp only [List.mem_cons, not_or] at h
    rw [List.takeWhile_cons_of_pos (by simpa using Ne.symm h.1), ih h.2]

lemma isBlank_of_word (h : IsWord s) : ∀ c ∈ s, isBlank c = false := by
  intro c hc
  have hspace : c ≠ 32 := fun he => h.not_mem (by decide) (he ▸ hc)
  have htab : c ≠ 9 := fun he => h.not_mem (by decide) (he ▸ hc)
  simp [isBlank, hspace, htab]

structure IsSpelled (t : Str) : Prop where
  nonempty : t ≠ []
  comment : 35 ∉ t
  line : 10 ∉ t
  first : ∀ c ∈ t.head?, isBlank c = false
  last : ∀ c ∈ t.getLast?, isBlank c = false ∧ c ≠ 58

lemma IsSpelled.trim_padded (h : IsSpelled t) : trim (32 :: t) = t := by
  unfold trim trimLeft
  rw [List.dropWhile_cons_of_pos rfl]
  rw [show t.dropWhile isBlank = t from trimLeft_self h.first, trimRight_self fun c hc => (h.last c hc).1]

lemma IsWord.trim_padded (h : IsWord s) : trim (s ++ [32]) = s := by
  have hfirst : ∀ c ∈ (s ++ [32]).head?, isBlank c = false := by
    obtain ⟨c, rest, rfl⟩ := List.exists_cons_of_ne_nil h.1
    intro c' hc'
    obtain rfl : c = c' := Option.some.inj hc'
    exact isBlank_of_word h c List.mem_cons_self
  have hlast : ∀ c ∈ s.getLast?, isBlank c = false := fun c hc => isBlank_of_word h c (List.mem_of_getLast? hc)
  unfold trim
  rw [trimLeft_self hfirst]
  unfold trimRight
  rw [List.reverse_append, List.reverse_singleton, List.singleton_append, List.dropWhile_cons_of_pos rfl]
  exact trimRight_self hlast

lemma trim_self (hfirst : ∀ c ∈ s.head?, isBlank c = false) (hlast : ∀ c ∈ s.getLast?, isBlank c = false) :
    trim s = s := by
  unfold trim
  rw [trimLeft_self hfirst, trimRight_self hlast]

variable {r : Reading}

lemma iniLine_section (hs : IsWord s) (r : Reading) :
    FTPServerConfig.iniLine r ("[" ++ s ++ "]") = some { r with current_section := s } := by
  have hcomment : (35 : Byte) ∉ ascii "[" ++ s ++ ascii "]" := by
    simp only [List.mem_append, not_or]
    exact ⟨⟨by decide, hs.not_mem (by decide)⟩, by decide⟩
  have htrim : trim (ascii "[" ++ s ++ ascii "]") = ascii "[" ++ s ++ ascii "]" := by
    apply trim_self
    · intro c hc
      obtain rfl : (91 : Byte) = c := Option.some.inj hc
      rfl
    · intro c hc
      rw [List.getLast?_append] at hc
      obtain rfl : (93 : Byte) = c := Option.some.inj hc
      rfl
  unfold FTPServerConfig.iniLine
  rw [show (('#' : Char) : Byte) = 35 from rfl, takeWhile_ne_self hcomment, htrim]
  have hends : (ascii "[" ++ s ++ ascii "]").head? = some (('[' : Char) : Byte) ∧
      (ascii "[" ++ s ++ ascii "]").getLast? = some ((']' : Char) : Byte) := by
    refine ⟨rfl, ?_⟩
    rw [List.getLast?_append]
    rfl
  have hname : (ascii "[" ++ s ++ ascii "]").tail.dropLast = s := by
    change (s ++ [93]).dropLast = s
    exact List.dropLast_concat
  dsimp only
  rw [if_neg (by simp [ascii])]
  refine (if_pos hends).trans ?_
  rw [hname]

lemma yamlLine_section (hs : IsWord s) (r : Reading) :
    FTPServerConfig.yamlLine r (s ++ ":") = some { r with current_section := s } := by
  have hcomment : (35 : Byte) ∉ s ++ ascii ":" := by
    simp only [List.mem_append, not_or]
    exact ⟨hs.not_mem (by decide), by decide⟩
  have hfirst : ∀ c ∈ (s ++ ascii ":").head?, isBlank c = false := by
    obtain ⟨c, rest, rfl⟩ := List.exists_cons_of_ne_nil hs.1
    intro c' hc'
    obtain rfl : c = c' := Option.some.inj hc'
    exact isBlank_of_word hs c List.mem_cons_self
  have hblanks := isBlank_of_word hs
  have htrim : trim s = s := trim_self (fun c hc => hblanks c (List.mem_of_mem_head? hc))
    fun c hc => hblanks c (List.mem_of_getLast? hc)
  have hend : (s ++ ascii ":").getLast? = some ((':' : Char) : Byte) := by
    rw [List.getLast?_append]
    rfl
  have hname : (s ++ ascii ":").dropLast = s := List.dropLast_concat
  unfold FTPServerConfig.yamlLine
  rw [show (('#' : Char) : Byte) = 35 from rfl, takeWhile_ne_self hcomment, trimLeft_self hfirst]
  dsimp only
  rw [if_neg (by simp [ascii])]
  refine (if_pos hend).trans ?_
  rw [hname, htrim]

variable {key : Str}

lemma keyLine_spec (middle : Str) (hk : IsWord key) (hm : 35 ∉ middle) (ht : IsSpelled t) :
    35 ∉ key ++ middle ++ t ∧
    (∀ c ∈ (key ++ middle ++ t).head?, isBlank c = false ∧ c ≠ 91) ∧
      (key ++ middle ++ t).getLast? = t.getLast? := by
  refine ⟨?_, fun c' hc' => ?_, ?_⟩
  · simp only [List.mem_append, not_or]
    exact ⟨⟨hk.not_mem (by decide), hm⟩, ht.comment⟩
  · obtain ⟨c, rest, rfl⟩ := List.exists_cons_of_ne_nil hk.1
    obtain rfl : c = c' := Option.some.inj hc'
    refine ⟨isBlank_of_word hk c List.mem_cons_self, ?_⟩
    rintro rfl
    exact hk.not_mem (by decide) List.mem_cons_self
  · rw [List.getLast?_append]
    cases hl : t.getLast? with
    | none => exact absurd (List.getLast?_eq_none_iff.1 hl) ht.nonempty
    | some c => rfl

lemma iniLine_key (hk : IsWord key) (ht : IsSpelled t) (hsec : r.current_section ≠ []) :
    FTPServerConfig.iniLine r (key ++ " = " ++ t) =
      (r.config.setText iniRows r.current_section key (unquote ['"'] t)).map fun c => { r with config := c } := by
  obtain ⟨hcomment, hfirst, hlast⟩ := keyLine_spec " = " hk (by decide) ht
  have htrim : trim (key ++ ascii " = " ++ t) = key ++ ascii " = " ++ t := by
    apply trim_self
    · exact fun c hc => (hfirst c hc).1
    · exact fun c hc => (ht.last c (hlast ▸ hc)).1
  have hcut : cut '=' (key ++ ascii " = " ++ t) = some (key ++ [32], 32 :: t) := by
    have hsplit : key ++ ascii " = " ++ t = (key ++ [32]) ++ (('=' : Char) : Byte) :: (32 :: t) := by
      simp only [List.append_assoc]
      rfl
    rw [hsplit]
    apply cut_append
    simp only [List.mem_append, not_or]
    exact ⟨hk.not_mem (by decide), by decide⟩
  unfold FTPServerConfig.iniLine
  rw [show (('#' : Char) : Byte) = 35 from rfl, takeWhile_ne_self hcomment, htrim]
  dsimp only
  rw [if_neg (by simp [ht.nonempty])]
  refine (if_neg ?_).trans ?_
  · rintro ⟨h, _⟩
    exact (hfirst 91 h).2 rfl
  · rw [hcut]
    dsimp only
    rw [if_neg hsec, hk.trim_padded, ht.trim_padded]

lemma yamlLine_key (hk : IsWord key) (ht : IsSpelled t) :
    FTPServerConfig.yamlLine r ("  " ++ key ++ ": " ++ t) =
      (r.config.setText yamlRows r.current_section key (unquote ['"', '\''] t)).map fun c =>
        { r with config := c } := by
  obtain ⟨hcomment, hfirst, hlast⟩ := keyLine_spec ": " hk (by decide) ht
  have hleft : trimLeft ((ascii "  " ++ key ++ ascii ": " ++ t).takeWhile (· ≠ 35)) = key ++ ascii ": " ++ t := by
    have hindented : (35 : Byte) ∉ ascii "  " ++ (key ++ ascii ": " ++ t) :=
      List.not_mem_append (by decide) hcomment
    rw [List.append_assoc, List.append_assoc, ← List.append_assoc key, takeWhile_ne_self hindented]
    unfold trimLeft
    change List.dropWhile isBlank (32 :: 32 :: (key ++ ascii ": " ++ t)) = _
    rw [List.dropWhile_cons_of_pos rfl, List.dropWhile_cons_of_pos rfl]
    exact trimLeft_self fun c hc => (hfirst c hc).1
  have hcut : cut ':' (key ++ ascii ": " ++ t) = some (key, 32 :: t) := by
    have hsplit : key ++ ascii ": " ++ t = key ++ ((':' : Char) : Byte) :: (32 :: t) := by
      simp only [List.append_assoc]
      rfl
    rw [hsplit]
    exact cut_append (hk.not_mem (by decide)) _
  have hblanks := isBlank_of_word hk
  have htrim : trim key = key := trim_self (fun c hc => hblanks c (List.mem_of_mem_head? hc))
    fun c hc => hblanks c (List.mem_of_getLast? hc)
  unfold FTPServerConfig.yamlLine
  rw [show (('#' : Char) : Byte) = 35 from rfl, hleft]
  dsimp only
  rw [if_neg (by simp [ht.nonempty])]
  refine (if_neg ?_).trans ?_
  · intro h
    exact (ht.last 58 (hlast ▸ h)).2 rfl
  · rw [hcut]
    dsimp only
    rw [htrim, ht.trim_padded]

end Lines

section Values

def IsNumeric (c : Byte) : Prop := (digit 10 c).isSome = true ∨ c = 45

lemma decimalInt_numeric (n : Int) : ∀ c ∈ decimalInt n, IsNumeric c := fun _ => mem_decimalInt

lemma decimalInt_ne_nil (n : Int) : decimalInt n ≠ [] := by
  unfold decimalInt
  split
  · exact List.cons_ne_nil _ _
  · exact decimal_ne_nil _

lemma IsNumeric.ne {c d : Byte} (h : IsNumeric c) (hd : d ≠ 45 ∧ digit 10 d = none) : c ≠ d := by
  rintro rfl
  rcases h with h | h
  · rw [hd.2] at h
    cases h
  · exact hd.1 h

lemma IsNumeric.not_blank {c : Byte} (h : IsNumeric c) : isBlank c = false := by
  have hspace : c ≠ 32 := h.ne ⟨by decide, rfl⟩
  have htab : c ≠ 9 := h.ne ⟨by decide, rfl⟩
  simp [isBlank, hspace, htab]

lemma isSpelled_numeric {t : Str} (hne : t ≠ []) (h : ∀ c ∈ t, IsNumeric c) : IsSpelled t where
  nonempty := hne
  comment hc := (h 35 hc).ne ⟨by decide, rfl⟩ rfl
  line hc := (h 10 hc).ne ⟨by decide, rfl⟩ rfl
  first c hc := (h c (List.mem_of_mem_head? hc)).not_blank
  last c hc := ⟨(h c (List.mem_of_getLast? hc)).not_blank, (h c (List.mem_of_getLast? hc)).ne ⟨by decide, rfl⟩⟩

lemma unquote_of_head {quotes : List Byte} {t : Str} (h : ∀ c ∈ t.head?, c ∉ quotes) : unquote quotes t = t := by
  unfold unquote
  rw [if_neg]
  rintro ⟨_, hany⟩
  obtain ⟨q, hq, hends⟩ := List.any_eq_true.1 hany
  exact h q (of_decide_eq_true hends).1 hq

def IsQuotes (quotes : List Byte) : Prop := 34 ∈ quotes ∧ ∀ q ∈ quotes, q = 34 ∨ q = 39

lemma unquote_numeric {quotes : List Byte} (hq : IsQuotes quotes) {t : Str} (h : ∀ c ∈ t, IsNumeric c) :
    unquote quotes t = t := by
  apply unquote_of_head
  intro c hc hmem
  have hnumeric := h c (List.mem_of_mem_head? hc)
  rcases hq.2 c hmem with hquote | hquote
  · exact hnumeric.ne ⟨by decide, rfl⟩ hquote
  · exact hnumeric.ne ⟨by decide, rfl⟩ hquote

lemma unquote_quoted {quotes : List Byte} (hq : IsQuotes quotes) (v : Str) :
    unquote quotes (ascii "\"" ++ v ++ ascii "\"") = v := by
  have hends : (ascii "\"" ++ v ++ ascii "\"").head? = some 34 ∧
      (ascii "\"" ++ v ++ ascii "\"").getLast? = some 34 := by
    refine ⟨rfl, ?_⟩
    rw [List.getLast?_append]
    rfl
  unfold unquote
  rw [if_pos]
  · change (v ++ [34]).dropLast = v
    exact List.dropLast_concat
  · refine ⟨?_, List.any_eq_true.2 ⟨34, hq.1, decide_eq_true hends⟩⟩
    rw [List.length_append, List.length_append]
    change 2 ≤ 1 + v.length + 1
    omega

lemma spell_spec {k : ValueKind} {v : k.type} (hv : k.Valid v) (digit : Bool) : IsSpelled (k.spell digit v) ∧
    ∀ quotes, IsQuotes quotes → k.ofText (unquote quotes (k.spell digit v)) = some v := by
  cases k with
  | text =>
    constructor
    · constructor
      · exact List.append_ne_nil_of_right_ne_nil _ (by decide)
      · exact List.not_mem_append (List.not_mem_append (by decide) hv.2) (by decide)
      · exact List.not_mem_append (List.not_mem_append (by decide) hv.1) (by decide)
      · intro c hc
        obtain rfl : (34 : Byte) = c := Option.some.inj hc
        rfl
      · intro c hc
        rw [show ValueKind.text.spell digit v = ascii "\"" ++ v ++ ascii "\"" from rfl, List.getLast?_append] at hc
        obtain rfl : (34 : Byte) = c := Option.some.inj hc
        exact ⟨rfl, by decide⟩
    · intro quotes hq
      exact congrArg some (unquote_quoted hq v)
  | flag =>
    have hplain : ∀ quotes, IsQuotes quotes →
        unquote quotes (ValueKind.flag.spell digit v) = ValueKind.flag.spell digit v := by
      intro quotes hq
      apply unquote_of_head
      intro c hc hmem
      have hquote := hq.2 c hmem
      revert hc
      cases digit <;> cases v <;> rintro hc <;> obtain rfl := Option.some.inj hc <;> revert hquote <;> decide
    constructor
    · cases digit <;> cases v <;>
        exact ⟨by decide +kernel, by decide +kernel, by decide +kernel, by decide +kernel, by decide +kernel⟩
    · intro quotes hq
      rw [hplain quotes hq]
      cases digit <;> cases v <;> decide
  | number =>
    refine ⟨isSpelled_numeric (decimalInt_ne_nil v) (decimalInt_numeric v), fun quotes hq => ?_⟩
    exact (congrArg stoi (unquote_numeric hq (decimalInt_numeric v))).trans (stoi_decimalInt hv.1 hv.2)
  | size =>
    have hnumeric : ∀ c ∈ decimal v, IsNumeric c := fun c hc => .inl (decimal_isDigit v c hc)
    refine ⟨isSpelled_numeric (decimal_ne_nil v) hnumeric, fun quotes hq => ?_⟩
    exact (congrArg (fun t => stoull t) (unquote_numeric hq hnumeric)).trans (stoull_decimal hv)

end Values

def Entry.store (rows : List Row) (c : FTPServerConfig) (e : Entry) : FTPServerConfig :=
  if e.row ∈ rows then e.setting.store c e.value else c

section TextFiles

open FTPServerConfig

lemma setText_spell {rows : List Row} {quotes : List Byte} (hq : IsQuotes quotes) (c : FTPServerConfig) (e : Entry)
    (hfind : findSetting rows e.row.section_ e.row.key = if e.row ∈ rows then some e.row.setting else none) :
    c.setText rows e.row.section_ e.row.key (unquote quotes e.text) = some (e.store rows c) := by
  unfold setText Entry.store
  rw [hfind]
  by_cases hmem : e.row ∈ rows
  · rw [if_pos hmem, if_pos hmem]
    exact congrArg (Option.map _) ((spell_spec e.valid e.digit).2 quotes hq)
  · rw [if_neg hmem, if_neg hmem]

lemma iniLine_entry {r : Reading} {e : Entry} (hsec : r.current_section = e.row.section_) :
    iniLine r (e.row.key ++ " = " ++ e.text) = some { r with config := e.store iniRows r.config } := by
  obtain ⟨hsection, hkey⟩ := knownRows_words _ e.mem_knownRows
  have hquotes : IsQuotes [(34 : Byte)] := ⟨List.mem_singleton_self _, by simp⟩
  have hset : r.config.setText iniRows r.current_section e.row.key (unquote [34] e.text) =
      some (e.store iniRows r.config) := by
    rw [hsec]
    exact setText_spell hquotes r.config e (findSetting_known _ e.mem_knownRows).1
  exact (iniLine_key hkey (spell_spec e.valid e.digit).1 (hsec ▸ hsection.1)).trans (congrArg (Option.map _) hset)

lemma yamlLine_entry {r : Reading} {e : Entry} (hsec : r.current_section = e.row.section_) :
    yamlLine r ("  " ++ e.row.key ++ ": " ++ e.text) = some { r with config := e.store yamlRows r.config } := by
  obtain ⟨_, hkey⟩ := knownRows_words _ e.mem_knownRows
  have hquotes : IsQuotes [(34 : Byte), 39] := ⟨List.mem_cons_self, by simp⟩
  have hset : r.config.setText yamlRows r.current_section e.row.key (unquote [34, 39] e.text) =
      some (e.store yamlRows r.config) := by
    rw [hsec]
    exact setText_spell hquotes r.config e (findSetting_known _ e.mem_knownRows).2
  exact (yamlLine_key hkey (spell_spec e.valid e.digit).1).trans (congrArg (Option.map _) hset)

variable {step : Reading → Str → Option Reading} {header : Str → Str} {line : Entry → Str} {rows : List Row}

lemma foldlM_section (hline : ∀ r e, r.current_section = e.row.section_ →
    step r (line e) = some { r with config := e.store rows r.config })
    {name : Str} {es : List Entry} (hplaced : ∀ e ∈ es, e.row.section_ = name) (c : FTPServerConfig) :
    (es.map line).foldlM step ⟨name, c⟩ = some ⟨name, es.foldl (Entry.store rows) c⟩ := by
  induction es generalizing c with
  | nil => rfl
  | cons e es ih =>
    have hfirst : step ⟨name, c⟩ (line e) = some ⟨name, e.store rows c⟩ :=
      hline ⟨name, c⟩ e (hplaced e List.mem_cons_self).symm
    rw [List.map_cons, List.foldlM_cons, hfirst]
    exact ih (fun e' he' => hplaced e' (List.mem_cons_of_mem _ he')) _

lemma foldlM_sections
    (hheader : ∀ r name, IsWord name → step r (header name) = some { r with current_section := name })
    (hline : ∀ r e, r.current_section = e.row.section_ →
      step r (line e) = some { r with config := e.store rows r.config })
    {sections : List (Str × List Entry)} (hnonempty : ∀ p ∈ sections, p.2 ≠ [])
    (hplaced : ∀ p ∈ sections, ∀ e ∈ p.2, e.row.section_ = p.1) (r : Reading) : ∃ last,
    (sections.flatMap fun p => header p.1 :: p.2.map line).foldlM step r =
      some ⟨last, (sections.flatMap Prod.snd).foldl (Entry.store rows) r.config⟩ := by
  induction sections generalizing r with
  | nil => exact ⟨r.current_section, rfl⟩
  | cons p sections ih =>
    have hword : IsWord p.1 := by
      obtain ⟨e, es, he⟩ := List.exists_cons_of_ne_nil (hnonempty p List.mem_cons_self)
      have hmem : e ∈ p.2 := he ▸ List.mem_cons_self
      rw [← hplaced p List.mem_cons_self e hmem]
      exact (knownRows_words _ e.mem_knownRows).1
    have hsection := foldlM_section hline (hplaced p List.mem_cons_self) r.config
    obtain ⟨last, hrest⟩ := ih (fun q hq => hnonempty q (List.mem_cons_of_mem _ hq))
      (fun q hq => hplaced q (List.mem_cons_of_mem _ hq)) ⟨p.1, p.2.foldl (Entry.store rows) r.config⟩
    refine ⟨last, ?_⟩
    rw [List.flatMap_cons, List.flatMap_cons, List.foldl_append, ← hrest, List.foldlM_append,
      List.foldlM_cons, hheader r _ hword]
    exact congrArg (· >>= _) hsection

namespace Assignment

variable (A : Assignment)

lemma text_no_line {e : Entry} : 10 ∉ e.row.key ∧ 10 ∉ e.text :=
  ⟨(knownRows_words _ e.mem_knownRows).2.not_mem (by decide), (spell_spec e.valid e.digit).1.line⟩

lemma section_no_line {p : Str × List Entry} (hp : p ∈ A.sections) : 10 ∉ p.1 := by
  obtain ⟨e, es, he⟩ := List.exists_cons_of_ne_nil (A.nonempty p hp)
  rw [← A.placed p hp e (he ▸ List.mem_cons_self)]
  exact (knownRows_words _ e.mem_knownRows).1.not_mem (by decide)

lemma loadFromINI_toINI : loadFromINI {} A.toINI = some (A.entries.foldl (Entry.store iniRows) {}) := by
  have hlines : ∀ line ∈ A.iniLines, 10 ∉ line := by
    intro line hline
    obtain ⟨p, hp, hline⟩ := List.mem_flatMap.1 hline
    rcases List.mem_cons.1 hline with rfl | hline
    · exact List.not_mem_append (List.not_mem_append (by decide) (A.section_no_line hp)) (by decide)
    · obtain ⟨e, _, rfl⟩ := List.mem_map.1 hline
      exact List.not_mem_append (List.not_mem_append text_no_line.1 (by decide)) text_no_line.2
  obtain ⟨last, hfold⟩ := foldlM_sections (fun r name hname => iniLine_section hname r)
    (fun r e hsec => iniLine_entry hsec)
    A.nonempty A.placed ⟨[], {}⟩
  unfold loadFromINI toINI
  rw [tokens_document hlines]
  exact congrArg (Option.map _) hfold

lemma loadFromYAML_toYAML : loadFromYAML {} A.toYAML = some (A.entries.foldl (Entry.store yamlRows) {}) := by
  have hlines : ∀ line ∈ A.yamlLines, 10 ∉ line := by
    intro line hline
    obtain ⟨p, hp, hline⟩ := List.mem_flatMap.1 hline
    rcases List.mem_cons.1 hline with rfl | hline
    · exact List.not_mem_append (A.section_no_line hp) (by decide)
    · obtain ⟨e, _, rfl⟩ := List.mem_map.1 hline
      exact List.not_mem_append (List.not_mem_append (List.not_mem_append (by decide) text_no_line.1)
        (by decide)) text_no_line.2
  obtain ⟨last, hfold⟩ := foldlM_sections (fun r name hname => yamlLine_section hname r)
    (fun r e hsec => yamlLine_entry hsec)
    A.nonempty A.placed ⟨[], {}⟩
  unfold loadFromYAML toYAML
  rw [tokens_document hlines]
  exact congrArg (Option.map _) hfold

end Assignment

end TextFiles

section Reads

variable {es : List Entry} {e : Entry} {s : Setting}

lemma valueFrom_concat (es : List Entry) (e : Entry) (s : Setting) :
    valueFrom (es ++ [e]) s = if e.setting = s then e.valueAs s else valueFrom es s := by
  unfold valueFrom lastFor
  rw [List.filter_append]
  by_cases he : e.setting = s
  · have hlast : [e].filter (·.setting = s) = [e] := by simp [he]
    rw [hlast, List.getLast?_concat, if_pos he]
  · have hlast : [e].filter (·.setting = s) = [] := by simp [he]
    rw [hlast, List.append_nil, if_neg he]

lemma read_store (c : FTPServerConfig) (e : Entry) (s : Setting) :
    s.read (e.setting.store c e.value) = if e.setting = s then e.valueAs s else s.read c := by
  by_cases he : e.setting = s
  · subst he
    rw [if_pos rfl, Setting.read_store_self, Entry.valueAs, dif_pos rfl]
  · rw [if_neg he, Setting.read_store_ne he]

lemma read_foldl (rows : List Row) (es : List Entry) (s : Setting) :
    s.read (es.foldl (Entry.store rows) {}) = valueFrom (es.filter (·.row ∈ rows)) s := by
  induction es using List.reverseRecOn with
  | nil => rfl
  | append_singleton es e ih =>
    rw [List.foldl_append, List.foldl_cons, List.foldl_nil, List.filter_append]
    unfold Entry.store
    by_cases hmem : e.row ∈ rows
    · have hlast : [e].filter (·.row ∈ rows) = [e] := by simp [hmem]
      rw [if_pos hmem, hlast, valueFrom_concat, read_store, ← ih]
      rfl
    · have hlast : [e].filter (·.row ∈ rows) = [] := by simp [hmem]
      rw [if_neg hmem, hlast, List.append_nil, ← ih]
      rfl

lemma valueFrom_of_unique (he : e ∈ es) (hs : e.setting = s) (h : ∀ e' ∈ es, e'.setting = s → e' = e) :
    valueFrom es s = e.valueAs s := by
  induction es using List.reverseRecOn with
  | nil => cases he
  | append_singleton es e' ih =>
    rw [valueFrom_concat]
    by_cases he' : e'.setting = s
    · rw [if_pos he', h e' (by simp) he']
    · rw [if_neg he']
      have hmem : e ∈ es := by
        rcases List.mem_append.1 he with hmem | hmem
        · exact hmem
        · rw [List.mem_singleton] at hmem
          exact absurd (hmem ▸ hs) he'
      exact ih hmem fun e'' he'' => h e'' (List.mem_append_left _ he'')

lemma valueFrom_of_none (h : ∀ e ∈ es, e.setting ≠ s) : valueFrom es s = s.read {} := by
  have hnone : lastFor es s = none := by
    unfold lastFor
    rw [List.filter_eq_nil_iff.2 fun e he => by simpa using h e he]
    rfl
  unfold valueFrom
  rw [hnone]

lemma valueFrom_congr {es' : List Entry} (hmem : ∀ e, e ∈ es ↔ e ∈ es')
    (h : ∀ e ∈ es, ∀ e' ∈ es, e.setting = e'.setting → e = e') (s : Setting) :
    valueFrom es s = valueFrom es' s := by
  by_cases hs : ∃ e ∈ es, e.setting = s
  · obtain ⟨e, he, hs⟩ := hs
    rw [valueFrom_of_unique he hs fun e' he' hs' => h e' he' e he (hs'.trans hs.symm)]
    exact (valueFrom_of_unique ((hmem e).1 he) hs fun e' he' hs' => h e' ((hmem e').2 he') e he
      (hs'.trans hs.symm)).symm
  · have hnone : ∀ e ∈ es, e.setting ≠ s := fun e he hs' => hs ⟨e, he, hs'⟩
    rw [valueFrom_of_none hnone, valueFrom_of_none fun e he => hnone e ((hmem e).2 he)]

end Reads

section JsonFile

open FTPServerConfig

lemma ofJson_toJson {k : ValueKind} {v : k.type} (hv : k.Valid v) (digit : Bool) :
    (k.Fits v → k.ofJson (k.toJson digit v) = .ok v) ∧
      (¬k.Fits v → ∃ e, k.ofJson (k.toJson digit v) = .error e) := by
  cases k with
  | text => exact ⟨fun _ => rfl, fun h => absurd trivial h⟩
  | flag =>
    refine ⟨fun _ => ?_, fun h => absurd trivial h⟩
    cases digit <;> cases v <;> rfl
  | number => exact ⟨fun _ => Json.asInt_int hv.1 hv.2, fun h => absurd trivial h⟩
  | size => exact ⟨fun h => Json.asUInt_int h, fun h => ⟨_, Json.asUInt_large h⟩⟩

lemma lookup_of_mem {α : Type} {l : List (Str × α)} (h : (l.map Prod.fst).Nodup) {p : Str × α} (hp : p ∈ l) :
    l.lookup p.1 = some p.2 := by
  induction l with
  | nil => cases hp
  | cons q l ih =>
    rw [List.map_cons, List.nodup_cons] at h
    rcases List.mem_cons.1 hp with rfl | hmem
    · exact List.lookup_cons_self
    · have hne : (p.1 == q.1) = false := by
        rw [beq_eq_false_iff_ne]
        exact fun he => h.1 (he ▸ List.mem_map_of_mem hmem)
      rw [List.lookup_cons, hne]
      exact ih h.2 hmem

lemma knownRows_distinct :
    (∀ r ∈ knownRows, ∀ r' ∈ knownRows, r.section_ = r'.section_ → r.key = r'.key → r = r') ∧
    (∀ r ∈ jsonRows, ∀ r' ∈ jsonRows, r.setting = r'.setting → r = r') ∧
    ∀ r ∈ knownRows, r.setting.kind = .size → r ∈ jsonRows := by decide +kernel

namespace Assignment

variable (A : Assignment)

lemma entry_ext {e e' : Entry} (he : e ∈ A.entries) (he' : e' ∈ A.entries) (h : e.row = e'.row) : e = e' := by
  obtain ⟨p, hp, hmem⟩ := List.mem_flatMap.1 he
  obtain ⟨p', hp', hmem'⟩ := List.mem_flatMap.1 he'
  have hname : p.1 = p'.1 := by rw [← A.placed p hp e hmem, ← A.placed p' hp' e' hmem', h]
  obtain rfl : p = p' := List.inj_on_of_nodup_map A.sections_nodup hp hp' hname
  exact List.inj_on_of_nodup_map (A.keys_nodup p hp) hmem hmem' (congrArg Row.key h)

lemma jsonKey_toJSON (c : FTPServerConfig) {r : Row} (hr : r ∈ jsonRows) :
    (∀ e ∈ A.entries, e.row = r →
      jsonKey A.toJSON c r = (e.setting.kind.ofJson e.json >>= fun v => .ok (e.setting.store c v))) ∧
      ((∀ e ∈ A.entries, e.row ≠ r) → jsonKey A.toJSON c r = .ok c) := by
  have hroot : ((A.sections.map fun p => (p.1, Json.object (p.2.map fun e => (e.row.key, e.json)))).map
      Prod.fst).Nodup := by
    rw [List.map_map]
    exact A.sections_nodup
  have hknown : r ∈ knownRows := by
    simp only [knownRows, List.mem_append]
    exact .inl (.inr hr)
  constructor
  · rintro e he rfl
    obtain ⟨p, hp, hmem⟩ := List.mem_flatMap.1 he
    have hsection := lookup_of_mem hroot (List.mem_map_of_mem (f := fun p : Str × List Entry =>
      (p.1, Json.object (p.2.map fun e => (e.row.key, e.json)))) hp)
    have hkeys : ((p.2.map fun e => (e.row.key, e.json)).map Prod.fst).Nodup := by
      rw [List.map_map]
      exact A.keys_nodup p hp
    have hkey := lookup_of_mem hkeys (List.mem_map_of_mem (f := fun e : Entry => (e.row.key, e.json)) hmem)
    unfold jsonKey toJSON
    rw [A.placed p hp e hmem, Json.isMember_object, Json.member_object, hsection]
    simp only [Option.isSome_some, Option.getD_some, bind, Except.bind, if_true, Json.isMember_object,
      Json.member_object, hkey]
    rfl
  · intro hnone
    unfold jsonKey toJSON
    rw [Json.isMember_object, Json.member_object]
    by_cases hs : ∃ p ∈ A.sections, p.1 = r.section_
    · obtain ⟨p, hp, hname⟩ := hs
      have hsection := lookup_of_mem hroot (List.mem_map_of_mem (f := fun p : Str × List Entry =>
        (p.1, Json.object (p.2.map fun e => (e.row.key, e.json)))) hp)
      have hkey : (p.2.map fun e => (e.row.key, e.json)).lookup r.key = none := by
        apply List.lookup_eq_none_iff.2
        intro q hq
        obtain ⟨e, he, rfl⟩ := List.mem_map.1 hq
        rw [bne_iff_ne]
        intro hsame
        have hrow := knownRows_distinct.1 _ e.mem_knownRows r hknown ((A.placed p hp e he).trans hname) hsame.symm
        exact hnone e (List.mem_flatMap.2 ⟨p, hp, he⟩) hrow
      rw [← hname, hsection]
      simp only [Option.isSome_some, Option.getD_some, bind, Except.bind, if_true, Json.isMember_object,
        Json.member_object, hkey]
      rfl
    · have hsection :
          (A.sections.map fun p => (p.1, Json.object (p.2.map fun e => (e.row.key, e.json)))).lookup
          r.section_ = none := by
        apply List.lookup_eq_none_iff.2
        intro q hq
        obtain ⟨p, hp, rfl⟩ := List.mem_map.1 hq
        rw [bne_iff_ne]
        exact fun hsame => hs ⟨p, hp, hsame.symm⟩
      rw [hsection]
      rfl

def entryOf (r : Row) : Option Entry := A.entries.find? (·.row = r)

def jsonEntries : List Entry := jsonRows.filterMap A.entryOf

lemma entryOf_eq_some {r : Row} {e : Entry} : A.entryOf r = some e ↔ e ∈ A.entries ∧ e.row = r := by
  unfold entryOf
  constructor
  · intro h
    exact ⟨List.mem_of_find?_eq_some h, by simpa using List.find?_some h⟩
  · rintro ⟨he, rfl⟩
    cases hf : A.entries.find? (·.row = e.row) with
    | none => exact absurd (List.find?_eq_none.1 hf e he) (by simp)
    | some e' =>
      have hrow : e'.row = e.row := by simpa using List.find?_some hf
      rw [A.entry_ext (List.mem_of_find?_eq_some hf) he hrow]

lemma mem_jsonEntries (e : Entry) : e ∈ A.jsonEntries ↔ e ∈ A.entries.filter (·.row ∈ jsonRows) := by
  unfold jsonEntries
  rw [List.mem_filterMap, List.mem_filter]
  constructor
  · rintro ⟨r, hr, he⟩
    obtain ⟨hmem, rfl⟩ := A.entryOf_eq_some.1 he
    exact ⟨hmem, decide_eq_true hr⟩
  · rintro ⟨he, hr⟩
    exact ⟨e.row, of_decide_eq_true hr, A.entryOf_eq_some.2 ⟨he, rfl⟩⟩

lemma foldlM_jsonKey (hfits : ∀ e ∈ A.entries, e.setting.kind.Fits e.value) {rs : List Row}
    (hrs : ∀ r ∈ rs, r ∈ jsonRows)
    (c : FTPServerConfig) : rs.foldlM (jsonKey A.toJSON) c =
      .ok ((rs.filterMap A.entryOf).foldl (Entry.store jsonRows) c) := by
  induction rs generalizing c with
  | nil => rfl
  | cons r rs ih =>
    have ih' := ih fun r' hr' => hrs r' (List.mem_cons_of_mem _ hr')
    have hr := hrs r List.mem_cons_self
    rw [List.foldlM_cons]
    cases hf : A.entryOf r with
    | none =>
      have hnone : ∀ e ∈ A.entries, e.row ≠ r := fun e he hrow => by
        rw [A.entryOf_eq_some.2 ⟨he, hrow⟩] at hf
        cases hf
      rw [(A.jsonKey_toJSON c hr).2 hnone, List.filterMap_cons_none hf]
      exact ih' c
    | some e =>
      obtain ⟨he, hrow⟩ := A.entryOf_eq_some.1 hf
      have hread := (ofJson_toJson e.valid e.digit).1 (hfits e he)
      have hstored : e.store jsonRows c = e.setting.store c e.value := if_pos (hrow ▸ hr)
      rw [(A.jsonKey_toJSON c hr).1 e he hrow, List.filterMap_cons_some hf, List.foldl_cons, hstored,
        ← ih' (e.setting.store c e.value)]
      exact congrArg (fun x => (x >>= fun v => Except.ok (e.setting.store c v)) >>= _) hread

lemma loadFromJSON_toJSON (hfits : ∀ e ∈ A.entries, e.setting.kind.Fits e.value) :
    loadFromJSON {} A.toJSON = .ok (A.jsonEntries.foldl (Entry.store jsonRows) {}) :=
  A.foldlM_jsonKey hfits (fun _ h => h) {}

lemma fits_of_loaded {c : FTPServerConfig} (h : loadFromJSON {} A.toJSON = .ok c) :
    ∀ e ∈ A.entries, e.setting.kind.Fits e.value := by
  intro e he
  by_contra hfits
  have hsize : e.setting.kind = .size := by
    cases hk : e.setting.kind with
    | size => rfl
    | text | flag | number =>
      exfalso
      apply hfits
      generalize e.value = v
      revert v
      rw [hk]
      exact fun _ => trivial
  have hr : e.row ∈ jsonRows := knownRows_distinct.2.2 _ e.mem_knownRows hsize
  obtain ⟨error, herror⟩ := (ofJson_toJson e.valid e.digit).2 hfits
  have hstep (c : FTPServerConfig) : jsonKey A.toJSON c e.row = .error error := by
    rw [(A.jsonKey_toJSON c hr).1 e he rfl]
    exact congrArg (· >>= fun v => Except.ok (e.setting.store c v)) herror
  obtain ⟨before, after, hsplit⟩ := List.append_of_mem hr
  unfold loadFromJSON at h
  rw [hsplit, List.foldlM_append] at h
  obtain ⟨c', _, h⟩ := Json.bind_eq_ok.1 h
  rw [List.foldlM_cons, hstep] at h
  cases h

end Assignment

end JsonFile

section Agreement

open FTPServerConfig

attribute [ext] ConnectionConfig LoggingConfig SecurityConfig RateLimitConfig TransferConfig FTPServerConfig

lemma ext_read {c c' : FTPServerConfig} (hread : ∀ s : Setting, s.read c = s.read c')
    (huser : c.security.anonymous_user = c'.security.anonymous_user)
    (hpassword : c.security.anonymous_password = c'.security.anonymous_password) : c = c' := by
  apply FTPServerConfig.ext
  · apply ConnectionConfig.ext
    exacts [hread .bind_address, hread .bind_port, hread .max_connections, hread .timeout_seconds,
      hread .passive_mode,
      hread .passive_port_range_start, hread .passive_port_range_end]
  · apply LoggingConfig.ext
    exacts [hread .log_file, hread .log_level, hread .log_format, hread .log_to_console, hread .log_to_file]
  · apply SecurityConfig.ext
    exacts [hread .max_sessions_per_user, hread .require_ssl, hread .ssl_cert_file, hread .ssl_key_file,
      hread .ssl_ca_file,
      hread .require_client_cert, hread .ssl_client_ca_file, hread .allow_anonymous, huser, hpassword,
        hread .chroot_enabled,
      hread .chroot_directory, hread .drop_privileges, hread .run_as_user, hread .run_as_group, hread .enable_pam,
      hread .user_file, hread .virtual_hosts_file]
  · apply RateLimitConfig.ext
    exacts [hread .enabled, hread .max_requests_per_minute, hread .max_connections_per_ip,
      hread .max_transfer_rate,
      hread .max_transfer_rate_per_user]
  · apply TransferConfig.ext
    exacts [hread .use_sendfile, hread .use_mmap, hread .enable_compression, hread .buffer_size]

lemma store_security (s : Setting) (c : FTPServerConfig) (v : s.kind.type) :
    (s.store c v).security.anonymous_user = c.security.anonymous_user ∧
      (s.store c v).security.anonymous_password = c.security.anonymous_password := by
  cases s <;> exact ⟨rfl, rfl⟩

lemma store_anonymous (rows : List Row) (es : List Entry) (c : FTPServerConfig) :
    (es.foldl (Entry.store rows) c).security.anonymous_user = c.security.anonymous_user ∧
      (es.foldl (Entry.store rows) c).security.anonymous_password = c.security.anonymous_password := by
  induction es generalizing c with
  | nil => exact ⟨rfl, rfl⟩
  | cons e es ih =>
    have hstep : (e.store rows c).security.anonymous_user = c.security.anonymous_user ∧
        (e.store rows c).security.anonymous_password = c.security.anonymous_password := by
      unfold Entry.store
      split
      · exact store_security e.setting c e.value
      · exact ⟨rfl, rfl⟩
    exact ⟨(ih _).1.trans hstep.1, (ih _).2.trans hstep.2⟩

lemma foldl_store_eq {rows rows' : List Row} {es es' : List Entry}
    (h : ∀ s, valueFrom (es.filter (·.row ∈ rows)) s = valueFrom (es'.filter (·.row ∈ rows')) s) :
    es.foldl (Entry.store rows) {} = es'.foldl (Entry.store rows') {} := by
  apply ext_read
  · intro s
    rw [read_foldl, read_foldl, h]
  · exact (store_anonymous rows es {}).1.trans (store_anonymous rows' es' {}).1.symm
  · exact (store_anonymous rows es {}).2.trans (store_anonymous rows' es' {}).2.symm

def IsTable (rows : List Row) : Prop := rows = iniRows ∨ rows = jsonRows ∨ rows = yamlRows

lemma knownRows_paired : ∀ r ∈ knownRows, ∀ r' ∈ knownRows, r.setting = r'.setting →
    ((r ∈ iniRows ∧ r ∈ jsonRows ∧ r ∈ yamlRows) ↔ (r' ∈ iniRows ∧ r' ∈ jsonRows ∧ r' ∈ yamlRows)) → r = r' := by
  decide +kernel

variable {rows : List Row} {e : Entry}

lemma Entry.IsCommon.mem (h : e.IsCommon) (hrows : IsTable rows) : e.row ∈ rows := by
  rcases hrows with rfl | rfl | rfl
  exacts [h.1, h.2.1, h.2.2]

lemma Entry.exists_table (e : Entry) : ∃ rows, IsTable rows ∧ e.row ∈ rows := by
  rcases e.known with h | h | h
  exacts [⟨_, .inl rfl, h⟩, ⟨_, .inr (.inl rfl), h⟩, ⟨_, .inr (.inr rfl), h⟩]

lemma Entry.exists_table_not (h : ¬e.IsCommon) : ∃ rows, IsTable rows ∧ e.row ∉ rows := by
  by_contra hall
  push Not at hall
  exact h ⟨hall _ (.inl rfl), hall _ (.inr (.inl rfl)), hall _ (.inr (.inr rfl))⟩

lemma valueAs_self (e : Entry) : e.valueAs e.setting = e.value := dif_pos rfl

lemma valueFrom_filter {es : List Entry} {s : Setting} (q : Entry → Bool)
    (h : ∀ e ∈ es, e.setting = s → q e = true) :
    valueFrom (es.filter q) s = valueFrom es s := by
  have hlast : lastFor (es.filter q) s = lastFor es s := by
    unfold lastFor
    rw [List.filter_filter]
    congr 1
    apply List.filter_congr
    intro e he
    by_cases hs : e.setting = s
    · rw [h e he hs, Bool.and_true]
    · rw [decide_eq_false hs, Bool.false_and]
  unfold valueFrom
  rw [hlast]

lemma valueFrom_append_of_none {es after : List Entry} {s : Setting} (h : ∀ e ∈ after, e.setting ≠ s) :
    valueFrom (es ++ after) s = valueFrom es s := by
  have hlast : lastFor (es ++ after) s = lastFor es s := by
    have hnone : after.filter (·.setting = s) = [] := List.filter_eq_nil_iff.2 fun e he => by simpa using h e he
    unfold lastFor
    rw [List.filter_append, hnone, List.append_nil]
  unfold valueFrom
  rw [hlast]

lemma valueFrom_split {before after : List Entry} {s : Setting} (hs : e.setting = s)
    (h : ∀ e' ∈ after, e'.setting ≠ s) :
    valueFrom (before ++ e :: after) s = e.valueAs s := by
  rw [List.append_cons, valueFrom_append_of_none h, valueFrom_concat, if_pos hs]

lemma exists_split {es : List Entry} {s : Setting} (h : ∃ e ∈ es, e.setting = s) : ∃ before e after,
    es = before ++ e :: after ∧ e.setting = s ∧ ∀ e' ∈ after, e'.setting ≠ s := by
  induction es using List.reverseRecOn with
  | nil =>
    obtain ⟨e, he, _⟩ := h
    cases he
  | append_singleton es e ih =>
    by_cases hs : e.setting = s
    · exact ⟨es, e, [], rfl, hs, fun _ he' => by cases he'⟩
    · obtain ⟨e', he', hs'⟩ := h
      have hmem : e' ∈ es := by
        rcases List.mem_append.1 he' with hmem | hmem
        · exact hmem
        · rw [List.mem_singleton] at hmem
          exact absurd (hmem ▸ hs') hs
      obtain ⟨before, x, after, rfl, hx, hafter⟩ := ih ⟨e', hmem, hs'⟩
      refine ⟨before, x, after ++ [e], by rw [List.append_assoc, List.cons_append], hx, ?_⟩
      intro e'' he''
      rcases List.mem_append.1 he'' with hmem | hmem
      · exact hafter e'' hmem
      · rw [List.mem_singleton] at hmem
        exact hmem ▸ hs

namespace Assignment

variable (A : Assignment)

lemma valueFrom_jsonEntries (s : Setting) : valueFrom (A.jsonEntries.filter (·.row ∈ jsonRows)) s =
    valueFrom (A.entries.filter (·.row ∈ jsonRows)) s := by
  have hmem (e : Entry) : e ∈ A.jsonEntries.filter (·.row ∈ jsonRows) ↔
      e ∈ A.entries.filter (·.row ∈ jsonRows) := by
    rw [List.mem_filter, A.mem_jsonEntries]
    exact ⟨And.left, fun h => ⟨h, (List.mem_filter.1 h).2⟩⟩
  refine valueFrom_congr hmem (fun e he e' he' hs => ?_) s
  obtain ⟨he, hrow⟩ := List.mem_filter.1 ((hmem e).1 he)
  obtain ⟨he', hrow'⟩ := List.mem_filter.1 ((hmem e').1 he')
  exact A.entry_ext he he' (knownRows_distinct.2.1 _ (of_decide_eq_true hrow) _ (of_decide_eq_true hrow') hs)

variable {A} {before after : List Entry}

lemma common_before (hsplit : A.entries = before ++ e :: after) (he : ¬e.IsCommon) :
    ∀ e' ∈ before, e'.setting = e.setting → e'.IsCommon := by
  intro e' he' hs
  by_contra hcommon
  have hrow : e'.row = e.row := knownRows_paired _ e'.mem_knownRows _ e.mem_knownRows hs (iff_of_false hcommon he)
  have hnodup : A.entries.Nodup := by
    unfold entries
    rw [List.nodup_flatMap]
    refine ⟨fun p hp => .of_map _ (A.keys_nodup p hp), ?_⟩
    refine (List.pairwise_map.1 A.sections_nodup).imp_of_mem fun {p q} hp hq hne => ?_
    intro x hx hx'
    exact hne ((A.placed p hp x hx).symm.trans (A.placed q hq x hx'))
  have hmem : e' ∈ A.entries := hsplit ▸ List.mem_append_left _ he'
  have hmem' : e ∈ A.entries := hsplit ▸ List.mem_append_right _ List.mem_cons_self
  obtain rfl : e' = e := A.entry_ext hmem hmem' hrow
  rw [hsplit] at hnodup
  exact (List.nodup_append.1 hnodup).2.2 e' he' e' List.mem_cons_self rfl

lemma valueFrom_table (hsplit : A.entries = before ++ e :: after) (hafter : ∀ e' ∈ after, e'.setting ≠ e.setting)
    (hrows : IsTable rows) : (e.row ∈ rows → valueFrom (A.entries.filter (·.row ∈ rows)) e.setting = e.value) ∧
      (e.row ∉ rows → valueFrom (A.entries.filter (·.row ∈ rows)) e.setting = valueFrom before e.setting) := by
  have hafter' : ∀ e' ∈ after.filter (·.row ∈ rows), e'.setting ≠ e.setting :=
    fun e' he' => hafter e' (List.mem_filter.1 he').1
  rw [hsplit, List.filter_append]
  constructor
  · intro hmem
    have hkept : (e :: after).filter (·.row ∈ rows) = e :: after.filter (·.row ∈ rows) :=
      List.filter_cons_of_pos (by simpa using hmem)
    rw [hkept, valueFrom_split rfl hafter', valueAs_self]
  · intro hmem
    have hbefore := common_before hsplit fun h => hmem (h.mem hrows)
    have hdropped : (e :: after).filter (·.row ∈ rows) = after.filter (·.row ∈ rows) :=
      List.filter_cons_of_neg (by simpa using hmem)
    rw [hdropped, valueFrom_append_of_none hafter']
    exact valueFrom_filter _ fun e' he' hs => decide_eq_true ((hbefore e' he' hs).mem hrows)

lemma Harmless.valueFrom_table (h : A.Harmless) (hrows : IsTable rows) (s : Setting) :
    valueFrom (A.entries.filter (·.row ∈ rows)) s = valueFrom A.entries s := by
  by_cases hs : ∃ e ∈ A.entries, e.setting = s
  · obtain ⟨before, e, after, hsplit, rfl, hafter⟩ := exists_split hs
    have hvalue := Assignment.valueFrom_table hsplit hafter hrows
    have hall : valueFrom A.entries e.setting = e.value := by rw [hsplit, valueFrom_split rfl hafter, valueAs_self]
    rw [hall]
    by_cases hmem : e.row ∈ rows
    · exact hvalue.1 hmem
    · rw [hvalue.2 hmem]
      rcases h.2 before e after hsplit with hcommon | ⟨e', he', hs'⟩ | hsame
      · exact absurd (hcommon.mem hrows) hmem
      · exact absurd hs' (hafter e' he')
      · exact hsame.symm
  · have hnone : ∀ e ∈ A.entries, e.setting ≠ s := fun e he he' => hs ⟨e, he, he'⟩
    rw [valueFrom_of_none hnone, valueFrom_of_none fun e he => hnone e (List.mem_filter.1 he).1]

variable (A)

theorem loaders_agree : (∃ c, loadFromINI {} A.toINI = some c ∧ loadFromJSON {} A.toJSON = .ok c ∧
    loadFromYAML {} A.toYAML = some c) ↔ A.Harmless := by
  constructor
  · rintro ⟨c, hini, hjson, hyaml⟩
    have hfits := A.fits_of_loaded hjson
    rw [A.loadFromINI_toINI] at hini
    rw [A.loadFromJSON_toJSON hfits] at hjson
    rw [A.loadFromYAML_toYAML] at hyaml
    have hread (rows : List Row) (hrows : IsTable rows) (s : Setting) :
        valueFrom (A.entries.filter (·.row ∈ rows)) s = s.read c := by
      rcases hrows with rfl | rfl | rfl
      · rw [← Option.some.inj hini, read_foldl]
      · rw [← Except.ok.inj hjson, read_foldl, A.valueFrom_jsonEntries]
      · rw [← Option.some.inj hyaml, read_foldl]
    refine ⟨hfits, fun before e after hsplit => ?_⟩
    by_cases hcommon : e.IsCommon
    · exact .inl hcommon
    by_cases hlater : ∃ e' ∈ after, e'.setting = e.setting
    · exact .inr (.inl hlater)
    · have hafter : ∀ e' ∈ after, e'.setting ≠ e.setting := fun e' he' hs => hlater ⟨e', he', hs⟩
      obtain ⟨known, hknown, hmem⟩ := e.exists_table
      obtain ⟨unknown, hunknown, hnot⟩ := Entry.exists_table_not hcommon
      have hvalue := (valueFrom_table hsplit hafter hknown).1 hmem
      have hvalue' := (valueFrom_table hsplit hafter hunknown).2 hnot
      exact .inr (.inr (by rw [← hvalue, hread known hknown, ← hread unknown hunknown, hvalue']))
  · intro h
    refine ⟨A.entries.foldl (Entry.store iniRows) {}, A.loadFromINI_toINI, ?_, ?_⟩
    · rw [A.loadFromJSON_toJSON h.1]
      apply congrArg Except.ok
      apply foldl_store_eq
      intro s
      rw [A.valueFrom_jsonEntries, h.valueFrom_table (.inr (.inl rfl)), h.valueFrom_table (.inl rfl)]
    · rw [A.loadFromYAML_toYAML]
      apply congrArg some
      apply foldl_store_eq
      intro s
      rw [h.valueFrom_table (.inr (.inr rfl)), h.valueFrom_table (.inl rfl)]

def passiveModeOff : Assignment where
  sections :=
    [("connection", [⟨⟨"connection", "passive_mode", .passive_mode⟩, by decide +kernel, false, trivial, false⟩])]
  nonempty := by simp
  placed := by simp
  sections_nodup := by simp
  keys_nodup := by simp

theorem passiveModeOff_differs : ∃ c c', loadFromINI {} passiveModeOff.toINI = some c ∧
    loadFromJSON {} passiveModeOff.toJSON = .ok c' ∧ loadFromYAML {} passiveModeOff.toYAML = some c' ∧
      c.connection.passive_mode = true ∧ c'.connection.passive_mode = false := by
  refine ⟨{}, { connection.passive_mode := false }, ?_, ?_, ?_, rfl, rfl⟩
  all_goals decide +kernel

end Assignment

end Agreement

end SimpleSftpd
