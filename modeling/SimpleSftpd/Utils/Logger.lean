import SimpleSftpd.Cxx.Fields
import SimpleSftpd.Cxx.JsonText
import SimpleSftpd.Cxx.Utf8
import SimpleSftpd.Interaction.System

namespace SimpleSftpd

open Cxx Cxx.JsonText Interaction

inductive LogLevel
  | TRACE
  | DEBUG
  | INFO
  | WARN
  | ERROR
  | FATAL
  deriving DecidableEq

def LogLevel.value : LogLevel → ℕ
  | TRACE => 0
  | DEBUG => 1
  | INFO => 2
  | WARN => 3
  | ERROR => 4
  | FATAL => 5

inductive LogFormat
  | STANDARD
  | JSON
  | EXTENDED
  deriving DecidableEq

structure Moment where
  year : ℕ
  month : ℕ
  day : ℕ
  hour : ℕ
  minute : ℕ
  second : ℕ
  milliseconds : Int
  getpid : ℕ

structure Logger where
  level_ : LogLevel
  format_ : LogFormat
  console_ : Bool
  file_ : Bool
  fileIsOpen : Bool

inductive Sink
  | console | file
  deriving DecidableEq

/-- `std::setfill('0') << std::setw(width)` -/
def zeroPadded (width : ℕ) (s : Str) : Str := s.leftpad width 48

/-- `std::hex` -/
def hexadecimal (n : ℕ) : Str := (Nat.toDigits 16 n).map Char.toUInt8

namespace Logger

def setLevel (l : Logger) (level : LogLevel) : Logger := { l with level_ := level }

def setFormat (l : Logger) (format : LogFormat) : Logger := { l with format_ := format }

def getTimestamp (m : Moment) : Str :=
  decimal m.year ++ "-" ++ zeroPadded 2 (decimal m.month) ++ "-" ++ zeroPadded 2 (decimal m.day) ++ " " ++
    zeroPadded 2 (decimal m.hour) ++ ":" ++ zeroPadded 2 (decimal m.minute) ++ ":" ++
    zeroPadded 2 (decimal m.second) ++ "." ++ zeroPadded 3 (decimalInt m.milliseconds)

def levelToString : LogLevel → Str
  | .TRACE => "TRACE"
  | .DEBUG => "DEBUG"
  | .INFO => "INFO"
  | .WARN => "WARN"
  | .ERROR => "ERROR"
  | .FATAL => "FATAL"

def escapeJsonChar (c : Byte) : Str :=
  if c = 34 then "\\\""
  else if c = 92 then "\\\\"
  else if c = 8 then "\\b"
  else if c = 12 then "\\f"
  else if c = 10 then "\\n"
  else if c = 13 then "\\r"
  else if c = 9 then "\\t"
  else if c < 32 then "\\u" ++ zeroPadded 4 (hexadecimal c.toNat)
  else [c]

def escapeJsonString (str : Str) : Str := str.flatMap escapeJsonChar

def formatMessage (l : Logger) (m : Moment) (level : LogLevel) (message : Str) : Str :=
  match l.format_ with
  | .JSON =>
    "\x7b" ++ "\"timestamp\":\"" ++ getTimestamp m ++ "\"," ++ "\"level\":\"" ++ levelToString level ++ "\"," ++
      "\"message\":\"" ++ escapeJsonString message ++ "\"" ++ "\x7d"
  | .EXTENDED =>
    "[" ++ getTimestamp m ++ "] " ++ "[" ++ levelToString level ++ "] " ++ "[PID:" ++ decimal m.getpid ++
      "] " ++ message
  | .STANDARD => "[" ++ getTimestamp m ++ "] [" ++ levelToString level ++ "] " ++ message

def sinks (l : Logger) : List Sink :=
  (if l.console_ then [.console] else []) ++ if l.file_ && l.fileIsOpen then [.file] else []

lemma plain_digit {c : Byte} (h : (digit 10 c).isSome = true) : Plain c := by
  obtain ⟨hlow, hhigh⟩ := digit_range h
  refine ⟨UInt8.le_iff_toNat_le.2 (le_trans (by decide) hlow), ?_, ?_⟩
  · rintro rfl
    exact absurd hlow (by decide)
  · rintro rfl
    exact absurd hhigh (by decide)

lemma ascii_digit {c : Byte} (h : (digit 10 c).isSome = true) : c < 0x80 :=
  UInt8.lt_iff_toNat_lt.2 ((digit_range h).2.trans (by decide))

@[simp] lemma plainText_decimal (n : ℕ) : PlainText (decimal n) := fun c hc => plain_digit (decimal_isDigit n c hc)

@[simp] lemma plainText_decimalInt (n : Int) : PlainText (decimalInt n) := by
  intro c hc
  rcases mem_decimalInt hc with hdigit | rfl
  · exact plain_digit hdigit
  · decide

@[simp] lemma plainText_zeroPadded {width : ℕ} {s : Str} (h : PlainText s) : PlainText (zeroPadded width s) := by
  refine plainText_append.2 ⟨fun c hc => ?_, h⟩
  rw [List.eq_of_mem_replicate hc]
  decide

lemma plainText_getTimestamp (m : Moment) : PlainText (getTimestamp m) := by
  have hsigns : PlainText "-" ∧ PlainText " " ∧ PlainText ":" ∧ PlainText "." := by decide
  simp only [getTimestamp, plainText_append, plainText_decimal, plainText_decimalInt, plainText_zeroPadded,
    hsigns, and_self]

lemma plainText_levelToString (level : LogLevel) : PlainText (levelToString level) := by
  cases level <;> decide

lemma ascii_decimal (n : ℕ) : Ascii (decimal n) := fun c hc => ascii_digit (decimal_isDigit n c hc)

lemma ascii_decimalInt (n : Int) : Ascii (decimalInt n) := by
  intro c hc
  rcases mem_decimalInt hc with hdigit | rfl
  · exact ascii_digit hdigit
  · decide

lemma ascii_zeroPadded {width : ℕ} {s : Str} (h : Ascii s) : Ascii (zeroPadded width s) := by
  refine ascii_append.2 ⟨fun c hc => ?_, h⟩
  rw [List.eq_of_mem_replicate hc]
  decide

lemma ascii_getTimestamp (m : Moment) : Ascii (getTimestamp m) := by
  have hsigns : Ascii "-" ∧ Ascii " " ∧ Ascii ":" ∧ Ascii "." := by decide
  simp only [getTimestamp, ascii_append, ascii_decimal, ascii_decimalInt, ascii_zeroPadded, hsigns, and_self]

lemma ascii_levelToString (level : LogLevel) : Ascii (levelToString level) := by
  cases level <;> decide

lemma codeUnit_hexadecimal {n : ℕ} (hn : n < 32) :
    ∃ d₀ d₁ d₂ d₃, zeroPadded 4 (hexadecimal n) = [d₀, d₁, d₂, d₃] ∧ codeUnit [d₀, d₁, d₂, d₃] = some n := by
  have hdigits : ∀ n < 32, (zeroPadded 4 (hexadecimal n)).length = 4 ∧
      codeUnit (zeroPadded 4 (hexadecimal n)) = some n := by
    decide +kernel
  obtain ⟨d₀, d₁, d₂, d₃, hd⟩ := List.length_eq_four.1 (hdigits n hn).1
  exact ⟨d₀, d₁, d₂, d₃, hd, hd ▸ (hdigits n hn).2⟩

lemma spells_escapeJsonChar (c : Byte) : Spells (escapeJsonChar c) c := by
  unfold escapeJsonChar
  split_ifs with hquote hbackslash hbackspace hfeed hnewline hreturn htab hcontrol
  · exact hquote ▸ spells_named rfl
  · exact hbackslash ▸ spells_named rfl
  · exact hbackspace ▸ spells_named rfl
  · exact hfeed ▸ spells_named rfl
  · exact hnewline ▸ spells_named rfl
  · exact hreturn ▸ spells_named rfl
  · exact htab ▸ spells_named rfl
  · have hc : c.toNat < 32 := UInt8.lt_iff_toNat_lt.1 hcontrol
    obtain ⟨d₀, d₁, d₂, d₃, hdigits, hunit⟩ := codeUnit_hexadecimal hc
    have hspells := spells_unit hunit (hc.trans (by decide))
    rw [UInt8.ofNat_toNat] at hspells
    rw [hdigits]
    exact hspells
  · exact Plain.spells ⟨UInt8.not_lt.1 hcontrol, hquote, hbackslash⟩

lemma escapeJsonChar_ascii (c : Byte) :
    escapeJsonChar c = [c] ∨ c < 0x80 ∧ escapeJsonChar c ≠ [] ∧ Ascii (escapeJsonChar c) := by
  have hdigits : ∀ n < 32, Ascii ("\\u" ++ zeroPadded 4 (hexadecimal n)) := by decide +kernel
  unfold escapeJsonChar
  split_ifs with hquote hbackslash hbackspace hfeed hnewline hreturn htab hcontrol
  · exact .inr ⟨hquote ▸ by decide, by decide, by decide⟩
  · exact .inr ⟨hbackslash ▸ by decide, by decide, by decide⟩
  · exact .inr ⟨hbackspace ▸ by decide, by decide, by decide⟩
  · exact .inr ⟨hfeed ▸ by decide, by decide, by decide⟩
  · exact .inr ⟨hnewline ▸ by decide, by decide, by decide⟩
  · exact .inr ⟨hreturn ▸ by decide, by decide, by decide⟩
  · exact .inr ⟨htab ▸ by decide, by decide, by decide⟩
  · have hlow : c.toNat < 32 := UInt8.lt_iff_toNat_lt.1 hcontrol
    have hne : ("\\u" : Str) ++ zeroPadded 4 (hexadecimal c.toNat) ≠ [] :=
      List.append_ne_nil_of_left_ne_nil (by decide) _
    exact .inr ⟨UInt8.lt_iff_toNat_lt.2 (hlow.trans (by decide)), hne, hdigits _ hlow⟩
  · exact .inl rfl

def messageHead (m : Moment) (level : LogLevel) : Str :=
  "\x7b" ++ "\"timestamp\":\"" ++ getTimestamp m ++ "\"," ++ "\"level\":\"" ++ levelToString level ++ "\"," ++
    "\"message\":"

def recordMembers (m : Moment) (level : LogLevel) (message : Str) : List (Str × Str) :=
  [("timestamp", getTimestamp m), ("level", levelToString level), ("message", message)]

section Json

variable (l : Logger) (m : Moment) (level : LogLevel) (message : Str)

lemma formatMessage_json :
    (l.setFormat .JSON).formatMessage m level message = messageHead m level ++
      34 :: (escapeJsonString message ++ [34, 125]) := by
  have hname : ascii "\"message\":\"" = ascii "\"message\":" ++ [34] := rfl
  have hclose : ascii "\"" ++ ascii "\x7d" = [34, 125] := rfl
  simp only [formatMessage, setFormat, messageHead, hname, List.append_assoc, hclose, List.cons_append,
    List.nil_append]

lemma formatMessage_objectText :
    (l.setFormat .JSON).formatMessage m level message = objectText
      (recordMembers m level (escapeJsonString message)) := by
  have htimestamp : ascii "\"timestamp\":\"" = 34 :: (ascii "timestamp" ++ [34, 58, 34]) := rfl
  have hlevel : ascii "\"level\":\"" = 34 :: (ascii "level" ++ [34, 58, 34]) := rfl
  have hmessage : ascii "\"message\":\"" = 34 :: (ascii "message" ++ [34, 58, 34]) := rfl
  have hmember : ascii "\"," = [34, 44] := rfl
  have hopen : ascii "\x7b" = [123] := rfl
  have hclose : ascii "\"" ++ ascii "\x7d" = [34, 125] := rfl
  simp only [formatMessage, setFormat, htimestamp, hlevel, hmessage, hmember, hopen, hclose,
    List.append_assoc, objectText,
    recordMembers, List.map_cons, List.map_nil, List.intercalate_cons_cons, List.intercalate_singleton, memberText,
    List.cons_append, List.nil_append]

lemma plainText_names : PlainText "timestamp" ∧ PlainText "level" ∧ PlainText "message" := by decide

lemma readObject_formatMessage :
    readObject ((l.setFormat .JSON).formatMessage m level message) = some (recordMembers m level message) := by
  obtain ⟨htimestamp, hlevel, hmessage⟩ := plainText_names
  rw [formatMessage_objectText]
  exact readObject_objectText (.cons ⟨htimestamp.isText, (plainText_getTimestamp m).isText⟩
    (.cons ⟨hlevel.isText, (plainText_levelToString level).isText⟩
      (.cons ⟨hmessage.isText, isText_flatMap fun c _ => spells_escapeJsonChar c⟩ .nil)))

lemma printable_formatMessage : ∀ c ∈ (l.setFormat .JSON).formatMessage m level message, 32 ≤ c := by
  obtain ⟨htimestamp, hlevel, hmessage⟩ := plainText_names
  rw [formatMessage_objectText]
  apply printable_objectText
  simp only [recordMembers, List.forall_mem_cons]
  exact ⟨⟨htimestamp.printable, (plainText_getTimestamp m).printable⟩,
    ⟨hlevel.printable, (plainText_levelToString level).printable⟩,
    ⟨hmessage.printable, printable_flatMap fun c _ => spells_escapeJsonChar c⟩, List.forall_mem_nil _⟩

lemma isUtf8_formatMessage : IsUtf8 ((l.setFormat .JSON).formatMessage m level message) ↔ IsUtf8 message := by
  have hhead : Ascii (messageHead m level ++ [34]) := by
    have hnames : Ascii "\x7b" ∧ Ascii "\"timestamp\":\"" ∧ Ascii "\"," ∧ Ascii "\"level\":\"" ∧
        Ascii "\"message\":" ∧ Ascii [34] := by
      decide
    simp only [messageHead, ascii_append, hnames, ascii_getTimestamp, ascii_levelToString, and_self]
  have hrecord : (l.setFormat .JSON).formatMessage m level message =
      (messageHead m level ++ [34]) ++ (escapeJsonString message ++ [34, 125]) := by
    rw [formatMessage_json, List.append_assoc, List.singleton_append]
  rw [hrecord, isUtf8_between hhead (by decide) (by simp)]
  unfold IsUtf8
  rw [escapeJsonString, Utf8.read_flatMap escapeJsonChar_ascii]

end Json

end Logger

structure LogCall where
  moment : Moment
  level : LogLevel
  message : Str

def Logger.record (l : Logger) (call : LogCall) : Str := l.formatMessage call.moment call.level call.message

/-- A call of `log` between two insertions: the streams it has still to serve, and whether its record lies
in the first of them with the end of its line to come. No lock is taken: `mutex_` is never used. -/
structure Underway where
  sinks : List Sink
  begun : Bool

def Logger.log (l : Logger) (call : LogCall) : Underway :=
  ⟨if call.level.value < l.level_.value then [] else l.sinks, false⟩

/-- The calls that have been made, in any threads, how far each has come, what has been written, and as history
the calls whose records have been inserted. -/
structure Logging where
  calls : List LogCall
  underway : ℕ → Underway
  written : Sink → Str
  inserted : Sink → List ℕ

inductive LogStep
  | log (call : LogCall)
  | insert (i : ℕ)

/-- `stream << log_message << std::endl` is two insertions, and those of two threads may come in any order. -/
def Logger.logging (l : Logger) : System Logging LogStep where
  init v := v = ⟨[], fun _ => ⟨[], false⟩, fun _ => [], fun _ => []⟩
  next v
    | .log call => some { v with
        calls := v.calls ++ [call]
        underway := Function.update v.underway v.calls.length (l.log call) }
    | .insert i => match v.underway i, v.calls[i]? with
      | ⟨k :: ks, false⟩, some call => some { v with
          underway := Function.update v.underway i ⟨k :: ks, true⟩
          written := Function.update v.written k (v.written k ++ l.record call)
          inserted := Function.update v.inserted k (v.inserted k ++ [i]) }
      | ⟨k :: ks, true⟩, _ => some { v with
          underway := Function.update v.underway i ⟨ks, false⟩
          written := Function.update v.written k (v.written k ++ "\n") }
      | _, _ => none

def asLines (lines : List Str) : Str := lines.flatMap (· ++ "\n")

namespace Logging

def record (l : Logger) (v : Logging) (i : ℕ) : Str := ((v.calls[i]?).map l.record).getD []

def Opens (v : Logging) (i : ℕ) (k : Sink) : Prop :=
  (v.underway i).begun = true ∧ (v.underway i).sinks.head? = some k

instance (v : Logging) (i : ℕ) (k : Sink) : Decidable (v.Opens i k) := inferInstanceAs (Decidable (_ ∧ _))

def Apart (v : Logging) : LogStep → Prop
  | .log _ => True
  | .insert i =>
    (v.underway i).begun = false → ∀ k ∈ (v.underway i).sinks.head?, ∀ j < v.calls.length, ¬v.Opens j k

instance (v : Logging) (step : LogStep) : Decidable (v.Apart step) := by
  cases step with
  | log => exact .isTrue trivial
  | insert i =>
    exact inferInstanceAs (Decidable (_ → ∀ k ∈ (v.underway i).sinks.head?, ∀ j < v.calls.length, ¬v.Opens j k))

structure InLines (l : Logger) (v : Logging) : Prop where
  begin_ : ∀ i, v.calls.length ≤ i → (v.underway i).sinks = []
  serves : ∀ i call, v.calls[i]? = some call → (v.underway i).sinks <:+ (l.log call).sinks
  nodup : ∀ k, (v.inserted k).Nodup
  inserted : ∀ k i, i ∈ v.inserted k ↔ ∃ call, v.calls[i]? = some call ∧ k ∈ (l.log call).sinks ∧
    (k ∈ (v.underway i).sinks → v.Opens i k)
  opened : ∀ k i, v.Opens i k → ∃ before, v.inserted k = before ++ [i] ∧
    v.written k = asLines (before.map (v.record l)) ++ v.record l i
  closed : ∀ k, (∀ i, ¬v.Opens i k) → v.written k = asLines ((v.inserted k).map (v.record l))

variable {l : Logger} {v v' : Logging} {call : LogCall} {i j : ℕ} {k : Sink} {ks : List Sink}

lemma record_of (h : v.calls[i]? = some call) : v.record l i = l.record call := by
  rw [record, h, Option.map_some, Option.getD_some]

lemma opens_congr (h : v'.underway j = v.underway j) : v'.Opens j k ↔ v.Opens j k := by
  unfold Opens
  rw [h]

lemma opens_begun (h : v.underway i = ⟨k :: ks, true⟩) (k' : Sink) : v.Opens i k' ↔ k = k' := by
  unfold Opens
  rw [h]
  simp

lemma not_opens (h : (v.underway i).begun = false) (k : Sink) : ¬v.Opens i k :=
  fun hopen => Bool.noConfusion (hopen.1.symm.trans h)

lemma nodup_sinks (l : Logger) (call : LogCall) : (l.log call).sinks.Nodup := by
  unfold Logger.log Logger.sinks
  split
  · exact List.nodup_nil
  · cases l.console_ <;> cases (l.file_ && l.fileIsOpen) <;> decide

lemma asLines_concat (lines : List Str) (line : Str) :
    asLines (lines ++ [line]) = asLines lines ++ (line ++ "\n") := by
  rw [asLines, asLines, List.flatMap_append, List.flatMap_singleton]

lemma InLines.lt (h : v.InLines l) (hopen : v.Opens i k) : i < v.calls.length := by
  by_contra hlong
  have hnone := hopen.2
  rw [h.begin_ i (not_lt.1 hlong)] at hnone
  cases hnone

lemma InLines.unique (h : v.InLines l) (hi : v.Opens i k) (hj : v.Opens j k) : i = j := by
  obtain ⟨_, hbefore, _⟩ := h.opened k i hi
  obtain ⟨_, hbefore', _⟩ := h.opened k j hj
  exact List.singleton_inj.1 (List.append_inj_right' (hbefore.symm.trans hbefore') rfl)

lemma InLines.exists_call (h : v.InLines l) (hi : i ∈ v.inserted k) : ∃ call, v.calls[i]? = some call := by
  obtain ⟨call, hcall, _⟩ := (h.inserted k i).1 hi
  exact ⟨call, hcall⟩

lemma map_record (is : List ℕ) (hcalls : ∀ i ∈ is, v'.calls[i]? = v.calls[i]?) :
    is.map (v'.record l) = is.map (v.record l) := by
  refine List.map_congr_left fun i hi => ?_
  unfold record
  rw [hcalls i hi]

lemma inLines_log (h : v.InLines l) (hnext : v'.calls = v.calls ++ [call] ∧ v'.written = v.written ∧
    v'.inserted = v.inserted ∧ v'.underway = Function.update v.underway v.calls.length (l.log call)) :
      v'.InLines l := by
  obtain ⟨hcalls, hwritten, hinserted, hunderway⟩ := hnext
  have hother {j : ℕ} (hj : j ≠ v.calls.length) : v'.underway j = v.underway j := by
    rw [hunderway, Function.update_of_ne hj]
  have hnew : v'.underway v.calls.length = l.log call := by rw [hunderway, Function.update_self]
  have hkept {j : ℕ} {c : LogCall} (hj : v.calls[j]? = some c) : v'.calls[j]? = some c := by
    rw [hcalls, List.getElem?_append_left (List.getElem?_eq_some_iff.1 hj).1, hj]
  have hopens (j : ℕ) (k : Sink) : v'.Opens j k ↔ v.Opens j k := by
    rcases eq_or_ne j v.calls.length with rfl | hj
    · refine iff_of_false (not_opens (by rw [hnew]; rfl) k) fun hopen => ?_
      exact absurd (h.lt hopen) (lt_irrefl _)
    · exact opens_congr (hother hj)
  have hcall {j : ℕ} {c : LogCall} (hj : v'.calls[j]? = some c) (hne : j ≠ v.calls.length) :
      v.calls[j]? = some c := by
    rw [hcalls] at hj
    rcases lt_or_gt_of_ne hne with hlt | hgt
    · rwa [List.getElem?_append_left hlt] at hj
    · have hlong : (v.calls ++ [call]).length ≤ j := by
        rw [List.length_append]
        exact hgt
      rw [List.getElem?_eq_none hlong] at hj
      cases hj
  have hlast {c : LogCall} (hj : v'.calls[v.calls.length]? = some c) : c = call := by
    rw [hcalls, List.getElem?_concat_length] at hj
    exact (Option.some.inj hj).symm
  have hrecords {is : List ℕ} {k : Sink} (his : ∀ i ∈ is, i ∈ v.inserted k) :
      is.map (v'.record l) = is.map (v.record l) := by
    refine map_record is fun i hi => ?_
    obtain ⟨c, hc⟩ := h.exists_call (his i hi)
    rw [hc, hkept hc]
  refine ⟨fun j hj => ?_, fun j c hc => ?_, fun k => ?_, fun k j => ?_, fun k j hopen => ?_, fun k hclosed => ?_⟩
  · rw [hcalls, List.length_append] at hj
    have hlong : v.calls.length < j := hj
    rw [hother hlong.ne']
    exact h.begin_ j hlong.le
  · rcases eq_or_ne j v.calls.length with rfl | hj
    · rw [hlast hc, hnew]
    · rw [hother hj]
      exact h.serves j c (hcall hc hj)
  · rw [hinserted]
    exact h.nodup k
  · rw [hinserted, h.inserted]
    rcases eq_or_ne j v.calls.length with rfl | hj
    · refine iff_of_false ?_ ?_
      · rintro ⟨c, hc, _⟩
        exact absurd (List.getElem?_eq_some_iff.1 hc).1 (lt_irrefl _)
      · rintro ⟨c, hc, hk, hopen⟩
        obtain rfl := hlast hc
        rw [hnew] at hopen
        exact absurd (h.lt ((hopens _ _).1 (hopen hk))) (lt_irrefl _)
    · simp only [hopens, hother hj]
      exact ⟨fun ⟨c, hc, hrest⟩ => ⟨c, hkept hc, hrest⟩, fun ⟨c, hc, hrest⟩ => ⟨c, hcall hc hj, hrest⟩⟩
  · obtain ⟨before, hbefore, htext⟩ := h.opened k j ((hopens j k).1 hopen)
    have hmem : j ∈ v.inserted k := hbefore ▸ List.mem_append_right _ (List.mem_singleton_self j)
    obtain ⟨c, hc⟩ := h.exists_call hmem
    refine ⟨before, by rw [hinserted, hbefore], ?_⟩
    rw [hwritten, htext, hrecords fun i hi => hbefore ▸ List.mem_append_left _ hi, record_of hc,
      record_of (hkept hc)]
  · rw [hwritten, hinserted, h.closed k fun j hopen => hclosed j ((hopens j k).2 hopen), hrecords fun i hi => hi]

lemma inLines_begin (h : v.InLines l) (hi : v.underway i = ⟨k :: ks, false⟩) (hcall : v.calls[i]? = some call)
    (hapart : ∀ j, ¬v.Opens j k) (hnext : v'.calls = v.calls ∧
      v'.written = Function.update v.written k (v.written k ++ l.record call) ∧
      v'.inserted = Function.update v.inserted k (v.inserted k ++ [i]) ∧
      v'.underway = Function.update v.underway i ⟨k :: ks, true⟩) : v'.InLines l := by
  obtain ⟨hcalls, hwritten, hinserted, hunderway⟩ := hnext
  have hnew : v'.underway i = ⟨k :: ks, true⟩ := by rw [hunderway, Function.update_self]
  have hother {j : ℕ} (hj : j ≠ i) : v'.underway j = v.underway j := by rw [hunderway, Function.update_of_ne hj]
  have hsinks (j : ℕ) : (v'.underway j).sinks = (v.underway j).sinks := by
    rcases eq_or_ne j i with rfl | hj
    · rw [hnew, hi]
    · rw [hother hj]
  have hidle := not_opens (v := v) (i := i) (by rw [hi])
  have hopens {j : ℕ} (hj : j ≠ i) (k' : Sink) : v'.Opens j k' ↔ v.Opens j k' := opens_congr (hother hj)
  have hself := opens_begun hnew
  have hrecords (is : List ℕ) : is.map (v'.record l) = is.map (v.record l) :=
    map_record is fun _ _ => by rw [hcalls]
  have hrecord : v'.record l i = l.record call := record_of (by rw [hcalls, hcall])
  have hout : i ∉ v.inserted k := by
    intro hmem
    obtain ⟨_, _, _, hopen⟩ := (h.inserted k i).1 hmem
    exact hidle k (hopen (by rw [hi]; exact List.mem_cons_self))
  refine ⟨fun j hj => ?_, fun j c hc => ?_, fun k' => ?_, fun k' j => ?_, fun k' j hopen => ?_,
    fun k' hclosed => ?_⟩
  · rw [hsinks]
    exact h.begin_ j (hcalls ▸ hj)
  · rw [hsinks]
    exact h.serves j c (hcalls ▸ hc)
  · rw [hinserted]
    rcases eq_or_ne k' k with rfl | hk
    · rw [Function.update_self]
      exact List.nodup_append.2 ⟨h.nodup k', List.nodup_singleton i, fun a ha b hb => by
        rw [List.mem_singleton.1 hb]
        rintro rfl
        exact hout ha⟩
    · rw [Function.update_of_ne hk]
      exact h.nodup k'
  · rw [hinserted, hcalls, hsinks]
    rcases eq_or_ne j i with rfl | hj
    · rcases eq_or_ne k' k with rfl | hk
      · rw [Function.update_self]
        have hserves := (h.serves j call hcall).subset
        rw [hi] at hserves
        exact iff_of_true (List.mem_append_right _ (List.mem_singleton_self j))
          ⟨call, hcall, hserves List.mem_cons_self, fun _ => (hself k').2 rfl⟩
      · rw [Function.update_of_ne hk, h.inserted]
        simp only [hidle k', hself, hk.symm]
    · simp only [hopens hj]
      rw [← h.inserted]
      rcases eq_or_ne k' k with rfl | hk
      · rw [Function.update_self, List.mem_append, List.mem_singleton, or_iff_left hj]
      · rw [Function.update_of_ne hk]
  · rcases eq_or_ne j i with rfl | hj
    · obtain rfl := (hself k').1 hopen
      rw [hinserted, hwritten, Function.update_self, Function.update_self]
      exact ⟨v.inserted k, rfl, by rw [hrecords, hrecord, h.closed k hapart]⟩
    · have hold := (hopens hj k').1 hopen
      have hk : k' ≠ k := by
        rintro rfl
        exact hapart j hold
      obtain ⟨before, hbefore, htext⟩ := h.opened k' j hold
      rw [hinserted, hwritten, Function.update_of_ne hk, Function.update_of_ne hk]
      exact ⟨before, hbefore, by rw [htext, hrecords, record, record, hcalls]⟩
  · have hk : k' ≠ k := by
      rintro rfl
      exact hclosed i ((hself k').2 rfl)
    rw [hinserted, hwritten, Function.update_of_ne hk, Function.update_of_ne hk, hrecords]
    refine h.closed k' fun j hopen => ?_
    rcases eq_or_ne j i with rfl | hj
    · exact hidle k' hopen
    · exact hclosed j ((hopens hj k').2 hopen)

lemma inLines_end (h : v.InLines l) (hi : v.underway i = ⟨k :: ks, true⟩) (hnext : v'.calls = v.calls ∧
      v'.written = Function.update v.written k (v.written k ++ "\n") ∧ v'.inserted = v.inserted ∧
      v'.underway = Function.update v.underway i ⟨ks, false⟩) : v'.InLines l := by
  obtain ⟨hcalls, hwritten, hinserted, hunderway⟩ := hnext
  have hnew : v'.underway i = ⟨ks, false⟩ := by rw [hunderway, Function.update_self]
  have hother {j : ℕ} (hj : j ≠ i) : v'.underway j = v.underway j := by rw [hunderway, Function.update_of_ne hj]
  have hself := opens_begun hi
  have hidle := not_opens (v := v') (i := i) (by rw [hnew])
  have hopens {j : ℕ} (hj : j ≠ i) (k' : Sink) : v'.Opens j k' ↔ v.Opens j k' := opens_congr (hother hj)
  have hrecords (is : List ℕ) : is.map (v'.record l) = is.map (v.record l) :=
    map_record is fun _ _ => by rw [hcalls]
  obtain ⟨before, hbefore, htext⟩ := h.opened k i ((hself k).2 rfl)
  obtain ⟨call, hcall⟩ := h.exists_call (hbefore ▸ List.mem_append_right _ (List.mem_singleton_self i))
  have hserves := h.serves i call hcall
  rw [hi] at hserves
  have hk : k ∉ ks := (List.nodup_cons.1 ((nodup_sinks l call).sublist hserves.sublist)).1
  refine ⟨fun j hj => ?_, fun j c hc => ?_, fun k' => ?_, fun k' j => ?_, fun k' j hopen => ?_,
    fun k' hclosed => ?_⟩
  · rw [hcalls] at hj
    rcases eq_or_ne j i with rfl | hne
    · exact absurd (h.lt ((hself k).2 rfl)) (not_lt.2 hj)
    · rw [hother hne]
      exact h.begin_ j hj
  · rw [hcalls] at hc
    rcases eq_or_ne j i with rfl | hne
    · rw [hnew]
      exact (List.suffix_cons k ks).trans (by simpa [hi] using h.serves j c hc)
    · rw [hother hne]
      exact h.serves j c hc
  · rw [hinserted]
    exact h.nodup k'
  · rw [hinserted, hcalls, h.inserted]
    rcases eq_or_ne j i with rfl | hne
    · rw [hnew, hi]
      simp only [hself, hidle, imp_false]
      rcases eq_or_ne k k' with rfl | hk'
      · simp [hk]
      · simp [hk', hk'.symm]
    · simp only [hopens hne, hother hne]
  · have hne : j ≠ i := by
      rintro rfl
      exact hidle k' hopen
    have hold := (hopens hne k').1 hopen
    have hk' : k' ≠ k := by
      rintro rfl
      exact hne (h.unique hold ((hself k').2 rfl))
    obtain ⟨before', hbefore', htext'⟩ := h.opened k' j hold
    rw [hinserted, hwritten, Function.update_of_ne hk']
    exact ⟨before', hbefore', by rw [htext', hrecords, record, record, hcalls]⟩
  · rw [hinserted, hwritten, hrecords]
    rcases eq_or_ne k' k with rfl | hk'
    · rw [Function.update_self, htext, hbefore, List.map_append, List.map_singleton, asLines_concat,
        List.append_assoc]
    · rw [Function.update_of_ne hk']
      refine h.closed k' fun j hopen => ?_
      rcases eq_or_ne j i with rfl | hne
      · exact hk' ((hself k').1 hopen).symm
      · exact hclosed j ((hopens hne k').2 hopen)

lemma inLines_next (h : v.InLines l) {step : LogStep} (hapart : v.Apart step)
    (hnext : l.logging.next v step = some v') :
    v'.InLines l := by
  cases step with
  | log call =>
    obtain rfl := Option.some.inj hnext
    exact inLines_log h ⟨rfl, rfl, rfl, rfl⟩
  | insert i =>
    rcases hi : v.underway i with ⟨sinks, begun⟩
    cases sinks with
    | nil => simp [Logger.logging, hi] at hnext
    | cons k ks =>
      cases begun with
      | true =>
        simp only [Logger.logging, hi, Option.some.injEq] at hnext
        subst hnext
        exact inLines_end h hi ⟨rfl, rfl, rfl, rfl⟩
      | false =>
        cases hcall : v.calls[i]? with
        | none => simp [Logger.logging, hi, hcall] at hnext
        | some call =>
          simp only [Logger.logging, hi, hcall, Option.some.injEq] at hnext
          subst hnext
          refine inLines_begin h hi hcall (fun j hopen => ?_) ⟨rfl, rfl, rfl, rfl⟩
          exact hapart (by rw [hi]) k (by rw [hi]; rfl) j (h.lt hopen) hopen

lemma inLines_of_reach (h : l.logging.Reach Apart v) : v.InLines l := by
  refine h.invariant ?_ fun _ _ _ hv hapart hnext => inLines_next hv hapart hnext
  rintro _ rfl
  exact ⟨fun _ _ => rfl, fun _ _ h => (by cases h), fun _ => List.nodup_nil, fun k i => by simp,
    fun _ _ h => (by cases h.2), fun _ _ => rfl⟩

lemma mem_log_sinks (k : Sink) : k ∈ (l.log call).sinks ↔ l.level_.value ≤ call.level.value ∧ k ∈ l.sinks := by
  unfold Logger.log
  split
  · rename_i hlow
    exact iff_of_false (List.not_mem_nil) fun h => absurd hlow (not_lt.2 h.1)
  · rename_i hhigh
    exact (and_iff_right (not_lt.1 hhigh)).symm

lemma InLines.lines (h : v.InLines l) (hk : k ∈ l.sinks) :
    ∃ (order : List ℕ) (rest : Str), v.written k = asLines (order.map (v.record l)) ++ rest ∧
    order.Nodup ∧ (∀ i ∈ order, ∃ call, v.calls[i]? = some call ∧ l.level_.value ≤ call.level.value) ∧
    (∀ i call, v.calls[i]? = some call → l.level_.value ≤ call.level.value →
      k ∉ (v.underway i).sinks → i ∈ order) ∧
    (rest = [] ∨ ∃ i, v.Opens i k ∧ rest = v.record l i) := by
  have hmade : ∀ i ∈ v.inserted k, ∃ call, v.calls[i]? = some call ∧ l.level_.value ≤ call.level.value := by
    intro i hi
    obtain ⟨call, hcall, hserved, _⟩ := (h.inserted k i).1 hi
    exact ⟨call, hcall, ((mem_log_sinks k).1 hserved).1⟩
  have hdone : ∀ i call, v.calls[i]? = some call → l.level_.value ≤ call.level.value →
      k ∉ (v.underway i).sinks → i ∈ v.inserted k :=
    fun i call hcall hlevel hk' => (h.inserted k i).2 ⟨call, hcall, (mem_log_sinks k).2 ⟨hlevel, hk⟩,
      fun hmem => absurd hmem hk'⟩
  by_cases hopen : ∃ i, v.Opens i k
  · obtain ⟨i, hopen⟩ := hopen
    obtain ⟨before, hbefore, htext⟩ := h.opened k i hopen
    have hnodup := h.nodup k
    rw [hbefore] at hmade hdone hnodup
    refine ⟨before, v.record l i, htext, (List.nodup_append.1 hnodup).1,
      fun j hj => hmade j (List.mem_append_left _ hj), ?_,
      .inr ⟨i, hopen, rfl⟩⟩
    intro j call hcall hlevel hserved
    rcases List.mem_append.1 (hdone j call hcall hlevel hserved) with hj | hj
    · exact hj
    · obtain rfl := List.mem_singleton.1 hj
      exact absurd (List.mem_of_mem_head? hopen.2) hserved
  · rw [not_exists] at hopen
    exact ⟨v.inserted k, [], by rw [h.closed k hopen, List.append_nil], h.nodup k, hmade, hdone, .inl rfl⟩

end Logging

/-- A record in JSON holds the message between quotes, and is one object in printable characters whatever
the message is, as bytes; it is UTF-8 exactly if the message is. Where no record is put behind one that
waits for the end of its line, every call that the level lets pass has a line of its own in each stream as
soon as it is done with it. -/
theorem json_records_read_back (l : Logger) :
    (∀ s, hasBareQuote (Logger.escapeJsonString s) = false ∧
      ∀ rest, readString (Logger.escapeJsonString s ++ 34 :: rest) = some (s, rest)) ∧
    (∀ m level s, let record := (l.setFormat .JSON).formatMessage m level s
      record = Logger.messageHead m level ++ 34 :: (Logger.escapeJsonString s ++ [34, 125]) ∧
        (∀ c ∈ record, 32 ≤ c) ∧
        readObject record = some (Logger.recordMembers m level s) ∧ (IsUtf8 record ↔ IsUtf8 s)) ∧
    ∀ v, (l.setFormat .JSON).logging.Reach Logging.Apart v → ∀ k ∈ l.sinks, ∃ (order : List ℕ) (rest : Str),
      v.written k = asLines (order.map (v.record (l.setFormat .JSON))) ++ rest ∧
      tokens 10 (asLines (order.map (v.record (l.setFormat .JSON)))) = order.map (v.record (l.setFormat .JSON)) ∧
      order.Nodup ∧ (∀ i ∈ order, ∃ call, v.calls[i]? = some call ∧ l.level_.value ≤ call.level.value) ∧
      (∀ i call, v.calls[i]? = some call → l.level_.value ≤ call.level.value →
        k ∉ (v.underway i).sinks → i ∈ order) ∧
      (rest = [] ∨ ∃ i, v.Opens i k ∧ rest = v.record (l.setFormat .JSON) i) := by
  refine ⟨fun s => ⟨hasBareQuote_flatMap fun c _ => Logger.spells_escapeJsonChar c,
      isText_flatMap fun c _ => Logger.spells_escapeJsonChar c⟩, fun m level s => ?_, fun v h k hk => ?_⟩
  · exact ⟨Logger.formatMessage_json l m level s, Logger.printable_formatMessage l m level s,
      Logger.readObject_formatMessage l m level s, Logger.isUtf8_formatMessage l m level s⟩
  · obtain ⟨order, rest, htext, hnodup, hmade, hdone, hrest⟩ := (Logging.inLines_of_reach h).lines (k := k) hk
    refine ⟨order, rest, htext, tokens_lines ?_, hnodup, hmade, hdone, hrest⟩
    intro record hrecord hnewline
    obtain ⟨i, hi, rfl⟩ := List.mem_map.1 hrecord
    obtain ⟨call, hcall, _⟩ := hmade i hi
    rw [Logging.record_of hcall] at hnewline
    exact absurd (Logger.printable_formatMessage l call.moment call.level call.message 10 hnewline) (by decide)

namespace Logging

def sampleLogger : Logger := ⟨.INFO, .JSON, true, false, false⟩

def sampleCall (message : Str) : LogCall := ⟨⟨2024, 1, 2, 3, 4, 5, 6, 7⟩, .WARN, message⟩

def sampleStart : Logging := ⟨[], fun _ => ⟨[], false⟩, fun _ => [], fun _ => []⟩

end Logging

theorem json_records_read_back_two : ∃ (v : Logging) (order : List ℕ) (rest : Str), v.written .console =
    asLines (order.map (v.record Logging.sampleLogger)) ++ rest ∧ 0 ∈ order ∧ 1 ∈ order := by
  obtain ⟨v, hv, he⟩ := Option.map_eq_some_iff.1 (show
    (Logging.sampleLogger.logging.run Logging.Apart Logging.sampleStart [.log (Logging.sampleCall "a"),
      .insert 0, .insert 0,
      .log (Logging.sampleCall "b"), .insert 1, .insert 1]).map (fun v =>
        (v.calls[0]?.map LogCall.level, v.calls[1]?.map LogCall.level, (v.underway 0).sinks,
          (v.underway 1).sinks)) =
      some (some .WARN, some .WARN, [], []) by decide +kernel)
  simp only [Prod.mk.injEq, Option.map_eq_some_iff] at he
  obtain ⟨⟨first, hfirst, hlevel⟩, ⟨second, hsecond, hlevel'⟩, hdone, hdone'⟩ := he
  obtain ⟨order, rest, htext, _, _, _, hserved, _⟩ := (json_records_read_back Logging.sampleLogger).2.2 v
    (.run (.init rfl) hv) .console (by decide)
  refine ⟨v, order, rest, htext, hserved 0 first hfirst ?_ ?_, hserved 1 second hsecond ?_ ?_⟩
  · rw [hlevel]
    decide
  · rw [hdone]
    exact List.not_mem_nil
  · rw [hlevel']
    decide
  · rw [hdone']
    exact List.not_mem_nil

theorem json_records_do_not_read_back : ∃ v : Logging, Logging.sampleLogger.logging.Reach System.anyStep v ∧
    v.calls.map LogCall.message = [ascii "a", ascii "b"] ∧
      ((v.underway 0).sinks = [] ∧ (v.underway 1).sinks = []) ∧
    (∀ line ∈ tokens 10 (v.written .console), readObject line = none) ∧
    ¬IsUtf8 (Logging.sampleLogger.record (Logging.sampleCall [0xFF])) := by
  obtain ⟨v, hv, he⟩ := Option.map_eq_some_iff.1 (show
    (Logging.sampleLogger.logging.run System.anyStep Logging.sampleStart [.log (Logging.sampleCall "a"),
      .log (Logging.sampleCall "b"), .insert 0, .insert 1, .insert 0, .insert 1]).map (fun v =>
        (v.calls.map LogCall.message, (v.underway 0).sinks, (v.underway 1).sinks,
          (tokens 10 (v.written .console)).all fun line =>
          (readObject line).isNone)) = some ([ascii "a", ascii "b"], [], [], true) by decide +kernel)
  simp only [Prod.mk.injEq, List.all_eq_true, Option.isNone_iff_eq_none] at he
  obtain ⟨hmessages, hdone, hdone', hunread⟩ := he
  exact ⟨v, .run (.init rfl) hv, hmessages, ⟨hdone, hdone'⟩, hunread, by decide +kernel⟩

end SimpleSftpd
