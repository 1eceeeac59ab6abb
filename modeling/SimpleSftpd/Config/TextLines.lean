import SimpleSftpd.Config.Loaders

namespace SimpleSftpd

open Cxx

inductive TextLine
  | nothing
  | header (name : Str)
  | pair (key value : Str)
  deriving DecidableEq

structure Dialect where
  parse : Str → TextLine
  looks : Str → Str
  rows : List Row

def iniDialect : Dialect where
  parse line :=
    let line := trim (line.takeWhile (· ≠ '#'))
    if line = [] then .nothing
    else if line.head? = some '[' ∧ line.getLast? = some ']' then .header line.tail.dropLast
    else match cut '=' line with
    | none => .nothing
    | some (key, value) => .pair (trim key) (unquote ['"'] (trim value))
  looks current := if current = [] then "connection" else current
  rows := iniRows

def yamlDialect : Dialect where
  parse line :=
    let line := trimLeft (line.takeWhile (· ≠ '#'))
    if line = [] then .nothing
    else if line.getLast? = some ':' then .header (trim line.dropLast)
    else match cut ':' line with
    | none => .nothing
    | some (key, value) => .pair (trim key) (unquote ['"', '\''] (trim value))
  looks current := current
  rows := yamlRows

namespace Dialect

variable (d : Dialect)

def readLine (r : Reading) (line : Str) : Option Reading := match d.parse line with
  | .nothing => some r
  | .header name => some { r with current_section := name }
  | .pair key value =>
    (r.config.setText d.rows (d.looks r.current_section) key value).map fun c => { r with config := c }

def headerOf (line : Str) : Option Str := match d.parse line with
  | .header name => some name
  | _ => none

def sectionNext (current line : Str) : Str := (d.headerOf line).getD current

def sectionAfter (current : Str) (lines : List Str) : Str := lines.foldl d.sectionNext current

def Takes (current line : Str) : Prop := ∀ key value, d.parse line = .pair key value →
  ∀ s, findSetting d.rows (d.looks current) key = some s → s.kind.ofText value ≠ none

def TakesAll (current : Str) (lines : List Str) : Prop :=
  ∀ before line after, lines = before ++ line :: after → d.Takes (d.sectionAfter current before) line

variable {d} {r r' : Reading} {line : Str} {lines : List Str} {current : Str}

lemma iniLine_eq (r : Reading) (line : Str) : FTPServerConfig.iniLine r line = iniDialect.readLine r line := by
  simp only [FTPServerConfig.iniLine, readLine, iniDialect]
  by_cases hempty : trim (line.takeWhile (· ≠ '#')) = []
  · simp only [if_pos hempty]
  simp only [if_neg hempty]
  split
  · rfl
  · cases cut '=' (trim (line.takeWhile (· ≠ '#'))) <;> rfl

lemma yamlLine_eq (r : Reading) (line : Str) : FTPServerConfig.yamlLine r line = yamlDialect.readLine r line := by
  simp only [FTPServerConfig.yamlLine, readLine, yamlDialect]
  by_cases hempty : trimLeft (line.takeWhile (· ≠ '#')) = []
  · simp only [if_pos hempty]
  simp only [if_neg hempty]
  split
  · rfl
  · cases cut ':' (trimLeft (line.takeWhile (· ≠ '#'))) <;> rfl

lemma readLine_section (h : d.readLine r line = some r') :
    r'.current_section = d.sectionNext r.current_section line := by
  rw [readLine] at h
  rw [sectionNext, headerOf]
  cases hparse : d.parse line with
  | nothing =>
    rw [hparse] at h
    obtain rfl := Option.some.inj h
    rfl
  | header name =>
    rw [hparse] at h
    obtain rfl := Option.some.inj h
    rfl
  | pair key value =>
    rw [hparse] at h
    obtain ⟨c, _, rfl⟩ := Option.map_eq_some_iff.1 h
    rfl

lemma readLines_section (h : lines.foldlM d.readLine r = some r') :
    r'.current_section = d.sectionAfter r.current_section lines := by
  induction lines generalizing r with
  | nil =>
    obtain rfl := Option.some.inj h
    rfl
  | cons line lines ih =>
    obtain ⟨r₁, hline, hlines⟩ := Option.bind_eq_some_iff.1 h
    rw [ih hlines, readLine_section hline]
    rfl

lemma sectionAfter_eq_iff {section_ : Str} (lines : List Str) : d.sectionAfter current lines = section_ ↔
    (∃ before header between, lines = before ++ header :: between ∧ d.headerOf header = some section_ ∧
      ∀ line ∈ between, d.headerOf line = none) ∨ current = section_ ∧ ∀ line ∈ lines, d.headerOf line = none := by
  induction lines generalizing current with
  | nil => simp [sectionAfter]
  | cons line lines ih =>
    have hnext : d.sectionAfter current (line :: lines) = d.sectionAfter (d.sectionNext current line) lines := rfl
    rw [hnext, ih]
    constructor
    · rintro (⟨before, header, between, rfl, hheader, hbetween⟩ | ⟨hsection, hlines⟩)
      · exact .inl ⟨line :: before, header, between, rfl, hheader, hbetween⟩
      · cases hline : d.headerOf line with
        | none =>
          rw [sectionNext, hline] at hsection
          exact .inr ⟨hsection, List.forall_mem_cons.2 ⟨hline, hlines⟩⟩
        | some name =>
          rw [sectionNext, hline] at hsection
          exact .inl ⟨[], line, lines, rfl, hline.trans (congrArg some hsection), hlines⟩
    · rintro (⟨before, header, between, hsplit, hheader, hbetween⟩ | ⟨rfl, hlines⟩)
      · cases before with
        | nil =>
          obtain ⟨rfl, rfl⟩ := List.cons.inj hsplit
          refine .inr ⟨?_, hbetween⟩
          rw [sectionNext, hheader]
          rfl
        | cons line' before =>
          obtain ⟨rfl, rfl⟩ := List.cons.inj hsplit
          exact .inl ⟨before, header, between, rfl, hheader, hbetween⟩
      · obtain ⟨hline, hlines⟩ := List.forall_mem_cons.1 hlines
        refine .inr ⟨?_, hlines⟩
        rw [sectionNext, hline]
        rfl

lemma readLine_takes (r : Reading) (line : Str) :
    (∃ r', d.readLine r line = some r') ↔ d.Takes r.current_section line := by
  rw [readLine, Takes]
  cases hparse : d.parse line with
  | nothing => exact iff_of_true ⟨r, rfl⟩ fun _ _ h => by cases h
  | header name => exact iff_of_true ⟨_, rfl⟩ fun _ _ h => by cases h
  | pair key value =>
    simp only [FTPServerConfig.setText]
    constructor
    · rintro ⟨r', h⟩ _ _ ⟨⟩ s hs hnone
      rw [hs] at h
      simp [hnone] at h
    · intro h
      cases hs : findSetting d.rows (d.looks r.current_section) key with
      | none => exact ⟨r, rfl⟩
      | some s =>
        obtain ⟨v, hv⟩ := Option.ne_none_iff_exists'.1 (h key value rfl s hs)
        exact ⟨{ r with config := s.store r.config v }, by simp [hv]⟩

lemma takesAll_cons :
    d.TakesAll current (line :: lines) ↔ d.Takes current line ∧ d.TakesAll (d.sectionNext current line) lines := by
  constructor
  · intro h
    refine ⟨h [] line lines rfl, ?_⟩
    rintro before line' after rfl
    exact h (line :: before) line' after rfl
  · rintro ⟨hline, hlines⟩ before line' after h
    cases before with
    | nil =>
      obtain ⟨rfl, rfl⟩ := List.cons.inj h
      exact hline
    | cons line₁ before =>
      obtain ⟨rfl, hrest⟩ := List.cons.inj h
      exact hlines before line' after hrest

lemma readLines_takes (lines : List Str) (r : Reading) :
    (∃ r', lines.foldlM d.readLine r = some r') ↔ d.TakesAll r.current_section lines := by
  induction lines generalizing r with
  | nil => exact iff_of_true ⟨r, rfl⟩ fun before _ _ h => by cases before <;> cases h
  | cons line lines ih =>
    rw [takesAll_cons, ← readLine_takes]
    constructor
    · rintro ⟨r', h⟩
      obtain ⟨r₁, hline, hlines⟩ := Option.bind_eq_some_iff.1 h
      rw [← readLine_section hline]
      exact ⟨⟨r₁, hline⟩, (ih r₁).1 ⟨r', hlines⟩⟩
    · rintro ⟨⟨r₁, hline⟩, hlines⟩
      rw [← readLine_section hline] at hlines
      obtain ⟨r', h⟩ := (ih r₁).2 hlines
      exact ⟨r', Option.bind_eq_some_iff.2 ⟨r₁, hline, h⟩⟩

end Dialect

lemma loadFromINI_takes (c : FTPServerConfig) (content : Str) :
    (∃ c', c.loadFromINI content = some c') ↔ iniDialect.TakesAll [] (tokens '\n' content) := by
  have hlines : FTPServerConfig.iniLine = iniDialect.readLine := funext fun r => funext fun line =>
    Dialect.iniLine_eq r line
  rw [FTPServerConfig.loadFromINI, hlines, ← Dialect.readLines_takes _ ⟨[], c⟩]
  simp

lemma loadFromYAML_takes (c : FTPServerConfig) (content : Str) :
    (∃ c', c.loadFromYAML content = some c') ↔ yamlDialect.TakesAll [] (tokens '\n' content) := by
  have hlines : FTPServerConfig.yamlLine = yamlDialect.readLine := funext fun r => funext fun line =>
    Dialect.yamlLine_eq r line
  rw [FTPServerConfig.loadFromYAML, hlines, ← Dialect.readLines_takes _ ⟨[], c⟩]
  simp

end SimpleSftpd
