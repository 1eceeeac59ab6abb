import SimpleSftpd.Config.Spellings
import SimpleSftpd.Config.TextLines

namespace SimpleSftpd

open Cxx FTPServerConfig

def sectionHeader (line : Str) : Option Str :=
  let text := trimRight (line.takeWhile (· ≠ '#'))
  if text.head?.any isBlank then none
  else if text.getLast? = some ':' then some (trim text.dropLast) else none

def enclosingSection (lines : List Str) : Option Str := (lines.filterMap sectionHeader).getLast?

def scalarLine (line : Str) : Option (Str × Str) :=
  let text : Str := line.takeWhile (· ≠ '#')
  let entry := trimLeft text
  if text.head?.any isBlank = false ∨ entry.head? = some '-' ∧ entry.tail.head?.all isBlank then none
  else match cut ':' entry with
  | none => none
  | some (key, value) => if trim value = [] then none else some (trim key, unquote ['"', '\''] (trim value))

structure ScalarAt (before : List Str) (line : Str) (section_ : Str) (s : Setting) (value : Str) : Prop where
  key : ∃ key, scalarLine line = some (key, value) ∧ findSetting yamlRows section_ key = some s
  encloses : enclosingSection before = some section_

def Sets (c : FTPServerConfig) (before : List Str) (line : Str) (s : Setting) (value : Str) : Prop :=
  ∃ r x, before.foldlM yamlLine ⟨[], c⟩ = some r ∧ s.kind.ofText value = some x ∧
    ∀ c', yamlLine { r with config := c' } line = some { r with config := s.store c' x }

/-- The last line before it that ends in a colon, at whatever column, names its section; it does not end in
one itself, its value can be converted, and so can those that the loader takes before it. -/
structure Undisturbed (before : List Str) (line : Str) (section_ : Str) (s : Setting) (value : Str) : Prop where
  nearest : ∃ earlier header between, before = earlier ++ header :: between ∧
    yamlDialect.headerOf header = some section_ ∧
    ∀ l ∈ between, yamlDialect.headerOf l = none
  entry : yamlDialect.headerOf line = none
  converts : s.kind.ofText value ≠ none
  takes : yamlDialect.TakesAll [] before

lemma yamlRows_keys : ∀ r ∈ yamlRows, ∀ r' ∈ yamlRows, r.key = r'.key → r.section_ = r'.section_ :=
  by decide +kernel

lemma yamlRows_sections : ∀ r ∈ yamlRows, r.section_ ≠ [] := by decide +kernel

lemma row_of_findSetting {rows : List Row} {section_ key : Str} {s : Setting}
    (h : findSetting rows section_ key = some s) :
    ∃ r ∈ rows, r.section_ = section_ ∧ r.key = key ∧ r.setting = s := by
  obtain ⟨r, hr, rfl⟩ := Option.map_eq_some_iff.1 h
  have hkey := List.find?_some hr
  simp only [decide_eq_true_eq] at hkey
  exact ⟨r, List.mem_of_find?_eq_some hr, hkey.1, hkey.2, rfl⟩

lemma section_unique {section_ section' key : Str} {s s' : Setting}
    (h : findSetting yamlRows section_ key = some s)
    (h' : findSetting yamlRows section' key = some s') : section_ = section' := by
  obtain ⟨r, hr, rfl, rfl, _⟩ := row_of_findSetting h
  obtain ⟨r', hr', rfl, hkey, _⟩ := row_of_findSetting h'
  exact yamlRows_keys r hr r' hr' hkey.symm

variable {before : List Str} {line section_ key value : Str} {s : Setting} {c : FTPServerConfig}

lemma parse_scalarLine (h : scalarLine line = some (key, value)) (hentry : yamlDialect.headerOf line = none) :
    yamlDialect.parse line = .pair key value := by
  rw [scalarLine] at h
  split at h
  · cases h
  rw [Dialect.headerOf] at hentry
  simp only [yamlDialect] at hentry ⊢
  split
  · rename_i hempty
    rw [hempty] at h
    cases h
  rename_i hempty
  rw [if_neg hempty] at hentry
  split
  · rename_i hcolon
    rw [if_pos hcolon] at hentry
    cases hentry
  · cases hcut : cut ':' (trimLeft (line.takeWhile (· ≠ '#'))) with
    | none =>
      rw [hcut] at h
      cases h
    | some p =>
      rw [hcut] at h
      dsimp only at h
      split at h
      · cases h
      · obtain ⟨rfl, rfl⟩ := Prod.mk.inj (Option.some.inj h)
        rfl

lemma sets_iff (h : ScalarAt before line section_ s value) (c : FTPServerConfig) :
    Sets c before line s value ↔ Undisturbed before line section_ s value := by
  obtain ⟨⟨key, hline, hfind⟩, _⟩ := h
  have hlines : yamlLine = yamlDialect.readLine := funext fun r => funext fun line => Dialect.yamlLine_eq r line
  have hsection (r : Reading) (hr : before.foldlM yamlDialect.readLine ⟨[], c⟩ = some r) :
    r.current_section = section_ ↔
      ∃ earlier header between, before = earlier ++ header :: between ∧
        yamlDialect.headerOf header = some section_ ∧
        ∀ l ∈ between, yamlDialect.headerOf l = none := by
    have hne : ¬[] = section_ := by
      obtain ⟨row, hrow, rfl, _⟩ := row_of_findSetting hfind
      exact (yamlRows_sections row hrow).symm
    rw [Dialect.readLines_section hr, Dialect.sectionAfter_eq_iff]
    exact or_iff_left fun h => hne h.1
  rw [Sets, hlines]
  constructor
  · rintro ⟨r, x, hr, hx, hsets⟩
    obtain ⟨c', hc'⟩ := s.exists_ne x
    have hstored := hsets c'
    rw [Dialect.readLine] at hstored
    have hentry : yamlDialect.headerOf line = none := by
      rw [Dialect.headerOf]
      cases hparse : yamlDialect.parse line with
      | nothing | pair => rfl
      | header name =>
        rw [hparse] at hstored
        have hsame : c' = s.store c' x := congrArg Reading.config (Option.some.inj hstored)
        rw [hsame, Setting.read_store_self] at hc'
        exact absurd rfl hc'
    rw [parse_scalarLine hline hentry] at hstored
    dsimp only at hstored
    refine ⟨(hsection r hr).1 ?_, hentry, Option.ne_none_iff_exists'.2 ⟨x, hx⟩,
      (Dialect.readLines_takes before ⟨[], c⟩).1 ⟨r, hr⟩⟩
    cases hfound : findSetting yamlRows r.current_section key with
    | none =>
      have hkept : c'.setText yamlRows r.current_section key value = some c' := by
        rw [setText, hfound]
      have hsame : c' = s.store c' x := by
        change (c'.setText yamlRows r.current_section key value).map _ = _ at hstored
        rw [hkept] at hstored
        exact congrArg Reading.config (Option.some.inj hstored)
      rw [hsame, Setting.read_store_self] at hc'
      exact absurd rfl hc'
    | some s' => exact section_unique hfound hfind
  · rintro ⟨hnearest, hentry, hconverts, htakes⟩
    obtain ⟨r, hr⟩ := (Dialect.readLines_takes before ⟨[], c⟩).2 htakes
    obtain ⟨x, hx⟩ := Option.ne_none_iff_exists'.1 hconverts
    obtain rfl := (hsection r hr).2 hnearest
    refine ⟨r, x, hr, hx, fun c' => ?_⟩
    have hset : c'.setText yamlRows r.current_section key value = some (s.store c' x) := by
      rw [setText, hfind]
      simp only [hx, Option.map_some]
    rw [Dialect.readLine, parse_scalarLine hline hentry]
    change (c'.setText yamlRows r.current_section key value).map _ = _
    rw [hset]
    rfl

theorem yaml_keys_reach_their_fields (c : FTPServerConfig) (content : Str) :
    (∀ before line after section_ s value, tokens '\n' content = before ++ line :: after →
      ScalarAt before line section_ s value → Sets c before line s value) ↔
    ∀ before line after section_ s value, tokens '\n' content = before ++ line :: after →
      ScalarAt before line section_ s value → Undisturbed before line section_ s value := by
  constructor
  · exact fun h before line after section_ s value hcontent hscalar =>
      (sets_iff hscalar c).1 (h _ _ _ _ _ _ hcontent hscalar)
  · exact fun h before line after section_ s value hcontent hscalar =>
      (sets_iff hscalar c).2 (h _ _ _ _ _ _ hcontent hscalar)

theorem yaml_keys_do_not_reach_their_fields :
    (∃ before after, tokens '\n' "security:\n  allowed_commands:\n    - \"USER\"\n  require_ssl: true\n" =
      before ++ ascii "  require_ssl: true" :: after ∧
        ScalarAt before "  require_ssl: true" "security" .require_ssl "true" ∧
      ¬Sets {} before "  require_ssl: true" .require_ssl "true") ∧
    (({} : FTPServerConfig).loadFromYAML
      "security:\n  allowed_commands:\n    - \"USER\"\n  require_ssl: true\n").map
      (·.security.require_ssl) = some false := by
  refine ⟨⟨["security:", "  allowed_commands:", "    - \"USER\""], [],
    by decide +kernel, ⟨⟨"require_ssl", ?_, ?_⟩, ?_⟩, ?_⟩, ?_⟩
  · decide +kernel
  · decide +kernel
  · decide +kernel
  · rintro ⟨r, x, hr, hx, hsets⟩
    obtain rfl : ⟨"allowed_commands", {}⟩ = r := Option.some.inj hr
    have hread : (false : Bool) = x := congrArg (fun r => r.map fun r => r.config.security.require_ssl)
      (hsets {}) |> Option.some.inj
    have hvalue : true = x := Option.some.inj hx
    exact Bool.false_ne_true (hread.trans hvalue.symm)
  · decide +kernel

end SimpleSftpd
