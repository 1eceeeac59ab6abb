import SimpleSftpd.Config.Spellings
import SimpleSftpd.Config.TextLines

namespace SimpleSftpd

open Cxx FTPServerConfig

def inQuotes (v : Str) : Str := "\"" ++ v ++ "\""

def Dialect.Places (d : Dialect) (row : Row) (line : Str) (c : FTPServerConfig) (content : Str) : Prop :=
  ∃ before after r, tokens '\n' content = before ++ line :: after ∧ before.foldlM d.readLine ⟨[], c⟩ = some r ∧
    d.looks r.current_section = row.section_ ∧
    ∀ c', ∃ r', after.foldlM d.readLine ⟨r.current_section, c'⟩ = some r' ∧
      row.setting.read r'.config = row.setting.read c'

def Keeps (d : Dialect) (load : FTPServerConfig → Str → Option FTPServerConfig) (row : Row) (line v : Str) :
    Prop :=
  ∀ c content, d.Places row line c content →
    ∃ c' x, load c content = some c' ∧ row.setting.kind.ofText v = some x ∧ row.setting.read c' = x

section

variable {c : Byte} {quotes : List Byte} {v w s indent key : Str}

lemma trimRight_append (h : isBlank c = false) (s v : Str) : trimRight (s ++ c :: v) = s ++ c :: trimRight v := by
  have hstop : (c :: s.reverse).dropWhile isBlank = c :: s.reverse := List.dropWhile_cons_of_neg (by simp [h])
  rw [trimRight, trimRight, List.reverse_append, List.reverse_cons, List.append_assoc, List.singleton_append,
    List.dropWhile_append]
  by_cases hblank : (v.reverse.dropWhile isBlank).isEmpty = true
  · rw [if_pos hblank, hstop, List.isEmpty_iff.1 hblank, List.reverse_cons, List.reverse_reverse]
    rfl
  · rw [if_neg hblank, List.reverse_append, List.reverse_cons, List.reverse_reverse, List.append_assoc]
    rfl

lemma mem_of_trimRight (h : c ∈ trimRight v) : c ∈ v := by
  rw [trimRight, List.mem_reverse] at h
  exact List.mem_reverse.1 ((List.dropWhile_sublist _).subset h)

lemma unquote_open (hw : 34 ∉ w) : unquote quotes (34 :: w) = 34 :: w := by
  rw [unquote, if_neg]
  rintro ⟨hlength, hany⟩
  obtain ⟨q, _, hends⟩ := List.any_eq_true.1 hany
  obtain ⟨hfirst, hlast⟩ := of_decide_eq_true hends
  obtain rfl : 34 = q := Option.some.inj hfirst
  obtain ⟨b, w, rfl⟩ := List.exists_cons_of_ne_nil (l := w) (fun h => by simp [h] at hlength)
  rw [List.getLast?_cons_cons] at hlast
  exact hw (List.mem_of_getLast? hlast)

lemma trim_open (v : Str) : trim (32 :: 34 :: v) = 34 :: trimRight v := by
  have hleft : trimLeft (32 :: 34 :: v) = 34 :: v := rfl
  rw [trim, hleft]
  exact trimRight_append rfl [] v

lemma value_open (hv : 34 ∉ v) : unquote quotes (trim (32 :: 34 :: v)) = 34 :: trimRight v := by
  rw [trim_open]
  exact unquote_open fun h => hv (mem_of_trimRight h)

lemma trimLeft_indent (h : ∀ c ∈ indent, isBlank c = true) (s : Str) : trimLeft (indent ++ s) = trimLeft s := by
  rw [trimLeft, List.dropWhile_append_of_pos h]
  rfl

lemma takeWhile_cut {d : Byte} (h : d ∉ s) (rest : Str) : (s ++ d :: rest).takeWhile (· ≠ d) = s := by
  have hall : ∀ b ∈ s, decide (b ≠ d) = true := fun b hb => decide_eq_true fun he => h (he ▸ hb)
  have hstop : (d :: rest).takeWhile (· ≠ d) = [] := List.takeWhile_cons_of_neg (by simp)
  rw [List.takeWhile_append_of_pos hall, hstop, List.append_nil]

variable {line u : Str}

lemma trimLeft_key (hk : IsWord key) (s : Str) : trimLeft (key ++ s) = key ++ s := by
  obtain ⟨c, rest, rfl⟩ := List.exists_cons_of_ne_nil hk.1
  apply trimLeft_self
  intro c' hc'
  obtain rfl : c = c' := Option.some.inj hc'
  exact isBlank_of_word hk c List.mem_cons_self

lemma iniDialect_trimmed {t : Str} (h : trim (line.takeWhile (· ≠ 35)) = t) : iniDialect.parse line =
    if t = [] then .nothing
    else if t.head? = some 91 ∧ t.getLast? = some 93 then .header t.tail.dropLast
    else match cut 61 t with
    | none => .nothing
    | some (key, value) => .pair (trim key) (unquote [34] (trim value)) := by
  subst h
  rfl

lemma yamlDialect_trimmed {t : Str} (h : trimLeft (line.takeWhile (· ≠ 35)) = t) : yamlDialect.parse line =
    if t = [] then .nothing
    else if t.getLast? = some 58 then .header (trim t.dropLast)
    else match cut 58 t with
    | none => .nothing
    | some (key, value) => .pair (trim key) (unquote [34, 39] (trim value)) := by
  subst h
  rfl

lemma iniDialect_parse (hindent : ∀ c ∈ indent, isBlank c = true) (hk : IsWord key)
    (hline : line.takeWhile (· ≠ 35) = indent ++ (key ++ (ascii " = " ++ 34 :: u))) :
    iniDialect.parse line = .pair key (unquote [34] (trim (32 :: 34 :: trimRight u))) := by
  have hshape : key ++ (ascii " = " ++ 34 :: trimRight u) = (key ++ [32]) ++ (61 :
      Byte) :: 32 :: 34 :: trimRight u := by
    rw [List.append_assoc]
    rfl
  have htrim : trim (line.takeWhile (· ≠ 35)) = key ++ (ascii " = " ++ 34 :: trimRight u) := by
    rw [hline, trim, trimLeft_indent hindent, trimLeft_key hk, ← List.append_assoc, trimRight_append rfl,
      List.append_assoc]
  have hcut : cut 61 (key ++ (ascii " = " ++ 34 :: trimRight u)) = some (key ++ [32],
      32 :: 34 :: trimRight u) := by
    rw [hshape]
    apply cut_append
    simp only [List.mem_append, not_or]
    exact ⟨hk.not_mem (by decide), by decide⟩
  have hne : key ++ (ascii " = " ++ 34 :: trimRight u) ≠ [] := List.append_ne_nil_of_left_ne_nil hk.1 _
  have hheader : ¬((key ++ (ascii " = " ++ 34 :: trimRight u)).head? = some 91 ∧
      (key ++ (ascii " = " ++ 34 :: trimRight u)).getLast? = some 93) := by
    rintro ⟨h, _⟩
    rw [List.head?_append_of_ne_nil key hk.1] at h
    exact hk.not_mem (by decide) (List.mem_of_head? h)
  rw [iniDialect_trimmed htrim, if_neg hne, if_neg hheader, hcut]
  exact congrArg (TextLine.pair · _) hk.trim_padded

lemma yamlDialect_parse (hindent : ∀ c ∈ indent, isBlank c = true) (hk : IsWord key)
    (hline : line.takeWhile (· ≠ 35) = indent ++ (key ++ (ascii ": " ++ 34 :: u))) :
    (u.getLast? = some 58 → ∃ name, yamlDialect.parse line = .header name) ∧
      (u.getLast? ≠ some 58 → yamlDialect.parse line = .pair key (unquote [34, 39] (trim (32 :: 34 :: u)))) := by
  have hleft : trimLeft (line.takeWhile (· ≠ 35)) = key ++ (ascii ": " ++ 34 :: u) := by
    rw [hline, trimLeft_indent hindent, trimLeft_key hk]
  have hcut : cut 58 (key ++ (ascii ": " ++ 34 :: u)) = some (key, 32 :: 34 :: u) :=
    cut_append (hk.not_mem (by decide)) _
  have hblanks := isBlank_of_word hk
  have htrim : trim key = key := trim_self (fun c hc => hblanks c (List.mem_of_mem_head? hc)) fun c hc =>
    hblanks c (List.mem_of_getLast? hc)
  have hne : key ++ (ascii ": " ++ 34 :: u) ≠ [] := List.append_ne_nil_of_left_ne_nil hk.1 _
  have hlast : (key ++ (ascii ": " ++ 34 :: u)).getLast? = some 58 ↔ u.getLast? = some 58 := by
    rw [← List.append_assoc, List.getLast?_append_of_ne_nil _ (List.cons_ne_nil _ _)]
    cases u with
    | nil => exact iff_of_false (by decide) nofun
    | cons c u => rw [List.getLast?_cons_cons]
  rw [yamlDialect_trimmed hleft, if_neg hne, hcut]
  constructor
  · exact fun h => ⟨_, if_pos (hlast.2 h)⟩
  · intro h
    rw [if_neg fun hcolon => h (hlast.1 hcolon)]
    exact congrArg (TextLine.pair · _) htrim

end

section

variable {d : Dialect} {load : FTPServerConfig → Str → Option FTPServerConfig} {row : Row}
    {line first v value : Str} {c : FTPServerConfig}

lemma ofText_text {k : ValueKind} (hk : k = .text) (v : Str) : ∃ x, k.ofText v = some x := by
  subst hk
  exact ⟨v, rfl⟩

lemma ofText_injective {k : ValueKind} (hk : k = .text) {v w : Str} (h : k.ofText v = k.ofText w) : v = w := by
  subst hk
  exact Option.some.inj h

lemma readLine_pair {r : Reading} {x : row.setting.kind.type}
    (hrow : findSetting d.rows row.section_ row.key = some row.setting)
    (hsection : d.looks r.current_section = row.section_) (hparse : d.parse line = .pair row.key value)
    (hx : row.setting.kind.ofText value = some x) :
    d.readLine r line = some { r with config := row.setting.store r.config x } := by
  have hset : r.config.setText d.rows (d.looks r.current_section) row.key value =
      some (row.setting.store r.config x) := by
    rw [hsection, setText, hrow]
    simp only [hx, Option.map_some]
  rw [Dialect.readLine, hparse]
  simp only [hset, Option.map_some]

lemma keeps_of_parse
    (hload : ∀ c content, load c content = ((tokens '\n' content).foldlM d.readLine ⟨[], c⟩).map (·.config))
    (htext : row.setting.kind = .text) (hrow : findSetting d.rows row.section_ row.key = some row.setting)
    (hparse : d.parse line = .pair row.key v) : Keeps d load row line v := by
  rintro c content ⟨before, after, r, hlines, hbefore, hsection, hafter⟩
  obtain ⟨x, hx⟩ := ofText_text htext v
  obtain ⟨r', hr', hkept⟩ := hafter (row.setting.store r.config x)
  refine ⟨r'.config, x, ?_, hx, hkept.trans (Setting.read_store_self _ _ _)⟩
  rw [hload, hlines, List.foldlM_append, hbefore]
  change ((d.readLine r line >>= fun r => after.foldlM d.readLine r).map _) = _
  rw [readLine_pair hrow hsection hparse hx]
  change (after.foldlM d.readLine ⟨r.current_section, row.setting.store r.config x⟩).map _ = _
  rw [hr']
  rfl

lemma not_keeps_of_parse
    (hload : ∀ c content, load c content = ((tokens '\n' content).foldlM d.readLine ⟨[], c⟩).map (·.config))
    (htext : row.setting.kind = .text) (hrow : findSetting d.rows row.section_ row.key = some row.setting)
    (hfirst : ∀ c, d.readLine ⟨[], c⟩ first = some ⟨row.section_, c⟩)
    (hlooks : d.looks row.section_ = row.section_) (hlines : 10 ∉ first ∧ 10 ∉ line)
    (hparse : (∃ name, d.parse line = .header name) ∨ ∃ value, value ≠ v ∧ d.parse line = .pair row.key value) :
    ¬Keeps d load row line v := by
  intro hkeeps
  obtain ⟨x, hx⟩ := ofText_text htext v
  obtain ⟨c, hc⟩ := row.setting.exists_ne x
  have htokens : tokens '\n' (document [first, line]) = [first, line] := tokens_document (by simpa using hlines)
  obtain ⟨c', x', hloaded, hx', hread⟩ := hkeeps c (document [first, line])
    ⟨[first], [], ⟨row.section_, c⟩, htokens, by simp [hfirst c], hlooks, fun c' => ⟨_, rfl, rfl⟩⟩
  obtain rfl : x = x' := Option.some.inj (hx.symm.trans hx')
  rw [hload, htokens, List.foldlM_cons, hfirst c] at hloaded
  change ((d.readLine ⟨row.section_, c⟩ line >>= fun r => pure r).map _) = _ at hloaded
  rcases hparse with ⟨name, hname⟩ | ⟨value, hne, hpair⟩
  · rw [Dialect.readLine, hname] at hloaded
    obtain rfl : c = c' := Option.some.inj hloaded
    exact hc hread
  · obtain ⟨y, hy⟩ := ofText_text htext value
    rw [readLine_pair hrow hlooks hpair hy] at hloaded
    obtain rfl : row.setting.store c y = c' := Option.some.inj hloaded
    rw [Setting.read_store_self] at hread
    exact hne (ofText_injective htext (by rw [hy, hx, hread]))

end

section

variable {row : Row} {indent v : Str} {quotes : List Byte}

lemma quoted_cut (hquote : 34 ∉ v) :
    (35 ∉ v ∧ ∀ s, 35 ∉ s → (s ++ inQuotes v).takeWhile (· ≠ 35) = s ++ 34 :: (v ++ [34])) ∨
    ∃ u, 35 ∈ v ∧ 34 ∉ u ∧ ∀ s, 35 ∉ s → (s ++ inQuotes v).takeWhile (· ≠ 35) = s ++ 34 :: u := by
  have hopen (s : Str) : s ++ inQuotes v = (s ++ 34 :: v) ++ [34] := by
    rw [inQuotes, List.append_assoc, List.append_assoc]
    rfl
  by_cases hcomment : 35 ∈ v
  · obtain ⟨u, rest, rfl, hu⟩ := List.eq_append_cons_of_mem hcomment
    refine .inr ⟨u, hcomment, fun h => hquote (List.mem_append_left _ h), fun s hs => ?_⟩
    have hsplit : s ++ inQuotes (u ++ 35 :: rest) = (s ++ 34 :: u) ++ 35 :: (rest ++ [34]) := by
      rw [hopen]
      simp
    rw [hsplit]
    apply takeWhile_cut
    exact List.not_mem_append hs (List.not_mem_cons_of_ne_of_not_mem (by decide) hu)
  · refine .inl ⟨hcomment, fun s hs => ?_⟩
    rw [takeWhile_ne_self]
    · rw [hopen, List.append_assoc]
      rfl
    · rw [hopen]
      exact List.not_mem_append
        (List.not_mem_append hs (List.not_mem_cons_of_ne_of_not_mem (by decide) hcomment)) (by decide)

lemma value_closed (hquotes : IsQuotes quotes) (v : Str) :
    unquote quotes (trim (32 :: 34 :: (v ++ [34]))) = v := by
  have hend : trimRight (v ++ [34]) = v ++ [34] := trimRight_append rfl v []
  rw [trim_open, hend]
  exact unquote_quoted hquotes v

lemma inQuotes_no_line (hline : 10 ∉ v) : 10 ∉ inQuotes v :=
  List.not_mem_append (List.not_mem_append (by decide) hline) (by decide)

lemma not_mem_start {c : Byte} {key middle : Str} (hindent : ∀ c ∈ indent, isBlank c = true) (hk : IsWord key)
    (hblank : isBlank c = false) (hc : c < 95)
    (hm : c ∉ middle) : c ∉ indent ++ (key ++ middle) := by
  apply List.not_mem_append
  · exact fun h => Bool.false_ne_true (hblank.symm.trans (hindent c h))
  · exact List.not_mem_append (hk.not_mem hc) hm

lemma keeps_ini (hrow : row ∈ iniRows) (htext : row.setting.kind = .text)
    (hindent : ∀ c ∈ indent, isBlank c = true) (hquote : 34 ∉ v)
    (hline : 10 ∉ v) :
    Keeps iniDialect loadFromINI row (indent ++ (row.key ++ (ascii " = " ++ inQuotes v))) v ↔ 35 ∉ v := by
  have hlines : iniLine = iniDialect.readLine := funext fun r => funext fun line => Dialect.iniLine_eq r line
  have hload (c : FTPServerConfig) (content : Str) :
      loadFromINI c content = ((tokens '\n' content).foldlM iniDialect.readLine ⟨[], c⟩).map (·.config) := by
    rw [loadFromINI, hlines]
  have hknown : row ∈ knownRows := by simp [knownRows, hrow]
  obtain ⟨hsection, hk⟩ := knownRows_words row hknown
  have hfind : findSetting iniDialect.rows row.section_ row.key = some row.setting := by
    have hfound := (findSetting_known row hknown).1
    rwa [if_pos hrow] at hfound
  have hmove (t : Str) : indent ++ (row.key ++ (ascii " = " ++ t)) = (indent ++ (row.key ++ ascii " = ")) ++
    t := by simp only [List.append_assoc]
  have hcomments : 35 ∉ indent ++ (row.key ++ ascii " = ") := not_mem_start hindent hk rfl (by decide) (by decide)
  have hnewlines : 10 ∉ indent ++ (row.key ++ ascii " = ") := not_mem_start hindent hk rfl (by decide) (by decide)
  rcases quoted_cut hquote with ⟨hcomment, hcut⟩ | ⟨u, hcomment, hu, hcut⟩
  · apply iff_of_true _ hcomment
    have hleft := hcut _ hcomments
    rw [← hmove, ← hmove] at hleft
    have hend : trimRight (v ++ [34]) = v ++ [34] := trimRight_append rfl v []
    have hparse := iniDialect_parse hindent hk hleft
    rw [hend, value_closed ⟨List.mem_singleton_self _, by simp⟩] at hparse
    exact keeps_of_parse hload htext hfind hparse
  · apply iff_of_false _ (not_not.2 hcomment)
    have hleft := hcut _ hcomments
    rw [← hmove, ← hmove] at hleft
    have hparse := iniDialect_parse hindent hk hleft
    rw [value_open fun h => hu (mem_of_trimRight h)] at hparse
    have hfirst (c : FTPServerConfig) : iniDialect.readLine ⟨[], c⟩ (ascii "[" ++ row.section_ ++ ascii "]") =
        some ⟨row.section_, c⟩ := by
      rw [← Dialect.iniLine_eq]
      exact iniLine_section hsection ⟨[], c⟩
    refine not_keeps_of_parse hload htext hfind hfirst (if_neg hsection.1) ⟨?_, ?_⟩ (.inr ⟨_, ?_, hparse⟩)
    · exact List.not_mem_append (List.not_mem_append (by decide) (hsection.not_mem (by decide))) (by decide)
    · rw [hmove]
      exact List.not_mem_append hnewlines (inQuotes_no_line hline)
    · rintro rfl
      exact hquote List.mem_cons_self

lemma keeps_yaml (hrow : row ∈ yamlRows) (htext : row.setting.kind = .text)
    (hindent : ∀ c ∈ indent, isBlank c = true) (hquote : 34 ∉ v)
    (hline : 10 ∉ v) :
    Keeps yamlDialect loadFromYAML row (indent ++ (row.key ++ (ascii ": " ++ inQuotes v))) v ↔ 35 ∉ v := by
  have hlines : yamlLine = yamlDialect.readLine := funext fun r => funext fun line => Dialect.yamlLine_eq r line
  have hload (c : FTPServerConfig) (content : Str) :
      loadFromYAML c content = ((tokens '\n' content).foldlM yamlDialect.readLine ⟨[], c⟩).map (·.config) := by
    rw [loadFromYAML, hlines]
  have hknown : row ∈ knownRows := by simp [knownRows, hrow]
  obtain ⟨hsection, hk⟩ := knownRows_words row hknown
  have hfind : findSetting yamlDialect.rows row.section_ row.key = some row.setting := by
    have hfound := (findSetting_known row hknown).2
    rwa [if_pos hrow] at hfound
  have hmove (t : Str) : indent ++ (row.key ++ (ascii ": " ++ t)) = (indent ++ (row.key ++ ascii ": ")) ++
    t := by simp only [List.append_assoc]
  have hcomments : 35 ∉ indent ++ (row.key ++ ascii ": ") := not_mem_start hindent hk rfl (by decide) (by decide)
  have hnewlines : 10 ∉ indent ++ (row.key ++ ascii ": ") := not_mem_start hindent hk rfl (by decide) (by decide)
  rcases quoted_cut hquote with ⟨hcomment, hcut⟩ | ⟨u, hcomment, hu, hcut⟩
  · apply iff_of_true _ hcomment
    have hleft := hcut _ hcomments
    rw [← hmove, ← hmove] at hleft
    have hend : (v ++ [(34 : Byte)]).getLast? ≠ some 58 := by
      rw [List.getLast?_concat]
      decide
    have hparse := (yamlDialect_parse hindent hk hleft).2 hend
    rw [value_closed ⟨List.mem_cons_self, by simp⟩] at hparse
    exact keeps_of_parse hload htext hfind hparse
  · apply iff_of_false _ (not_not.2 hcomment)
    have hleft := hcut _ hcomments
    rw [← hmove, ← hmove] at hleft
    obtain ⟨hheader, hpair⟩ := yamlDialect_parse hindent hk hleft
    have hfirst (c : FTPServerConfig) : yamlDialect.readLine ⟨[], c⟩ (row.section_ ++ ascii ":") =
        some ⟨row.section_, c⟩ := by
      rw [← Dialect.yamlLine_eq]
      exact yamlLine_section hsection ⟨[], c⟩
    have hread : (∃ name, yamlDialect.parse (indent ++ (row.key ++ (ascii ": " ++ inQuotes v))) = .header name) ∨
        ∃ value, value ≠ v ∧ yamlDialect.parse (indent ++ (row.key ++ (ascii ": " ++ inQuotes v))) =
          .pair row.key value := by
      by_cases hcolon : u.getLast? = some 58
      · exact .inl (hheader hcolon)
      · refine .inr ⟨34 :: trimRight u, ?_, ?_⟩
        · rintro rfl
          exact hquote List.mem_cons_self
        · rw [hpair hcolon, value_open hu]
    refine not_keeps_of_parse hload htext hfind hfirst rfl ⟨?_, ?_⟩ hread
    · exact List.not_mem_append (hsection.not_mem (by decide)) (by decide)
    · rw [hmove]
      exact List.not_mem_append hnewlines (inQuotes_no_line hline)

end

theorem quoted_values_are_kept (row : Row) (htext : row.setting.kind = .text) (indent v : Str)
    (hindent : ∀ c ∈ indent, isBlank c = true)
    (hquote : 34 ∉ v) (hline : 10 ∉ v) :
    (row ∈ iniRows →
      (Keeps iniDialect loadFromINI row (indent ++ (row.key ++ (ascii " = " ++ inQuotes v))) v ↔ 35 ∉ v)) ∧
    (row ∈ yamlRows →
      (Keeps yamlDialect loadFromYAML row (indent ++ (row.key ++ (ascii ": " ++ inQuotes v))) v ↔ 35 ∉ v)) := by
  constructor
  · intro hrow
    exact keeps_ini hrow htext hindent hquote hline
  · intro hrow
    exact keeps_yaml hrow htext hindent hquote hline

theorem quoted_values_are_kept_log_file :
    (({} : FTPServerConfig).loadFromINI "[logging]\nlog_file = \" a:b=[c] \"\n").map (·.logging.log_file) =
      some " a:b=[c] " ∧
    (Keeps iniDialect loadFromINI ⟨"logging", "log_file", .log_file⟩ ("log_file = " ++ inQuotes " a:b=[c] ")
      " a:b=[c] " ↔ 35 ∉ ascii " a:b=[c] ") := by
  constructor
  · decide +kernel
  · exact (quoted_values_are_kept ⟨"logging", "log_file", .log_file⟩ rfl [] " a:b=[c] " nofun (by decide)
      (by decide)).1 (by decide +kernel)

theorem quoted_values_are_not_kept :
    (({} : FTPServerConfig).loadFromINI "[logging]\nlog_file = \"a#b\"\n").map (·.logging.log_file) = some "\"a" ∧
    (({} : FTPServerConfig).loadFromYAML "logging:\n  log_file: \"a#b\"\n").map (·.logging.log_file) = some "\"a" ∧
    (({} : FTPServerConfig).loadFromYAML "logging:\n  log_file: \"a:#b\"\n").map (·.logging.log_file) =
      some ({} : FTPServerConfig).logging.log_file ∧
    ¬Keeps iniDialect loadFromINI ⟨"logging", "log_file", .log_file⟩ "log_file = \"a#b\"" "a#b" := by
  refine ⟨by decide +kernel, by decide +kernel, by decide +kernel, ?_⟩
  intro hkeeps
  obtain ⟨c', x, hloaded, hx, hread⟩ := hkeeps {} "[logging]\nlog_file = \"a#b\"\n"
    ⟨["[logging]"], [], ⟨"logging", {}⟩, by decide +kernel, rfl, by decide +kernel, fun c' => ⟨_, rfl, rfl⟩⟩
  have hvalue : (({} : FTPServerConfig).loadFromINI "[logging]\nlog_file = \"a#b\"\n").map
    (·.logging.log_file) = some "\"a" := by decide +kernel
  rw [hloaded] at hvalue
  obtain rfl : ascii "a#b" = x := Option.some.inj hx
  have hsame : ascii "a#b" = ascii "\"a" := hread.symm.trans (Option.some.inj hvalue)
  exact absurd hsame (by decide)

end SimpleSftpd
