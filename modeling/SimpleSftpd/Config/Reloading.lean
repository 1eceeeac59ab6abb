import SimpleSftpd.Config.LoadFromFile
import SimpleSftpd.Config.Spellings

namespace SimpleSftpd

open Cxx

def Setting.isReset : Setting → Bool
  | .bind_address | .bind_port | .max_connections | .timeout_seconds | .log_file | .log_level | .log_to_console
  | .log_to_file | .require_ssl | .allow_anonymous | .enabled | .max_requests_per_minute
  | .max_connections_per_ip => true
  | _ => false

attribute [ext] ConnectionConfig LoggingConfig SecurityConfig RateLimitConfig TransferConfig FTPServerConfig

namespace FTPServerConfig

variable {c c' c₂ : FTPServerConfig} {s : Setting}

structure SameAnonymous (c c' : FTPServerConfig) : Prop where
  anonymous_user : c.security.anonymous_user = c'.security.anonymous_user
  anonymous_password : c.security.anonymous_password = c'.security.anonymous_password

lemma read_withDefaults_of_reset (h : s.isReset = true) (c c₂ : FTPServerConfig) :
    s.read c.withDefaults = s.read c₂.withDefaults := by
  cases s <;> first | rfl | cases h

lemma read_withDefaults_of_kept (h : s.isReset = false) (c : FTPServerConfig) :
    s.read c.withDefaults = s.read c := by
  cases s <;> first | rfl | cases h

lemma sameAnonymous_store (s : Setting) (c : FTPServerConfig) (v : s.kind.type) :
    SameAnonymous (s.store c v) c := by
  cases s <;> exact ⟨rfl, rfl⟩

lemma eq_iff_read : c = c' ↔ (∀ s : Setting, s.read c = s.read c') ∧ SameAnonymous c c' := by
  constructor
  · rintro rfl
    exact ⟨fun _ => rfl, rfl, rfl⟩
  · rintro ⟨hread, huser, hpassword⟩
    apply FTPServerConfig.ext
    · exact ConnectionConfig.ext (hread .bind_address) (hread .bind_port) (hread .max_connections)
        (hread .timeout_seconds)
        (hread .passive_mode) (hread .passive_port_range_start) (hread .passive_port_range_end)
    · exact LoggingConfig.ext (hread .log_file) (hread .log_level) (hread .log_format) (hread .log_to_console)
        (hread .log_to_file)
    · exact SecurityConfig.ext (hread .max_sessions_per_user) (hread .require_ssl) (hread .ssl_cert_file)
        (hread .ssl_key_file)
        (hread .ssl_ca_file) (hread .require_client_cert) (hread .ssl_client_ca_file)
          (hread .allow_anonymous) huser hpassword
        (hread .chroot_enabled) (hread .chroot_directory) (hread .drop_privileges) (hread .run_as_user)
          (hread .run_as_group)
        (hread .enable_pam) (hread .user_file) (hread .virtual_hosts_file)
    · exact RateLimitConfig.ext (hread .enabled) (hread .max_requests_per_minute) (hread .max_connections_per_ip)
        (hread .max_transfer_rate) (hread .max_transfer_rate_per_user)
    · exact TransferConfig.ext (hread .use_sendfile) (hread .use_mmap) (hread .enable_compression)
        (hread .buffer_size)

structure Settles (sets : Setting → Prop) (c c' c₂ c₂' : FTPServerConfig) : Prop where
  set_alike : ∀ s, sets s → s.read c' = s.read c₂'
  kept : ∀ s, ¬sets s → s.read c' = s.read c ∧ s.read c₂' = s.read c₂
  anonymous : SameAnonymous c' c ∧ SameAnonymous c₂' c₂

lemma SameAnonymous.trans (h : SameAnonymous c c') (h' : SameAnonymous c' c₂) : SameAnonymous c c₂ :=
  ⟨h.anonymous_user.trans h'.anonymous_user, h.anonymous_password.trans h'.anonymous_password⟩

lemma SameAnonymous.symm (h : SameAnonymous c c') : SameAnonymous c' c :=
  ⟨h.anonymous_user.symm, h.anonymous_password.symm⟩

lemma settles_store (s : Setting) (v : s.kind.type) (c c₂ : FTPServerConfig) :
    Settles (fun s' => s = s') c (s.store c v) c₂ (s.store c₂ v) := by
  refine ⟨?_, fun s' hne => ?_, sameAnonymous_store s c v, sameAnonymous_store s c₂ v⟩
  · rintro _ rfl
    rw [Setting.read_store_self, Setting.read_store_self]
  · exact ⟨Setting.read_store_ne hne c v, Setting.read_store_ne hne c₂ v⟩

variable {sets sets' : Setting → Prop} {c₁ c₁' c₂' c₂'' c'' : FTPServerConfig}

lemma settles_same (h : ∀ s, ¬sets s) (c c₂ : FTPServerConfig) : Settles sets c c c₂ c₂ :=
  ⟨fun s hs => absurd hs (h s), fun _ _ => ⟨rfl, rfl⟩, ⟨rfl, rfl⟩, ⟨rfl, rfl⟩⟩

lemma Settles.congr (h : Settles sets c c' c₂ c₂') (hsets : ∀ s, sets' s ↔ sets s) : Settles sets' c c' c₂ c₂' :=
  ⟨fun s hs => h.set_alike s ((hsets s).1 hs), fun s hs => h.kept s fun hset => hs ((hsets s).2 hset), h.anonymous⟩

lemma Settles.trans (h : Settles sets c c' c₂ c₂') (h' : Settles sets' c' c'' c₂' c₂'') :
    Settles (fun s => sets s ∨ sets' s) c c'' c₂ c₂'' := by
  refine ⟨fun s hs => ?_, fun s hs => ?_, h'.anonymous.1.trans h.anonymous.1, h'.anonymous.2.trans h.anonymous.2⟩
  · by_cases hlater : sets' s
    · exact h'.set_alike s hlater
    · obtain ⟨hfirst, hsecond⟩ := h'.kept s hlater
      rw [hfirst, hsecond]
      exact h.set_alike s (hs.resolve_right hlater)
  · obtain ⟨hearlier, hlater⟩ := not_or.1 hs
    exact ⟨(h'.kept s hlater).1.trans (h.kept s hearlier).1, (h'.kept s hlater).2.trans (h.kept s hearlier).2⟩

end FTPServerConfig

open FTPServerConfig

namespace Dialect

def LineGives (d : Dialect) (current line : Str) (s : Setting) : Prop :=
  ∃ key value, d.parse line = .pair key value ∧ findSetting d.rows (d.looks current) key = some s

def Gives (d : Dialect) (current : Str) (lines : List Str) (s : Setting) : Prop :=
  ∃ before line after, lines = before ++ line :: after ∧ d.LineGives (d.sectionAfter current before) line s

variable {d : Dialect} {r r' : Reading} {line current : Str} {lines : List Str} {s : Setting}

lemma gives_cons :
    d.Gives current (line :: lines) s ↔ d.LineGives current line s ∨
    d.Gives (d.sectionNext current line) lines s := by
  constructor
  · rintro ⟨before, line', after, hsplit, hline⟩
    cases before with
    | nil =>
      obtain ⟨rfl, rfl⟩ := List.cons.inj hsplit
      exact .inl hline
    | cons line₁ before =>
      obtain ⟨rfl, hrest⟩ := List.cons.inj hsplit
      exact .inr ⟨before, line', after, hrest, hline⟩
  · rintro (hline | ⟨before, line', after, rfl, hline⟩)
    · exact ⟨[], line, lines, rfl, hline⟩
    · exact ⟨line :: before, line', after, rfl, hline⟩

lemma readLine_settles (h : d.readLine r line = some r') (c₂ : FTPServerConfig) : ∃ c₂',
    d.readLine ⟨r.current_section, c₂⟩ line = some ⟨r'.current_section, c₂'⟩ ∧
      Settles (d.LineGives r.current_section line) r.config r'.config c₂ c₂' := by
  rw [readLine] at h ⊢
  cases hparse : d.parse line with
  | nothing =>
    rw [hparse] at h
    obtain rfl := Option.some.inj h
    refine ⟨c₂, rfl, settles_same ?_ _ _⟩
    rintro s ⟨_, _, hpair, _⟩
    cases hparse.symm.trans hpair
  | header name =>
    rw [hparse] at h
    obtain rfl := Option.some.inj h
    refine ⟨c₂, rfl, settles_same ?_ _ _⟩
    rintro s ⟨_, _, hpair, _⟩
    cases hparse.symm.trans hpair
  | pair key value =>
    rw [hparse] at h
    obtain ⟨c', hset, rfl⟩ := Option.map_eq_some_iff.1 h
    rw [setText] at hset
    dsimp only
    rw [setText]
    cases hfind : findSetting d.rows (d.looks r.current_section) key with
    | none =>
      rw [hfind] at hset
      obtain rfl := Option.some.inj hset
      refine ⟨c₂, rfl, settles_same ?_ _ _⟩
      rintro s ⟨_, _, hpair, hfound⟩
      cases hparse.symm.trans hpair
      cases hfind.symm.trans hfound
    | some s =>
      rw [hfind] at hset
      obtain ⟨v, hv, rfl⟩ := Option.map_eq_some_iff.1 hset
      refine ⟨s.store c₂ v, by simp [hv], (settles_store s v _ _).congr fun s' => ⟨?_, ?_⟩⟩
      · rintro ⟨_, _, hpair, hfound⟩
        cases hparse.symm.trans hpair
        exact Option.some.inj (hfind.symm.trans hfound)
      · rintro rfl
        exact ⟨key, value, hparse, hfind⟩

lemma readLines_settles (h : lines.foldlM d.readLine r = some r') (c₂ : FTPServerConfig) : ∃ c₂',
    lines.foldlM d.readLine ⟨r.current_section, c₂⟩ = some ⟨r'.current_section, c₂'⟩ ∧
      Settles (d.Gives r.current_section lines) r.config r'.config c₂ c₂' := by
  induction lines generalizing r c₂ with
  | nil =>
    obtain rfl := Option.some.inj h
    refine ⟨c₂, rfl, settles_same ?_ _ _⟩
    rintro s ⟨before, _, _, hsplit, _⟩
    cases before <;> cases hsplit
  | cons line lines ih =>
    obtain ⟨r₁, hline, hlines⟩ := Option.bind_eq_some_iff.1 h
    obtain ⟨c₁, hfirst, hsettles⟩ := readLine_settles hline c₂
    obtain ⟨c₂', hrest, hsettles'⟩ := ih hlines c₁
    refine ⟨c₂', Option.bind_eq_some_iff.2 ⟨_, hfirst, hrest⟩, (hsettles.trans hsettles').congr fun s => ?_⟩
    rw [gives_cons, readLine_section hline]

end Dialect

def JsonGives (root : Json) (r : Row) : Prop := match root with
  | .object members => match members.lookup r.section_ with
    | some (.object keys) => (keys.lookup r.key).isSome = true
    | _ => False
  | _ => False

def FileGives (parse : Str → ParsedText) (filename : Str) (file : NamedFile) (s : Setting) : Prop :=
  match file.found, file.content with
  | .ok true, some content =>
    if isJSON filename then match parse content with
      | .value root => ∃ r ∈ jsonRows, r.setting = s ∧ JsonGives root r
      | _ => False
    else if isYAML filename then yamlDialect.Gives [] (tokens '\n' content) s
    else iniDialect.Gives [] (tokens '\n' content) s
  | _, _ => False

namespace FTPServerConfig

variable {root : Json} {rows : List Row} {c c' : FTPServerConfig} {r : Row}

lemma jsonKey_cases (h : jsonKey root c r = .ok c') : (¬JsonGives root r ∧ ∀ c₂, jsonKey root c₂ r = .ok c₂) ∨
    JsonGives root r ∧ ∃ v, ∀ c₂, jsonKey root c₂ r = .ok (r.setting.store c₂ v) := by
  cases root with
  | null => exact .inl ⟨id, fun _ => rfl⟩
  | object members =>
    have htakes := (jsonKey_takes _ c r).1 ⟨c', h⟩
    simp only [jsonKey, JsonTakes, JsonGives, Json.isMember_object, Json.member_object] at htakes ⊢
    generalize members.lookup r.section_ = found at htakes ⊢
    cases found with
    | none => exact .inl ⟨id, fun _ => rfl⟩
    | some section_ =>
      cases section_ with
      | null => exact .inl ⟨id, fun _ => rfl⟩
      | object keys =>
        cases hkey : keys.lookup r.key with
        | none =>
          refine .inl ⟨by simp [hkey], fun c₂ => ?_⟩
          simp [bind, Except.bind, Json.isMember_object, hkey, pure, Except.pure]
        | some j =>
          obtain ⟨v, hv⟩ := htakes j hkey
          refine .inr ⟨by simp [hkey], v, fun c₂ => ?_⟩
          simp [bind, Except.bind, Json.isMember_object, Json.member_object, hkey, hv, pure, Except.pure]
      | _ => exact htakes.elim
  | _ => cases h

lemma jsonKey_settles (h : jsonKey root c r = .ok c') (c₂ : FTPServerConfig) : ∃ c₂', jsonKey root c₂ r = .ok c₂' ∧
    Settles (fun s => r.setting = s ∧ JsonGives root r) c c' c₂ c₂' := by
  obtain ⟨hpassed, hsame⟩ | ⟨hgives, v, hset⟩ := jsonKey_cases h
  · obtain rfl := Except.ok.inj ((hsame c).symm.trans h)
    exact ⟨c₂, hsame c₂, settles_same (fun s hs => hpassed hs.2) c c₂⟩
  · obtain rfl := Except.ok.inj ((hset c).symm.trans h)
    exact ⟨_, hset c₂, (settles_store _ v c c₂).congr fun s => and_iff_left hgives⟩

lemma jsonKeys_settles (h : rows.foldlM (jsonKey root) c = .ok c') (c₂ : FTPServerConfig) : ∃ c₂',
    rows.foldlM (jsonKey root) c₂ = .ok c₂' ∧ Settles (fun s => ∃ r ∈ rows, r.setting = s ∧
      JsonGives root r) c c' c₂ c₂' := by
  induction rows generalizing c c₂ with
  | nil =>
    obtain rfl := Except.ok.inj h
    exact ⟨c₂, rfl, settles_same (by simp) c c₂⟩
  | cons r rows ih =>
    obtain ⟨c₁, hfirst, hrest⟩ := Json.bind_eq_ok.1 h
    obtain ⟨d₁, hfirst₂, hsettles⟩ := jsonKey_settles hfirst c₂
    obtain ⟨c₂', hrest₂, hsettles'⟩ := ih hrest d₁
    exact ⟨c₂', Json.bind_eq_ok.2 ⟨d₁, hfirst₂, hrest₂⟩, (hsettles.trans hsettles').congr fun s => by simp⟩

variable {parse : Str → ParsedText} {filename failure : Str} {file : NamedFile} {l : Loaded} {content : Option Str}

lemma loadLines_settles {d : Dialect} {step : Reading → Str → Option Reading}
    (hstep : step = d.readLine) {text : Str}
    (h : ((tokens '\n' text).foldlM step ⟨[], c⟩).map (·.config) = some c') (c₂ : FTPServerConfig) : ∃ c₂',
      ((tokens '\n' text).foldlM step ⟨[], c₂⟩).map (·.config) = some c₂' ∧
        Settles (d.Gives [] (tokens '\n' text)) c c' c₂ c₂' := by
  subst hstep
  obtain ⟨r', hread, rfl⟩ := Option.map_eq_some_iff.1 h
  obtain ⟨c₂', hread₂, hsettles⟩ := d.readLines_settles hread c₂
  exact ⟨c₂', by rw [hread₂]; rfl, hsettles⟩

lemma loadText_ok {load : Str → Option FTPServerConfig} (h : loadText load c failure content = .ok l)
    (hl : l.result = true) :
    ∃ text, content = some text ∧ load text = some l.config := by
  cases content with
  | none =>
    obtain rfl := Except.ok.inj h
    cases hl
  | some text =>
    rw [loadText] at h
    cases hload : load text with
    | none =>
      rw [hload] at h
      cases h
    | some c' =>
      rw [hload] at h
      obtain rfl := Except.ok.inj h
      exact ⟨text, rfl, hload⟩

lemma loadJSONText_ok (h : c.loadJSONText parse failure content = .ok l) (hl : l.result = true) :
    ∃ text root, content = some text ∧ parse text = .value root ∧ c.loadFromJSON root = .ok l.config := by
  cases content with
  | none =>
    obtain rfl := Except.ok.inj h
    cases hl
  | some text =>
    rw [loadJSONText] at h
    cases hparse : parse text with
    | throws e =>
      rw [hparse] at h
      cases h
    | failed messages =>
      rw [hparse] at h
      obtain rfl := Except.ok.inj h
      cases hl
    | value root =>
      rw [hparse] at h
      dsimp only at h
      cases hload : c.loadFromJSON root with
      | error e =>
        rw [hload] at h
        cases h
      | ok c' =>
        rw [hload] at h
        obtain rfl := Except.ok.inj h
        exact ⟨text, root, rfl, hparse, hload⟩

lemma loadFromFile_settles (h : c.loadFromFile parse filename file = .ok l) (hl : l.result = true)
    (c₂ : FTPServerConfig) : ∃ l₂,
    c₂.loadFromFile parse filename file = .ok l₂ ∧ l₂.result = true ∧
      Settles (FileGives parse filename file) c.withDefaults l.config c₂.withDefaults l₂.config := by
  obtain ⟨found, content⟩ := file
  rw [loadFromFile] at h ⊢
  cases found with
  | error e => cases h
  | ok found =>
    cases found with
    | false =>
      obtain rfl := Except.ok.inj h
      exact ⟨_, rfl, rfl, settles_same (fun _ => id) _ _⟩
    | true =>
      dsimp only at h ⊢
      by_cases hjson : isJSON filename = true
      · rw [if_pos hjson] at h ⊢
        obtain ⟨text, root, rfl, hparse, hload⟩ := loadJSONText_ok h hl
        obtain ⟨c₂', hload₂, hsettles⟩ := jsonKeys_settles hload c₂.withDefaults
        have hloaded : c₂.withDefaults.loadFromJSON root = .ok c₂' := hload₂
        refine ⟨⟨true, c₂', [], []⟩, ?_, rfl, hsettles.congr fun s => ?_⟩
        · simp only [loadJSONText, hparse, hloaded]
        · simp only [FileGives, if_pos hjson, hparse]
      rw [if_neg hjson] at h ⊢
      by_cases hyaml : isYAML filename = true
      · rw [if_pos hyaml] at h ⊢
        obtain ⟨text, rfl, hload⟩ := loadText_ok h hl
        obtain ⟨c₂', hload₂, hsettles⟩ :=
          loadLines_settles (funext fun r => funext fun line => Dialect.yamlLine_eq r line) hload c₂.withDefaults
        refine ⟨⟨true, c₂', [], []⟩, ?_, rfl, hsettles.congr fun s => ?_⟩
        · simp only [loadText, loadFromYAML, hload₂]
        · simp only [FileGives, if_neg hjson, if_pos hyaml]
      · rw [if_neg hyaml] at h ⊢
        obtain ⟨text, rfl, hload⟩ := loadText_ok h hl
        obtain ⟨c₂', hload₂, hsettles⟩ :=
          loadLines_settles (funext fun r => funext fun line => Dialect.iniLine_eq r line) hload c₂.withDefaults
        refine ⟨⟨true, c₂', [], []⟩, ?_, rfl, hsettles.congr fun s => ?_⟩
        · simp only [loadText, loadFromINI, hload₂]
        · simp only [FileGives, if_neg hjson, if_neg hyaml]

end FTPServerConfig

def KeptAlike (parse : Str → ParsedText) (filename : Str) (file : NamedFile) (c c₂ : FTPServerConfig) : Prop :=
  (∀ s : Setting, s.isReset = false → ¬FileGives parse filename file s → s.read c = s.read c₂) ∧ c.SameAnonymous c₂

theorem loads_end_alike (parse : Str → ParsedText) (filename : Str) (file : NamedFile)
    (c c₂ : FTPServerConfig) (l : Loaded)
    (h : c.loadFromFile parse filename file = .ok l) (hl : l.result = true) : ∃ l₂,
    c₂.loadFromFile parse filename file = .ok l₂ ∧ l₂.result = true ∧
      (l.config = l₂.config ↔ KeptAlike parse filename file c c₂) := by
  obtain ⟨l₂, h₂, hl₂, hsettles⟩ := loadFromFile_settles h hl c₂
  refine ⟨l₂, h₂, hl₂, ?_⟩
  obtain ⟨hanonymous, hanonymous₂⟩ := hsettles.anonymous
  rw [eq_iff_read]
  constructor
  · rintro ⟨hread, hsame⟩
    have hdefaults : c.withDefaults.SameAnonymous c₂.withDefaults :=
      (hanonymous.symm.trans hsame).trans hanonymous₂
    refine ⟨fun s hreset hgiven => ?_, hdefaults.anonymous_user, hdefaults.anonymous_password⟩
    obtain ⟨hkept, hkept₂⟩ := hsettles.kept s hgiven
    rw [← read_withDefaults_of_kept hreset c, ← read_withDefaults_of_kept hreset c₂, ← hkept, ← hkept₂]
    exact hread s
  · rintro ⟨hread, hsame⟩
    have hdefaults : c.withDefaults.SameAnonymous c₂.withDefaults :=
      ⟨hsame.anonymous_user, hsame.anonymous_password⟩
    refine ⟨fun s => ?_, (hanonymous.trans hdefaults).trans hanonymous₂.symm⟩
    by_cases hgiven : FileGives parse filename file s
    · exact hsettles.set_alike s hgiven
    · obtain ⟨hkept, hkept₂⟩ := hsettles.kept s hgiven
      rw [hkept, hkept₂]
      cases hreset : s.isReset with
      | true => exact read_withDefaults_of_reset hreset c c₂
      | false =>
        rw [read_withDefaults_of_kept hreset, read_withDefaults_of_kept hreset]
        exact hread s hreset hgiven

theorem loads_end_alike_port : ∃ l l₂ : Loaded,
    ({} : FTPServerConfig).loadFromFile (fun _ => .failed []) "a.conf"
    ⟨.ok true, some "[logging]\nlog_level = DEBUG\n"⟩ = .ok l ∧
    ({ connection.bind_port := 2121 } : FTPServerConfig).loadFromFile (fun _ => .failed []) "a.conf"
      ⟨.ok true, some "[logging]\nlog_level = DEBUG\n"⟩ = .ok l₂ ∧ l.config = l₂.config := by
  obtain ⟨l₂, h₂, _, halike⟩ := loads_end_alike (fun _ => .failed []) "a.conf" ⟨.ok true,
    some "[logging]\nlog_level = DEBUG\n"⟩ {}
    { connection.bind_port := 2121 } ⟨true, { logging.log_level := "DEBUG" }, [], []⟩ rfl rfl
  refine ⟨_, l₂, rfl, h₂, halike.2 ⟨fun s hreset _ => ?_, rfl, rfl⟩⟩
  cases s <;> first | rfl | cases hreset

theorem loads_do_not_end_alike : ∃ first again fresh : Loaded,
    ({} : FTPServerConfig).loadFromFile (fun _ => .failed []) "a.conf"
    ⟨.ok true, some "[security]\nrequire_client_cert = true\n"⟩ = .ok first ∧
    first.config.loadFromFile (fun _ => .failed []) "b.conf" ⟨.ok true,
      some "[connection]\nbind_port = 2121\n"⟩ = .ok again ∧
    ({} : FTPServerConfig).loadFromFile (fun _ => .failed []) "b.conf"
    ⟨.ok true, some "[connection]\nbind_port = 2121\n"⟩ = .ok fresh ∧
    first.result = true ∧ again.result = true ∧ fresh.result = true ∧ again.config ≠ fresh.config ∧
    again.config.security.require_client_cert = true ∧ fresh.config.security.require_client_cert = false :=
  ⟨⟨true, { security.require_client_cert := true }, [], []⟩,
    ⟨true, { security.require_client_cert := true, connection.bind_port := 2121 }, [], []⟩,
    ⟨true, { connection.bind_port := 2121 }, [], []⟩, rfl, rfl, rfl, rfl, rfl, rfl, by decide, rfl, rfl⟩

end SimpleSftpd
