import SimpleSftpd.Config.TextLines
import SimpleSftpd.User.UserManager

namespace SimpleSftpd

open Cxx

def tolower (c : Byte) : Byte := if (65 : Byte) ≤ c ∧ c ≤ 90 then c + 32 else c

def extension (p : Str) : Str :=
  let name := Path.filename p
  let tail := (name.reverse.takeWhile (· ≠ 46)).reverse
  if name = "." ∨ name = ".." ∨ name.length ≤ tail.length + 1 then [] else 46 :: tail

inductive ParsedText
  | value (root : Json)
  | failed (messages : Str)
  | throws (e : JsonError)

structure NamedFile where
  found : Except Errc Bool
  content : Option Str

structure Loaded where
  result : Bool
  config : FTPServerConfig
  errors_ : List Str := []
  warnings_ : List Str := []

namespace FTPServerConfig

def withDefaults (c : FTPServerConfig) : FTPServerConfig :=
  { c with
    connection := { c.connection with
      bind_address := "0.0.0.0"
      bind_port := 21
      max_connections := 100
      timeout_seconds := 300 }
    logging := { c.logging with
      log_file := "/var/log/simple-sftpd/simple-sftpd.log"
      log_level := "INFO"
      log_to_console := true
      log_to_file := true }
    security := { c.security with
      require_ssl := false
      allow_anonymous := false }
    rate_limit := { c.rate_limit with
      enabled := false
      max_requests_per_minute := 60
      max_connections_per_ip := 10 } }

def loadText (load : Str → Option FTPServerConfig) (c : FTPServerConfig) (failure : Str) :
    Option Str → Except Thrown Loaded
  | none => .ok ⟨false, c, [failure], []⟩
  | some content => match load content with
    | some c => .ok ⟨true, c, [], []⟩
    | none => .error .conversion

def loadJSONText (parse : Str → ParsedText) (c : FTPServerConfig) (failure : Str) :
    Option Str → Except Thrown Loaded
  | none => .ok ⟨false, c, [failure], []⟩
  | some content => match parse content with
    | .throws e => .error (.json e)
    | .failed messages => .ok ⟨false, c, ["Failed to parse JSON configuration: " ++ messages], []⟩
    | .value root => match c.loadFromJSON root with
      | .ok c => .ok ⟨true, c, [], []⟩
      | .error e => .error (.json e)

def isJSON (filename : Str) : Bool := (extension filename).map tolower = ".json"

def isYAML (filename : Str) : Bool :=
  (extension filename).map tolower = ".yml" ∨ (extension filename).map tolower = ".yaml"

def loadFromFile (parse : Str → ParsedText) (c : FTPServerConfig) (filename : Str) (file : NamedFile) :
    Except Thrown Loaded :=
  let c := c.withDefaults
  match file.found with
  | .error e => .error (.filesystem_error e)
  | .ok false => .ok ⟨true, c, [], ["Configuration file not found: " ++ filename ++ ", using defaults"]⟩
  | .ok true =>
    if isJSON filename then
      c.loadJSONText parse ("Failed to open JSON configuration file: " ++ filename) file.content
    else if isYAML filename then
      loadText c.loadFromYAML c ("Failed to open YAML configuration file: " ++ filename) file.content
    else loadText c.loadFromINI c ("Failed to open configuration file: " ++ filename) file.content

def Reports : Except Thrown Loaded → Prop
  | .ok l => l.result = true ∨ l.errors_ ≠ []
  | .error _ => False

end FTPServerConfig

def JsonTakes (root : Json) (r : Row) : Prop := match root with
  | .null => True
  | .object members => match members.lookup r.section_ with
    | none | some .null => True
    | some (.object keys) => ∀ j, keys.lookup r.key = some j → ∃ v, r.setting.kind.ofJson j = .ok v
    | _ => False
  | _ => False

def Loadable (parse : Str → ParsedText) (filename : Str) (file : NamedFile) : Prop :=
  match file.found, file.content with
  | .error _, _ => False
  | .ok false, _ | .ok true, none => True
  | .ok true, some content =>
    if FTPServerConfig.isJSON filename then match parse content with
      | .throws _ => False
      | .failed _ => True
      | .value root => ∀ r ∈ jsonRows, JsonTakes root r
    else if FTPServerConfig.isYAML filename then yamlDialect.TakesAll [] (tokens '\n' content)
    else iniDialect.TakesAll [] (tokens '\n' content)

namespace FTPServerConfig

variable {parse : Str → ParsedText} {c : FTPServerConfig} {root : Json} {failure : Str} {content : Option Str}

lemma jsonKey_takes (root : Json) (c : FTPServerConfig) (r : Row) :
    (∃ c', jsonKey root c r = .ok c') ↔ JsonTakes root r := by
  cases root with
  | null => exact iff_of_true ⟨c, rfl⟩ trivial
  | object members =>
    simp only [jsonKey, JsonTakes, Json.isMember_object, Json.member_object]
    cases members.lookup r.section_ with
    | none => exact iff_of_true ⟨c, rfl⟩ trivial
    | some section_ =>
      cases section_ with
      | null => exact iff_of_true ⟨c, rfl⟩ trivial
      | object keys =>
        cases hkey : keys.lookup r.key with
        | none =>
          refine iff_of_true ⟨c, ?_⟩ fun _ h => by cases hkey.symm.trans h
          simp [bind, Except.bind, Json.isMember_object, hkey, pure, Except.pure]
        | some j =>
          cases hj : r.setting.kind.ofJson j with
          | ok v =>
            refine iff_of_true ⟨r.setting.store c v, ?_⟩ ?_
            · simp [bind, Except.bind, Json.isMember_object, Json.member_object, hkey, hj, pure, Except.pure]
            · intro j' hj'
              cases hkey.symm.trans hj'
              exact ⟨v, hj⟩
          | error e =>
            apply iff_of_false
            · simp [bind, Except.bind, Json.isMember_object, Json.member_object, hkey, hj]
            · intro h
              obtain ⟨v, hv⟩ := h j hkey
              cases hj.symm.trans hv
      | _ => exact iff_of_false (by rintro ⟨_, h⟩; cases h) id
  | _ => exact iff_of_false (by rintro ⟨_, h⟩; cases h) id

lemma jsonKeys_takes (root : Json) (rows : List Row) (c : FTPServerConfig) :
    (∃ c', rows.foldlM (jsonKey root) c = .ok c') ↔ ∀ r ∈ rows, JsonTakes root r := by
  induction rows generalizing c with
  | nil => exact iff_of_true ⟨c, rfl⟩ fun _ h => absurd h List.not_mem_nil
  | cons r rows ih =>
    rw [List.forall_mem_cons, ← jsonKey_takes root c, List.foldlM_cons]
    constructor
    · rintro ⟨c', h⟩
      obtain ⟨c₁, hr, hrows⟩ := Json.bind_eq_ok.1 h
      exact ⟨⟨c₁, hr⟩, (ih c₁).1 ⟨c', hrows⟩⟩
    · rintro ⟨⟨c₁, hr⟩, hrows⟩
      obtain ⟨c', h⟩ := (ih c₁).2 hrows
      exact ⟨c', Json.bind_eq_ok.2 ⟨c₁, hr, h⟩⟩

lemma loadText_reports {load : Str → Option FTPServerConfig} :
    Reports (loadText load c failure content) ↔ ∀ text, content = some text → ∃ c', load text = some c' := by
  cases content with
  | none => exact iff_of_true (.inr (List.cons_ne_nil _ _)) fun _ h => by cases h
  | some text =>
    simp only [loadText, Option.some.injEq, forall_eq']
    cases load text with
    | some c' => exact iff_of_true (.inl rfl) ⟨c', rfl⟩
    | none => exact iff_of_false id (by rintro ⟨_, h⟩; cases h)

lemma loadJSONText_reports : Reports (c.loadJSONText parse failure content) ↔ ∀ text, content = some text →
    match parse text with
    | .throws _ => False
    | .failed _ => True
    | .value root => ∀ r ∈ jsonRows, JsonTakes root r := by
  cases content with
  | none => exact iff_of_true (.inr (List.cons_ne_nil _ _)) fun _ h => by cases h
  | some text =>
    simp only [loadJSONText, Option.some.injEq, forall_eq']
    cases parse text with
    | throws e => exact Iff.rfl
    | failed messages => exact iff_of_true (.inr (List.cons_ne_nil _ _)) trivial
    | value root =>
      dsimp only
      rw [← jsonKeys_takes root jsonRows c, loadFromJSON]
      cases jsonRows.foldlM (jsonKey root) c with
      | ok c' => exact iff_of_true (.inl rfl) ⟨c', rfl⟩
      | error e => exact iff_of_false id (by rintro ⟨_, h⟩; cases h)

end FTPServerConfig

theorem load_reports (parse : Str → ParsedText) (c : FTPServerConfig) (filename : Str) (file : NamedFile) :
    FTPServerConfig.Reports (c.loadFromFile parse filename file) ↔ Loadable parse filename file := by
  obtain ⟨found, content⟩ := file
  rw [FTPServerConfig.loadFromFile]
  cases found with
  | error e => exact Iff.rfl
  | ok found =>
    cases found with
    | false => exact iff_of_true (.inl rfl) trivial
    | true =>
      dsimp only
      by_cases hjson : FTPServerConfig.isJSON filename = true
      · rw [if_pos hjson, FTPServerConfig.loadJSONText_reports]
        cases content with
        | none => simp [Loadable]
        | some text => simp [Loadable, hjson]
      rw [if_neg hjson]
      by_cases hyaml : FTPServerConfig.isYAML filename = true
      · rw [if_pos hyaml, FTPServerConfig.loadText_reports]
        cases content with
        | none => simp [Loadable]
        | some text => simp [Loadable, hjson, hyaml, loadFromYAML_takes]
      · rw [if_neg hyaml, FTPServerConfig.loadText_reports]
        cases content with
        | none => simp [Loadable]
        | some text => simp [Loadable, hjson, hyaml, loadFromINI_takes]

theorem load_does_not_report :
    ¬FTPServerConfig.Reports (({} : FTPServerConfig).loadFromFile (fun _ => .failed []) "a.conf"
      ⟨.ok true, some "[connection]\nbind_port = abc\n"⟩) ∧
    ¬FTPServerConfig.Reports (({} : FTPServerConfig).loadFromFile (fun _ => .failed []) "a.yml"
      ⟨.ok true, some "connection:\n  bind_port: abc\n"⟩) ∧
    ¬FTPServerConfig.Reports (({} : FTPServerConfig).loadFromFile
      (fun _ => .value (.object [("connection", .object [("bind_port", .string "abc")])])) "a.json"
      ⟨.ok true, some "\x7b\"connection\": \x7b\"bind_port\": \"abc\"\x7d\x7d"⟩) :=
  ⟨id, id, id⟩

end SimpleSftpd
