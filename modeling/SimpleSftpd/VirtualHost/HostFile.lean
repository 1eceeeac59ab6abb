import SimpleSftpd.VirtualHost.VirtualHostManager

namespace SimpleSftpd

open Cxx Interaction

structure HostAttributes where
  hostname : Str
  root_directory : Str
  enabled : Bool
  ssl_cert_file : Str
  ssl_key_file : Str
  ssl_ca_file : Str
  max_sessions : Int
  storage_quota_bytes : ℕ
  bandwidth_quota_bytes : ℕ
  user_file : Str
  custom_error : Str → Str

namespace HostAttributes

variable (a : HostAttributes)

def kept : HostAttributes := { a with
  max_sessions := if a.max_sessions > 0 then a.max_sessions else 0
  custom_error := fun _ => [] }

structure Keepable : Prop where
  max_sessions : 0 ≤ a.max_sessions
  custom_error : ∀ code, a.custom_error code = []

variable {a}

lemma kept_eq_self : a.kept = a ↔ a.Keepable := by
  constructor
  · intro he
    have hsessions : (if a.max_sessions > 0 then a.max_sessions else 0) = a.max_sessions :=
      congrArg HostAttributes.max_sessions he
    refine ⟨?_, fun code => (congrFun (congrArg HostAttributes.custom_error he) code).symm⟩
    split at hsessions <;> omega
  · intro hk
    have hsessions : (if a.max_sessions > 0 then a.max_sessions else 0) = a.max_sessions := by
      have := hk.max_sessions
      split <;> omega
    have herrors : a.custom_error = fun _ => [] := funext hk.custom_error
    rw [kept, hsessions, ← herrors]

end HostAttributes

namespace FTPVirtualHost

variable (h : FTPVirtualHost)

def attributes : HostAttributes where
  hostname := h.hostname_
  root_directory := h.root_directory_
  enabled := h.enabled_
  ssl_cert_file := h.ssl_cert_file_
  ssl_key_file := h.ssl_key_file_
  ssl_ca_file := h.ssl_ca_file_
  max_sessions := h.max_sessions_
  storage_quota_bytes := h.storage_quota_bytes_
  bandwidth_quota_bytes := h.bandwidth_quota_bytes_
  user_file := h.userFile
  custom_error := h.getCustomError

/-- The values the fields have in C++. -/
structure InRange : Prop where
  max_sessions : -2 ^ 31 ≤ h.max_sessions_ ∧ h.max_sessions_ < 2 ^ 31
  storage_quota_bytes : h.storage_quota_bytes_ < 2 ^ 64
  bandwidth_quota_bytes : h.bandwidth_quota_bytes_ < 2 ^ 64

def named (user_file : Str) : Option FTPUserManager := if user_file ≠ [] then some ⟨∅, user_file⟩ else none

def ofJson (j : Json) : Except JsonError (Option FTPVirtualHost) := do
  match ← readAttributes j with
  | none => return none
  | some host => do
    let user_file ← readUserFile j
    let host ← { host with user_manager_ := named user_file }.readCustomErrors j
    return some host

variable {h}

lemma userFile_named {user_file : Str} (hu : h.user_manager_ = named user_file) : h.userFile = user_file := by
  rw [userFile, hu, named]
  by_cases hf : user_file = []
  · rw [if_neg (not_not.2 hf), hf]
  · rw [if_pos hf]

section

variable {b : Bool} {key key' : Str} {v : Json} {ms : List (Str × Json)} {α : Type}

lemma lookup_given : (given b key v ++ ms).lookup key' =
    if key' = key ∧ b = true then some v else ms.lookup key' := by
  cases b with
  | false => simp [given]
  | true =>
    by_cases hkey : key' = key
    · simp [given, hkey]
    · simp [given, hkey, List.lookup_cons, beq_eq_false_iff_ne.2 hkey]

lemma assign_given {convert : Json → Except JsonError α} {x y : α} {P : Prop} [Decidable P]
    (h : ms.lookup key = if P then some v else none) (hgiven : P → convert v = .ok y)
    (hleft : ¬P → x = y) : (Json.object ms).assign key convert x = .ok y := by
  by_cases hp : P
  · rw [if_pos hp] at h
    exact (Json.assign_some h).trans (hgiven hp)
  · rw [if_neg hp] at h
    rw [Json.assign_none h, hleft hp]

lemma assign_string {s : Str} (h : ms.lookup key = if s ≠ [] then some (.string s) else none) :
    (Json.object ms).assign key Json.asString [] = .ok s :=
  assign_given h (fun _ => rfl) fun hs => (not_not.1 hs).symm

lemma assign_quota {n : ℕ} (hn : n < 2 ^ 64) (h : ms.lookup key = if n > 0 then some (.int n) else none) :
    (Json.object ms).assign key Json.asUInt64 0 = .ok n :=
  assign_given h (fun _ => Json.asUInt64_int hn) fun hz => (Nat.eq_zero_of_not_pos hz).symm

end

lemma lookup_members (key : Str) : h.members.lookup key =
    if key = "hostname" then some (.string h.hostname_)
    else if key = "root_directory" then some (.string h.root_directory_)
    else if key = "enabled" then some (.bool h.enabled_)
    else if key = "ssl_cert_file" ∧ h.ssl_cert_file_ ≠ [] then some (.string h.ssl_cert_file_)
    else if key = "ssl_key_file" ∧ h.ssl_key_file_ ≠ [] then some (.string h.ssl_key_file_)
    else if key = "ssl_ca_file" ∧ h.ssl_ca_file_ ≠ [] then some (.string h.ssl_ca_file_)
    else if key = "max_sessions" ∧ h.max_sessions_ > 0 then some (.int h.max_sessions_)
    else if key = "storage_quota_bytes" ∧ h.storage_quota_bytes_ > 0 then some (.int h.storage_quota_bytes_)
    else if key = "bandwidth_quota_bytes" ∧ h.bandwidth_quota_bytes_ > 0 then some (.int h.bandwidth_quota_bytes_)
    else if key = "user_file" ∧ h.userFile ≠ [] then some (.string h.userFile)
    else none := by
  have hend : ∀ {b : Bool} {k : Str} {v : Json}, (given b k v).lookup key = if key = k ∧ b = true then
      some v else none := by
    intro b k v
    rw [← List.append_nil (given b k v), lookup_given]
    rfl
  simp only [members, List.append_assoc, lookup_given, hend, decide_eq_true_eq, and_true]

lemma readAttributes_toJson (hr : h.InRange) : readAttributes h.toJson = .ok (some { h with
    user_manager_ := none
    max_sessions_ := if h.max_sessions_ > 0 then h.max_sessions_ else 0
    custom_errors_ := ∅ }) := by
  have henabled : h.toJson.assign "enabled" Json.asBool true = .ok h.enabled_ :=
    (Json.assign_some rfl).trans (Json.asBool_bool _)
  have hcert : h.toJson.assign "ssl_cert_file" Json.asString [] = .ok h.ssl_cert_file_ :=
    assign_string (by simp +decide [lookup_members])
  have hkey : h.toJson.assign "ssl_key_file" Json.asString [] = .ok h.ssl_key_file_ :=
    assign_string (by simp +decide [lookup_members])
  have hca : h.toJson.assign "ssl_ca_file" Json.asString [] = .ok h.ssl_ca_file_ :=
    assign_string (by simp +decide [lookup_members])
  have hsessions : h.toJson.assign "max_sessions" Json.asInt 0 =
      .ok (if h.max_sessions_ > 0 then h.max_sessions_ else 0) := by
    apply assign_given (P := h.max_sessions_ > 0) (v := .int h.max_sessions_)
    · simp +decide [lookup_members]
    · intro hpos
      rw [if_pos hpos]
      exact Json.asInt_int hr.max_sessions.1 hr.max_sessions.2
    · intro hzero
      rw [if_neg hzero]
  have hstorage : h.toJson.assign "storage_quota_bytes" Json.asUInt64 0 = .ok h.storage_quota_bytes_ :=
    assign_quota hr.storage_quota_bytes (by simp +decide [lookup_members])
  have hbandwidth : h.toJson.assign "bandwidth_quota_bytes" Json.asUInt64 0 = .ok h.bandwidth_quota_bytes_ :=
    assign_quota hr.bandwidth_quota_bytes (by simp +decide [lookup_members])
  unfold readAttributes
  rw [henabled, hcert, hkey, hca, hsessions, hstorage, hbandwidth]
  rfl

lemma readUserFile_toJson : readUserFile h.toJson = .ok h.userFile :=
  assign_string (by simp +decide [lookup_members])

lemma readCustomErrors_toJson (host : FTPVirtualHost) : host.readCustomErrors h.toJson = .ok host := by
  have hnone : h.members.lookup (ascii "custom_errors") = none := by simp +decide [lookup_members]
  unfold readCustomErrors toJson
  rw [Json.isMember_object, Json.member_object, hnone]
  rfl

lemma ofJson_toJson (hr : h.InRange) : ∃ host, ofJson h.toJson = .ok (some host) ∧ host.hostname_ = h.hostname_ ∧
    host.attributes = h.attributes.kept := by
  let host : FTPVirtualHost := { h with
    user_manager_ := named h.userFile
    max_sessions_ := if h.max_sessions_ > 0 then h.max_sessions_ else 0
    custom_errors_ := ∅ }
  refine ⟨host, ?_, rfl, ?_⟩
  · unfold ofJson
    rw [readAttributes_toJson hr, readUserFile_toJson]
    change (host.readCustomErrors h.toJson >>= fun host => pure (some host)) = _
    rw [readCustomErrors_toJson]
    rfl
  · have huser : host.userFile = h.userFile := userFile_named rfl
    simp only [attributes, HostAttributes.kept, huser]
    rfl

lemma foldlM_setCustomError (message : Str → Except JsonError Str) (names : List Str) :
    ∃ errors : AList (fun _ : Str => Str) → Except JsonError (AList fun _ : Str => Str), ∀ h : FTPVirtualHost,
      names.foldlM (fun host key => do return host.setCustomError key (← message key)) h =
        (errors h.custom_errors_).map fun e => { h with custom_errors_ := e } := by
  induction names with
  | nil => exact ⟨.ok, fun h => rfl⟩
  | cons name names ih =>
    obtain ⟨errors, ih⟩ := ih
    cases hm : message name with
    | error e => exact ⟨fun _ => .error e, fun h => by simp only [List.foldlM_cons, hm]; rfl⟩
    | ok m =>
      refine ⟨fun e => errors (if m = [] then e.erase name else e.insert name m), fun h => ?_⟩
      simp only [List.foldlM_cons, hm]
      exact ih (h.setCustomError name m)

lemma readCustomErrors_eq (j : Json) :
    ∃ errors : AList (fun _ : Str => Str) → Except JsonError (AList fun _ : Str => Str), ∀ h : FTPVirtualHost,
      h.readCustomErrors j = (errors h.custom_errors_).map fun e => { h with custom_errors_ := e } := by
  cases j with
  | null => exact ⟨.ok, fun h => rfl⟩
  | bool | int | real | string | array => exact ⟨fun _ => .error .LogicError, fun h => rfl⟩
  | object ms =>
    let value := (ms.lookup (ascii "custom_errors")).getD .null
    obtain ⟨present, hread⟩ : ∃ present : Bool, ∀ h : FTPVirtualHost, h.readCustomErrors (.object ms) =
        if present then value.getMemberNames.foldlM (fun host key => do
          return host.setCustomError key (← (← value.member key).asString)) h else .ok h :=
      ⟨(ms.lookup (ascii "custom_errors")).isSome && value.isObject, fun h => rfl⟩
    cases present with
    | false => exact ⟨.ok, hread⟩
    | true =>
      obtain ⟨errors, he⟩ :=
        foldlM_setCustomError (fun key => value.member key >>= Json.asString) value.getMemberNames
      refine ⟨errors, fun h => ?_⟩
      rw [hread, if_pos rfl, ← he]
      simp only [bind_assoc]

lemma readAttributes_ok {j : Json} (hj : readAttributes j = .ok (some h)) :
    h.InRange ∧ h.user_manager_ = none ∧ h.custom_errors_ = ∅ := by
  simp only [readAttributes, Json.bind_eq_ok] at hj
  obtain ⟨_, _, _, _, hj⟩ := hj
  split at hj
  · cases hj
  · simp only [Json.bind_eq_ok] at hj
    obtain ⟨_, _, _, _, _, _, _, _, _, _, _, _, _, _, _, _, max_sessions, hsessions, storage, hstorage,
      bandwidth, hbandwidth, hj⟩ := hj
    cases hj
    refine ⟨⟨?_, ?_, ?_⟩, rfl, rfl⟩
    · change -2 ^ 31 ≤ max_sessions ∧ max_sessions < 2 ^ 31
      rcases Json.assign_eq_ok hsessions with rfl | ⟨j', hj'⟩
      · decide
      · exact Json.asIntegral_range (by decide) (by decide) hj'
    · exact Json.assign_quota_range hstorage
    · exact Json.assign_quota_range hbandwidth

lemma ofJson_eq {j : Json} {user_file : Str} (hr : readAttributes j = .ok (some h))
    (hf : readUserFile j = .ok user_file) :
    ofJson j = ({ h with user_manager_ := named user_file }.readCustomErrors j).map some := by
  rw [ofJson, hr]
  change (readUserFile j >>= fun user_file =>
    { h with user_manager_ := named user_file }.readCustomErrors j >>= fun host => pure (some host)) = _
  rw [hf]
  change ({ h with user_manager_ := named user_file }.readCustomErrors j >>= fun host => pure (some host)) = _
  cases { h with user_manager_ := named user_file }.readCustomErrors j <;> rfl

lemma ofJson_eq_ok {j : Json} {r : Option FTPVirtualHost} (hj : ofJson j = .ok r) :
    r = none ∧ readAttributes j = .ok none ∨ ∃ host user_file host', readAttributes j = .ok (some host) ∧
      readUserFile j = .ok user_file ∧
        { host with user_manager_ := named user_file }.readCustomErrors j = .ok host' ∧
      r = some host' := by
  obtain ⟨attributes, ha, hj⟩ := Json.bind_eq_ok.1 hj
  cases attributes with
  | none =>
    cases hj
    exact .inl ⟨rfl, ha⟩
  | some host =>
    obtain ⟨user_file, hf, hj⟩ := Json.bind_eq_ok.1 hj
    obtain ⟨host', he, hj⟩ := Json.bind_eq_ok.1 hj
    cases hj
    exact .inr ⟨host, user_file, host', ha, hf, he, rfl⟩

lemma ofJson_inRange {j : Json} (hj : ofJson j = .ok (some h)) : h.InRange := by
  rcases ofJson_eq_ok hj with ⟨hnone, _⟩ | ⟨host, user_file, host', ha, _, he, hsome⟩
  · cases hnone
  · cases hsome
    obtain ⟨errors, hread⟩ := readCustomErrors_eq j
    rw [hread] at he
    have hrange := (readAttributes_ok ha).1
    cases hc : errors host.custom_errors_ with
    | error e =>
      rw [hc] at he
      cases he
    | ok e =>
      rw [hc] at he
      cases he
      exact ⟨hrange.max_sessions, hrange.storage_quota_bytes, hrange.bandwidth_quota_bytes⟩

end FTPVirtualHost

namespace FTPVirtualHostManager

def decodeHosts (loaded : VirtualHosts) : List Json → Except JsonError VirtualHosts
  | [] => return loaded
  | j :: js => do
    match ← FTPVirtualHost.ofJson j with
    | none => decodeHosts loaded js
    | some host => decodeHosts (loaded.add host) js

end FTPVirtualHostManager

namespace VirtualHosts

def attributesOf (v : VirtualHosts) (name : Str) : Option HostAttributes :=
  (v.getVirtualHost name).map (·.attributes)

def InRange (v : VirtualHosts) : Prop := ∀ name h, v.getVirtualHost name = some h → h.InRange

variable {v : VirtualHosts} {h : FTPVirtualHost}

lemma attributesOf_add_self : (v.add h).attributesOf h.hostname_ = some h.attributes :=
  congrArg (Option.map _) getVirtualHost_add_self

lemma attributesOf_add_ne {name : Str} (hn : name ≠ h.hostname_) :
    (v.add h).attributesOf name = v.attributesOf name :=
  congrArg (Option.map _) (getVirtualHost_add_ne hn)

lemma InRange.add (hv : v.InRange) (hh : h.InRange) : (v.add h).InRange := by
  intro name h' hl
  rcases lookup_of_insert hl with ⟨rfl, rfl⟩ | hl
  · exact hh
  · exact hv name h' hl

lemma attributesOf_erase_ne {name hostname : Str} (hn : name ≠ hostname) :
    (v.erase hostname).attributesOf name = v.attributesOf name :=
      congrArg (Option.map _) (getVirtualHost_erase_ne hn)

lemma InRange.congr {v' : VirtualHosts} (hv : v.InRange) (h : ∀ name, v'.attributesOf name = v.attributesOf name) :
    v'.InRange := by
  intro name h' hl
  have hsome : v.attributesOf name = some h'.attributes := by
    rw [← h, attributesOf, hl]
    rfl
  obtain ⟨h, hl', he⟩ := Option.map_eq_some_iff.1 hsome
  have hrange := hv name h hl'
  have hsessions : h.max_sessions_ = h'.max_sessions_ := congrArg HostAttributes.max_sessions he
  have hstorage : h.storage_quota_bytes_ = h'.storage_quota_bytes_ :=
    congrArg HostAttributes.storage_quota_bytes he
  have hbandwidth : h.bandwidth_quota_bytes_ = h'.bandwidth_quota_bytes_ :=
    congrArg HostAttributes.bandwidth_quota_bytes he
  exact ⟨hsessions ▸ hrange.max_sessions, hstorage ▸ hrange.storage_quota_bytes,
    hbandwidth ▸ hrange.bandwidth_quota_bytes⟩

lemma InRange.erase (hv : v.InRange) (name : Str) : (v.erase name).InRange :=
  fun name' h' hl => hv name' h' (lookup_of_erase hl).2

end VirtualHosts

namespace FTPVirtualHostManager

lemma decodeHosts_none {j : Json} {js : List Json} {loaded : VirtualHosts}
    (hj : FTPVirtualHost.ofJson j = .ok none) :
    decodeHosts loaded (j :: js) = decodeHosts loaded js := by
  rw [decodeHosts, hj]
  rfl

lemma decodeHosts_some {j : Json} {js : List Json} {loaded : VirtualHosts} {host : FTPVirtualHost}
    (hj : FTPVirtualHost.ofJson j = .ok (some host)) :
    decodeHosts loaded (j :: js) = decodeHosts (loaded.add host) js := by
  rw [decodeHosts, hj]
  rfl

lemma decodeHosts_inRange {js : List Json} : ∀ {loaded hosts : VirtualHosts}, loaded.InRange →
    decodeHosts loaded js = .ok hosts → hosts.InRange := by
  induction js with
  | nil =>
    intro loaded hosts hl h
    cases h
    exact hl
  | cons j js ih =>
    intro loaded hosts hl h
    obtain ⟨r, hr, h⟩ := Json.bind_eq_ok.1 h
    cases r with
    | none => exact ih hl h
    | some host => exact ih (hl.add (FTPVirtualHost.ofJson_inRange hr)) h

lemma decodeHosts_toJson (l : List (Sigma fun _ : Str => FTPVirtualHost)) :
    (∀ e ∈ l, e.2.hostname_ = e.1 ∧ e.2.InRange) → l.NodupKeys → ∀ loaded : VirtualHosts, ∃ hosts,
      decodeHosts loaded (l.map fun e => e.2.toJson) = .ok hosts ∧
        ∀ name, hosts.attributesOf name = ((l.dlookup name).map (·.attributes.kept)).or
          (loaded.attributesOf name) := by
  induction l with
  | nil => exact fun _ _ loaded => ⟨loaded, rfl, fun name => rfl⟩
  | cons e l ih =>
    intro hl hnodup loaded
    obtain ⟨hname, hrange⟩ := hl e List.mem_cons_self
    obtain ⟨hnew, hnodup⟩ := List.nodupKeys_cons.1 hnodup
    obtain ⟨host, hhost, hsame, hkept⟩ := FTPVirtualHost.ofJson_toJson hrange
    obtain ⟨hosts, hhosts, hattributes⟩ := ih (fun e' he' => hl e' (List.mem_cons_of_mem _ he')) hnodup
      (loaded.add host)
    refine ⟨hosts, ?_, fun name => ?_⟩
    · rw [List.map_cons, decodeHosts_some hhost, hhosts]
    · rw [hattributes]
      by_cases hn : name = e.1
      · have hnone : l.dlookup name = none := List.dlookup_eq_none.2 (hn ▸ hnew)
        have hself : (loaded.add host).attributesOf name = some host.attributes := by
          rw [hn, ← hname, ← hsame]
          exact VirtualHosts.attributesOf_add_self
        subst hn
        rw [hnone, hself, hkept, List.dlookup_cons_eq]
        rfl
      · have hother : name ≠ host.hostname_ := fun h => hn (h.trans (hsame.trans hname))
        rw [VirtualHosts.attributesOf_add_ne hother, List.dlookup_cons_ne _ _ hn]

end FTPVirtualHostManager

def storedHosts : StoredFile → Except JsonError VirtualHosts
  | .json root => do FTPVirtualHostManager.decodeHosts .empty (← FTPVirtualHostManager.hostsArray root)
  | _ => return .empty

lemma storedHosts_inRange {f : StoredFile} {hosts : VirtualHosts} (h : storedHosts f = .ok hosts) :
    hosts.InRange := by
  have hempty : VirtualHosts.empty.InRange := fun name h hl => by cases hl
  cases f with
  | missing | unparsable =>
    cases h
    exact hempty
  | json root =>
    obtain ⟨entries, _, h⟩ := Json.bind_eq_ok.1 h
    exact FTPVirtualHostManager.decodeHosts_inRange hempty h

lemma storedHosts_toJson {m : FTPVirtualHostManager} (hm : m.virtual_hosts_.InRange) (updated : Int) : ∃ hosts,
    storedHosts (.json (m.toJson updated)) = .ok hosts ∧
      ∀ name, hosts.attributesOf name = (m.virtual_hosts_.attributesOf name).map (·.kept) := by
  have hentries : ∀ e ∈ m.virtual_hosts_.map.entries, e.2.hostname_ = e.1 ∧ e.2.InRange := by
    intro e he
    have hl := AList.mem_lookup_iff.2 he
    exact ⟨m.virtual_hosts_.named e.1 e.2 hl, hm e.1 e.2 hl⟩
  obtain ⟨hosts, hhosts, hattributes⟩ :=
    FTPVirtualHostManager.decodeHosts_toJson _ hentries m.virtual_hosts_.map.nodupKeys .empty
  refine ⟨hosts, hhosts, fun name => ?_⟩
  have hkept : (m.virtual_hosts_.attributesOf name).map (·.kept) =
      (m.virtual_hosts_.map.entries.dlookup name).map (·.attributes.kept) := Option.map_map _ _ _
  rw [hattributes, hkept]
  exact Option.or_none

end SimpleSftpd
