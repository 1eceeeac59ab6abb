import SimpleSftpd.Cxx.Json
import SimpleSftpd.Interaction.Contract
import SimpleSftpd.VirtualHost.VirtualHost

/-! user_manager.cpp: the accounts of one user file, loaded, changed and saved. -/

namespace SimpleSftpd

open Cxx Interaction Password

inductive StoreCall : Type → Type
  | read (file : Str) : StoreCall StoredFile
  | createDirectories (p : Str) : StoreCall (Option Errc)
  | truncate (file : Str) : StoreCall Bool
  | write (file : Str) (root : Json) : StoreCall Unit
  | randBytes (n : ℕ) : StoreCall (Option (List Byte))
  | systemNow : StoreCall Int

def StoreCall.favourable {β : Type} : StoreCall β → β
  | read _ => .missing
  | createDirectories _ => none
  | truncate _ => true
  | write _ _ => ()
  | randBytes _ => none
  | systemNow => 0

/-- `conversion` stands for the `invalid_argument` and `out_of_range` of the numeric conversions. -/
inductive Thrown
  | json (e : JsonError)
  | filesystem_error (e : Errc)
  | conversion
  deriving DecidableEq

abbrev Storing (α : Type) := Prog StoreCall Thrown α

abbrev request {β : Type} (c : StoreCall β) : Storing β := Prog.perform c

def Generating : (Σ β, StoreCall β) → Prop
  | ⟨_, .randBytes _⟩ => True
  | _ => False

namespace FTPUser

def members (u : FTPUser) : List (Str × Json) := [
  ("username", .string u.username_),
  ("password", .string u.password_),
  ("home_directory", .string u.home_directory_),
  ("groups", .array (u.groups_.map .string)),
  ("permissions", .array (u.permissions_.map .string)),
  ("is_guest", .bool u.is_guest_),
  ("expires_at", .int u.expires_at_),
  ("storage_quota_bytes", .int u.storage_quota_bytes_)]

def toJson (u : FTPUser) : Json := .object u.members

def readList (j : Json) (key : Str) : Except JsonError (List Str) := do
  if (← j.isMember key) && (← j.member key).isArray then (← j.member key).strings else return []

def ofJson (j : Json) : Except JsonError (Option FTPUser) := do
  if (← j.isMember "username") && (← j.isMember "password") && (← j.isMember "home_directory") then
    let username ← (← j.member "username").asString
    let password ← (← j.member "password").asString
    let home_dir ← (← j.member "home_directory").asString
    let permissions ← readList j "permissions"
    let groups ← readList j "groups"
    let guest ← j.assign "is_guest" Json.asBool false
    let expires_at ← j.assign "expires_at" Json.asInt64 0
    let quota ← j.assign "storage_quota_bytes" Json.asUInt64 0
    return some ⟨username, password, home_dir, permissions, groups, guest, expires_at, quota⟩
  else return none

/-- The values the fields have in C++. -/
structure InRange (u : FTPUser) : Prop where
  expires_at : -2 ^ 63 ≤ u.expires_at_ ∧ u.expires_at_ < 2 ^ 63
  storage_quota_bytes : u.storage_quota_bytes_ < 2 ^ 64

lemma readList_toJson {ms : List (Str × Json)} {key : Str} {l : List Str}
    (h : ms.lookup key = some (.array (l.map .string))) : readList (.object ms) key = .ok l := by
  rw [readList, Json.isMember_object, Json.member_object, h]
  exact Json.strings_map l

lemma ofJson_toJson {u : FTPUser} (hu : u.InRange) : ofJson u.toJson = .ok (some u) := by
  obtain ⟨⟨hlow, hhigh⟩, hquota⟩ := hu
  have hpermissions : readList (.object u.members) "permissions" = .ok u.permissions_ := readList_toJson rfl
  have hgroups : readList (.object u.members) "groups" = .ok u.groups_ := readList_toJson rfl
  have hguest : (Json.object u.members).assign "is_guest" Json.asBool false = .ok u.is_guest_ :=
    Json.assign_some (j := .bool u.is_guest_) rfl
  have hexpires : (Json.object u.members).assign "expires_at" Json.asInt64 0 = .ok u.expires_at_ :=
    (Json.assign_some rfl).trans (Json.asInt64_int hlow hhigh)
  have hstored : (Json.object u.members).assign "storage_quota_bytes" Json.asUInt64 0 =
      .ok u.storage_quota_bytes_ :=
    (Json.assign_some rfl).trans (Json.asUInt64_int hquota)
  unfold ofJson toJson
  rw [hpermissions, hgroups, hguest, hexpires, hstored]
  rfl

lemma ofJson_inRange {j : Json} {u : FTPUser} (h : ofJson j = .ok (some u)) : u.InRange := by
  simp only [ofJson, Json.bind_eq_ok] at h
  obtain ⟨_, _, _, _, _, _, h⟩ := h
  split at h
  · simp only [Json.bind_eq_ok] at h
    obtain ⟨_, _, _, _, _, _, _, _, _, _, _, _, _, _, _, _, _, _, expires_at, hexpires, quota, hquota, h⟩ := h
    cases h
    refine ⟨?_, ?_⟩
    · change -2 ^ 63 ≤ expires_at ∧ expires_at < 2 ^ 63
      rcases Json.assign_eq_ok hexpires with rfl | ⟨j', hj'⟩
      · decide
      · exact Json.asIntegral_range (by decide) (by decide) hj'
    · exact Json.assign_quota_range hquota
  · cases h

section

variable {pbkdf2 : Pbkdf2} {salt : Option (List Byte)}

lemma setPassword_eq (password : Str) (u : FTPUser) :
    setPassword pbkdf2 salt password u = { u with password_ :=
      (setPassword pbkdf2 salt password u).password_ } := by
  unfold setPassword
  split
  · rfl
  · dsimp only
    split <;> rfl

lemma make_username (username password home_dir : Str) :
    (make pbkdf2 salt username password home_dir).username_ = username := by
  rw [make, setPassword_eq]

lemma make_inRange (username password home_dir : Str) : (make pbkdf2 salt username password home_dir).InRange := by
  rw [make, setPassword_eq]
  exact ⟨show -2 ^ 63 ≤ (0 : Int) ∧ (0 : Int) < 2 ^ 63 by decide, show 0 < 2 ^ 64 by decide⟩

end

end FTPUser

variable (pbkdf2 : Pbkdf2)

def FTPUser.construct (username password home_dir : Str) : Storing FTPUser := do
  let salt ← (if isHashed password then pure none else request (.randBytes kSaltBytes) :
    Storing (Option (List Byte)))
  return .make pbkdf2 salt username password home_dir

namespace FTPUserManager

variable (m : FTPUserManager)

def toJson (updated : Int) : Json := .object [
  ("users", .array (m.users_.entries.map fun e => e.2.toJson)),
  ("version", .string "1.0"),
  ("updated", .int updated)]

def saveUsers (filename : Str) : Storing Bool := do
  let file_to_save := if filename = [] then m.user_file_ else filename
  if file_to_save = [] then return false
  else do
    let failure ← (if Path.hasParentPath file_to_save then
      request (.createDirectories (Path.parentPath file_to_save))
      else pure none : Storing (Option Errc))
    match failure with
    | some e => Prog.throw (.filesystem_error e)
    | none => do
      let updated : Int ← request .systemNow
      let opened : Bool ← request (.truncate file_to_save)
      if !opened then return false
      else do
        request (.write file_to_save (m.toJson updated))
        return true

def readUsers (users : UserMap) (migrated : Bool) : List Json → Storing (Except JsonError Bool × UserMap)
  | [] => return (.ok migrated, users)
  | j :: js => match FTPUser.ofJson j with
    | .error e => return (.error e, users)
    | .ok none => readUsers users migrated js
    | .ok (some entry) => do
      let user ← FTPUser.construct pbkdf2 entry.username_ entry.password_ entry.home_directory_
      readUsers (users.insert entry.username_ { entry with password_ := user.password_ })
        (migrated || (!isHashed entry.password_ && !user.hasLegacyPassword)) js

def usersArray (root : Json) : Except JsonError (Option (List Json)) := do
  if (← root.isMember "users") && (← root.member "users").isArray then return some (← root.member "users").values
  else return none

def loadUsers (filename : Str) : Storing (Except JsonError Bool × FTPUserManager) := do
  let file_to_load := if filename = [] then m.user_file_ else filename
  if file_to_load = [] then return (.ok false, m)
  else do
    match ← request (.read file_to_load) with
    | .missing => return (.ok true, m)
    | .unparsable => return (.ok false, m)
    | .json root => match usersArray root with
      | .error e => return (.error e, { m with users_ := ∅ })
      | .ok none => return (.ok false, { m with users_ := ∅ })
      | .ok (some entries) => do
        let (migrated, users) ← readUsers pbkdf2 ∅ false entries
        let m := { m with users_ := users }
        match migrated with
        | .error e => return (.error e, m)
        | .ok migrated => do
          let _ ← (if migrated then m.saveUsers file_to_load else pure true : Storing Bool)
          return (.ok true, m)

def construct (user_file : Str) : Storing FTPUserManager := do
  let m : FTPUserManager := ⟨∅, user_file⟩
  if user_file = [] then return m
  else do
    let (loaded, m) ← m.loadUsers pbkdf2 []
    match loaded with
    | .error e => Prog.throw (.json e)
    | .ok _ => return m

def addUser (user : FTPUser) : Storing FTPUserManager := do
  let m := { m with users_ := m.users_.insert user.username_ user }
  let _ ← (if m.user_file_ ≠ [] then m.saveUsers [] else pure true : Storing Bool)
  return m

def removeUser (username : Str) : Storing (Bool × FTPUserManager) := do
  if (m.users_.lookup username).isSome then do
    let m := { m with users_ := m.users_.erase username }
    let _ ← (if m.user_file_ ≠ [] then m.saveUsers [] else pure true : Storing Bool)
    return (true, m)
  else return (false, m)

end FTPUserManager

/-- The accounts a connection is constructed with: those of the user file, the default account if
there are none, and anonymous if it is allowed. -/
def constructUsers (allow_anonymous : Bool) (user_file : Str) : Storing FTPUserManager := do
  let m ← FTPUserManager.construct pbkdf2 user_file
  let m ← (if m.users_.keys = [] then do
      let test_user ← FTPUser.construct pbkdf2 "test" "test" "/tmp"
      m.addUser test_user
    else pure m : Storing FTPUserManager)
  if allow_anonymous && (m.getUser "anonymous").isNone then do
    let anon_user ← FTPUser.construct pbkdf2 "anonymous" [] "/tmp"
    m.addUser anon_user
  else return m

def userAdd (user_file username password home_dir : Str) (permissions : List Str) : Storing FTPUserManager := do
  let m ← FTPUserManager.construct pbkdf2 user_file
  let user ← FTPUser.construct pbkdf2 username password home_dir
  m.addUser (if permissions = [] then user else { user with permissions_ := permissions })

def userRemove (user_file username : Str) : Storing (Bool × FTPUserManager) := do
  let m ← FTPUserManager.construct pbkdf2 user_file
  m.removeUser username

def storedUsers : StoredFile → List FTPUser
  | .json root => match FTPUserManager.usersArray root with
    | .ok (some entries) => entries.filterMap fun j => match FTPUser.ofJson j with
      | .ok entry => entry
      | .error _ => none
    | _ => []
  | _ => []

def storedNames (f : StoredFile) : List Str := (storedUsers f).map (·.username_)

namespace FTPUserManager

def Sound (m : FTPUserManager) : Prop := ∀ k u, m.users_.lookup k = some u → u.username_ = k ∧ u.InRange

variable {m : FTPUserManager} {updated : Int}

lemma usersArray_toJson :
    usersArray (m.toJson updated) = .ok (some (m.users_.entries.map fun e => e.2.toJson)) := rfl

lemma Sound.storedUsers_toJson (hm : m.Sound) :
    storedUsers (.json (m.toJson updated)) = m.users_.entries.map Sigma.snd := by
  simp only [storedUsers, usersArray_toJson, List.filterMap_map]
  rw [← List.filterMap_eq_map]
  refine List.filterMap_congr fun e he => ?_
  have hu : e.2.InRange := (hm e.1 e.2 (AList.mem_lookup_iff.2 he)).2
  simp only [Function.comp_apply, FTPUser.ofJson_toJson hu]

lemma Sound.mem_storedNames (hm : m.Sound) {k : Str} :
    k ∈ storedNames (.json (m.toJson updated)) ↔ k ∈ m.users_ := by
  rw [storedNames, hm.storedUsers_toJson, List.map_map, AList.mem_keys]
  have hkeys : m.users_.entries.map ((·.username_) ∘ Sigma.snd) = m.users_.keys :=
    List.map_congr_left fun e he => (hm e.1 e.2 (AList.mem_lookup_iff.2 he)).1
  rw [hkeys]

lemma Sound.insert (hm : m.Sound) {k : Str} {u : FTPUser} (hk : u.username_ = k) (hu : u.InRange) :
    Sound { m with users_ := m.users_.insert k u } := by
  intro k' u' h
  rcases lookup_of_insert h with ⟨rfl, rfl⟩ | h
  · exact ⟨hk, hu⟩
  · exact hm k' u' h

lemma Sound.erase (hm : m.Sound) (k : Str) : Sound { m with users_ := m.users_.erase k } :=
  fun k' u' h => hm k' u' (lookup_of_erase h).2

end FTPUserManager

section

open Prog

variable {pbkdf2 : Pbkdf2}

lemma FTPUser.construct_within (username password home_dir : Str) :
    (FTPUser.construct pbkdf2 username password home_dir).Within Generating
      fun u => ∃ salt, u = .make pbkdf2 salt username password home_dir := by
  refine within_bind.2 (within_ite.2 ⟨fun _ => ?_, fun _ => ?_⟩)
  · exact (within_pure _).2 ((within_pure _).2 ⟨none, rfl⟩)
  · exact (within_perform _).2 ⟨trivial, fun salt => (within_pure _).2 ⟨salt, rfl⟩⟩

lemma FTPUser.construct_returns (username password home_dir : Str) :
    (FTPUser.construct pbkdf2 username password home_dir).Returns := by
  have hsalt : (if isHashed password then pure none else request (.randBytes kSaltBytes) :
      Storing (Option (List Byte))).Returns := by
    split
    · exact trivial
    · exact fun _ => trivial
  exact hsalt.bind fun _ => trivial

def FTPUser.Renews (pbkdf2 : Pbkdf2) (entry u : FTPUser) : Prop :=
  ∃ salt, u = { entry with
    password_ := (FTPUser.make pbkdf2 salt entry.username_ entry.password_ entry.home_directory_).password_ }

lemma FTPUser.Renews.username {entry u : FTPUser} (h : Renews pbkdf2 entry u) : u.username_ = entry.username_ := by
  obtain ⟨_, rfl⟩ := h
  rfl

lemma FTPUser.Renews.inRange {entry u : FTPUser} (h : Renews pbkdf2 entry u) (he : entry.InRange) : u.InRange := by
  obtain ⟨_, rfl⟩ := h
  exact ⟨he.expires_at, he.storage_quota_bytes⟩

namespace FTPUserManager

lemma readUsers_within {P : Str → FTPUser → Prop} (entries : List Json)
    (hP : ∀ j ∈ entries, ∀ entry u, FTPUser.ofJson j = .ok (some entry) → FTPUser.Renews pbkdf2 entry u →
      P u.username_ u) :
    ∀ (users : UserMap) (migrated : Bool), (∀ k u, users.lookup k = some u → P k u) →
      (readUsers pbkdf2 users migrated entries).Within Generating fun r =>
        (∀ k u, r.2.lookup k = some u → P k u) ∧ ∀ b, r.1 = .ok b → (∀ n ∈ users, n ∈ r.2) ∧
          ∀ j ∈ entries, ∀ u, FTPUser.ofJson j = .ok (some u) → u.username_ ∈ r.2 := by
  induction entries with
  | nil => exact fun users _ hs => (within_pure _).2 ⟨hs, fun _ _ => ⟨fun _ h => h, by simp⟩⟩
  | cons j js ih =>
    intro users migrated hs
    have ih' := ih fun j' hj' => hP j' (List.mem_cons_of_mem _ hj')
    unfold readUsers
    cases hj : FTPUser.ofJson j with
    | error e => exact (within_pure _).2 ⟨hs, fun _ h => (by cases h)⟩
    | ok entry =>
      cases entry with
      | none =>
        refine (ih' users migrated hs).mono (fun _ h => h) fun r h => ⟨h.1, fun b hb => ?_⟩
        obtain ⟨hkept, hread⟩ := h.2 b hb
        refine ⟨hkept, fun j' hj' u hu => ?_⟩
        rcases List.mem_cons.1 hj' with rfl | hj'
        · cases hj.symm.trans hu
        · exact hread j' hj' u hu
      | some entry =>
        refine within_bind.2 ((FTPUser.construct_within _ _ _).mono (fun _ h => h) fun user hmade => ?_)
        obtain ⟨salt, rfl⟩ := hmade
        have hadded : ∀ k u, (users.insert entry.username_ { entry with
            password_ :=
              (FTPUser.make pbkdf2 salt entry.username_ entry.password_ entry.home_directory_).password_
              }).lookup k =
              some u → P k u := by
          intro k u hu
          rcases lookup_of_insert hu with ⟨rfl, rfl⟩ | hu
          · exact hP j List.mem_cons_self entry _ hj ⟨salt, rfl⟩
          · exact hs k u hu
        refine (ih' _ _ hadded).mono (fun _ h => h) fun r h => ⟨h.1, fun b hb => ?_⟩
        obtain ⟨hkept, hread⟩ := h.2 b hb
        refine ⟨fun n hn => hkept n (AList.mem_insert _ |>.2 (.inr hn)), fun j' hj' u hu => ?_⟩
        rcases List.mem_cons.1 hj' with rfl | hj'
        · obtain rfl : entry = u := Option.some.inj (Except.ok.inj (hj.symm.trans hu))
          exact hkept _ (AList.mem_insert _ |>.2 (.inl rfl))
        · exact hread j' hj' u hu

lemma readUsers_returns {entries : List Json} : ∀ {users : UserMap} {migrated : Bool},
    (readUsers pbkdf2 users migrated entries).Returns := by
  induction entries with
  | nil => exact trivial
  | cons j js ih =>
    intro users migrated
    unfold readUsers
    cases FTPUser.ofJson j with
    | error e => exact trivial
    | ok entry =>
      cases entry with
      | none => exact ih
      | some entry => exact (FTPUser.construct_returns _ _ _).bind fun _ => ih

lemma mem_storedUsers {root : Json} {entries : List Json} (h : usersArray root = .ok (some entries))
    {u : FTPUser} :
    u ∈ storedUsers (.json root) ↔ ∃ j ∈ entries, FTPUser.ofJson j = .ok (some u) := by
  simp only [storedUsers, h, List.mem_filterMap]
  refine exists_congr fun j => and_congr_right fun _ => ?_
  cases FTPUser.ofJson j with
  | error e => simp
  | ok entry => simp

lemma readUsers_of_file {P : Str → FTPUser → Prop} {root : Json} {entries : List Json}
    (h : usersArray root = .ok (some entries))
    (hP : ∀ entry ∈ storedUsers (.json root), ∀ u, FTPUser.Renews pbkdf2 entry u → P u.username_ u) :
    (readUsers pbkdf2 ∅ false entries).Within Generating fun r =>
      (∀ k u, r.2.lookup k = some u → P k u) ∧ ∀ b, r.1 = .ok b → ∀ n ∈ storedNames (.json root), n ∈ r.2 := by
  have hentries : ∀ j ∈ entries, ∀ entry u, FTPUser.ofJson j = .ok (some entry) → FTPUser.Renews pbkdf2 entry u →
      P u.username_ u := fun j hj entry u he => hP entry ((mem_storedUsers h).2 ⟨j, hj, he⟩) u
  have hempty : ∀ k u, (∅ : UserMap).lookup k = some u → P k u := fun k u hu => by cases hu
  refine (readUsers_within entries hentries ∅ false hempty).mono (fun _ h => h) fun r hr => ?_
  refine ⟨hr.1, fun b hb n hn => ?_⟩
  obtain ⟨u, hu, rfl⟩ := List.mem_map.1 hn
  obtain ⟨j, hj, hread⟩ := (mem_storedUsers h).1 hu
  exact (hr.2 b hb).2 j hj u hread

lemma storedUsers_inRange {f : StoredFile} {u : FTPUser} (hu : u ∈ storedUsers f) : u.InRange := by
  cases f with
  | missing | unparsable => simp [storedUsers] at hu
  | json root =>
    cases h : usersArray root with
    | error e => simp [storedUsers, h] at hu
    | ok entries =>
      cases entries with
      | none => simp [storedUsers, h] at hu
      | some entries =>
        obtain ⟨j, _, hj⟩ := (mem_storedUsers h).1 hu
        exact FTPUser.ofJson_inRange hj

end FTPUserManager

end

end SimpleSftpd
