import Mathlib.Data.List.Sort
import SimpleSftpd.User.Administration
import SimpleSftpd.User.FailedLoads

/-! production.cpp: the `user` commands, and the table of accounts that they keep in a user file. -/

namespace SimpleSftpd

open Cxx Interaction Password Prog

def splitCommaList (text : Str) : List Str :=
  ((tokens 44 text).map fun item => trimRight (trimLeft item)).filter (· ≠ [])

structure Terminal where
  isatty : Bool
  first : Option Str
  second : Option Str

def Terminal.promptForNewPassword (t : Terminal) : Except Str Str :=
  match t.first with
  | none => .error "Error: could not read password"
  | some first =>
    if first = [] then .error "Error: password must not be empty"
    else if t.isatty then match t.second with
      | none => .error "Error: could not read password confirmation"
      | some second => if first ≠ second then .error "Error: passwords do not match" else .ok first
    else .ok first

structure Shell where
  etc_exists : Bool
  etc_writable : Bool
  home : Option Str
  terminal : Terminal

def Shell.user_file (sh : Shell) : Str :=
  if !sh.etc_exists && !sh.etc_writable then sh.home.getD "." ++ "/.simple-sftpd/users.json"
  else "/etc/simple-sftpd/users.json"

structure UserCliOptions where
  username : Str := []
  password : Option Str := none
  home_dir : Option Str := none
  permissions : Option Str := none

namespace UserCliOptions

def setAdd (opts : UserCliOptions) (flag value : Str) : Option UserCliOptions :=
  if flag = "--username" ∨ flag = "-u" then some { opts with username := value }
  else if flag = "--password" ∨ flag = "-p" then some { opts with password := some value }
  else if flag = "--home" ∨ flag = "-h" then some { opts with home_dir := some value }
  else if flag = "--permissions" then some { opts with permissions := some value }
  else none

def setRemove (opts : UserCliOptions) (flag value : Str) : Option UserCliOptions :=
  if flag = "--username" ∨ flag = "-u" then some { opts with username := value } else none

def setPassword (opts : UserCliOptions) (flag value : Str) : Option UserCliOptions :=
  if flag = "--username" ∨ flag = "-u" then some { opts with username := value }
  else if flag = "--password" ∨ flag = "-p" then some { opts with password := some value }
  else none

def setModify (opts : UserCliOptions) (flag value : Str) : Option UserCliOptions :=
  if flag = "--username" ∨ flag = "-u" then some { opts with username := value }
  else if flag = "--home" ∨ flag = "-h" then some { opts with home_dir := some value }
  else if flag = "--permissions" then some { opts with permissions := some value }
  else none

def parse (set : UserCliOptions → Str → Str → Option UserCliOptions) (opts : UserCliOptions) :
    List Str → UserCliOptions
  | flag :: value :: args => match set opts flag value with
    | some opts => parse set opts args
    | none => parse set opts (value :: args)
  | _ => opts

def newPassword (opts : UserCliOptions) (t : Terminal) : Except Str Str :=
  match opts.password with
  | some password => if password = [] then .error "Error: password must not be empty" else .ok password
  | none => t.promptForNewPassword

end UserCliOptions

namespace FTPUserManager

variable (pbkdf2 : Pbkdf2) (m : FTPUserManager) (opts : UserCliOptions)

/-- The names in the order of `std::map`. -/
def listUsers : List Str := m.users_.keys.insertionSort (· ≤ ·)

def commandAdd (t : Terminal) : Storing (Bool × List Str) :=
  let home_dir := opts.home_dir.getD []
  let permissions := (opts.permissions.map splitCommaList).getD []
  if opts.username = [] ∨ home_dir = [] then return (false, ["Error: user add requires --username and --home"])
  else match opts.newPassword t with
  | .error text => return (false, [text])
  | .ok password => do
    let user ← FTPUser.construct pbkdf2 opts.username password home_dir
    let m ← m.addUser (if permissions = [] then user else { user with permissions_ := permissions })
    return (true, ["User '" ++ opts.username ++ "' added successfully", "User saved to: " ++ m.user_file_])

def commandRemove : Storing (Bool × List Str) := do
  if opts.username = [] then return (false, ["Error: user remove requires --username"])
  else do
    let (removed, m) ← m.removeUser opts.username
    if removed then
      return (true, ["User '" ++ opts.username ++ "' removed successfully", "Changes saved to: " ++ m.user_file_])
    else return (false, ["Error: User '" ++ opts.username ++ "' not found"])

def commandList : List Str :=
  if m.listUsers = [] then ["No users found"]
  else "Users:" :: m.listUsers.filterMap fun name =>
    (m.getUser name).map fun user => "  " ++ name ++ " (home: " ++ user.home_directory_ ++ ")"

def commandPassword (t : Terminal) : Storing (Bool × List Str) :=
  if opts.username = [] then return (false, ["Error: user password requires --username"])
  else match m.getUser opts.username with
  | none => return (false, ["Error: User '" ++ opts.username ++ "' not found"])
  | some u => match opts.newPassword t with
    | .error text => return (false, [text])
    | .ok password => do
      let salt ← (if isHashed password then pure none else request (.randBytes kSaltBytes) :
        Storing (Option (List Byte)))
      let user := u.setPassword pbkdf2 salt password
      if user.hasLegacyPassword then
        return (false, ["Error: failed to hash the new password; password unchanged on disk"])
      else do
        let saved ← { m with users_ := m.users_.insert opts.username user }.saveUsers []
        if saved then return (true, ["Password updated for user '" ++ opts.username ++ "'"])
        else return (false, ["Error: failed to save user file"])

def commandModify : Storing (Bool × List Str) :=
  if opts.username = [] then return (false, ["Error: user modify requires --username"])
  else if opts.home_dir = none ∧ opts.permissions = none then
    return (false, ["Error: user modify requires --home and/or --permissions",
      "       (use 'user password' to change a password)"])
  else match m.getUser opts.username with
  | none => return (false, ["Error: User '" ++ opts.username ++ "' not found"])
  | some u => do
    let user := { u with
      home_directory_ := opts.home_dir.getD u.home_directory_
      permissions_ := (opts.permissions.map splitCommaList).getD u.permissions_ }
    let saved ← { m with users_ := m.users_.insert opts.username user }.saveUsers []
    if saved then return (true, ["User '" ++ opts.username ++ "' updated"])
    else return (false, ["Error: failed to save user file"])

end FTPUserManager

def handleUserCommand (pbkdf2 : Pbkdf2) (sh : Shell) : List Str → Storing (Bool × List Str)
  | [] => return (false, ["Error: user command requires a subcommand (add, remove, modify, list, password)"])
  | subcommand :: args => do
    let m ← FTPUserManager.construct pbkdf2 sh.user_file
    if subcommand = "add" then m.commandAdd pbkdf2 (.parse UserCliOptions.setAdd {} args) sh.terminal
    else if subcommand = "remove" then m.commandRemove (.parse UserCliOptions.setRemove {} args)
    else if subcommand = "list" then return (true, m.commandList)
    else if subcommand = "password" then
      m.commandPassword pbkdf2 (.parse UserCliOptions.setPassword {} args) sh.terminal
    else if subcommand = "modify" then m.commandModify (.parse UserCliOptions.setModify {} args)
    else return (false, ["Error: Unknown user subcommand: " ++ subcommand])

structure Account where
  home_directory : Str
  permissions : List Str
  groups : List Str
  is_guest : Bool
  expires_at : Int
  storage_quota_bytes : ℕ

abbrev AccountTable := Str → Option Account

inductive TableChange
  | keep
  | put (name : Str) (account : Account)
  | drop (name : Str)

def TableChange.made (t : AccountTable) : TableChange → AccountTable
  | keep => t
  | put name account => Function.update t name (some account)
  | drop name => Function.update t name none

namespace AccountTable

variable (t : AccountTable) (opts : UserCliOptions) (terminal : Terminal)

def askedByAdd : Option TableChange :=
  if opts.username ≠ [] ∧ opts.home_dir.getD [] ≠ [] ∧ (opts.newPassword terminal).isOk then
    some (.put opts.username ⟨opts.home_dir.getD [], (opts.permissions.map splitCommaList).getD [],
      [], false, 0, 0⟩)
  else none

def askedByRemove : Option TableChange :=
  if opts.username ≠ [] then (t opts.username).map fun _ => .drop opts.username else none

def askedByPassword : Option TableChange :=
  if opts.username ≠ [] ∧ (opts.newPassword terminal).isOk then (t opts.username).map fun _ => .keep else none

def askedByModify : Option TableChange :=
  if opts.username ≠ [] ∧ (opts.home_dir.isSome ∨ opts.permissions.isSome) then
    (t opts.username).map fun account => .put opts.username { account with
      home_directory := opts.home_dir.getD account.home_directory
      permissions := (opts.permissions.map splitCommaList).getD account.permissions }
  else none

def asked : List Str → Option TableChange
  | [] => none
  | subcommand :: args =>
    if subcommand = "add" then askedByAdd (.parse UserCliOptions.setAdd {} args) terminal
    else if subcommand = "remove" then t.askedByRemove (.parse UserCliOptions.setRemove {} args)
    else if subcommand = "list" then some .keep
    else if subcommand = "password" then t.askedByPassword (.parse UserCliOptions.setPassword {} args) terminal
    else if subcommand = "modify" then t.askedByModify (.parse UserCliOptions.setModify {} args)
    else none

def Lists (printed : List Str) : Prop :=
  ∃ names : List Str, names.Pairwise (· ≤ ·) ∧ names.Nodup ∧ (∀ name, name ∈ names ↔ (t name).isSome) ∧
  printed = if names = [] then (["No users found"] : List Str) else ("Users:" : Str) :: names.filterMap fun name =>
    (t name).map fun account => "  " ++ name ++ " (home: " ++ account.home_directory ++ ")"

end AccountTable

def FTPUser.account (u : FTPUser) : Account :=
  ⟨u.home_directory_, u.permissions_, u.groups_, u.is_guest_, u.expires_at_, u.storage_quota_bytes_⟩

def FTPUserManager.table (m : FTPUserManager) : AccountTable := fun name => (m.getUser name).map FTPUser.account

def Cxx.StoredFile.table (f : StoredFile) : AccountTable :=
  fun name => (lastNamed (storedUsers f) name).map FTPUser.account

structure Desk where
  content : Str → StoredFile
  refused : Bool := false
  dry : Bool := false

namespace Desk

def next (g : Desk) {β : Type} (o : StoreCall β) : β → Desk := match o with
  | .createDirectories _ => fun failure => { g with refused := failure.isSome }
  | .truncate file => fun opened =>
    { g with
      content := if opened then Function.update g.content file .unparsable else g.content
      refused := !opened }
  | .write file root => fun _ => { g with content := Function.update g.content file (.json root) }
  | .randBytes _ => fun salt => { g with dry := salt.isNone }
  | _ => fun _ => g

def tables (g : Desk) : Str → AccountTable := fun file => (g.content file).table

end Desk

def commanding : Contract StoreCall Desk where
  pre _ _ := True
  post g o := match o with
    | .read file => fun found => found = g.content file
    | _ => fun _ => True
  next g o r := g.next o r

section

variable {pbkdf2 : Pbkdf2} {g g' : Desk} {m : FTPUserManager} {file : Str}

lemma FTPUser.Renews.account {r u : FTPUser} (h : r.Renews pbkdf2 u) : u.account = r.account := by
  obtain ⟨_, rfl⟩ := h
  rfl

lemma Assigned.table {f : StoredFile} {users : UserMap}
    (h : Assigned (FTPUser.Renews pbkdf2) (storedUsers f) ∅ users) :
    FTPUserManager.table ⟨users, file⟩ = f.table := by
  funext name
  have hname := h name
  unfold FTPUserManager.table Cxx.StoredFile.table FTPUserManager.getUser
  cases hlast : lastNamed (storedUsers f) name with
  | some r =>
    rw [hlast] at hname
    obtain ⟨u, hu, hrenews⟩ := hname
    rw [hu, Option.map_some, Option.map_some, hrenews.account]
  | none =>
    rw [hlast] at hname
    exact congrArg (Option.map FTPUser.account) hname

lemma readUsers_assigned {entries : List Json} : ∀ {users : UserMap} {migrated : Bool},
    (FTPUserManager.readUsers pbkdf2 users migrated entries).Within Generating fun r =>
      Assigned (FTPUser.Renews pbkdf2) (records (readable entries)) users r.2 ∧
        ((∃ b, r.1 = .ok b) ↔ ∀ j ∈ entries, ∃ entry, FTPUser.ofJson j = .ok entry) := by
  induction entries with
  | nil =>
    intro users migrated
    exact (within_pure _).2 ⟨fun _ => rfl, fun _ => (by simp), fun _ => ⟨_, rfl⟩⟩
  | cons j js ih =>
    intro users migrated
    rw [FTPUserManager.readUsers]
    cases hj : FTPUser.ofJson j with
    | error e =>
      have hreadable : readable (j :: js) = [] := by simp [readable, hj, Except.isOk, Except.toBool]
      rw [hreadable]
      refine (within_pure _).2 ⟨fun _ => rfl, ?_, fun h => ?_⟩
      · rintro ⟨_, h⟩
        cases h
      · obtain ⟨_, hok⟩ := h j List.mem_cons_self
        cases hj.symm.trans hok
    | ok entry =>
      have hreadable : readable (j :: js) = j :: readable js := by simp [readable, hj, Except.isOk, Except.toBool]
      have hall : (∀ j' ∈ j :: js, ∃ entry, FTPUser.ofJson j' = .ok entry) ↔
          ∀ j' ∈ js, ∃ entry, FTPUser.ofJson j' = .ok entry := by
        rw [List.forall_mem_cons]
        exact and_iff_right ⟨entry, hj⟩
      rw [hreadable, hall]
      cases entry with
      | none =>
        have hrecords : records (j :: readable js) = records (readable js) := by simp [records, hj]
        rw [hrecords]
        exact ih
      | some entry =>
        have hrecords : records (j :: readable js) = entry :: records (readable js) := by simp [records, hj]
        rw [hrecords]
        refine within_bind.2 ((FTPUser.construct_within _ _ _).mono (fun _ h => h) fun user hmade => ?_)
        obtain ⟨salt, rfl⟩ := hmade
        exact ih.mono (fun _ h => h) fun r h => ⟨h.1.cons ⟨salt, rfl⟩, h.2⟩

lemma generating_commanding {α : Type} {p : Storing α} {P : α → Prop} (h : p.Within Generating P) :
    Ends commanding p (fun a g' => P a ∧ g'.content = g.content ∧ g'.refused = g.refused)
      (fun g' => g'.content = g.content ∧ g'.refused = g.refused) g := by
  refine h.ends (J := fun g' : Desk => g'.content = g.content ∧ g'.refused = g.refused) ?_ ⟨rfl, rfl⟩
  intro β o g' ho hg
  refine ⟨trivial, fun r _ => ?_⟩
  cases o with
  | randBytes n => exact hg
  | _ => exact absurd ho id

lemma FTPUserManager.Sound.lastNamed_toJson (hm : m.Sound) (updated : Int) (name : Str) :
    lastNamed (storedUsers (.json (m.toJson updated))) name = m.users_.lookup name := by
  have hmem (r : FTPUser) : r ∈ storedUsers (.json (m.toJson updated)) ↔ ∃ k, m.users_.lookup k = some r := by
    rw [hm.storedUsers_toJson, List.mem_map]
    constructor
    · rintro ⟨e, he, rfl⟩
      exact ⟨e.1, AList.mem_lookup_iff.2 he⟩
    · rintro ⟨k, hk⟩
      exact ⟨⟨k, r⟩, AList.mem_lookup_iff.1 hk, rfl⟩
  cases hlast : lastNamed (storedUsers (.json (m.toJson updated))) name with
  | some r =>
    obtain ⟨hr, rfl⟩ := lastNamed_mem hlast
    obtain ⟨k, hk⟩ := (hmem r).1 hr
    obtain rfl := (hm k r hk).1
    exact hk.symm
  | none =>
    cases hl : m.users_.lookup name with
    | none => rfl
    | some u => exact absurd (hm name u hl).1 (lastNamed_none hlast u ((hmem u).2 ⟨name, hl⟩))

lemma FTPUserManager.Sound.table_toJson (hm : m.Sound) (updated : Int) :
    (StoredFile.json (m.toJson updated)).table = m.table := by
  funext name
  rw [Cxx.StoredFile.table, hm.lastNamed_toJson]
  rfl

def Desk.Saves (g g' : Desk) (file : Str) (t : AccountTable) : Prop :=
  g'.tables = if g'.refused then g.tables else Function.update g.tables file t

lemma saveUsers_commanding (hm : m.Sound) {filename : Str}
    (hfile : (if filename = [] then m.user_file_ else filename) = file) (hne : file ≠ []) :
    Ends commanding (m.saveUsers filename) (fun saved g' => g'.refused = !saved ∧ g.Saves g' file m.table)
      (fun g' => g'.refused = true ∧ g'.tables = g.tables) g := by
  rw [FTPUserManager.saveUsers]
  simp only [hfile, if_neg hne]
  have hdirectories : Ends commanding
      (if Path.hasParentPath file then request (.createDirectories (Path.parentPath file))
        else pure none : Storing (Option Errc))
      (fun failure g' => g'.content = g.content ∧ (failure ≠ none → g'.refused = true)) (fun _ => False) g := by
    apply ends_ite
    · intro _
      apply ends_perform trivial
      intro failure _
      exact ⟨rfl, fun h => Option.isSome_iff_ne_none.2 h⟩
    · intro _
      exact ends_pure ⟨rfl, fun h => absurd rfl h⟩
  apply ends_bind
  apply hdirectories.mono ?_ fun _ => False.elim
  rintro failure g₁ ⟨hcontent, hrefused⟩
  have htables : g₁.tables = g.tables := by
    unfold Desk.tables
    rw [hcontent]
  cases failure with
  | some e => exact ends_throw ⟨hrefused (Option.some_ne_none e), htables⟩
  | none =>
    apply ends_bind
    apply ends_perform trivial
    intro updated _
    apply ends_bind
    apply ends_perform trivial
    intro opened _
    cases opened with
    | false => exact ends_pure ⟨rfl, htables⟩
    | true =>
      apply ends_bind
      apply ends_perform trivial
      intro _ _
      refine ends_pure ⟨rfl, ?_⟩
      funext f
      by_cases hf : f = file
      · subst hf
        simp [Desk.tables, commanding, Desk.next, hm.table_toJson]
      · simp [Desk.tables, commanding, Desk.next, hf, hcontent]

lemma manager_commanding (hne : file ≠ []) : Ends commanding (FTPUserManager.construct pbkdf2 file)
    (fun m g' => (m.Sound ∧ m.user_file_ = file ∧ m.table = g.tables file) ∧ g'.tables = g.tables)
    (fun g' => (¬Readable (g.content file) ∨ g'.refused = true) ∧ g'.tables = g.tables) g := by
  have hempty (h : storedUsers (g.content file) = []) : FTPUserManager.Sound ⟨∅, file⟩ ∧ file = file ∧
      FTPUserManager.table ⟨∅, file⟩ = g.tables file := by
    refine ⟨fun k u h => (by cases h), rfl, ?_⟩
    unfold Desk.tables Cxx.StoredFile.table
    rw [h]
    rfl
  have hload : Ends commanding (FTPUserManager.loadUsers pbkdf2 ⟨∅, file⟩ []) (fun r g' => (match r.1 with
        | .ok _ => r.2.Sound ∧ r.2.user_file_ = file ∧ r.2.table = g.tables file
        | .error _ => ¬Readable (g.content file)) ∧ g'.tables = g.tables)
      (fun g' => g'.refused = true ∧ g'.tables = g.tables) g := by
    rw [FTPUserManager.loadUsers]
    simp only [if_true, if_neg hne]
    apply ends_bind
    apply ends_perform trivial
    intro found hfound
    change found = g.content file at hfound
    change Ends commanding _ _ _ g
    rw [← hfound] at hempty ⊢
    cases found with
    | missing | unparsable => exact ends_pure ⟨hempty rfl, rfl⟩
    | json root =>
      cases hroot : FTPUserManager.usersArray root with
      | error e =>
        simp only [hroot]
        apply ends_pure
        refine ⟨?_, rfl⟩
        rintro ⟨_, h, _⟩
        cases hroot.symm.trans h
      | ok entries =>
        cases entries with
        | none =>
          simp only [hroot]
          refine ends_pure ⟨hempty ?_, rfl⟩
          simp only [storedUsers, hroot]
        | some entries =>
          simp only [hroot]
          have hstored : storedUsers (.json root) = records entries := by
            simp only [storedUsers, hroot]
            rfl
          have hsound : (FTPUserManager.readUsers pbkdf2 ∅ false entries).Within Generating _ :=
            FTPUserManager.readUsers_of_file (P := fun k u => u.username_ = k ∧ u.InRange) hroot
              fun entry he u hu => ⟨rfl, hu.inRange (FTPUserManager.storedUsers_inRange he)⟩
          apply ends_bind
          have hread := generating_commanding (g := g) (hsound.and readUsers_assigned)
          apply (hread.of_returns FTPUserManager.readUsers_returns).mono
          · rintro ⟨migrated, users⟩ g₁ ⟨⟨⟨hsound, _⟩, hassigned, hok⟩, hcontent, _⟩
            have htables : g₁.tables = g.tables := by
              unfold Desk.tables
              rw [hcontent]
            cases migrated with
            | error e =>
              apply ends_pure
              refine ⟨?_, htables⟩
              rintro ⟨users', h, hall⟩
              obtain ⟨_, hb⟩ := hok.2 (hall entries (Except.ok.inj (h.symm.trans hroot)))
              cases hb
            | ok migrated =>
              rw [readable_of_ok (hok.1 ⟨migrated, rfl⟩), ← hstored] at hassigned
              have hm : FTPUserManager.Sound ⟨users, file⟩ := hsound
              have htable : FTPUserManager.table ⟨users, file⟩ = g.tables file := by
                rw [hassigned.table, hfound]
                rfl
              apply ends_bind
              apply ends_ite
              · intro _
                apply (saveUsers_commanding hm (if_neg hne) hne).mono
                · rintro saved g₂ ⟨_, hsaves⟩
                  refine ends_pure ⟨⟨hm, rfl, htable⟩, ?_⟩
                  rw [hsaves, htable, ← htables, Function.update_eq_self, ite_self]
                · rintro g₂ ⟨hrefused, hsame⟩
                  exact ⟨hrefused, hsame.trans htables⟩
              · intro _
                exact ends_pure (ends_pure ⟨⟨hm, rfl, htable⟩, htables⟩)
          · exact fun _ => id
  apply ends_ite
  · intro h
    exact absurd h hne
  intro _
  apply ends_bind
  apply hload.mono
  · rintro ⟨loaded, m⟩ g' ⟨hm, hsame⟩
    cases loaded with
    | error e => exact ends_throw ⟨.inl hm, hsame⟩
    | ok b => exact ends_pure ⟨hm, hsame⟩
  · rintro g' ⟨hrefused, hsame⟩
    exact ⟨.inr hrefused, hsame⟩

end

/-- What a command that asks for a change owes to the tables: the change if it reports success, unless it
could not save, and nothing otherwise. It refuses nothing that may be asked for while files can be written
and passwords hashed. -/
structure Desk.Obeys (pbkdf2 : Pbkdf2) (g g' : Desk) (file : Str) (asked : Option TableChange)
    (success : Bool) : Prop where
  tables : g'.tables = if success = true ∧ g'.refused = false then
    Function.update g.tables file ((asked.getD .keep).made (g.tables file)) else g.tables
  granted : success = true → asked.isSome
  denied : success = false → asked = none ∨ g'.refused = true ∨ g'.dry = true ∨ ¬Derives pbkdf2

section

variable {pbkdf2 : Pbkdf2} {g g' : Desk} {m : FTPUserManager} {file : Str} {asked : Option TableChange}

lemma Desk.Obeys.denied_at_once (h : g'.tables = g.tables) : g.Obeys pbkdf2 g' file none false :=
  ⟨h, fun h => (by cases h), fun _ => .inl rfl⟩

lemma Desk.Obeys.kept (h : g'.tables = g.tables) : g.Obeys pbkdf2 g' file (some .keep) true := by
  refine ⟨?_, fun _ => rfl, fun h => by cases h⟩
  rw [h]
  simp [TableChange.made]

lemma Desk.Obeys.saved {change : TableChange} {t : AccountTable} {success : Bool}
    (ht : t = change.made (g.tables file))
    (hsaves : g.Saves g' file t) (h : success = true ∨ success = !g'.refused) :
    g.Obeys pbkdf2 g' file (some change) success := by
  refine ⟨?_, fun _ => rfl, fun hno => .inr (.inl ?_)⟩
  · rw [hsaves, ht, Option.getD_some]
    cases hr : g'.refused <;> cases success <;> simp_all
  · rw [hno] at h
    simpa using h

lemma Desk.Obeys.trans {g₁ : Desk} {success : Bool} (h₁ : g₁.tables = g.tables)
    (h : g₁.Obeys pbkdf2 g' file asked success) :
    g.Obeys pbkdf2 g' file asked success := by
  refine ⟨?_, h.granted, h.denied⟩
  rw [← h₁]
  exact h.tables

variable (hm : m.Sound) (hfile : m.user_file_ = file) (hne : file ≠ []) (htable : m.table = g.tables file)

lemma table_insert {name : Str} {u : FTPUser} :
    FTPUserManager.table { m with users_ := m.users_.insert name u } = Function.update m.table name
      (some u.account) := by
  funext k
  by_cases hk : k = name
  · subst hk
    simp [FTPUserManager.table, FTPUserManager.getUser]
  · simp [FTPUserManager.table, FTPUserManager.getUser, hk]

lemma table_erase {name : Str} :
    FTPUserManager.table { m with users_ := m.users_.erase name } = Function.update m.table name none := by
  funext k
  by_cases hk : k = name
  · subst hk
    simp [FTPUserManager.table, FTPUserManager.getUser]
  · simp [FTPUserManager.table, FTPUserManager.getUser, hk]

structure Adds (username home_dir : Str) (permissions : List Str) (u : FTPUser) : Prop where
  username : u.username_ = username
  inRange : u.InRange
  account : u.account = ⟨home_dir, permissions, [], false, 0, 0⟩

lemma make_adds (pbkdf2 : Pbkdf2) (salt : Option (List Byte)) (username password home_dir : Str)
    (permissions : List Str) :
    Adds username home_dir permissions (if permissions = [] then
      FTPUser.make pbkdf2 salt username password home_dir
      else { FTPUser.make pbkdf2 salt username password home_dir with permissions_ := permissions }) := by
  have hinRange : (FTPUser.make pbkdf2 salt username password home_dir).InRange := FTPUser.make_inRange _ _ _
  have haccount : (FTPUser.make pbkdf2 salt username password home_dir).account = ⟨home_dir, [], [],
      false, 0, 0⟩ := by
    rw [FTPUser.make, FTPUser.setPassword_eq]
    rfl
  split
  · rename_i hnone
    subst hnone
    exact ⟨FTPUser.make_username _ _ _, hinRange, haccount⟩
  · refine ⟨FTPUser.make_username _ _ _, ⟨hinRange.expires_at, hinRange.storage_quota_bytes⟩, ?_⟩
    rw [FTPUser.account, Account.mk.injEq] at haccount
    simp [FTPUser.account, haccount]

lemma salt_commanding (password : Str) :
    Ends commanding (if isHashed password then pure none else request (.randBytes kSaltBytes) :
    Storing (Option (List Byte))) (fun salt g' => g'.tables = g.tables ∧
      (isHashed password = false → g'.dry = salt.isNone))
      (fun _ => False) g := by
  apply ends_ite
  · intro h
    exact ends_pure ⟨rfl, fun h' => by simp [h] at h'⟩
  · intro _
    exact ends_perform trivial fun salt _ => ⟨rfl, fun _ => rfl⟩

lemma not_hashed {salt : Option (List Byte)} {password : Str} {u : FTPUser}
    (h : (u.setPassword pbkdf2 salt password).hasLegacyPassword = true) :
    isHashed password = false ∧ (salt = none ∨ ¬Derives pbkdf2) := by
  rw [FTPUser.hasLegacyPassword, Bool.not_eq_true', FTPUser.setPassword] at h
  split at h
  · rename_i hhashed
    cases hhashed.symm.trans h
  · rename_i hplain
    refine ⟨by simpa using hplain, or_iff_not_imp_right.2 fun hd => ?_⟩
    cases salt with
    | none => rfl
    | some bytes =>
      have hhashed := hash_isHashed (not_not.1 hd) bytes password
      dsimp only at h
      split at h
      · rename_i hempty
        rw [hempty] at hhashed
        cases hhashed
      · cases hhashed.symm.trans h

lemma setPassword_account {salt : Option (List Byte)} {password : Str} {u : FTPUser} :
    (u.setPassword pbkdf2 salt password).account = u.account := by
  rw [FTPUser.setPassword_eq]
  rfl

include hm hfile hne in
lemma addUser_commanding {u : FTPUser} (hu : u.InRange) : Ends commanding (m.addUser u)
    (fun m' g' => m'.user_file_ = file ∧ g.Saves g' file (Function.update m.table u.username_ (some u.account)))
    (fun g' => g'.refused = true ∧ g'.tables = g.tables) g := by
  apply ends_bind
  apply ends_ite
  · intro _
    apply (saveUsers_commanding (hm.insert rfl hu) (if_pos rfl |>.trans hfile) hne).mono ?_ fun _ => id
    rintro saved g' ⟨_, hsaves⟩
    refine ends_pure ⟨hfile, ?_⟩
    rw [← table_insert]
    exact hsaves
  · intro h
    exact absurd (not_not.1 h) (hfile ▸ hne)

include hm hfile hne htable

lemma commandAdd_commanding (opts : UserCliOptions) (terminal : Terminal) :
    Ends commanding (m.commandAdd pbkdf2 opts terminal)
      (fun r g' => g.Obeys pbkdf2 g' file (AccountTable.askedByAdd opts terminal) r.1)
      (fun g' => g'.refused = true ∧ g'.tables = g.tables) g := by
  rw [FTPUserManager.commandAdd, AccountTable.askedByAdd]
  apply ends_ite
  · intro h
    rw [if_neg (by tauto)]
    exact ends_pure (.denied_at_once rfl)
  intro h
  rw [not_or] at h
  cases hpassword : opts.newPassword terminal with
  | error text =>
    rw [if_neg (by simp [Except.isOk, Except.toBool])]
    exact ends_pure (.denied_at_once rfl)
  | ok password =>
    rw [if_pos ⟨h.1, h.2, rfl⟩]
    apply ends_bind
    apply ((generating_commanding (FTPUser.construct_within _ _ _)).of_returns
      (FTPUser.construct_returns _ _ _)).mono ?_ fun _ => id
    rintro _ g₁ ⟨⟨salt, rfl⟩, hcontent, _⟩
    have htables : g₁.tables = g.tables := by
      unfold Desk.tables
      rw [hcontent]
    rw [← htables] at htable ⊢
    apply ends_bind
    have hadds := make_adds pbkdf2 salt opts.username password (opts.home_dir.getD [])
      ((opts.permissions.map splitCommaList).getD [])
    apply (addUser_commanding hm hfile hne hadds.inRange).mono ?_ fun _ => ?_
    · rintro m' g' ⟨_, hsaves⟩
      rw [hadds.username, hadds.account, htable] at hsaves
      exact ends_pure (Desk.Obeys.trans htables (Desk.Obeys.saved rfl hsaves (.inl rfl)))
    · exact id

lemma commandRemove_commanding (opts : UserCliOptions) : Ends commanding (m.commandRemove opts)
    (fun r g' => g.Obeys pbkdf2 g' file (AccountTable.askedByRemove (g.tables file) opts) r.1)
    (fun g' => g'.refused = true ∧ g'.tables = g.tables) g := by
  rw [FTPUserManager.commandRemove, AccountTable.askedByRemove, ← htable]
  apply ends_ite
  · intro h
    rw [if_neg (not_not.2 h)]
    exact ends_pure (.denied_at_once rfl)
  intro h
  rw [if_pos h]
  apply ends_bind
  apply ends_ite
  · intro hfound
    obtain ⟨u, hu⟩ := Option.isSome_iff_exists.1 hfound
    have hasked : (m.table opts.username).map (fun _ => TableChange.drop opts.username) =
        some (.drop opts.username) := by
      simp [FTPUserManager.table, FTPUserManager.getUser, hu]
    rw [hasked]
    apply ends_bind
    apply ends_ite
    · intro _
      apply (saveUsers_commanding (hm.erase opts.username) (if_pos rfl |>.trans hfile) hne).mono ?_ fun _ => id
      rintro saved g' ⟨_, hsaves⟩
      rw [table_erase, htable] at hsaves
      exact ends_pure (ends_pure (Desk.Obeys.saved rfl hsaves (.inl rfl)))
    · intro h
      exact absurd (not_not.1 h) (hfile ▸ hne)
  · intro hmissing
    have hasked : (m.table opts.username).map (fun _ => TableChange.drop opts.username) = none := by
      simpa [FTPUserManager.table, FTPUserManager.getUser] using hmissing
    rw [hasked]
    exact ends_pure (ends_pure (.denied_at_once rfl))

lemma commandModify_commanding (opts : UserCliOptions) : Ends commanding (m.commandModify opts)
    (fun r g' => g.Obeys pbkdf2 g' file (AccountTable.askedByModify (g.tables file) opts) r.1)
    (fun g' => g'.refused = true ∧ g'.tables = g.tables) g := by
  rw [FTPUserManager.commandModify, AccountTable.askedByModify, ← htable]
  apply ends_ite
  · intro h
    rw [if_neg fun h' => h'.1 h]
    exact ends_pure (.denied_at_once rfl)
  intro h
  apply ends_ite
  · intro hnothing
    rw [if_neg (by simp [hnothing])]
    exact ends_pure (.denied_at_once rfl)
  intro hsomething
  rw [if_pos ⟨h, by simpa only [Option.isSome_iff_ne_none, ← not_and_or] using hsomething⟩, FTPUserManager.table]
  cases hu : m.getUser opts.username with
  | none => exact ends_pure (.denied_at_once rfl)
  | some u =>
    obtain ⟨hname, hrange⟩ := hm opts.username u hu
    apply ends_bind
    apply (saveUsers_commanding (hm.insert (k := opts.username) ?_ ?_) (if_pos rfl |>.trans hfile) hne).mono
    · rintro saved g' ⟨hrefused, hsaves⟩
      rw [table_insert, htable] at hsaves
      have hobeys (success : Bool) (hs : saved = success) : g.Obeys pbkdf2 g' file (some (.put opts.username
          ⟨opts.home_dir.getD u.home_directory_, (opts.permissions.map splitCommaList).getD u.permissions_,
            u.groups_,
            u.is_guest_, u.expires_at_, u.storage_quota_bytes_⟩)) success :=
        Desk.Obeys.saved rfl hsaves (.inr (by simp [hrefused, hs]))
      cases saved with
      | true => exact ends_pure (hobeys true rfl)
      | false => exact ends_pure (hobeys false rfl)
    · exact fun _ => id
    · exact hname
    · exact ⟨hrange.expires_at, hrange.storage_quota_bytes⟩

lemma commandPassword_commanding (opts : UserCliOptions) (terminal : Terminal) :
    Ends commanding (m.commandPassword pbkdf2 opts terminal)
      (fun r g' => g.Obeys pbkdf2 g' file (AccountTable.askedByPassword (g.tables file) opts terminal) r.1)
      (fun g' => g'.refused = true ∧ g'.tables = g.tables) g := by
  rw [FTPUserManager.commandPassword, AccountTable.askedByPassword, ← htable]
  apply ends_ite
  · intro h
    rw [if_neg fun h' => h'.1 h]
    exact ends_pure (.denied_at_once rfl)
  intro h
  rw [FTPUserManager.table]
  cases hu : m.getUser opts.username with
  | none =>
    rw [Option.map_none, Option.map_none, ite_self]
    exact ends_pure (.denied_at_once rfl)
  | some u =>
    cases hpassword : opts.newPassword terminal with
    | error text =>
      rw [if_neg fun h' => by cases h'.2]
      exact ends_pure (.denied_at_once rfl)
    | ok password =>
      rw [if_pos ⟨h, rfl⟩]
      obtain ⟨hname, hrange⟩ := hm opts.username u hu
      apply ends_bind
      apply (salt_commanding password).mono ?_ fun _ => False.elim
      rintro salt g₁ ⟨htables, hdry⟩
      have hkept : Function.update m.table opts.username (some (u.setPassword pbkdf2 salt password).account) =
          TableChange.keep.made (g₁.tables file) := by
        have hstored : m.table opts.username = some u.account := by simp [FTPUserManager.table, hu]
        rw [setPassword_account, ← hstored, Function.update_eq_self, htable, htables]
        rfl
      apply ends_ite
      · intro hlegacy
        obtain ⟨hplain, hwhy⟩ := not_hashed hlegacy
        refine ends_pure ⟨htables, fun h => (by cases h), fun _ => ?_⟩
        refine .inr (.inr (hwhy.imp_left fun hnone => ?_))
        rw [hdry hplain, hnone]
        rfl
      · intro _
        apply ends_bind
        apply (saveUsers_commanding (hm.insert (k := opts.username) ?_ ?_) (if_pos rfl |>.trans hfile) hne).mono
        · rintro saved g' ⟨hrefused, hsaves⟩
          rw [table_insert, hkept] at hsaves
          have hobeys (success : Bool) (hs : saved = success) : g.Obeys pbkdf2 g' file (some .keep) success :=
            Desk.Obeys.trans htables (Desk.Obeys.saved rfl hsaves (.inr (by simp [hrefused, hs])))
          cases saved with
          | true => exact ends_pure (hobeys true rfl)
          | false => exact ends_pure (hobeys false rfl)
        · rintro g' ⟨hrefused, hsame⟩
          exact ⟨hrefused, hsame.trans htables⟩
        · rw [setPassword_username, hname]
        · exact setPassword_inRange hrange salt password

omit hm hfile hne in
lemma commandList_lists : (g.tables file).Lists m.commandList := by
  refine ⟨m.listUsers, List.pairwise_insertionSort _ _, ?_, fun name => ?_, ?_⟩
  · exact (List.perm_insertionSort _ _).nodup_iff.2 m.users_.keys_nodup
  · rw [FTPUserManager.listUsers, List.mem_insertionSort, ← AList.mem_keys, ← htable]
    simp [FTPUserManager.table, FTPUserManager.getUser, AList.lookup_isSome]
  · rw [FTPUserManager.commandList, ← htable]
    simp only [FTPUserManager.table, Option.map_map]
    rfl

end

lemma Shell.user_file_ne (sh : Shell) : sh.user_file ≠ [] := by
  unfold Shell.user_file
  split
  · exact List.append_ne_nil_of_right_ne_nil _ (by decide)
  · decide

lemma handleUserCommand_commanding {pbkdf2 : Pbkdf2} {g : Desk} (sh : Shell) (args : List Str) :
    Ends commanding (handleUserCommand pbkdf2 sh args) (fun r g' =>
        g.Obeys pbkdf2 g' sh.user_file ((g.tables sh.user_file).asked sh.terminal args) r.1 ∧
          (r.1 = true → args.head? = some "list" → (g.tables sh.user_file).Lists r.2))
      (fun g' => (¬Readable (g.content sh.user_file) ∨ g'.refused = true) ∧ g'.tables = g.tables) g := by
  cases args with
  | nil => exact ends_pure ⟨.denied_at_once rfl, fun h => by cases h⟩
  | cons subcommand args =>
    rw [handleUserCommand, AccountTable.asked]
    apply ends_bind
    apply (manager_commanding sh.user_file_ne).mono ?_ fun _ => id
    rintro m g₁ ⟨⟨hm, hfile, htable⟩, htables⟩
    have hne := sh.user_file_ne
    rw [← htables] at htable ⊢
    have hother {p : Storing (Bool × List Str)} {asked : Option TableChange} (hsub : subcommand ≠ "list")
        (h : Ends commanding p (fun r g' => g₁.Obeys pbkdf2 g' sh.user_file asked r.1)
          (fun g' => g'.refused = true ∧ g'.tables = g₁.tables) g₁) :
        Ends commanding p (fun r g' => g.Obeys pbkdf2 g' sh.user_file asked r.1 ∧
            (r.1 = true → (subcommand :: args).head? = some "list" → (g₁.tables sh.user_file).Lists r.2))
          (fun g' => (¬Readable (g.content sh.user_file) ∨ g'.refused = true) ∧ g'.tables = g₁.tables) g₁ := by
      apply h.mono
      · refine fun r g' h => ⟨Desk.Obeys.trans htables h, fun _ hl => ?_⟩
        exact absurd (Option.some.inj hl) hsub
      · exact fun g' h => ⟨.inr h.1, h.2⟩
    apply ends_ite
    · rintro rfl
      exact hother (by decide) (commandAdd_commanding hm hfile hne htable _ _)
    intro hadd
    apply ends_ite
    · rintro rfl
      exact hother (by decide) (commandRemove_commanding hm hfile hne htable _)
    intro hremove
    apply ends_ite
    · rintro rfl
      exact ends_pure ⟨Desk.Obeys.kept htables, fun _ _ => commandList_lists htable⟩
    intro hlist
    apply ends_ite
    · rintro rfl
      exact hother (by decide) (commandPassword_commanding hm hfile hne htable _ _)
    intro hpassword
    apply ends_ite
    · rintro rfl
      exact hother (by decide) (commandModify_commanding hm hfile hne htable _)
    intro hmodify
    simp only [if_neg hadd, if_neg hremove, if_neg hlist, if_neg hpassword, if_neg hmodify]
    exact hother hlist (ends_pure (.denied_at_once rfl))

structure Console where
  desk : Desk
  time : ℕ
  choose : ∀ {β : Type}, ℕ → StoreCall β → β

namespace Console

def answer {β : Type} (w : Console) : StoreCall β → β × Console
  | .read file => (w.desk.content file, w)
  | o => (w.choose w.time o, { w with desk := w.desk.next o (w.choose w.time o), time := w.time + 1 })

abbrev machine : Machine StoreCall Console := fun _ w o => w.answer o

def begin (w : Console) : Console := { w with desk := { content := w.desk.content } }

lemma machine_commanding : commanding.Describes machine fun g w => w.desk = g := by
  rintro β g w o rfl _
  cases o with
  | read file => exact ⟨rfl, rfl⟩
  | _ => exact ⟨trivial, rfl⟩

end Console

/-- A console, the tables that should be in its files, and what the last command has come to; `none` if it
was ended by an exception. -/
structure Administered where
  console : Console
  tables : Str → AccountTable
  reported : Option (Bool × List Str) := none

namespace Administered

def asked (v : Administered) (sh : Shell) (args : List Str) : Option TableChange :=
  (v.tables sh.user_file).asked sh.terminal args

def made (v : Administered) (sh : Shell) (args : List Str) : Str → AccountTable :=
  Function.update v.tables sh.user_file (((v.asked sh args).getD .keep).made (v.tables sh.user_file))

def Answers (pbkdf2 : Pbkdf2) (v : Administered) (sh : Shell) (args : List Str) (v' : Administered) : Prop :=
  match v'.reported with
  | some (true, printed) =>
    (v.asked sh args).isSome ∧ (args.head? = some "list" → (v.tables sh.user_file).Lists printed)
  | some (false, _) =>
    v.asked sh args = none ∨ v'.console.desk.refused = true ∨ v'.console.desk.dry = true ∨ ¬Derives pbkdf2
  | none => ¬Readable (v.console.desk.content sh.user_file) ∨ v'.console.desk.refused = true

end Administered

def administrations (pbkdf2 : Pbkdf2) : System Administered (Shell × List Str) where
  init v := v.tables = v.console.desk.tables
  next v c := match (handleUserCommand pbkdf2 c.1 c.2).exec Console.machine v.console.begin with
    | (.ok (success, printed), w) =>
      some ⟨w, if success = true ∧ w.desk.refused = false then v.made c.1 c.2 else v.tables,
        some (success, printed)⟩
    | (.error _, w) => some ⟨w, v.tables, none⟩

namespace Administered

variable {pbkdf2 : Pbkdf2} {v v' : Administered} {sh : Shell} {args : List Str}

lemma next_keeps (hv : v.console.desk.tables = v.tables)
    (hn : (administrations pbkdf2).next v (sh, args) = some v') :
    v'.console.desk.tables = v'.tables ∧ v.Answers pbkdf2 sh args v' := by
  have htables : v.console.begin.desk.tables = v.tables := hv
  have hends : Ends commanding (handleUserCommand pbkdf2 sh args) _ _ v.console.begin.desk :=
    handleUserCommand_commanding sh args
  rw [htables] at hends
  have hcommand := hends.exec Console.machine_commanding rfl
  unfold administrations at hn
  rcases hcommand with ⟨⟨success, printed⟩, w, _, he, rfl, hobeys, hlists⟩ | ⟨e, w, _, he, rfl, hwhy, hsame⟩
  · simp only [he, Option.some.injEq] at hn
    subst hn
    refine ⟨?_, ?_⟩
    · rw [hobeys.tables, htables]
      rfl
    · cases success with
      | true => exact ⟨hobeys.granted rfl, hlists rfl⟩
      | false => exact hobeys.denied rfl
  · simp only [he, Option.some.injEq] at hn
    subst hn
    exact ⟨hsame, hwhy⟩

end Administered

/-- The user file is a table of accounts: in every run of `user` commands the files hold the tables that the
commands reported to be done make of those before, and a command is reported to be done only if the table
allows it. -/
theorem user_commands_keep_account_tables {pbkdf2 : Pbkdf2} {v : Administered}
    (h : (administrations pbkdf2).Reach System.anyStep v) : v.console.desk.tables = v.tables ∧
      ∀ sh args v', (administrations pbkdf2).next v (sh, args) = some v' → v.Answers pbkdf2 sh args v' := by
  have htables : v.console.desk.tables = v.tables := by
    apply h.invariant (P := fun v => v.console.desk.tables = v.tables)
    · exact fun v hv => hv.symm
    · exact fun v c v' hv _ hn => (Administered.next_keeps hv hn).1
  exact ⟨htables, fun sh args v' hn => (Administered.next_keeps htables hn).2⟩

namespace Administered

def sample : Administered where
  console := ⟨{ content := fun _ => .missing }, 0, fun _ c => match c with
    | .randBytes n => some (List.replicate n 0)
    | c => c.favourable⟩
  tables := fun _ _ => none

def sampleShell : Shell := ⟨true, true, none, ⟨false, some "secret", none⟩⟩

end Administered

theorem user_commands_keep_account_tables_alice : ∃ v v',
    (administrations Files.sampleDerivation).next Administered.sample
      (Administered.sampleShell, ["add", "-u", "alice", "--home", "/a"]) = some v ∧
    (administrations Files.sampleDerivation).next v (Administered.sampleShell, ["list"]) = some v' ∧
    v'.reported = some (true, (["Users:", "  alice (home: /a)"] : List Str)) ∧
    v'.console.desk.tables = v'.tables := by
  obtain ⟨v, hv, hv'⟩ := Option.bind_eq_some_iff.1 (show
    ((administrations Files.sampleDerivation).next Administered.sample (Administered.sampleShell,
      ["add", "-u", "alice", "--home", "/a"])).bind (fun v =>
      ((administrations Files.sampleDerivation).next v (Administered.sampleShell, ["list"])).map (·.reported)) =
        some (some (true, (["Users:", "  alice (home: /a)"] : List Str))) by decide +kernel)
  obtain ⟨v', hv', hreported⟩ := Option.map_eq_some_iff.1 hv'
  have hinit : (administrations Files.sampleDerivation).init Administered.sample := by
    change Administered.sample.tables = Administered.sample.console.desk.tables
    rfl
  have hreach : (administrations Files.sampleDerivation).Reach System.anyStep v' :=
    .step (.step (.init hinit) trivial hv) trivial hv'
  exact ⟨v, v', hv, hv', hreported, (user_commands_keep_account_tables hreach).1⟩

end SimpleSftpd
