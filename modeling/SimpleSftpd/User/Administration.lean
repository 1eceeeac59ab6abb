import Mathlib.Logic.Relation
import SimpleSftpd.User.SharedFile
import SimpleSftpd.VirtualHost.SavedHosts

namespace SimpleSftpd

open Cxx Interaction Password Prog

def Password.Verifies (pbkdf2 : Pbkdf2) : Prop :=
  ∀ (salt : List Byte) (plaintext : Str), salt.length = kSaltBytes →
  hash pbkdf2 (some salt) plaintext ≠ [] → verify pbkdf2 plaintext (hash pbkdf2 (some salt) plaintext) = true

def Password.IsSalt (salt : Option (List Byte)) : Prop := ∀ bytes, salt = some bytes → bytes.length = kSaltBytes

inductive Password.Credential (pbkdf2 : Pbkdf2) (password : Str) : Str → Prop
  | plain : Credential pbkdf2 password password
  | hashed {salt : List Byte} : salt.length = kSaltBytes → hash pbkdf2 (some salt) password ≠ [] →
    Credential pbkdf2 password (hash pbkdf2 (some salt) password)

variable (pbkdf2 : Pbkdf2)

def userPassword (user_file username password : Str) : Storing (Bool × FTPUserManager) := do
  let m ← FTPUserManager.construct pbkdf2 user_file
  match m.getUser username with
  | none => return (false, m)
  | some u => do
    let salt ← (if isHashed password then pure none else request (.randBytes kSaltBytes) :
      Storing (Option (List Byte)))
    let user := u.setPassword pbkdf2 salt password
    let m := { m with users_ := m.users_.insert username user }
    if user.hasLegacyPassword then return (false, m)
    else do
      let saved ← m.saveUsers []
      return (saved, m)

def userModify (user_file username : Str) (home_dir : Option Str) (permissions : Option (List Str)) :
    Storing (Bool × FTPUserManager) := do
  let m ← FTPUserManager.construct pbkdf2 user_file
  match m.getUser username with
  | none => return (false, m)
  | some u => do
    let user := { u with
      home_directory_ := home_dir.getD u.home_directory_, permissions_ := permissions.getD u.permissions_ }
    let m := { m with users_ := m.users_.insert username user }
    let saved ← m.saveUsers []
    return (saved, m)

inductive Administration
  | job (j : StoreJob)
  | list
  | modify (username : Str) (home_dir : Option Str) (permissions : Option (List Str))
  | password (username password : Str)

namespace Administration

def program (user_file : Str) : Administration → Storing Unit
  | .job j => j.program pbkdf2 user_file
  | .list => do
    let _ ← FTPUserManager.construct pbkdf2 user_file
    return ()
  | .modify username home_dir permissions => do
    let _ ← userModify pbkdf2 user_file username home_dir permissions
    return ()
  | .password username p => do
    let _ ← userPassword pbkdf2 user_file username p
    return ()

def about : Administration → Option Str
  | .job (.add username _ _ _) => some username
  | .job (.remove username) => some username
  | .password username _ => some username
  | _ => none

end Administration

def salting : Contract StoreCall (Str → StoredFile) where
  pre _ _ := True
  post g o := match o with
    | .read file => fun found => found = g file
    | .randBytes n => fun salt => ∀ bytes, salt = some bytes → bytes.length = n
    | _ => fun _ => True
  next g o r := o.after g r

structure StoredFile.Admits (pbkdf2 : Pbkdf2) (username password : Str) (f : StoredFile) : Prop where
  named : username ∈ storedNames f
  credential : ∀ r ∈ storedUsers f, r.username_ = username → Credential pbkdf2 password r.password_

structure FTPUserManager.Admits (pbkdf2 : Pbkdf2) (username password : Str) (m : FTPUserManager) : Prop where
  named : username ∈ m.users_
  credential : ∀ u, m.getUser username = some u → Credential pbkdf2 password u.password_

section

variable {pbkdf2 : Pbkdf2} {username password file : Str} {g : Str → StoredFile} {m : FTPUserManager}

lemma Password.constantTimeEquals_self (s : Str) : constantTimeEquals s s = true := by
  have hloop (s : Str) : differenceFrom 0 s s = 0 := by
    induction s with
    | nil => rfl
    | cons c s ih =>
      unfold differenceFrom
      rw [List.headD_cons, List.tail_cons, UInt8.xor_self, UInt8.or_zero]
      exact ih
  unfold constantTimeEquals
  rw [Nat.xor_self]
  exact decide_eq_true (hloop s)

lemma Password.Credential.verify {stored : Str} (hv : Verifies pbkdf2) (hp : isHashed password = false)
    (h : Credential pbkdf2 password stored) : Password.verify pbkdf2 password stored = true := by
  cases h with
  | plain =>
    unfold Password.verify
    rw [hp]
    exact constantTimeEquals_self password
  | hashed hlength hne => exact hv _ _ hlength hne

lemma Password.Credential.setPassword {stored : Str} {salt : Option (List Byte)} (hp : isHashed password = false)
    (h : Credential pbkdf2 password stored) (hsalt : IsSalt salt) (u : FTPUser) :
    Credential pbkdf2 password (u.setPassword pbkdf2 salt stored).password_ := by
  cases h with
  | plain =>
    unfold FTPUser.setPassword
    rw [if_neg (by simp [hp])]
    dsimp only
    split
    · exact .plain
    · rename_i hne
      cases salt with
      | none => exact absurd rfl hne
      | some bytes => exact .hashed (hsalt bytes rfl) hne
  | hashed hlength hne =>
    unfold FTPUser.setPassword
    rw [if_pos (isHashed_hash hne)]
    exact .hashed hlength hne

lemma salt_salting (p : Str) : Ends salting (if isHashed p then pure none else request (.randBytes kSaltBytes) :
    Storing (Option (List Byte))) (fun salt g' => IsSalt salt ∧ g' = g) (fun _ => False) g := by
  apply ends_ite
  · intro _
    exact ends_pure ⟨fun _ h => (by cases h), rfl⟩
  · intro _
    exact ends_perform trivial fun salt hsalt => ⟨hsalt, rfl⟩

lemma construct_salting (name p home_dir : Str) : Ends salting (FTPUser.construct pbkdf2 name p home_dir)
    (fun u g' => (∃ salt, IsSalt salt ∧ u = .make pbkdf2 salt name p home_dir) ∧ g' = g) (fun _ => False) g := by
  apply ends_bind
  apply (salt_salting p).mono ?_ fun _ => id
  rintro salt _ ⟨hsalt, rfl⟩
  exact ends_pure ⟨⟨salt, hsalt, rfl⟩, rfl⟩

lemma generating_salting {α : Type} {p : Storing α} {P : α → Prop} (h : p.Within Generating P) :
    Ends salting p (fun a g' => P a ∧ g' = g) (· = g) g := by
  apply h.ends (J := (· = g)) ?_ rfl
  intro β o g' ho hg
  refine ⟨trivial, fun r _ => ?_⟩
  cases o with
  | randBytes n => exact hg
  | _ => exact absurd ho id

namespace FTPUserManager

lemma Admits.toJson (hm : m.Sound) (h : m.Admits pbkdf2 username password) (updated : Int) :
    StoredFile.Admits pbkdf2 username password (.json (m.toJson updated)) := by
  refine ⟨hm.mem_storedNames.2 h.named, fun r hr hname => ?_⟩
  rw [hm.storedUsers_toJson] at hr
  obtain ⟨e, he, rfl⟩ := List.mem_map.1 hr
  have hlookup := AList.mem_lookup_iff.2 he
  obtain rfl : e.1 = username := (hm e.1 e.2 hlookup).1.symm.trans hname
  exact h.credential e.2 hlookup

lemma readUsers_salting (hp : isHashed password = false) (entries : List Json)
    (hentries : ∀ j ∈ entries, ∀ r, FTPUser.ofJson j = .ok (some r) → r.username_ = username →
      Credential pbkdf2 password r.password_) : ∀ (users : UserMap) (migrated : Bool),
      (∀ u, users.lookup username = some u → Credential pbkdf2 password u.password_) →
      Ends salting (readUsers pbkdf2 users migrated entries) (fun r g' =>
        (∀ u, r.2.lookup username = some u → Credential pbkdf2 password u.password_) ∧
          g' = g) (fun _ => False) g := by
  induction entries with
  | nil =>
    intro users migrated husers
    exact ends_pure ⟨husers, rfl⟩
  | cons j js ih =>
    intro users migrated husers
    have ih' := ih fun j' hj' => hentries j' (List.mem_cons_of_mem _ hj')
    unfold readUsers
    cases hj : FTPUser.ofJson j with
    | error e => exact ends_pure ⟨husers, rfl⟩
    | ok entry =>
      cases entry with
      | none => exact ih' users migrated husers
      | some entry =>
        apply ends_bind
        apply (construct_salting _ _ _).mono ?_ fun _ => id
        rintro _ _ ⟨⟨salt, hsalt, rfl⟩, rfl⟩
        apply ih'
        intro u hu
        rcases lookup_of_insert hu with ⟨hname, rfl⟩ | hu
        · exact (hentries j List.mem_cons_self entry hj hname.symm).setPassword hp hsalt _
        · exact husers u hu

structure Tends (pbkdf2 : Pbkdf2) (username password file : Str) (own : Prop) (m : FTPUserManager) : Prop where
  sound : m.Sound
  user_file : m.user_file_ = file
  admits : own → m.Admits pbkdf2 username password

variable {own : Prop}

lemma Tends.insert (hm : m.Tends pbkdf2 username password file own) {k : Str} {u : FTPUser} (hk : u.username_ = k)
    (hu : u.InRange) (hcredential : own → k = username → Credential pbkdf2 password u.password_) :
    Tends pbkdf2 username password file own { m with users_ := m.users_.insert k u } := by
  refine ⟨hm.sound.insert hk hu, hm.user_file, fun ho => ?_⟩
  refine ⟨(AList.mem_insert _).2 (.inr (hm.admits ho).named), ?_⟩
  intro u' hu'
  rcases lookup_of_insert hu' with ⟨hname, rfl⟩ | hu'
  · exact hcredential ho hname.symm
  · exact (hm.admits ho).credential u' hu'

lemma Tends.erase (hm : m.Tends pbkdf2 username password file own) {k : Str} (hk : k ≠ username) :
    Tends pbkdf2 username password file own { m with users_ := m.users_.erase k } := by
  refine ⟨hm.sound.erase k, hm.user_file, fun ho => ?_⟩
  refine ⟨AList.mem_erase.2 ⟨hk.symm, (hm.admits ho).named⟩, ?_⟩
  intro u hu
  exact (hm.admits ho).credential u (lookup_of_erase hu).2

lemma Sound.store (hm : m.Sound) {u : FTPUser} (hname : u.username_ = username) (hu : u.InRange)
    (hcredential : Credential pbkdf2 password u.password_) :
    Tends pbkdf2 username password m.user_file_ own { m with users_ := m.users_.insert username u } := by
  refine ⟨hm.insert hname hu, rfl, fun _ => ⟨(AList.mem_insert _).2 (.inl rfl), ?_⟩⟩
  intro u' hu'
  obtain rfl : u = u' := Option.some.inj ((AList.lookup_insert _).symm.trans hu')
  exact hcredential

lemma saveUsers_salting (hm : m.Tends pbkdf2 username password file own) {filename : Str}
    (hfile : (if filename = [] then m.user_file_ else filename) = file)
    (hg : own → StoredFile.Admits pbkdf2 username password (g file)) : Ends salting (m.saveUsers filename)
    (fun saved g' => (saved = true → file ≠ [] ∧ ∃ updated, g' file = .json (m.toJson updated)) ∧
      (own → StoredFile.Admits pbkdf2 username password (g' file)))
    (fun g' => own → StoredFile.Admits pbkdf2 username password (g' file)) g := by
  unfold saveUsers
  rw [hfile]
  apply ends_ite
  · intro _
    exact ends_pure ⟨fun h => (by cases h), hg⟩
  intro hne
  have hdirectories :
    Ends salting (if Path.hasParentPath file then request (.createDirectories (Path.parentPath file))
      else pure none : Storing (Option Errc)) (fun _ g' => g' = g) (fun _ => False) g := by
    apply ends_ite
    · intro _
      exact ends_perform trivial fun _ _ => rfl
    · intro _
      exact ends_pure rfl
  apply ends_bind
  apply hdirectories.mono ?_ fun _ => False.elim
  rintro failure g rfl
  cases failure with
  | some e => exact ends_throw hg
  | none =>
    apply ends_bind
    apply ends_perform trivial
    intro updated _
    apply ends_bind
    apply ends_perform trivial
    intro opened _
    cases opened with
    | false => exact ends_pure ⟨fun h => (by cases h), hg⟩
    | true =>
      apply ends_bind
      apply ends_perform trivial
      intro _ _
      have hsaved : salting.next (salting.next (salting.next g .systemNow updated) (.truncate file) true)
          (.write file (m.toJson updated)) () file = .json (m.toJson updated) := Function.update_self _ _ _
      refine ends_pure ⟨fun _ => ⟨hne, updated, hsaved⟩, fun ho => ?_⟩
      rw [hsaved]
      exact (hm.admits ho).toJson hm.sound updated

lemma readUsers_tends (file : Str) (hp : isHashed password = false) {root : Json} {entries : List Json}
    (hroot : usersArray root = .ok (some entries))
    (hown : own → StoredFile.Admits pbkdf2 username password (.json root)) :
    Ends salting (readUsers pbkdf2 ∅ false entries) (fun r g' => g' = g ∧
      ∀ b, r.1 = .ok b → Tends pbkdf2 username password file own ⟨r.2, file⟩) (· = g) g := by
  have hwithin : (readUsers pbkdf2 ∅ false entries).Within Generating _ :=
    readUsers_of_file (P := fun k u => u.username_ = k ∧ u.InRange) hroot
      fun entry he u hu => ⟨rfl, hu.inRange (storedUsers_inRange he)⟩
  have hread := generating_salting (g := g) hwithin
  by_cases ho : own
  · have hentries : ∀ j ∈ entries, ∀ r, FTPUser.ofJson j = .ok (some r) → r.username_ = username →
        Credential pbkdf2 password r.password_ :=
      fun j hj r hr => (hown ho).credential r ((mem_storedUsers hroot).2 ⟨j, hj, hr⟩)
    have hcredentials := readUsers_salting (g := g) hp entries hentries ∅ false fun u hu => by cases hu
    apply (hread.and hcredentials).mono ?_ fun _ h => h.1
    rintro ⟨migrated, users⟩ g' ⟨⟨⟨hsound, hnames⟩, hsame⟩, hcredential, _⟩
    refine ⟨hsame, fun b hb => ?_⟩
    refine ⟨hsound, rfl, fun _ => ?_⟩
    exact ⟨hnames b hb username (hown ho).named, hcredential⟩
  · apply hread.mono ?_ fun _ h => h
    rintro ⟨migrated, users⟩ g' ⟨⟨hsound, _⟩, hsame⟩
    refine ⟨hsame, fun b _ => ?_⟩
    exact ⟨hsound, rfl, fun h => absurd h ho⟩

lemma manager_salting (own : Prop) (hfile : file ≠ []) (hp : isHashed password = false)
    (hg : own → StoredFile.Admits pbkdf2 username password (g file)) : Ends salting (construct pbkdf2 file)
      (fun m g' => m.Tends pbkdf2 username password file own ∧
        (own → StoredFile.Admits pbkdf2 username password (g' file)))
      (fun g' => own → StoredFile.Admits pbkdf2 username password (g' file)) g := by
  have hempty (h : own → username ∈ ([] : List Str)) : Tends pbkdf2 username password file own ⟨∅, file⟩ :=
    ⟨fun k u h => (by cases h), rfl, fun ho => absurd (h ho) List.not_mem_nil⟩
  have hload : Ends salting (loadUsers pbkdf2 ⟨∅, file⟩ []) (fun r g' => (∀ b, r.1 = .ok b →
      r.2.Tends pbkdf2 username password file own) ∧ (own → StoredFile.Admits pbkdf2 username password (g' file)))
      (fun g' => own → StoredFile.Admits pbkdf2 username password (g' file)) g := by
    apply ends_ite
    · intro h
      exact absurd h hfile
    intro _
    apply ends_bind
    apply ends_perform trivial
    intro found hfound
    have hfound : found = g file := hfound
    rw [← hfound] at hg
    have hkept : own → StoredFile.Admits pbkdf2 username password (g file) := hfound ▸ hg
    cases found with
    | missing | unparsable => exact ends_pure ⟨fun _ _ => hempty fun ho => (hg ho).named, hkept⟩
    | json root =>
      cases hroot : usersArray root with
      | error e =>
        simp only [hroot]
        exact ends_pure ⟨fun _ h => (by cases h), hkept⟩
      | ok entries =>
        cases entries with
        | none =>
          have hnone : storedNames (.json root) = [] := by
            simp only [storedNames, storedUsers, hroot, List.map_nil]
          simp only [hroot]
          exact ends_pure ⟨fun _ _ => hempty fun ho => hnone ▸ (hg ho).named, hkept⟩
        | some entries =>
          simp only [hroot]
          apply ends_bind
          apply (readUsers_tends file hp hroot hg).mono ?_ fun g' h => h ▸ hkept
          rintro ⟨migrated, users⟩ _ ⟨rfl, htends⟩
          cases migrated with
          | error e => exact ends_pure ⟨fun _ h => (by cases h), hkept⟩
          | ok migrated =>
            have hm := htends migrated rfl
            apply ends_bind
            apply ends_ite
            · intro _
              apply (saveUsers_salting hm ?_ hkept).mono ?_ fun _ => id
              · exact if_neg hfile
              · intro _ g' h
                exact ends_pure ⟨fun _ _ => hm, h.2⟩
            · intro _
              exact ends_pure (ends_pure ⟨fun _ _ => hm, hkept⟩)
  apply ends_ite
  · intro h
    exact absurd h hfile
  intro _
  apply ends_bind
  apply hload.mono ?_ fun _ => id
  rintro ⟨loaded, m⟩ g' ⟨hm, hkept⟩
  cases loaded with
  | error e => exact ends_throw hkept
  | ok b => exact ends_pure ⟨hm b rfl, hkept⟩

lemma addUser_salting (hm : m.Tends pbkdf2 username password file own)
    (hg : own → StoredFile.Admits pbkdf2 username password (g file)) {u : FTPUser} (hu : u.InRange)
    (hcredential : own → u.username_ = username → Credential pbkdf2 password u.password_) :
    Ends salting (m.addUser u)
      (fun m' g' => m' = { m with users_ := m.users_.insert u.username_ u } ∧
        (own → StoredFile.Admits pbkdf2 username password (g' file)))
      (fun g' => own → StoredFile.Admits pbkdf2 username password (g' file)) g := by
  have hadded := hm.insert rfl hu hcredential
  apply ends_bind
  apply ends_ite
  · intro _
    apply (saveUsers_salting hadded (if_pos rfl |>.trans hm.user_file) hg).mono ?_ fun _ => id
    intro _ g' h
    exact ends_pure ⟨rfl, h.2⟩
  · intro _
    exact ends_pure (ends_pure ⟨rfl, hg⟩)

end FTPUserManager

variable {own : Prop}

lemma constructUsers_salting (hfile : file ≠ []) (hp : isHashed password = false)
    (hg : StoredFile.Admits pbkdf2 username password (g file)) (allow_anonymous : Bool) :
    Ends salting (constructUsers pbkdf2 allow_anonymous file)
      (fun m g' => m.Admits pbkdf2 username password ∧ StoredFile.Admits pbkdf2 username password (g' file))
      (fun g' => StoredFile.Admits pbkdf2 username password (g' file)) g := by
  apply ends_bind
  apply (FTPUserManager.manager_salting True hfile hp fun _ => hg).mono ?_ fun _ h => h trivial
  rintro m g ⟨hm, hg⟩
  have hnamed : username ∈ m.users_ := (hm.admits trivial).named
  apply ends_bind
  apply ends_ite
  · intro hnone
    rw [AList.mem_keys, hnone] at hnamed
    cases hnamed
  intro _
  apply ends_pure
  apply ends_ite
  · intro hanonymous
    have hother : username ≠ "anonymous" := by
      rintro rfl
      obtain ⟨u, hu⟩ := Option.isSome_iff_exists.1 (AList.lookup_isSome.2 hnamed)
      simp [FTPUserManager.getUser, hu] at hanonymous
    apply ends_bind
    apply (construct_salting _ _ _).mono ?_ fun _ => False.elim
    rintro u _ ⟨⟨salt, _, rfl⟩, rfl⟩
    have hcredential : True → (FTPUser.make pbkdf2 salt "anonymous" [] "/tmp").username_ = username →
        Credential pbkdf2 password (FTPUser.make pbkdf2 salt "anonymous" [] "/tmp").password_ := by
      intro _ hname
      rw [FTPUser.make_username] at hname
      exact absurd hname.symm hother
    apply (FTPUserManager.addUser_salting hm hg (FTPUser.make_inRange _ _ _) hcredential).mono ?_
      fun _ h => h trivial
    rintro _ g' ⟨rfl, hg'⟩
    exact ⟨(hm.insert rfl (FTPUser.make_inRange _ _ _) hcredential).admits trivial, hg' trivial⟩
  · intro _
    exact ends_pure ⟨hm.admits trivial, hg trivial⟩

structure Made (pbkdf2 : Pbkdf2) (username password : Str) (u : FTPUser) : Prop where
  username : u.username_ = username
  inRange : u.InRange
  credential : isHashed password = false → Credential pbkdf2 password u.password_

lemma userAdd_made {name p home_dir : Str} {permissions : List Str}
    {P : FTPUserManager → (Str → StoredFile) → Prop}
    {E : (Str → StoredFile) → Prop} (h : ∀ u, Made pbkdf2 name p u → Ends salting (m.addUser u) P E g) :
    Ends salting (do
      let user ← FTPUser.construct pbkdf2 name p home_dir
      m.addUser (if permissions = [] then user else { user with permissions_ := permissions })) P E g := by
  apply ends_bind
  apply (construct_salting name p home_dir).mono ?_ fun _ => False.elim
  rintro _ g ⟨⟨salt, hsalt, rfl⟩, rfl⟩
  have hmade : Made pbkdf2 name p (.make pbkdf2 salt name p home_dir) :=
    ⟨FTPUser.make_username _ _ _, FTPUser.make_inRange _ _ _, fun hp => Credential.plain.setPassword hp hsalt _⟩
  apply h
  split
  · exact hmade
  · exact ⟨hmade.username, ⟨hmade.inRange.expires_at, hmade.inRange.storage_quota_bytes⟩, hmade.credential⟩

lemma userAdd_salting (hfile : file ≠ []) (hp : isHashed password = false) (home_dir : Str)
    (permissions : List Str) :
    Ends salting (userAdd pbkdf2 file username password home_dir permissions)
      (fun m _ => m.Tends pbkdf2 username password file True) (fun _ => True) g := by
  have hmanager : Ends salting (FTPUserManager.construct pbkdf2 file) (fun m g' =>
      m.Tends pbkdf2 username password file False ∧
        (False → StoredFile.Admits pbkdf2 username password (g' file))) _ g :=
    FTPUserManager.manager_salting False hfile hp False.elim
  apply ends_bind
  apply hmanager.mono ?_ fun _ _ => trivial
  rintro m g ⟨hm, hg⟩
  apply userAdd_made
  intro u hu
  apply (FTPUserManager.addUser_salting hm hg hu.inRange False.elim).mono ?_ fun _ _ => trivial
  rintro _ _ ⟨rfl, _⟩
  rw [hu.username, ← hm.user_file]
  exact hm.sound.store hu.username hu.inRange (hu.credential hp)

lemma setPassword_username (salt : Option (List Byte)) (p : Str) (u : FTPUser) :
    (u.setPassword pbkdf2 salt p).username_ = u.username_ := by
  rw [FTPUser.setPassword_eq]

lemma setPassword_inRange {u : FTPUser} (hu : u.InRange) (salt : Option (List Byte)) (p : Str) :
    (u.setPassword pbkdf2 salt p).InRange := by
  rw [FTPUser.setPassword_eq]
  exact ⟨hu.expires_at, hu.storage_quota_bytes⟩

lemma userPassword_salting (hfile : file ≠ []) (hp : isHashed password = false) :
    Ends salting (userPassword pbkdf2 file username password) (fun r g' => r.1 = true →
      StoredFile.Admits pbkdf2 username password (g' file)) (fun _ => True) g := by
  have hmanager : Ends salting (FTPUserManager.construct pbkdf2 file) (fun m g' =>
      m.Tends pbkdf2 username password file False ∧
        (False → StoredFile.Admits pbkdf2 username password (g' file))) _ g :=
    FTPUserManager.manager_salting False hfile hp False.elim
  apply ends_bind
  apply hmanager.mono ?_ fun _ _ => trivial
  rintro m g ⟨hm, hg⟩
  cases hu : m.getUser username with
  | none => exact ends_pure fun h => by cases h
  | some u =>
    obtain ⟨hname, hrange⟩ := hm.sound username u hu
    apply ends_bind
    apply (salt_salting password).mono ?_ fun _ _ => trivial
    rintro salt g ⟨hsalt, rfl⟩
    have hstored : FTPUserManager.Tends pbkdf2 username password m.user_file_ True
        { m with users_ := m.users_.insert username (u.setPassword pbkdf2 salt password) } :=
      hm.sound.store (setPassword_username salt password u ▸ hname) (setPassword_inRange hrange salt password)
        (Credential.plain.setPassword hp hsalt u)
    apply ends_ite
    · intro _
      exact ends_pure fun h => by cases h
    · intro _
      have hunowned : FTPUserManager.Tends pbkdf2 username password m.user_file_ False _ :=
        ⟨hstored.sound, hstored.user_file, False.elim⟩
      apply ends_bind
      apply (FTPUserManager.saveUsers_salting hunowned (if_pos rfl) False.elim).mono ?_ fun _ _ => trivial
      rintro saved g' ⟨hsaved, _⟩
      apply ends_pure
      intro h
      obtain ⟨_, updated, hcontent⟩ := hsaved h
      rw [← hm.user_file, hcontent]
      exact (hstored.admits trivial).toJson hstored.sound updated

lemma kept_of_manager {α : Type} {f : FTPUserManager → Storing α} (hfile : file ≠ [])
    (hp : isHashed password = false)
    (hg : StoredFile.Admits pbkdf2 username password (g file))
    (hf : ∀ m g, m.Tends pbkdf2 username password file True → StoredFile.Admits pbkdf2 username password (g file) →
      Ends salting (f m) (fun _ g' => StoredFile.Admits pbkdf2 username password (g' file))
        (fun g' => StoredFile.Admits pbkdf2 username password (g' file)) g) :
    Ends salting (FTPUserManager.construct pbkdf2 file >>= f)
      (fun _ g' => StoredFile.Admits pbkdf2 username password (g' file))
      (fun g' => StoredFile.Admits pbkdf2 username password (g' file)) g := by
  apply ends_bind
  apply (FTPUserManager.manager_salting True hfile hp fun _ => hg).mono ?_ fun _ h => h trivial
  rintro m g ⟨hm, hg⟩
  exact hf m g hm (hg trivial)

lemma userModify_kept (hfile : file ≠ []) (hp : isHashed password = false)
    (hg : StoredFile.Admits pbkdf2 username password (g file)) (name : Str) (home_dir : Option Str)
    (permissions : Option (List Str)) : Ends salting (userModify pbkdf2 file name home_dir permissions)
      (fun _ g' => StoredFile.Admits pbkdf2 username password (g' file))
      (fun g' => StoredFile.Admits pbkdf2 username password (g' file)) g := by
  apply kept_of_manager hfile hp hg
  intro m g hm hg
  cases hu : m.getUser name with
  | none => exact ends_pure hg
  | some u =>
    obtain ⟨hname, hrange⟩ := hm.sound name u hu
    have hmodified : FTPUserManager.Tends pbkdf2 username password file True { m with
        users_ := m.users_.insert name { u with
          home_directory_ := home_dir.getD u.home_directory_, permissions_ :=
            permissions.getD u.permissions_ } } := by
      apply hm.insert
      · exact hname
      · exact ⟨hrange.expires_at, hrange.storage_quota_bytes⟩
      · rintro _ rfl
        exact (hm.admits trivial).credential u hu
    apply ends_bind
    apply (FTPUserManager.saveUsers_salting hmodified ((if_pos rfl).trans hm.user_file) fun _ => hg).mono ?_
      fun _ h => h trivial
    rintro saved g' ⟨_, hkept⟩
    exact ends_pure (hkept trivial)

lemma userPassword_kept (hfile : file ≠ []) (hp : isHashed password = false)
    (hg : StoredFile.Admits pbkdf2 username password (g file)) {name : Str} (hname : name ≠ username) (p : Str) :
    Ends salting (userPassword pbkdf2 file name p)
      (fun _ g' => StoredFile.Admits pbkdf2 username password (g' file))
      (fun g' => StoredFile.Admits pbkdf2 username password (g' file)) g := by
  apply kept_of_manager hfile hp hg
  intro m g hm hg
  cases hu : m.getUser name with
  | none => exact ends_pure hg
  | some u =>
    obtain ⟨hown, hrange⟩ := hm.sound name u hu
    apply ends_bind
    apply (salt_salting p).mono ?_ fun _ => False.elim
    rintro salt g ⟨_, rfl⟩
    have hchanged : FTPUserManager.Tends pbkdf2 username password file True
        { m with users_ := m.users_.insert name (u.setPassword pbkdf2 salt p) } := by
      apply hm.insert
      · rw [setPassword_username, hown]
      · exact setPassword_inRange hrange salt p
      · exact fun _ h => absurd h hname
    apply ends_ite
    · intro _
      exact ends_pure hg
    · intro _
      apply ends_bind
      apply (FTPUserManager.saveUsers_salting hchanged ((if_pos rfl).trans hm.user_file) fun _ => hg).mono ?_
        fun _ h => h trivial
      rintro saved g' ⟨_, hkept⟩
      exact ends_pure (hkept trivial)

lemma userAdd_kept (hfile : file ≠ []) (hp : isHashed password = false)
    (hg : StoredFile.Admits pbkdf2 username password (g file)) {name : Str} (hname : name ≠ username)
    (p home_dir : Str)
    (permissions : List Str) : Ends salting (userAdd pbkdf2 file name p home_dir permissions)
      (fun _ g' => StoredFile.Admits pbkdf2 username password (g' file))
      (fun g' => StoredFile.Admits pbkdf2 username password (g' file)) g := by
  apply kept_of_manager hfile hp hg
  intro m g hm hg
  apply userAdd_made
  intro u hu
  have hother : True → u.username_ = username → Credential pbkdf2 password u.password_ :=
    fun _ h => absurd (hu.username.symm.trans h) hname
  apply (FTPUserManager.addUser_salting hm (fun _ => hg) hu.inRange hother).mono ?_ fun _ h => h trivial
  rintro _ g' ⟨_, hkept⟩
  exact hkept trivial

lemma userRemove_kept (hfile : file ≠ []) (hp : isHashed password = false)
    (hg : StoredFile.Admits pbkdf2 username password (g file)) {name : Str} (hname : name ≠ username) :
    Ends salting (userRemove pbkdf2 file name) (fun _ g' => StoredFile.Admits pbkdf2 username password (g' file))
      (fun g' => StoredFile.Admits pbkdf2 username password (g' file)) g := by
  apply kept_of_manager hfile hp hg
  intro m g hm hg
  apply ends_ite
  · intro _
    apply ends_bind
    apply ends_ite
    · intro _
      apply (FTPUserManager.saveUsers_salting (hm.erase hname) ((if_pos rfl).trans hm.user_file)
        fun _ => hg).mono ?_ fun _ h => h trivial
      rintro saved g' ⟨_, hkept⟩
      exact ends_pure (hkept trivial)
    · intro _
      exact ends_pure (ends_pure hg)
  · intro _
    exact ends_pure hg

lemma Administration.program_salting (hfile : file ≠ []) (hp : isHashed password = false)
    (hg : StoredFile.Admits pbkdf2 username password (g file)) {a : Administration}
    (ha : a.about ≠ some username) :
    Ends salting (a.program pbkdf2 file) (fun _ g' => StoredFile.Admits pbkdf2 username password (g' file))
      (fun g' => StoredFile.Admits pbkdf2 username password (g' file)) g := by
  have hother {name : Str} (h : some name ≠ some username) : name ≠ username := fun he => h (congrArg some he)
  cases a with
  | list =>
    apply kept_of_manager hfile hp hg
    exact fun m g _ hg => ends_pure hg
  | modify name home_dir permissions =>
    apply ends_bind
    apply (userModify_kept hfile hp hg name home_dir permissions).mono ?_ fun _ => id
    exact fun _ _ h => ends_pure h
  | password name p =>
    apply ends_bind
    apply (userPassword_kept hfile hp hg (hother ha) p).mono ?_ fun _ => id
    exact fun _ _ h => ends_pure h
  | job j =>
    cases j with
    | connection allow_anonymous =>
      apply ends_bind
      apply (constructUsers_salting hfile hp hg allow_anonymous).mono ?_ fun _ => id
      exact fun _ _ h => ends_pure h.2
    | add name p home_dir permissions =>
      apply ends_bind
      apply (userAdd_kept hfile hp hg (hother ha) p home_dir permissions).mono ?_ fun _ => id
      exact fun _ _ h => ends_pure h
    | remove name =>
      apply ends_bind
      apply (userRemove_kept hfile hp hg (hother ha)).mono ?_ fun _ => id
      exact fun _ _ h => ends_pure h

end

namespace Files

def Fills (w : Files) : Prop := ∀ time n bytes, w.choose time (.randBytes n) = some bytes → bytes.length = n

lemma machine_salting : salting.Describes machine fun g w => w.content = g ∧ w.Fills := by
  rintro β g w o ⟨rfl, hfills⟩ _
  cases o with
  | read file => exact ⟨rfl, rfl, hfills⟩
  | randBytes n => exact ⟨hfills _ n, rfl, hfills⟩
  | _ => exact ⟨trivial, rfl, hfills⟩

inductive Stored (pbkdf2 : Pbkdf2) (file username password : Str) : Files → Prop
  | add {home_dir : Str} {permissions : List Str} {m : FTPUserManager} {updated : Int} {w w' : Files} : w.Fills →
    (userAdd pbkdf2 file username password home_dir permissions).exec machine w = (.ok m, w') →
    w'.content file = .json (m.toJson updated) → Stored pbkdf2 file username password w'
  | password {m : FTPUserManager} {w w' : Files} : w.Fills →
    (userPassword pbkdf2 file username password).exec machine w = (.ok (true, m), w') →
    Stored pbkdf2 file username password w'
  | other {a : Administration} {w : Files} : Stored pbkdf2 file username password w → a.about ≠ some username →
    Stored pbkdf2 file username password ((a.program pbkdf2 file).exec machine w).2

variable {pbkdf2 : Pbkdf2} {file username password : Str} {w w' : Files}

lemma Stored.admits (hfile : file ≠ []) (hp : isHashed password = false)
    (h : Stored pbkdf2 file username password w) :
    StoredFile.Admits pbkdf2 username password (w.content file) ∧ w.Fills := by
  induction h with
  | @add home_dir permissions m updated w w' hfills he hcontent =>
    have hadds : Ends salting (userAdd pbkdf2 file username password home_dir permissions) _ _ w.content :=
      userAdd_salting hfile hp home_dir permissions
    rcases hadds.exec machine_salting ⟨rfl, hfills⟩ with ⟨m', v, _, he', ⟨_, hfills'⟩, hm⟩ | ⟨_, _, _, he', _⟩
    · cases he.symm.trans he'
      rw [hcontent]
      exact ⟨(hm.admits trivial).toJson hm.sound updated, hfills'⟩
    · cases he.symm.trans he'
  | @password m w w' hfills he =>
    have hchanges : Ends salting (userPassword pbkdf2 file username password) _ _ w.content :=
      userPassword_salting hfile hp
    rcases hchanges.exec machine_salting ⟨rfl, hfills⟩ with ⟨_, v, _, he', ⟨rfl, hfills'⟩, hm⟩ | ⟨_, _, _, he', _⟩
    · cases he.symm.trans he'
      exact ⟨hm rfl, hfills'⟩
    · cases he.symm.trans he'
  | @other a w _ ha ih =>
    have hkeeps := Administration.program_salting (g := w.content) hfile hp ih.1 ha
    rcases hkeeps.exec machine_salting ⟨rfl, ih.2⟩ with ⟨_, v, _, he, ⟨rfl, hfills⟩, hkept⟩ | ⟨_, v, _, he,
      ⟨rfl, hfills⟩, hkept⟩
    · rw [he]
      exact ⟨hkept, hfills⟩
    · rw [he]
      exact ⟨hkept, hfills⟩

lemma Stored.served (hfile : file ≠ []) (hp : isHashed password = false)
    (h : Stored pbkdf2 file username password w)
    {allow_anonymous : Bool} {m : FTPUserManager}
    (he : (constructUsers pbkdf2 allow_anonymous file).exec machine w = (.ok m, w')) :
    m.Admits pbkdf2 username password := by
  obtain ⟨hadmits, hfills⟩ := h.admits hfile hp
  have hserves := constructUsers_salting (g := w.content) hfile hp hadmits allow_anonymous
  rcases hserves.exec machine_salting ⟨rfl, hfills⟩ with ⟨_, _, _, he', _, hm, _⟩ | ⟨_, _, _, he', _⟩
  · cases he.symm.trans he'
    exact hm
  · cases he.symm.trans he'

end Files

end SimpleSftpd
