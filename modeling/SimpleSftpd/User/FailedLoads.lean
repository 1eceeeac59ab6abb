import Mathlib.Data.List.TakeWhile
import SimpleSftpd.User.Credentials

namespace SimpleSftpd

open Cxx Interaction Password Prog

/-- Files are found as they were left, directories are created or not as `failure` says, and the random generator
answers within `S`. -/
def answering (failure : Option Errc) (S : Option (List Byte) → Prop) : Contract StoreCall (Str → StoredFile) where
  pre _ _ := True
  post g o := match o with
    | .read file => fun found => found = g file
    | .createDirectories _ => fun r => r = failure
    | .randBytes _ => S
    | _ => fun _ => True
  next g o r := o.after g r

inductive Stored (pbkdf2 : Pbkdf2) (S : Option (List Byte) → Prop) : Str → Str → Prop
  | kept {password : Str} : isHashed password = true → Stored pbkdf2 S password password
  | made {password : Str} {salt : Option (List Byte)} : isHashed password = false → S salt →
      Stored pbkdf2 S password (if hash pbkdf2 salt password = [] then password else hash pbkdf2 salt password)

def Kept (pbkdf2 : Pbkdf2) (password : Str) : Prop :=
  isHashed password = true ∨ ∀ salt, hash pbkdf2 (some salt) password = []

def FTPUser.Stores (pbkdf2 : Pbkdf2) (S : Option (List Byte) → Prop) (r u : FTPUser) : Prop :=
  ∃ stored, Stored pbkdf2 S r.password_ stored ∧ u = { r with password_ := stored }

def readable (entries : List Json) : List Json := entries.takeWhile fun j => (FTPUser.ofJson j).isOk

def recordsRead (root : Json) : List FTPUser := match FTPUserManager.usersArray root with
  | .ok (some entries) => records (readable entries)
  | _ => []

variable {pbkdf2 : Pbkdf2} {S : Option (List Byte) → Prop} {failure : Option Errc} {g : Str → StoredFile}
    {m : FTPUserManager}
  {E : (Str → StoredFile) → Prop} {password stored : Str}

lemma Stored.not_kept (h : Stored pbkdf2 S password stored) (hplain : isHashed password = false)
    (hnow : isHashed stored = true) :
    ¬Kept pbkdf2 password := by
  rintro (hkept | hkept)
  · cases hplain.symm.trans hkept
  · cases h with
    | kept hhashed => cases hplain.symm.trans hhashed
    | @made salt _ _ =>
      have hempty : hash pbkdf2 salt password = [] := by
        cases salt with
        | none => rfl
        | some salt => exact hkept salt
      rw [if_pos hempty] at hnow
      cases hplain.symm.trans hnow

lemma Stored.isHashed (h : Stored pbkdf2 S password stored)
    (hall : ∀ salt, S salt → hash pbkdf2 salt password ≠ []) :
    Password.isHashed stored = true := by
  cases h with
  | kept hhashed => exact hhashed
  | made _ hsalt =>
    have hmade := hall _ hsalt
    rw [if_neg hmade]
    exact isHashed_hash hmade

lemma Stored.eq_of_none (h : Stored pbkdf2 (· = none) password stored) : stored = password := by
  cases h with
  | kept => rfl
  | made _ hsalt =>
    subst hsalt
    exact if_pos rfl

lemma construct_answering (username password home_dir : Str) : Ends (answering failure S)
    (FTPUser.construct pbkdf2 username password home_dir) (fun u g' => g' = g ∧
      Stored pbkdf2 S password u.password_) E g := by
  cases hp : isHashed password with
  | true =>
    have hmade : FTPUser.construct pbkdf2 username password home_dir =
        pure (FTPUser.make pbkdf2 none username password home_dir) := by
      rw [FTPUser.construct, if_pos hp]
      rfl
    have hstored : (FTPUser.make pbkdf2 none username password home_dir).password_ = password := by
      rw [FTPUser.make, FTPUser.setPassword, if_pos hp]
    rw [hmade]
    apply ends_pure
    rw [hstored]
    exact ⟨rfl, .kept hp⟩
  | false =>
    have hmade : FTPUser.construct pbkdf2 username password home_dir = do
        let salt ← request (.randBytes kSaltBytes)
        return FTPUser.make pbkdf2 salt username password home_dir := by
      rw [FTPUser.construct, if_neg (by simp [hp])]
    have hstored (salt : Option (List Byte)) : (FTPUser.make pbkdf2 salt username password home_dir).password_ =
        if hash pbkdf2 salt password = [] then password else hash pbkdf2 salt password := by
      rw [FTPUser.make, FTPUser.setPassword, if_neg (by simp [hp])]
      dsimp only
      split <;> rfl
    rw [hmade]
    apply ends_bind
    apply ends_perform trivial
    intro salt hsalt
    apply ends_pure
    rw [hstored]
    exact ⟨rfl, .made hp hsalt⟩

def Assigned (R : FTPUser → FTPUser → Prop) (records : List FTPUser) (before after : UserMap) : Prop :=
  ∀ name, match lastNamed records name with
    | some r => ∃ u, after.lookup name = some u ∧ R r u
    | none => after.lookup name = before.lookup name

lemma Assigned.cons {R : FTPUser → FTPUser → Prop} {r u : FTPUser} {rest : List FTPUser}
    {before after : UserMap} (hu : R r u)
    (h : Assigned R rest (before.insert r.username_ u) after) : Assigned R (r :: rest) before after := by
  intro name
  have hname := h name
  rw [lastNamed_cons]
  cases hlast : lastNamed rest name with
  | some r' =>
    rw [hlast] at hname
    exact hname
  | none =>
    rw [hlast] at hname
    by_cases hr : r.username_ = name
    · subst hr
      simp only [if_true, Option.none_or]
      exact ⟨u, hname.trans (AList.lookup_insert _), hu⟩
    · simp only [if_neg hr, Option.or_none]
      exact hname.trans (AList.lookup_insert_ne fun he => hr he.symm)

lemma readable_of_ok {entries : List Json} (h : ∀ j ∈ entries, ∃ entry, FTPUser.ofJson j = .ok entry) :
    readable entries = entries := by
  apply List.takeWhile_eq_self_iff.2
  intro j hj
  obtain ⟨entry, hentry⟩ := h j hj
  rw [hentry]
  rfl

def Migrates (pbkdf2 : Pbkdf2) (S : Option (List Byte) → Prop) (password : Str) : Prop :=
  isHashed password = false ∧ ∀ salt, S salt → hash pbkdf2 salt password ≠ []

structure Flagged (pbkdf2 : Pbkdf2) (S : Option (List Byte) → Prop) (records : List FTPUser)
    (before after : Bool) : Prop where
  set : after = true → before = true ∨ ∃ r ∈ records, ¬Kept pbkdf2 r.password_
  stays : before = true → after = true
  forced {r : FTPUser} : r ∈ records → Migrates pbkdf2 S r.password_ → after = true

lemma readUsers_answering {entries : List Json} : ∀ {users : UserMap} {migrated : Bool},
    Ends (answering failure S) (FTPUserManager.readUsers pbkdf2 users migrated entries) (fun r g' => g' = g ∧
      Assigned (FTPUser.Stores pbkdf2 S) (records (readable entries)) users r.2 ∧
      ((∃ b, r.1 = .ok b) ↔ ∀ j ∈ entries, ∃ entry, FTPUser.ofJson j = .ok entry) ∧
      ∀ b, r.1 = .ok b → Flagged pbkdf2 S (records entries) migrated b) E g := by
  induction entries with
  | nil =>
    intro users migrated
    apply ends_pure
    refine ⟨rfl, fun _ => rfl, ⟨fun _ => (by simp), fun _ => ⟨_, rfl⟩⟩, ?_⟩
    rintro b ⟨⟩
    exact ⟨.inl, id, fun hr => absurd hr List.not_mem_nil⟩
  | cons j js ih =>
    intro users migrated
    rw [FTPUserManager.readUsers]
    cases hj : FTPUser.ofJson j with
    | error e =>
      have hreadable : readable (j :: js) = [] := by simp [readable, hj, Except.isOk, Except.toBool]
      rw [hreadable]
      apply ends_pure
      refine ⟨rfl, fun _ => rfl, ⟨fun ⟨_, h⟩ => (by cases h), fun h => ?_⟩, fun _ h => (by cases h)⟩
      obtain ⟨_, hok⟩ := h j List.mem_cons_self
      cases hj.symm.trans hok
    | ok entry =>
      have hreadable : readable (j :: js) = j :: readable js := by simp [readable, hj, Except.isOk, Except.toBool]
      have hall : (∀ j' ∈ j :: js, ∃ entry, FTPUser.ofJson j' = .ok entry) ↔
          ∀ j' ∈ js, ∃ entry, FTPUser.ofJson j' = .ok entry := by
        rw [List.forall_mem_cons]
        exact and_iff_right ⟨entry, hj⟩
      rw [hreadable, hall]
      cases entry with
      | none =>
        have hrecords (l : List Json) : records (j :: l) = records l := by simp [records, hj]
        rw [hrecords, hrecords]
        exact ih
      | some entry =>
        have hrecords (l : List Json) : records (j :: l) = entry :: records l := by simp [records, hj]
        rw [hrecords, hrecords]
        apply ends_bind
        apply Ends.mono (construct_answering _ _ _)
        · rintro user _ ⟨rfl, hstored⟩
          apply Ends.mono ih
          · rintro r _ ⟨rfl, hassigned, hok, hflag⟩
            refine ⟨rfl, hassigned.cons ⟨_, hstored, rfl⟩, hok, fun b hb => ?_⟩
            refine ⟨fun h => ?_, fun h => ?_, fun hr hmigrates => ?_⟩
            · rcases (hflag b hb).set h with hset | ⟨r', hr', hnot⟩
              · simp only [Bool.or_eq_true, Bool.and_eq_true, Bool.not_eq_true', FTPUser.hasLegacyPassword,
                  Bool.not_not] at hset
                exact hset.imp id fun h => ⟨entry, List.mem_cons_self, hstored.not_kept h.1 h.2⟩
              · exact .inr ⟨r', List.mem_cons_of_mem _ hr', hnot⟩
            · exact (hflag b hb).stays (by rw [h]; rfl)
            · rcases List.mem_cons.1 hr with rfl | hr
              · apply (hflag b hb).stays
                simp [FTPUser.hasLegacyPassword, hmigrates.1, hstored.isHashed hmigrates.2]
              · exact (hflag b hb).forced hr hmigrates
          · exact fun _ => id
        · exact fun _ => id

namespace FTPUserManager

lemma saveUsers_answering {file : Str} (hfile : file ≠ []) : Ends (answering failure S) (m.saveUsers file)
    (fun _ _ => failure = none ∨ Path.hasParentPath file = false) (fun _ => failure ≠ none ∧
      Path.hasParentPath file = true) g := by
  rw [saveUsers]
  simp only [if_neg hfile]
  apply ends_bind
  have hdirectories : Ends (answering failure S) (if Path.hasParentPath file then
    request (.createDirectories (Path.parentPath file))
      else pure none : Storing (Option Errc)) (fun r _ => r = if Path.hasParentPath file then failure else none)
      (fun _ => failure ≠ none ∧ Path.hasParentPath file = true) g := by
    split
    · exact ends_perform trivial fun r hr => hr
    · exact ends_pure rfl
  apply hdirectories.mono
  · rintro r g' rfl
    cases hparent : Path.hasParentPath file with
    | false =>
      apply ends_bind
      apply ends_perform trivial
      intro updated _
      apply ends_bind
      apply ends_perform trivial
      intro opened _
      apply ends_ite
      · exact fun _ => ends_pure (.inr rfl)
      · exact fun _ => ends_bind (ends_perform trivial fun _ _ => ends_pure (.inr rfl))
    | true =>
      cases failure with
      | some e => exact ends_throw ⟨Option.some_ne_none e, rfl⟩
      | none =>
        apply ends_bind
        apply ends_perform trivial
        intro updated _
        apply ends_bind
        apply ends_perform trivial
        intro opened _
        apply ends_ite
        · exact fun _ => ends_pure (.inl rfl)
        · exact fun _ => ends_bind (ends_perform trivial fun _ _ => ends_pure (.inl rfl))
  · exact fun _ => id

lemma not_documented {root : Json} (h : ∀ entries, usersArray root ≠ .ok (some entries)) :
    ¬Documented (.json root) := by
  rintro ⟨_, entries, ⟨⟩, hentries, _⟩
  exact h entries hentries

lemma documented_iff {root : Json} {entries : List Json} (h : usersArray root = .ok (some entries)) :
    Documented (.json root) ↔ ∀ j ∈ entries, ∃ entry, FTPUser.ofJson j = .ok entry := by
  constructor
  · rintro ⟨_, entries', ⟨⟩, hentries, hok⟩
    cases h.symm.trans hentries
    exact hok
  · exact fun hok => ⟨root, entries, rfl, h, hok⟩

lemma loadUsers_answering {filename file : Str} {root : Json}
    (hfile : (if filename = [] then m.user_file_ else filename) = file)
    (hne : file ≠ []) (hg : g file = .json root) : Ends (answering failure S) (m.loadUsers pbkdf2 filename)
    (fun r _ => Assigned (FTPUser.Stores pbkdf2 S) (recordsRead root) ∅ r.2.users_ ∧
      (r.1 = .ok true ↔ Documented (.json root)) ∧
      (Documented (.json root) → (∃ r ∈ storedUsers (.json root), Migrates pbkdf2 S r.password_) →
        failure = none ∨ Path.hasParentPath file = false))
    (fun _ => Documented (.json root) ∧ (∃ r ∈ storedUsers (.json root), ¬Kept pbkdf2 r.password_) ∧
      failure ≠ none ∧
      Path.hasParentPath file = true) g := by
  rw [loadUsers]
  simp only [hfile, if_neg hne]
  apply ends_bind
  apply ends_perform trivial
  intro found hfound
  obtain rfl : found = .json root := hfound.trans hg
  have hundocumented (entries : Except JsonError Bool) (hentries : entries ≠ .ok true) (h : ∀ entries,
    usersArray root ≠ .ok (some entries)) :
      Assigned (FTPUser.Stores pbkdf2 S) (recordsRead root) ∅ ∅ ∧ (entries = .ok true ↔ Documented (.json root)) ∧
      (Documented (.json root) → (∃ r ∈ storedUsers (.json root), Migrates pbkdf2 S r.password_) →
        failure = none ∨ Path.hasParentPath file = false) := by
    have hnot := not_documented h
    have hnone : recordsRead root = [] := by
      rw [recordsRead]
      split
      · rename_i entries hentries
        exact absurd hentries (h entries)
      · rfl
    rw [hnone]
    exact ⟨fun _ => rfl, iff_of_false hentries hnot, fun h => absurd h hnot⟩
  cases hroot : usersArray root with
  | error e =>
    simp only [hroot]
    apply ends_pure
    exact hundocumented _ (by simp) fun _ => by simp [hroot]
  | ok entries =>
    cases entries with
    | none =>
      simp only [hroot]
      apply ends_pure
      exact hundocumented _ (by simp) fun _ => by simp [hroot]
    | some entries =>
      simp only [hroot]
      have hrecords : recordsRead root = records (readable entries) := by rw [recordsRead, hroot]
      have hstored : storedUsers (.json root) = records entries := by
        simp only [storedUsers, hroot]
        rfl
      rw [hrecords, hstored, documented_iff hroot]
      apply ends_bind
      apply readUsers_answering.mono
      · rintro ⟨migrated, users⟩ _ ⟨rfl, hassigned, hok, hflag⟩
        cases migrated with
        | error e =>
          have hnot : ¬∀ j ∈ entries, ∃ entry, FTPUser.ofJson j = .ok entry := fun h => by
            obtain ⟨_, hb⟩ := hok.2 h
            cases hb
          apply ends_pure
          exact ⟨hassigned, iff_of_false (by simp) hnot, fun h => absurd h hnot⟩
        | ok migrated =>
          have hdocumented := hok.1 ⟨migrated, rfl⟩
          have hmigrated := hflag migrated rfl
          apply ends_bind
          apply ends_ite
          · intro hm
            apply (saveUsers_answering hne).mono
            · intro _ _ hsaved
              apply ends_pure
              exact ⟨hassigned, iff_of_true rfl hdocumented, fun _ _ => hsaved⟩
            · exact fun _ hthrown => ⟨hdocumented, (hmigrated.set hm).resolve_left Bool.false_ne_true, hthrown⟩
          · intro hm
            apply ends_pure
            apply ends_pure
            refine ⟨hassigned, iff_of_true rfl hdocumented, fun _ hmust => ?_⟩
            obtain ⟨r, hr, hmigrates⟩ := hmust
            exact absurd (hmigrated.forced hr hmigrates) hm
      · exact fun _ h => h

def Loads (pbkdf2 : Pbkdf2) (before after : UserMap) : StoredFile → Prop
  | .missing => ∀ name, after.lookup name = before.lookup name
  | .unparsable => False
  | .json root =>
    Documented (.json root) ∧ Assigned (FTPUser.Stores pbkdf2 fun _ => True) (storedUsers (.json root)) ∅ after

def AllOrNothing (pbkdf2 : Pbkdf2) (m : FTPUserManager) (found : StoredFile) :
    Except Thrown (Except JsonError Bool × FTPUserManager) → Prop
  | .ok (.ok true, m') => Loads pbkdf2 m.users_ m'.users_ found
  | .ok (_, m') => ∀ name, m'.users_.lookup name = m.users_.lookup name
  | .error _ => False

/-- A load leaves nothing half done: a document that can be read needs no migration, or its directory can be
created; and the records of one that cannot be read, up to the error, are the accounts there were. -/
def Spared (pbkdf2 : Pbkdf2) (m : FTPUserManager) (failure : Option Errc) (file : Str) : StoredFile → Prop
  | .json root =>
    (Documented (.json root) → (∀ r ∈ storedUsers (.json root), Kept pbkdf2 r.password_) ∨ failure = none ∨
      Path.hasParentPath file = false) ∧
    (¬Documented (.json root) → ∀ name, m.users_.lookup name = lastNamed (recordsRead root) name ∧
      ∀ r, lastNamed (recordsRead root) name = some r → Kept pbkdf2 r.password_)
  | _ => True

end FTPUserManager

namespace Files

variable {w : Files}

lemma machine_answering : (answering failure S).Describes machine fun g w => w.content = g ∧
    (∀ time p, w.choose time (.createDirectories p) = failure) ∧ ∀ time n, S (w.choose time (.randBytes n)) := by
  rintro β g w o ⟨rfl, hdirectories, hsalts⟩ _
  cases o with
  | read file => exact ⟨rfl, rfl, hdirectories, hsalts⟩
  | createDirectories p => exact ⟨hdirectories _ _, rfl, hdirectories, hsalts⟩
  | randBytes n => exact ⟨hsalts _ _, rfl, hdirectories, hsalts⟩
  | _ => exact ⟨trivial, rfl, hdirectories, hsalts⟩

def salted (content : Str → StoredFile) (failure : Option Errc) (salt : Option (List Byte)) : Files := ⟨content, 0,
  fun _ o => match o with
    | .createDirectories _ => failure
    | .randBytes _ => salt
    | o => o.favourable⟩

end Files

lemma Assigned.unchanged {records : List FTPUser} {users : UserMap}
    (h : Assigned (FTPUser.Stores pbkdf2 S) records ∅ users)
    (hkept : ∀ name, m.users_.lookup name = lastNamed records name ∧ ∀ r, lastNamed records name = some r →
      Kept pbkdf2 r.password_) :
    ∀ name, users.lookup name = m.users_.lookup name := by
  intro name
  have hname := h name
  obtain ⟨hsame, hkept⟩ := hkept name
  rw [hsame]
  cases hlast : lastNamed records name with
  | none =>
    rw [hlast] at hname
    exact hname
  | some r =>
    rw [hlast] at hname
    obtain ⟨u, hu, stored, hstored, rfl⟩ := hname
    have hpassword : stored = r.password_ := by
      cases hstored with
      | kept => rfl
      | @made salt hplain _ =>
        rcases hkept r hlast with hhashed | hfailed
        · cases hplain.symm.trans hhashed
        · cases salt with
          | none => exact if_pos rfl
          | some salt => exact if_pos (hfailed salt)
    rw [hu, hpassword]

lemma Assigned.spared {records : List FTPUser}
    (h : ∀ salt, ∃ users, Assigned (FTPUser.Stores pbkdf2 (· = salt)) records ∅ users ∧ ∀ name,
      users.lookup name = m.users_.lookup name) :
    ∀ name, m.users_.lookup name = lastNamed records name ∧ ∀ r, lastNamed records name = some r →
      Kept pbkdf2 r.password_ := by
  intro name
  obtain ⟨users, hassigned, hsame⟩ := h none
  have hname := hassigned name
  rw [hsame] at hname
  cases hlast : lastNamed records name with
  | none =>
    rw [hlast] at hname
    exact ⟨hname, fun _ h => by cases h⟩
  | some r =>
    rw [hlast] at hname
    obtain ⟨u, hu, stored, hstored, rfl⟩ := hname
    obtain rfl := hstored.eq_of_none
    refine ⟨hu, ?_⟩
    rintro _ ⟨⟩
    by_contra hnot
    simp only [Kept, not_or, Bool.not_eq_true, not_forall] at hnot
    obtain ⟨hplain, salt, hmade⟩ := hnot
    obtain ⟨users', hassigned', hsame'⟩ := h (some salt)
    have hname' := hassigned' name
    rw [hlast, hsame'] at hname'
    obtain ⟨u', hu', stored', hstored', rfl⟩ := hname'
    have hhashed := hstored'.isHashed fun s hs => by rwa [hs]
    have hpassword : r.password_ = stored' := congrArg FTPUser.password_ (Option.some.inj (hu.symm.trans hu'))
    rw [← hpassword, hplain] at hhashed
    cases hhashed

namespace FTPUserManager

lemma recordsRead_of_documented {root : Json} (h : Documented (.json root)) :
    recordsRead root = storedUsers (.json root) := by
  obtain ⟨_, entries, ⟨⟩, hentries, hok⟩ := h
  rw [recordsRead, hentries]
  simp only [storedUsers, hentries, readable_of_ok hok]
  rfl

lemma loadUsers_unread {w : Files} {filename file : Str}
    (hfile : (if filename = [] then m.user_file_ else filename) = file)
    (hcontent : file = [] ∨ w.content file = .missing ∨ w.content file = .unparsable) :
    m.AllOrNothing pbkdf2 (w.content file) ((m.loadUsers pbkdf2 filename).exec Files.machine w).1 := by
  by_cases hne : file = []
  · simp only [loadUsers, hfile, if_pos hne]
    exact fun _ => rfl
  · simp only [loadUsers, hfile, if_neg hne]
    rw [exec_perform_bind]
    change m.AllOrNothing pbkdf2 (w.content file) (exec Files.machine (match w.content file with
      | .missing => _
      | .unparsable => _
      | .json root => _) w).1
    rcases hcontent.resolve_left hne with h | h
    · rw [h]
      exact fun _ => rfl
    · rw [h]
      exact fun _ => rfl

lemma loadUsers_spared {w : Files} {filename file : Str} {root : Json}
    (hfile : (if filename = [] then m.user_file_ else filename) = file)
    (hne : file ≠ []) (hroot : w.content file = .json root)
    (hdirectories : ∀ time p, w.choose time (.createDirectories p) = failure)
    (h : m.Spared pbkdf2 failure file (.json root)) :
    m.AllOrNothing pbkdf2 (.json root) ((m.loadUsers pbkdf2 filename).exec Files.machine w).1 := by
  have hloads : Ends (answering failure fun _ => True) (m.loadUsers pbkdf2 filename) _ _ w.content :=
    loadUsers_answering hfile hne hroot
  rcases hloads.exec Files.machine_answering ⟨rfl, hdirectories, fun _ _ => trivial⟩ with
    ⟨⟨b, m'⟩, w', _, he, _, hassigned, hdone, _⟩ | ⟨_, _, _, he, _, hdocumented, hmigrates, hthrown⟩
  · rw [he]
    by_cases hdocumented : Documented (.json root)
    · obtain rfl : b = .ok true := hdone.2 hdocumented
      rw [recordsRead_of_documented hdocumented] at hassigned
      exact ⟨hdocumented, hassigned⟩
    · have hsame := hassigned.unchanged (h.2 hdocumented)
      cases b with
      | error e => exact hsame
      | ok b =>
        cases b with
        | false => exact hsame
        | true => exact absurd (hdone.1 rfl) hdocumented
  · rcases h.1 hdocumented with hkept | hnone | hparent
    · obtain ⟨r, hr, hnot⟩ := hmigrates
      exact absurd (hkept r hr) hnot
    · exact absurd hnone hthrown.1
    · cases hparent.symm.trans hthrown.2

lemma loadUsers_salted {content : Str → StoredFile} {filename file : Str} {root : Json}
    (hfile : (if filename = [] then m.user_file_ else filename) = file) (hne : file ≠ [])
    (hroot : content file = .json root)
    {salt : Option (List Byte)}
    (h : m.AllOrNothing pbkdf2 (.json root) ((m.loadUsers pbkdf2 filename).exec Files.machine
      (Files.salted content failure salt)).1) :
    (Documented (.json root) → (∃ r ∈ storedUsers (.json root), Migrates pbkdf2 (· = salt) r.password_) →
      failure = none ∨ Path.hasParentPath file = false) ∧
    (¬Documented (.json root) → ∃ users, Assigned (FTPUser.Stores pbkdf2 (· = salt)) (recordsRead root) ∅ users ∧
      ∀ name, users.lookup name = m.users_.lookup name) := by
  have hloads : Ends (answering failure (· = salt)) (m.loadUsers pbkdf2 filename) _ _ content :=
    loadUsers_answering hfile hne hroot
  rcases hloads.exec Files.machine_answering (w := Files.salted content failure salt) ⟨rfl, fun _ _ => rfl,
    fun _ _ => rfl⟩ with
    ⟨⟨b, m'⟩, w', _, he, _, hassigned, hdone, hmigrates⟩ | ⟨_, _, _, he, _, _⟩
  · refine ⟨hmigrates, fun hnot => ⟨m'.users_, hassigned, ?_⟩⟩
    rw [he] at h
    cases b with
    | error e => exact h
    | ok b =>
      cases b with
      | false => exact h
      | true => exact absurd (hdone.1 rfl) hnot
  · rw [he] at h
    exact h.elim

end FTPUserManager

theorem load_is_all_or_nothing (pbkdf2 : Pbkdf2) (m : FTPUserManager) (filename : Str) (content : Str → StoredFile)
    (failure : Option Errc) : let file := if filename = [] then m.user_file_ else filename
    (∀ w : Files, w.content = content → (∀ time p, w.choose time (.createDirectories p) = failure) →
      m.AllOrNothing pbkdf2 (content file) ((m.loadUsers pbkdf2 filename).exec Files.machine w).1) ↔
    (file = [] ∨ m.Spared pbkdf2 failure file (content file)) := by
  intro file
  constructor
  · intro h
    by_cases hne : file = []
    · exact .inl hne
    refine .inr ?_
    cases hroot : content file with
    | missing | unparsable => exact trivial
    | json root =>
      have hsalted (salt : Option (List Byte)) := h (Files.salted content failure salt) rfl fun _ _ => rfl
      rw [hroot] at hsalted
      have hleft (salt : Option (List Byte)) := FTPUserManager.loadUsers_salted rfl hne hroot (hsalted salt)
      refine ⟨fun hdocumented => ?_, fun hnot => Assigned.spared fun salt => (hleft salt).2 hnot⟩
      by_cases hkept : ∀ r ∈ storedUsers (.json root), Kept pbkdf2 r.password_
      · exact .inl hkept
      · simp only [Kept, not_forall, not_or, Bool.not_eq_true] at hkept
        obtain ⟨r, hr, hplain, salt, hmade⟩ := hkept
        refine .inr ((hleft (some salt)).1 hdocumented ⟨r, hr, hplain, ?_⟩)
        rintro _ rfl
        exact hmade
  · rintro h w rfl hdirectories
    by_cases hne : file = []
    · exact FTPUserManager.loadUsers_unread rfl (.inl hne)
    · cases hroot : w.content file with
      | missing =>
        rw [← hroot]
        exact FTPUserManager.loadUsers_unread rfl (.inr (.inl hroot))
      | unparsable =>
        rw [← hroot]
        exact FTPUserManager.loadUsers_unread rfl (.inr (.inr hroot))
      | json root =>
        have hspared := h.resolve_left hne
        rw [hroot] at hspared
        exact FTPUserManager.loadUsers_spared rfl hne hroot hdirectories hspared

theorem load_is_not_all_or_nothing : ∃ w : Files, w.content "/u" = .json (.object [("version", .string "1.0")]) ∧
    ¬Files.sampleSaved.AllOrNothing Files.sampleDerivation (w.content "/u")
      ((Files.sampleSaved.loadUsers Files.sampleDerivation []).exec Files.machine w).1 := by
  refine ⟨Files.salted (fun _ => .json (.object [("version", .string "1.0")])) none none, rfl, fun h => ?_⟩
  exact absurd (h "bob") (by decide)

end SimpleSftpd
