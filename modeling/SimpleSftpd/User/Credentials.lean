import Mathlib.Logic.Relation
import SimpleSftpd.Security.Verification
import SimpleSftpd.VirtualHost.SavedHosts

namespace SimpleSftpd

open Cxx Interaction Password Prog

def keeping (hashing : Prop) : Contract StoreCall (Str → StoredFile) where
  pre _ o := match o with
    | .randBytes _ => hashing
    | _ => True
  post g o := match o with
    | .read file => fun found => found = g file
    | .randBytes n => fun salt => ∃ bytes, salt = some bytes ∧ bytes.length = n
    | _ => fun _ => True
  next g o r := o.after g r

inductive Secured (pbkdf2 : Pbkdf2) : Str → Str → Prop
  | kept {password : Str} : isHashed password = true → Secured pbkdf2 password password
  | hashed {password : Str} {salt : List Byte} : isHashed password = false → salt ≠ [] →
      Secured pbkdf2 password (hash pbkdf2 (some salt) password)

def FTPUser.Secures (pbkdf2 : Pbkdf2) (r u : FTPUser) : Prop :=
  ∃ stored, Secured pbkdf2 r.password_ stored ∧ u = { r with password_ := stored }

def lastNamed (records : List FTPUser) (name : Str) : Option FTPUser := records.reverse.find? (·.username_ = name)

def FTPUserManager.Hashed (m : FTPUserManager) : Prop :=
  ∀ k u, m.users_.lookup k = some u → isHashed u.password_ = true

variable {pbkdf2 : Pbkdf2} {hashing : Prop} {g : Str → StoredFile} {m m₀ : FTPUserManager}
    {E : (Str → StoredFile) → Prop}

lemma lastNamed_cons (r : FTPUser) (records : List FTPUser) (name : Str) : lastNamed (r :: records) name =
    (lastNamed records name).or (if r.username_ = name then some r else none) := by
  rw [lastNamed, List.reverse_cons, List.find?_append, List.find?_singleton]
  simp only [decide_eq_true_eq]
  rfl

lemma lastNamed_mem {records : List FTPUser} {name : Str} {r : FTPUser} (h : lastNamed records name = some r) :
    r ∈ records ∧ r.username_ = name :=
  ⟨List.mem_reverse.1 (List.mem_of_find?_eq_some h), by simpa using List.find?_some h⟩

lemma lastNamed_none {records : List FTPUser} {name : Str} (h : lastNamed records name = none) :
    ∀ r ∈ records, r.username_ ≠ name :=
  fun r hr => of_decide_eq_false (by simpa using List.find?_eq_none.1 h r (List.mem_reverse.2 hr))

lemma Secured.isHashed (hd : Derives pbkdf2) {password stored : Str} (h : Secured pbkdf2 password stored) :
    Password.isHashed stored = true := by
  cases h with
  | kept h => exact h
  | hashed _ _ => exact hash_isHashed hd _ _

lemma construct_keeping (hd : hashing → Derives pbkdf2) {username password home_dir : Str}
    (hh : isHashed password = false → hashing) :
    Ends (keeping hashing) (FTPUser.construct pbkdf2 username password home_dir)
      (fun u g' => Secured pbkdf2 password u.password_ ∧ g' = g) E g := by
  cases hp : isHashed password with
  | true =>
    have hmade : FTPUser.construct pbkdf2 username password home_dir =
        pure (FTPUser.make pbkdf2 none username password home_dir) := by
      unfold FTPUser.construct
      rw [if_pos hp]
      rfl
    rw [hmade]
    have hstored : (FTPUser.make pbkdf2 none username password home_dir).password_ = password := by
      rw [FTPUser.make, FTPUser.setPassword, if_pos hp]
    exact ends_pure ⟨by rw [hstored]; exact .kept hp, rfl⟩
  | false =>
    have hmade : FTPUser.construct pbkdf2 username password home_dir = do
        let salt ← request (.randBytes kSaltBytes)
        return FTPUser.make pbkdf2 salt username password home_dir := by
      unfold FTPUser.construct
      rw [if_neg (by simp [hp])]
    rw [hmade]
    refine ends_bind (ends_perform (hh hp) fun salt hsalt => ends_pure ⟨?_, rfl⟩)
    obtain ⟨bytes, rfl, hlength⟩ := hsalt
    have hne : hash pbkdf2 (some bytes) password ≠ [] := fun h => by
      have hhashed := hash_isHashed (hd (hh hp)) bytes password
      rw [h] at hhashed
      cases hhashed
    have hstored : (FTPUser.make pbkdf2 (some bytes) username password home_dir).password_ = hash pbkdf2
        (some bytes) password := by
      rw [FTPUser.make, FTPUser.setPassword, if_neg (by simp [hp])]
      exact congrArg FTPUser.password_ (if_neg hne)
    rw [hstored]
    refine .hashed hp fun h => ?_
    rw [h] at hlength
    cases hlength

def records (entries : List Json) : List FTPUser := entries.filterMap fun j => match FTPUser.ofJson j with
  | .ok entry => entry
  | .error _ => none

def Documented (f : StoredFile) : Prop := ∃ root entries, f = .json root ∧
  FTPUserManager.usersArray root = .ok (some entries) ∧ ∀ j ∈ entries, ∃ entry, FTPUser.ofJson j = .ok entry

def Accounts (pbkdf2 : Pbkdf2) (records : List FTPUser) (before after : UserMap) : Prop :=
  ∀ name, match lastNamed records name with
    | some r => ∃ u, after.lookup name = some u ∧ r.Secures pbkdf2 u
    | none => after.lookup name = before.lookup name

lemma Accounts.cons {r u : FTPUser} {rest : List FTPUser} {before after : UserMap} (hu : r.Secures pbkdf2 u)
    (h : Accounts pbkdf2 rest (before.insert r.username_ u) after) : Accounts pbkdf2 (r :: rest) before after := by
  intro name
  have hname := h name
  rw [lastNamed_cons]
  cases hlast : lastNamed rest name with
  | some r' =>
    rw [hlast] at hname
    exact hname
  | none =>
    rw [hlast] at hname
    by_cases hr : r.username_ = name
    · subst hr
      simp only [if_true, Option.none_or]
      exact ⟨u, hname.trans (AList.lookup_insert _), hu⟩
    · simp only [if_neg hr, Option.or_none]
      exact hname.trans (AList.lookup_insert_ne fun he => hr he.symm)

lemma readUsers_keeping (hd : hashing → Derives pbkdf2) {entries : List Json}
    (hh : ∀ r ∈ records entries, isHashed r.password_ = false → hashing) : ∀ {users : UserMap} {migrated : Bool},
      Ends (keeping hashing) (FTPUserManager.readUsers pbkdf2 users migrated entries) (fun r g' => g' = g ∧
        ((∀ j ∈ entries, ∃ entry, FTPUser.ofJson j = .ok entry) → ∃ b, r.1 = .ok b) ∧
        ∀ b, r.1 = .ok b → (b = true → migrated = true ∨ hashing) ∧
          Accounts pbkdf2 (records entries) users r.2) E g := by
  induction entries with
  | nil =>
    refine fun {users migrated} => ends_pure ⟨rfl, fun _ => ⟨_, rfl⟩, fun b hb => ?_⟩
    exact ⟨fun h => .inl (by cases hb; exact h), fun name => rfl⟩
  | cons j js ih =>
    intro users migrated
    unfold FTPUserManager.readUsers
    cases hj : FTPUser.ofJson j with
    | error e =>
      refine ends_pure ⟨rfl, fun hok => ?_, fun b hb => by cases hb⟩
      obtain ⟨_, he⟩ := hok j List.mem_cons_self
      cases hj.symm.trans he
    | ok entry =>
      cases entry with
      | none =>
        have hrecords : records (j :: js) = records js := by simp [records, hj]
        rw [hrecords] at hh ⊢
        refine (ih hh).mono (fun r g' h => ⟨h.1, fun hok => h.2.1 fun j' hj' => ?_, h.2.2⟩) fun _ h => h
        exact hok j' (List.mem_cons_of_mem _ hj')
      | some entry =>
        have hrecords : records (j :: js) = entry :: records js := by simp [records, hj]
        rw [hrecords] at hh ⊢
        refine ends_bind ((construct_keeping hd (hh entry List.mem_cons_self)).mono ?_ fun _ h => h)
        rintro user _ ⟨hsecured, rfl⟩
        refine (ih fun r hr => hh r (List.mem_cons_of_mem _ hr)).mono
          (fun r g' h => ⟨h.1, fun hok => ?_, fun b hb => ?_⟩) fun _ h => h
        · exact h.2.1 fun j' hj' => hok j' (List.mem_cons_of_mem _ hj')
        obtain ⟨hmigrated, haccounts⟩ := h.2.2 b hb
        refine ⟨fun hb' => ?_, haccounts.cons ⟨user.password_, hsecured, rfl⟩⟩
        rcases hmigrated hb' with hm | hm
        · rcases Bool.or_eq_true_iff.1 hm with hm | hm
          · exact .inl hm
          · simp only [Bool.and_eq_true, Bool.not_eq_true'] at hm
            exact .inr (hh entry List.mem_cons_self hm.1)
        · exact .inr hm

namespace FTPUserManager

lemma saveUsers_keeping (filename : Str) :
    Ends (keeping hashing) (m.saveUsers filename) (fun saved g' => saved = true →
    (if filename = [] then m.user_file_ else filename) ≠ [] ∧
      ∃ updated, g' (if filename = [] then m.user_file_ else filename) = .json (m.toJson updated))
        (fun _ => True) g := by
  refine ends_ite (fun _ => ends_pure fun h => by cases h) fun hfile => ends_bind ?_
  have hdirectories :
    Ends (keeping hashing) (if Path.hasParentPath (if filename = [] then m.user_file_ else filename)
      then request (.createDirectories (Path.parentPath (if filename = [] then m.user_file_ else filename)))
      else pure none : Storing (Option Errc)) (fun _ _ => True) (fun _ => True) g :=
    ends_ite (fun _ => ends_perform trivial fun _ _ => trivial) fun _ => ends_pure trivial
  refine hdirectories.mono (fun failure g' _ => ?_) fun _ h => h
  cases failure with
  | some e => exact ends_throw trivial
  | none =>
    refine ends_bind (ends_perform trivial fun updated _ => ?_)
    refine ends_bind (ends_perform trivial fun opened _ => ?_)
    cases opened with
    | false => exact ends_pure fun h => by cases h
    | true =>
      refine ends_bind (ends_perform trivial fun _ _ => ?_)
      refine ends_pure fun _ => ?_
      exact ⟨hfile, updated, Function.update_self _ _ _⟩

lemma loadUsers_keeping (hd : hashing → Derives pbkdf2) {file filename : Str}
    (hfile : (if filename = [] then m₀.user_file_ else filename) = file) (hfresh : m₀.users_ = ∅)
    (hh : ∀ r ∈ storedUsers (g file), isHashed r.password_ = false → hashing) :
    Ends (keeping hashing) (m₀.loadUsers pbkdf2 filename) (fun r _ => r.2.user_file_ = m₀.user_file_ ∧
      (file ≠ [] → Documented (g file) → r.1 = .ok true) ∧
      (r.1 = .ok true → Accounts pbkdf2 (storedUsers (g file)) ∅ r.2.users_)) (fun _ => hashing) g := by
  unfold loadUsers
  rw [hfile]
  refine ends_ite (fun h => ends_pure ⟨rfl, fun hne => absurd h hne, fun h => by cases h⟩) fun _ => ?_
  refine ends_bind (ends_perform trivial ?_)
  intro found hfound
  change found = _ at hfound
  rw [← hfound] at hh ⊢
  cases found with
  | missing =>
    refine ends_pure ⟨rfl, fun _ _ => rfl, fun _ name => ?_⟩
    exact congrArg (AList.lookup name) hfresh
  | unparsable => exact ends_pure ⟨rfl, fun _ ⟨_, _, hd, _⟩ => (by cases hd), fun h => by cases h⟩
  | json root =>
    cases hroot : usersArray root with
    | error e =>
      simp only [hroot]
      refine ends_pure ⟨rfl, fun _ ⟨_, _, hd, hentries, _⟩ => ?_, fun h => by cases h⟩
      cases hd
      cases hroot.symm.trans hentries
    | ok entries =>
      cases entries with
      | none =>
        simp only [hroot]
        refine ends_pure ⟨rfl, fun _ ⟨_, _, hd, hentries, _⟩ => ?_, fun h => by cases h⟩
        cases hd
        cases hroot.symm.trans hentries
      | some entries =>
        simp only [hroot]
        have hstored : storedUsers (.json root) = records entries := by
          simp only [storedUsers, hroot]
          rfl
        rw [hstored] at hh ⊢
        refine ends_bind ((readUsers_keeping hd hh).mono ?_ fun _ h => h)
        rintro ⟨migrated, users⟩ g' ⟨rfl, hok, haccounts⟩
        cases migrated with
        | error e =>
          refine ends_pure ⟨rfl, fun _ ⟨_, _, hd, hentries, hparsed⟩ => ?_, fun h => by cases h⟩
          cases hd
          cases hroot.symm.trans hentries
          obtain ⟨_, he⟩ := hok hparsed
          cases he
        | ok migrated =>
          obtain ⟨hmigrated, haccounts⟩ := haccounts migrated rfl
          refine ends_bind (ends_ite (fun hm => ?_)
            fun _ => ends_pure (ends_pure ⟨rfl, fun _ _ => rfl, fun _ => haccounts⟩))
          have hhashing : hashing := (hmigrated hm).resolve_left Bool.false_ne_true
          exact (saveUsers_keeping _).mono (fun _ _ _ => ends_pure ⟨rfl, fun _ _ => rfl, fun _ => haccounts⟩)
            fun _ _ => hhashing

lemma Sound.documented (hm : m.Sound) (updated : Int) : Documented (.json (m.toJson updated)) := by
  refine ⟨_, _, rfl, usersArray_toJson, fun j hj => ?_⟩
  obtain ⟨e, he, rfl⟩ := List.mem_map.1 hj
  exact ⟨_, FTPUser.ofJson_toJson (hm e.1 e.2 (AList.mem_lookup_iff.2 he)).2⟩

lemma Sound.accounts_saved (hm : m.Sound) (hh : m.Hashed) {updated : Int} {users : UserMap}
    (h : Accounts pbkdf2 (storedUsers (.json (m.toJson updated))) ∅ users) (name : Str) :
    users.lookup name = m.users_.lookup name := by
  have hname := h name
  have hmem (r : FTPUser) : r ∈ storedUsers (.json (m.toJson updated)) ↔ ∃ k, m.users_.lookup k = some r := by
    rw [hm.storedUsers_toJson, List.mem_map]
    exact ⟨fun ⟨e, he, hr⟩ => ⟨e.1, hr ▸ AList.mem_lookup_iff.2 he⟩,
      fun ⟨k, hk⟩ => ⟨⟨k, r⟩, AList.mem_lookup_iff.1 hk, rfl⟩⟩
  cases hlast : lastNamed (storedUsers (.json (m.toJson updated))) name with
  | some r =>
    rw [hlast] at hname
    obtain ⟨u, hu, stored, hsecured, rfl⟩ := hname
    obtain ⟨hr, rfl⟩ := lastNamed_mem hlast
    obtain ⟨k, hk⟩ := (hmem r).1 hr
    obtain rfl := (hm k r hk).1
    cases hsecured with
    | kept _ => exact hu.trans hk.symm
    | hashed hplain _ => cases hplain.symm.trans (hh _ r hk)
  | none =>
    rw [hlast] at hname
    cases hl : m.users_.lookup name with
    | none => exact hname.trans rfl
    | some u => exact absurd (hm name u hl).1 (lastNamed_none hlast u ((hmem u).2 ⟨name, hl⟩))

lemma Sound.of_lookup {m' : FTPUserManager} (hm : m.Sound) (h : ∀ k, m'.users_.lookup k = m.users_.lookup k) :
    m'.Sound :=
  fun k u hu => hm k u ((h k).symm.trans hu)

lemma Hashed.of_lookup {m' : FTPUserManager} (hm : m.Hashed)
    (h : ∀ k, m'.users_.lookup k = m.users_.lookup k) : m'.Hashed :=
  fun k u hu => hm k u ((h k).symm.trans hu)

end FTPUserManager

namespace Files

variable {w w₁ : Files} {filename : Str}

def Random (w : Files) : Prop := ∀ time n, ∃ bytes, w.choose time (.randBytes n) = some bytes ∧ bytes.length = n

def Unhashing (calls : List (Files × Σ β, StoreCall β)) : Prop := ∀ c ∈ calls, ∀ n, c.2 ≠ ⟨_, .randBytes n⟩

lemma machine_keeping {hashing : Prop} :
    (keeping hashing).Describes machine fun g w => w.content = g ∧ (hashing → w.Random) := by
  rintro β g w o ⟨rfl, hrandom⟩ hpre
  cases o with
  | read file => exact ⟨rfl, rfl, hrandom⟩
  | randBytes n => exact ⟨hrandom hpre _ n, rfl, hrandom⟩
  | _ => exact ⟨trivial, rfl, hrandom⟩

lemma saveUsers_content (h : (m.saveUsers filename).exec machine w = (.ok true, w₁)) :
    (if filename = [] then m.user_file_ else filename) ≠ [] ∧
      ∃ updated, w₁.content (if filename = [] then m.user_file_ else filename) = .json (m.toJson updated) := by
  have hsaves : Ends (keeping False) (m.saveUsers filename) _ _ w.content :=
    FTPUserManager.saveUsers_keeping filename
  rcases hsaves.exec machine_keeping ⟨rfl, False.elim⟩ with ⟨saved, v, _, he, ⟨rfl, _⟩, hsaved⟩ | ⟨_,
    _, _, he, _, _⟩
  · cases h.symm.trans he
    exact hsaved rfl
  · cases h.symm.trans he

lemma saved_users_are_loaded (hm : m.Sound) (hh : m.Hashed) (hfresh : m₀.users_ = ∅)
    (hfile : m₀.user_file_ = m.user_file_)
    (hsave : (m.saveUsers filename).exec machine w = (.ok true, w₁)) :
    (∃ m' w', (m₀.loadUsers pbkdf2 filename).exec machine w₁ = (.ok (.ok true, m'), w') ∧
      m'.user_file_ = m₀.user_file_ ∧
      ∀ k, m'.users_.lookup k = m.users_.lookup k) ∧
        Unhashing ((m₀.loadUsers pbkdf2 filename).calls machine w₁) := by
  obtain ⟨hne, updated, hcontent⟩ := saveUsers_content hsave
  have hplain : ∀ r ∈ storedUsers (w₁.content (if filename = [] then m.user_file_ else filename)),
      isHashed r.password_ = false → False := by
    intro r hr hplain
    rw [hcontent, hm.storedUsers_toJson] at hr
    obtain ⟨e, he, rfl⟩ := List.mem_map.1 hr
    cases hplain.symm.trans (hh e.1 e.2 (AList.mem_lookup_iff.2 he))
  have hloads : Ends (keeping False) (m₀.loadUsers pbkdf2 filename) _ (fun _ => False) w₁.content :=
    FTPUserManager.loadUsers_keeping False.elim (by rw [hfile]) hfresh hplain
  refine ⟨?_, fun c hc n he => ?_⟩
  · rcases hloads.exec machine_keeping ⟨rfl, False.elim⟩ with ⟨⟨b, m'⟩, w', _, he, _, hname, hdone,
      haccounts⟩ | ⟨_, _, _, _, _, h⟩
    · obtain rfl : b = .ok true := hdone hne (hcontent ▸ hm.documented updated)
      have hsaved := haccounts rfl
      rw [hcontent] at hsaved
      exact ⟨m', w', he, hname, hm.accounts_saved hh hsaved⟩
    · exact h.elim
  · obtain ⟨g, _, hpre⟩ := wp_calls machine_keeping hloads ⟨rfl, False.elim⟩ c hc
    obtain ⟨_, _, o⟩ := c
    cases he
    exact hpre

def Cycle (pbkdf2 : Pbkdf2) (v v' : FTPUserManager × Files) : Prop :=
  ∃ (m₀ : FTPUserManager) (filename : Str) (w : Files), m₀.users_ = ∅ ∧
  m₀.user_file_ = v.1.user_file_ ∧ (v.1.saveUsers filename).exec machine v.2 = (.ok true, w) ∧
    (m₀.loadUsers pbkdf2 filename).exec machine w = (.ok (.ok true, v'.1), v'.2)

lemma cycles_keep {v v' : FTPUserManager × Files} (hm : v.1.Sound) (hh : v.1.Hashed)
    (h : Relation.ReflTransGen (Cycle pbkdf2) v v') : v'.1.Sound ∧ v'.1.Hashed ∧
      ∀ k, v'.1.users_.lookup k = v.1.users_.lookup k := by
  induction h with
  | refl => exact ⟨hm, hh, fun _ => rfl⟩
  | tail _ hlast ih =>
    obtain ⟨hm', hh', hsame⟩ := ih
    obtain ⟨m₀, filename, w, hfresh, hfile, hsave, hload⟩ := hlast
    obtain ⟨⟨m', w', he, _, hkept⟩, _⟩ := saved_users_are_loaded hm' hh' hfresh hfile hsave
    cases hload.symm.trans he
    exact ⟨hm'.of_lookup hkept, hh'.of_lookup hkept, fun k => (hkept k).trans (hsame k)⟩

end Files

namespace FTPUserManager

lemma sound_of_accounts (hd : Derives pbkdf2) {f : StoredFile} (h : Accounts pbkdf2 (storedUsers f) ∅ m.users_) :
    m.Sound ∧ m.Hashed := by
  have haccount (k : Str) (u : FTPUser) (hu : m.users_.lookup k = some u) :
      (u.username_ = k ∧ u.InRange) ∧ isHashed u.password_ = true := by
    have hk := h k
    cases hlast : lastNamed (storedUsers f) k with
    | none =>
      rw [hlast] at hk
      cases hu.symm.trans hk
    | some r =>
      rw [hlast] at hk
      obtain ⟨hr, hname⟩ := lastNamed_mem hlast
      obtain ⟨u', hu', stored, hsecured, rfl⟩ := hk
      cases hu.symm.trans hu'
      obtain ⟨hexpires, hquota⟩ := storedUsers_inRange hr
      exact ⟨⟨hname, hexpires, hquota⟩, hsecured.isHashed hd⟩
  exact ⟨fun k u hu => (haccount k u hu).1, fun k u hu => (haccount k u hu).2⟩

end FTPUserManager

variable (pbkdf2)

theorem user_records_are_kept :
    (∀ (m m₀ : FTPUserManager) (filename : Str) (w w₁ : Files), m.Sound → m.Hashed → m₀.users_ = ∅ →
      m₀.user_file_ = m.user_file_ → (m.saveUsers filename).exec Files.machine w = (.ok true, w₁) →
      ∃ m' w', (m₀.loadUsers pbkdf2 filename).exec Files.machine w₁ = (.ok (.ok true, m'), w') ∧
        ∀ k, m'.users_.lookup k = m.users_.lookup k) ∧
    (∀ (m m₀ : FTPUserManager) (r : FTPUser) (filename : Str) (w w₁ : Files), Derives pbkdf2 → w.Random →
      m₀.users_ = ∅ →
      lastNamed (storedUsers (w.content (if filename = [] then m₀.user_file_ else filename)))
        r.username_ = some r →
      isHashed r.password_ = false →
        (m₀.loadUsers pbkdf2 filename).exec Files.machine w = (.ok (.ok true, m), w₁) →
      ∃ u salt, u = { r with password_ := hash pbkdf2 (some salt) r.password_ } ∧
        (∀ now, u.authenticate pbkdf2 now r.password_ = !r.isExpired now) ∧
        ∀ v, Relation.ReflTransGen (Files.Cycle pbkdf2) (m, w₁) v → v.1.users_.lookup r.username_ = some u ∧
          ∀ (m₁ : FTPUserManager) (filename : Str) (w₂ : Files), m₁.users_ = ∅ → m₁.user_file_ = v.1.user_file_ →
            (v.1.saveUsers filename).exec Files.machine v.2 = (.ok true, w₂) →
            Files.Unhashing ((m₁.loadUsers pbkdf2 filename).calls Files.machine w₂)) := by
  constructor
  · intro m m₀ filename w w₁ hm hh hfresh hfile hsave
    obtain ⟨⟨m', w', he, _, hkept⟩, _⟩ := Files.saved_users_are_loaded hm hh hfresh hfile hsave
    exact ⟨m', w', he, hkept⟩
  · intro m m₀ r filename w w₁ hd hrandom hfresh hlast hplain hload
    have hloads : Ends (keeping True) (m₀.loadUsers pbkdf2 filename) _ (fun _ => True) w.content :=
      FTPUserManager.loadUsers_keeping (fun _ => hd) rfl hfresh fun _ _ _ => trivial
    rcases hloads.exec Files.machine_keeping ⟨rfl, fun _ => hrandom⟩ with ⟨_, _, _, he, _, _, _,
      haccounts⟩ | ⟨_, _, _, he, _, _⟩
    · cases hload.symm.trans he
      have haccounts := haccounts rfl
      obtain ⟨hm, hh⟩ := FTPUserManager.sound_of_accounts hd haccounts
      have hr := haccounts r.username_
      rw [hlast] at hr
      obtain ⟨u, hu, stored, hsecured, rfl⟩ := hr
      cases hsecured with
      | kept hhashed => cases hplain.symm.trans hhashed
      | @hashed salt _ hsalt =>
        refine ⟨_, salt, rfl, fun now => ?_, fun v hv => ?_⟩
        · have hverify := verify_hash hd hsalt r.password_
          unfold FTPUser.authenticate
          rw [hverify]
          cases hexpired : r.isExpired now with
          | true => exact if_pos hexpired
          | false => exact if_neg (fun h => Bool.false_ne_true (hexpired.symm.trans h))
        · obtain ⟨hm', hh', hsame⟩ := Files.cycles_keep hm hh hv
          refine ⟨(hsame _).trans hu, fun m₁ filename w₂ hfresh hfile hsave => ?_⟩
          exact (Files.saved_users_are_loaded hm' hh' hfresh hfile hsave).2
    · cases hload.symm.trans he

namespace Files

def sampleDerivation : Pbkdf2 := fun _ _ _ n => some (List.replicate n 0)

def sampleStore (expires_at : Int) : Json := .object [("users", .array [
  .object [("username", .string "alice"), ("password", .string "p"), ("home_directory", .string "/"),
    ("expires_at", .int expires_at)]])]

def sampleKept (expires_at : Int) : Files :=
  ⟨fun file => if file = "/u" then .json (sampleStore expires_at) else .missing, 0,
  fun _ o => match o with
    | .randBytes n => some (List.replicate n 1)
    | o => o.favourable⟩

def sampleManager : FTPUserManager := ⟨∅, "/u"⟩

lemma sampleDerivation_derives : Derives sampleDerivation := fun _ _ _ _ => ⟨_, rfl, List.length_replicate⟩

lemma sampleKept_random (expires_at : Int) : (sampleKept expires_at).Random :=
  fun _ _ => ⟨_, rfl, List.length_replicate⟩

lemma sampleManager_loads (expires_at : Int) (h : (((sampleManager.loadUsers sampleDerivation []).exec machine
    (sampleKept expires_at)).1.toOption.map fun r => r.1.toOption) = some (some true)) :
    ∃ m w, (sampleManager.loadUsers sampleDerivation []).exec machine (sampleKept expires_at) =
      (.ok (.ok true, m), w) := by
  cases he : (sampleManager.loadUsers sampleDerivation []).exec machine (sampleKept expires_at) with
  | mk r w =>
    rw [he] at h
    cases r with
    | error e => cases h
    | ok r =>
      obtain ⟨b, m⟩ := r
      cases b with
      | error e => cases h
      | ok b =>
        obtain rfl : b = true := Option.some.inj (Option.some.inj h)
        exact ⟨m, w, rfl⟩

def sampleSaved : FTPUserManager :=
  ⟨(∅ : UserMap).insert "bob" ⟨"bob", "$pbkdf2-sha256$1$AA==$AA==", "/b", ["read"], ["g"], true, 7, 9⟩, "/u"⟩

lemma sampleSaved_user {k : Str} {u : FTPUser} (h : sampleSaved.users_.lookup k = some u) :
    k = "bob" ∧ u = ⟨"bob", "$pbkdf2-sha256$1$AA==$AA==", "/b", ["read"], ["g"], true, 7, 9⟩ :=
  (lookup_of_insert h).resolve_right (by simp)

end Files

theorem user_records_are_kept_sample :
    (∃ (w w' : Files) (m' : FTPUserManager),
      (Files.sampleManager.loadUsers Files.sampleDerivation []).exec Files.machine w = (.ok (.ok true, m'), w') ∧
      m'.getUser "bob" = Files.sampleSaved.getUser "bob") ∧
    ∃ (m : FTPUserManager) (u : FTPUser), m.getUser "alice" = some u ∧
      u.authenticate Files.sampleDerivation 5 "p" = true := by
  constructor
  · have hsound : Files.sampleSaved.Sound := fun k u h => by
      obtain ⟨rfl, rfl⟩ := Files.sampleSaved_user h
      exact ⟨rfl, ⟨by decide, by decide⟩, by decide⟩
    have hhashed : Files.sampleSaved.Hashed := fun k u h => by
      obtain ⟨rfl, rfl⟩ := Files.sampleSaved_user h
      decide
    obtain ⟨m', w', he, hkept⟩ :=
      (user_records_are_kept Files.sampleDerivation).1 Files.sampleSaved Files.sampleManager []
      (Files.sampleKept 0) _ hsound hhashed rfl rfl (Prod.ext (by decide +kernel) rfl)
    exact ⟨_, w', m', he, hkept _⟩
  · obtain ⟨m, w, he⟩ := Files.sampleManager_loads 0 (by decide +kernel)
    obtain ⟨u, _, hu, hauth, hkept⟩ := (user_records_are_kept Files.sampleDerivation).2 m Files.sampleManager
      ⟨"alice", "p", "/", [], [], false, 0, 0⟩ [] _ w Files.sampleDerivation_derives
        (Files.sampleKept_random 0) rfl
      (by decide +kernel) (by decide) he
    exact ⟨m, u, (hkept _ .refl).1, (hauth 5).trans (by decide)⟩

theorem user_records_are_refused :
    ∃ (m : FTPUserManager) (w : Files),
    (Files.sampleManager.loadUsers Files.sampleDerivation []).exec Files.machine
    (Files.sampleKept 1) = (.ok (.ok true, m), w) ∧ isHashed "p" = false ∧
      (m.getUser "alice").map (fun u => u.authenticate Files.sampleDerivation 2 "p") = some false := by
  obtain ⟨m, w, he⟩ := Files.sampleManager_loads 1 (by decide +kernel)
  have hrefused : ((Files.sampleManager.loadUsers Files.sampleDerivation []).exec Files.machine
      (Files.sampleKept 1)).1.toOption.map (fun r => (r.2.getUser "alice").map
        fun u => u.authenticate Files.sampleDerivation 2 "p") = some (some false) := by decide +kernel
  rw [he] at hrefused
  exact ⟨m, w, he, by decide, Option.some.inj hrefused⟩

end SimpleSftpd
