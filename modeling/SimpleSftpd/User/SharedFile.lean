import SimpleSftpd.Interaction.System
import SimpleSftpd.User.UserManager

namespace SimpleSftpd

open Cxx Interaction Password Prog

/-- What a user of the file knows of it: the names in it when it last read or wrote it, and whether
it has emptied the file and not written it yet. -/
structure Editing where
  known : List Str := []
  writing : Bool := false

def Editing.next (g : Editing) {β : Type} (o : StoreCall β) : β → Editing := match o with
  | .read _ => fun f => { g with known := storedNames f }
  | .truncate _ => fun opened => { g with writing := opened }
  | .write _ root => fun _ => ⟨storedNames (.json root), false⟩
  | _ => fun _ => g

def editing (removed : Option Str) : Contract StoreCall Editing where
  pre g o := match o with
    | .read _ | .truncate _ => g.writing = false
    | .write _ root => g.writing = true ∧ ∀ n ∈ g.known, removed ≠ some n → n ∈ storedNames (.json root)
    | _ => True
  post _ _ _ := True
  next g o r := g.next o r

structure FTPUserManager.Covers (m : FTPUserManager) (removed : Option Str) (g : Editing) : Prop where
  idle : g.writing = false
  sound : m.Sound
  known : ∀ n ∈ g.known, removed ≠ some n → n ∈ m.users_

section

variable {pbkdf2 : Pbkdf2} {removed : Option Str} {m : FTPUserManager} {g : Editing}

lemma generating_editing {α : Type} {p : Storing α} {P : α → Prop} (h : p.Within Generating P) :
    Meets (editing removed) p (fun a g' => g' = g ∧ P a) g := by
  refine h.meets (fun o ho => ?_) fun a ha => ⟨rfl, ha⟩
  cases o with
  | randBytes n => exact ⟨trivial, fun _ => rfl⟩
  | _ => exact absurd ho id

lemma construct_editing (username password home_dir : Str) :
    Meets (editing removed) (FTPUser.construct pbkdf2 username password home_dir) (fun u g' => g' = g ∧
      u.InRange) g := by
  refine (generating_editing (FTPUser.construct_within _ _ _)).mono fun u g' h => ⟨h.1, ?_⟩
  obtain ⟨_, salt, rfl⟩ := h
  exact FTPUser.make_inRange _ _ _

lemma saveUsers_editing {gone : Option Str} (hgone : gone = none ∨ gone = removed) (h : m.Covers gone g)
    (filename : Str) :
    Meets (editing removed) (m.saveUsers filename) (fun _ g' => m.Covers gone g') g := by
  have hkept : ∀ n ∈ g.known, removed ≠ some n → n ∈ m.users_ := by
    intro n hn hr
    refine h.known n hn ?_
    rcases hgone with rfl | rfl
    · exact (Option.some_ne_none n).symm
    · exact hr
  have hdirectories :
    Meets (editing removed) (if Path.hasParentPath (if filename = [] then m.user_file_ else filename)
      then request (.createDirectories (Path.parentPath (if filename = [] then m.user_file_ else filename)))
      else pure none : Storing (Option Errc)) (fun _ g' => g' = g) g :=
    meets_ite.2 ⟨fun _ => (meets_perform _).2 ⟨trivial, fun _ _ => rfl⟩, fun _ => (meets_pure _).2 rfl⟩
  refine meets_ite.2 ⟨fun _ => (meets_pure _).2 h, fun _ => meets_bind.2 (hdirectories.mono ?_)⟩
  rintro failure _ rfl
  cases failure with
  | some e => exact meets_throw _
  | none =>
    refine meets_bind.2 ((meets_perform _).2 ⟨trivial, fun updated _ => meets_bind.2 ?_⟩)
    refine (meets_perform _).2 ⟨h.idle, fun opened _ => ?_⟩
    cases opened with
    | false => exact (meets_pure _).2 ⟨rfl, h.sound, h.known⟩
    | true =>
      refine meets_bind.2 ((meets_perform _).2 ⟨⟨rfl, fun n hn hr => ?_⟩, fun _ _ => (meets_pure _).2 ?_⟩)
      · exact h.sound.mem_storedNames.2 (hkept n hn hr)
      · exact ⟨rfl, h.sound, fun n hn _ => h.sound.mem_storedNames.1 hn⟩

lemma loadUsers_editing (user_file filename : Str) :
    Meets (editing removed) (FTPUserManager.loadUsers pbkdf2 ⟨∅, user_file⟩ filename)
      (fun r g => ∀ b, r.1 = .ok b → r.2.Covers none g) {} := by
  have hempty : FTPUserManager.Sound ⟨∅, user_file⟩ := fun k u h => by cases h
  refine meets_ite.2 ⟨fun _ => (meets_pure _).2 fun _ _ => ⟨rfl, hempty, by simp⟩, fun _ => ?_⟩
  refine meets_bind.2 ?_
  refine (meets_perform _).2 ⟨rfl, fun found _ => ?_⟩
  cases found with
  | missing | unparsable =>
    refine (meets_pure _).2 fun _ _ => ?_
    exact ⟨rfl, hempty, by simp [editing, Editing.next, storedNames, storedUsers]⟩
  | json root =>
    cases hroot : FTPUserManager.usersArray root with
    | error e => simpa only [hroot] using (meets_pure _).2 fun _ h => (by cases h)
    | ok entries =>
      cases entries with
      | none =>
        simp only [hroot]
        refine (meets_pure _).2 fun _ _ => ?_
        exact ⟨rfl, hempty, by simp [editing, Editing.next, storedNames, storedUsers, hroot]⟩
      | some entries =>
        simp only [hroot]
        have hread : (FTPUserManager.readUsers pbkdf2 ∅ false entries).Within Generating _ :=
          FTPUserManager.readUsers_of_file (P := fun k u => u.username_ = k ∧ u.InRange) hroot
            fun entry he u hu => ⟨rfl, hu.inRange (FTPUserManager.storedUsers_inRange he)⟩
        refine meets_bind.2 ((generating_editing hread).mono fun r g h => ?_)
        obtain ⟨rfl, hsound, hnames⟩ := h
        obtain ⟨migrated, users⟩ := r
        cases migrated with
        | error e => exact (meets_pure _).2 fun _ h => (by cases h)
        | ok migrated =>
          have hcovers : FTPUserManager.Covers ⟨users, user_file⟩ none
              ((editing removed).next {} (.read (if filename = [] then user_file else filename))
                (.json root)) := by
            exact ⟨rfl, hsound, fun n hn _ => hnames migrated rfl n hn⟩
          refine meets_bind.2 (meets_ite.2 ⟨fun _ => ?_, fun _ => ?_⟩)
          · refine (saveUsers_editing (.inl rfl) hcovers _).mono fun _ _ h => ?_
            exact (meets_pure _).2 fun _ _ => h
          · exact (meets_pure _).2 ((meets_pure _).2 fun _ _ => hcovers)

lemma manager_editing (user_file : Str) :
    Meets (editing removed) (FTPUserManager.construct pbkdf2 user_file) (fun m g => m.Covers none g) {} := by
  refine meets_ite.2 ⟨fun _ => (meets_pure _).2 ⟨rfl, fun k u h => (by cases h), by simp⟩, fun _ => ?_⟩
  refine meets_bind.2 ?_
  refine (loadUsers_editing user_file []).mono fun r g h => ?_
  obtain ⟨loaded, m⟩ := r
  cases loaded with
  | error e => exact meets_throw _
  | ok b => exact (meets_pure _).2 (h b rfl)

lemma addUser_editing (h : m.Covers none g) {u : FTPUser} (hu : u.InRange) :
    Meets (editing removed) (m.addUser u) (fun m' g' => m'.Covers none g') g := by
  have hadded : FTPUserManager.Covers { m with users_ := m.users_.insert u.username_ u } none g :=
    ⟨h.idle, h.sound.insert rfl hu, fun n hn hr => (AList.mem_insert _).2 (.inr (h.known n hn hr))⟩
  refine meets_bind.2 (meets_ite.2 ⟨fun _ => ?_, fun _ => (meets_pure _).2 ((meets_pure _).2 hadded)⟩)
  exact (saveUsers_editing (.inl rfl) hadded []).mono fun _ _ h => (meets_pure _).2 h

lemma constructUsers_editing (allow_anonymous : Bool) (user_file : Str) :
    Meets (editing removed) (constructUsers pbkdf2 allow_anonymous user_file) (fun m g => m.Covers none g) {} := by
  have hadd {m : FTPUserManager} {g : Editing} (h : m.Covers none g) (username password home_dir : Str) :
      Meets (editing removed) (FTPUser.construct pbkdf2 username password home_dir >>= fun u => m.addUser u)
        (fun m' g' => m'.Covers none g') g := by
    refine meets_bind.2 ((construct_editing username password home_dir).mono fun u g' hu => ?_)
    obtain ⟨rfl, hrange⟩ := hu
    exact addUser_editing h hrange
  refine meets_bind.2 ((manager_editing user_file).mono fun m g h => meets_bind.2 ?_)
  have htest : Meets (editing removed) (if m.users_.keys = [] then do
      let test_user ← FTPUser.construct pbkdf2 "test" "test" "/tmp"
      m.addUser test_user
    else pure m : Storing FTPUserManager) (fun m' g' => m'.Covers none g') g :=
    meets_ite.2 ⟨fun _ => hadd h _ _ _, fun _ => (meets_pure _).2 h⟩
  refine htest.mono fun m' g' h' => ?_
  refine meets_ite.2 ⟨fun _ => hadd h' _ _ _, fun _ => ?_⟩
  exact (meets_pure _).2 h'

lemma userAdd_editing (user_file username password home_dir : Str) (permissions : List Str) :
    Meets (editing removed) (userAdd pbkdf2 user_file username password home_dir permissions)
      (fun m g => m.Covers none g) {} := by
  refine meets_bind.2 ((manager_editing user_file).mono fun m g h => meets_bind.2 ?_)
  refine (construct_editing username password home_dir).mono fun u g' hu => ?_
  obtain ⟨rfl, hrange⟩ := hu
  refine addUser_editing h ?_
  split
  · exact hrange
  · exact ⟨hrange.expires_at, hrange.storage_quota_bytes⟩

lemma userRemove_editing (user_file username : Str) :
    Meets (editing (some username)) (userRemove pbkdf2 user_file username)
      (fun r g => r.2.Covers (some username) g) {} := by
  refine meets_bind.2 ((manager_editing user_file).mono fun m g h => ?_)
  refine meets_ite.2 ⟨fun _ => meets_bind.2 ?_,
    fun _ => (meets_pure _).2 ⟨h.idle, h.sound, fun n hn _ => h.known n hn ?_⟩⟩
  · have hleft : FTPUserManager.Covers { m with users_ := m.users_.erase username } (some username) g := by
      refine ⟨h.idle, h.sound.erase username, fun n hn hr => ?_⟩
      refine AList.mem_erase.2 ⟨fun he => hr (congrArg some he.symm), ?_⟩
      exact h.known n hn (Option.some_ne_none n).symm
    refine meets_ite.2 ⟨fun _ => ?_, fun _ => (meets_pure _).2 ((meets_pure _).2 hleft)⟩
    exact (saveUsers_editing (.inr rfl) hleft []).mono fun _ _ h => (meets_pure _).2 h
  · exact (Option.some_ne_none n).symm

end

variable (pbkdf2 : Pbkdf2) (user_file : Str)

inductive StoreJob
  | connection (allow_anonymous : Bool)
  | add (username password home_dir : Str) (permissions : List Str)
  | remove (username : Str)

namespace StoreJob

def program : StoreJob → Storing Unit
  | connection allow_anonymous => do
    let _ ← constructUsers pbkdf2 allow_anonymous user_file
    return ()
  | add username password home_dir permissions => do
    let _ ← userAdd pbkdf2 user_file username password home_dir permissions
    return ()
  | remove username => do
    let _ ← userRemove pbkdf2 user_file username
    return ()

def removes : StoreJob → Option Str
  | remove username => some username
  | _ => none

variable {pbkdf2 user_file}

lemma program_editing (job : StoreJob) :
    Meets (editing job.removes) (job.program pbkdf2 user_file) (fun _ _ => True) {} := by
  cases job with
  | connection allow_anonymous =>
    exact meets_bind.2 ((constructUsers_editing _ _).mono fun _ _ _ => (meets_pure _).2 trivial)
  | add username password home_dir permissions =>
    exact meets_bind.2 ((userAdd_editing _ _ _ _ _).mono fun _ _ _ => (meets_pure _).2 trivial)
  | remove username =>
    refine meets_bind.2 ((userRemove_editing _ _).mono fun _ _ _ => ?_)
    exact (meets_pure _).2 trivial

end StoreJob

/-- A job under way, with the version of the file it last read or wrote as history. -/
structure Editor where
  job : StoreJob
  rest : Storing Unit
  seen : Option ℕ := none

/-- The file and the jobs started so far. As history: who has emptied the file and not written it
yet, how often it was written, the names of its last complete content, and the names a write dropped
without being the removal of just that name. -/
structure Archive where
  file : StoredFile
  count : ℕ
  editor : ℕ → Editor
  saving : Option ℕ
  version : ℕ
  kept : List Str
  lost : List Str

inductive ArchiveStep : Type 1
  | start (job : StoreJob)
  | call (i : ℕ) (choose : ∀ {β : Type}, StoreCall β → β)

namespace Archive

variable (t : Archive)

def set (i : ℕ) (e : Editor) : Archive := { t with editor := Function.update t.editor i e }

def drops (i : ℕ) (root : Json) : List Str :=
  t.kept.filter fun n => n ∉ storedNames (.json root) ∧ (t.editor i).job.removes ≠ some n

def answer (i : ℕ) (choose : ∀ {β : Type}, StoreCall β → β) {β : Type} : StoreCall β → β × Archive
  | .read _ => (t.file, t.set i { t.editor i with seen := some t.version })
  | .truncate file =>
    if choose (.truncate file) then (true, { t with file := .unparsable, saving := some i }) else (false, t)
  | .write _ root => ((), { t.set i { t.editor i with seen := some (t.version + 1) } with
      file := .json root
      saving := none
      version := t.version + 1
      kept := storedNames (.json root)
      lost := t.lost ++ t.drops i root })
  | c => (choose c, t)

def afterCall (i : ℕ) (choose : ∀ {β : Type}, StoreCall β → β) : Option Archive :=
  match (t.editor i).rest with
  | .call o k =>
    let r := t.answer i choose o
    some (r.2.set i { r.2.editor i with rest := k r.1 })
  | _ => none

end Archive

def archiveSystem : System Archive ArchiveStep where
  init t := t.count = 0 ∧ t.saving = none ∧ t.version = 0 ∧ t.kept = storedNames t.file ∧ t.lost = []
  next t
    | .start job => some
        { t with
          count := t.count + 1
          editor := Function.update t.editor t.count { job, rest := job.program pbkdf2 user_file } }
    | .call i choose => if i < t.count then t.afterCall i choose else none

/-- No one reads a file that is being saved, and a save begins only if no other is under way and
nothing has been written since its job read the file. -/
def Archive.Exclusive (t : Archive) : ArchiveStep → Prop
  | .start _ => True
  | .call i choose => match (t.editor i).rest with
    | .call (.read _) _ => t.saving = none
    | .call (.truncate file) _ =>
      choose (.truncate file) = true → t.saving = none ∧ (t.editor i).seen = some t.version
    | _ => True

/-- A job goes on as its contract has it, and what it knows of the file is so while it is the last to
have read or written it. -/
def Archive.Follows (t : Archive) (i : ℕ) (g : Editing) : Prop :=
  Meets (editing (t.editor i).job.removes) (t.editor i).rest (fun _ _ => True) g ∧
    (g.writing = true ↔ t.saving = some i) ∧ (g.writing = true → (t.editor i).seen = some t.version) ∧
    ((t.editor i).seen = some t.version → g.known = t.kept) ∧ ∀ v, (t.editor i).seen = some v → v ≤ t.version

structure Archive.Sound (t : Archive) : Prop where
  none_lost : t.lost = []
  stored : t.saving = none → t.kept = storedNames t.file
  saver : ∀ i, t.saving = some i → i < t.count
  editors : ∀ i < t.count, ∃ g, t.Follows i g

namespace Archive

variable {pbkdf2 user_file} {t t' : Archive} {i : ℕ}

lemma Follows.same {j : ℕ} {g : Editing} (h : t.Follows j g) (he : t'.editor j = t.editor j)
    (hsaving : t'.saving = some j ↔ t.saving = some j) (hversion : t'.version = t.version)
    (hkept : t'.kept = t.kept) :
    t'.Follows j g := by
  unfold Follows
  rw [he, hsaving, hversion, hkept]
  exact h

lemma start_sound (hs : t.Sound) (job : StoreJob) : Sound
    { t with
      count := t.count + 1
      editor := Function.update t.editor t.count { job, rest := job.program pbkdf2 user_file } } := by
  refine ⟨hs.none_lost, hs.stored, fun i hi => Nat.lt_succ_of_lt (hs.saver i hi), fun i hi => ?_⟩
  rcases Nat.lt_succ_iff_lt_or_eq.1 hi with hlt | rfl
  · obtain ⟨g, hg⟩ := hs.editors i hlt
    exact ⟨g, hg.same (Function.update_of_ne (Nat.ne_of_lt hlt) _ _) Iff.rfl rfl rfl⟩
  · refine ⟨{}, ?_⟩
    have hidle : t.saving ≠ some t.count := fun h => absurd (hs.saver _ h) (lt_irrefl _)
    simp only [Follows, Function.update_self]
    exact ⟨job.program_editing, iff_of_false Bool.false_ne_true hidle, nofun, nofun, nofun⟩

lemma Sound.set (hs : t.Sound) {e : Editor} {g : Editing} (hg : (t.set i e).Follows i g) : (t.set i e).Sound := by
  refine ⟨hs.none_lost, hs.stored, hs.saver, fun j hj => ?_⟩
  by_cases hji : j = i
  · subst hji
    exact ⟨g, hg⟩
  · obtain ⟨g', hg'⟩ := hs.editors j hj
    exact ⟨g', hg'.same (Function.update_of_ne hji _ _) Iff.rfl rfl rfl⟩

lemma set_set (e e' : Editor) : (t.set i e).set i e' = t.set i e' := by
  simp [Archive.set]

lemma read_sound {choose : ∀ {β : Type}, StoreCall β → β} {file : Str} {k : StoredFile → Storing Unit}
    (hs : t.Sound)
    (hi : i < t.count) (hrest : (t.editor i).rest = .call (.read file) k) (hidle : t.saving = none)
    (h : t.afterCall i choose = some t') : t'.Sound := by
  obtain ⟨g, hmeets, hwriting, _, _, _⟩ := hs.editors i hi
  rw [hrest] at hmeets
  obtain ⟨_, hnext⟩ := (meets_call _ _).1 hmeets
  simp only [afterCall, hrest, answer, set_set, Option.some.injEq] at h
  subst h
  refine hs.set (g := { g with known := storedNames t.file }) ?_
  simp only [Follows, Archive.set, Function.update_self, Option.some.injEq, forall_eq']
  have hno : g.writing = false := by
    rw [hidle] at hwriting
    exact Bool.eq_false_iff.2 fun hw => Option.some_ne_none _ (hwriting.1 hw).symm
  refine ⟨hnext t.file trivial, hwriting, fun _ => trivial, fun _ => (hs.stored hidle).symm, le_refl _⟩

lemma truncate_sound {choose : ∀ {β : Type}, StoreCall β → β} {file : Str} {k : Bool → Storing Unit} (hs : t.Sound)
    (hi : i < t.count) (hrest : (t.editor i).rest = .call (.truncate file) k)
    (hok : choose (.truncate file) = true → t.saving = none ∧ (t.editor i).seen = some t.version)
    (h : t.afterCall i choose = some t') : t'.Sound := by
  obtain ⟨g, hmeets, hwriting, hseen, hknown, hbound⟩ := hs.editors i hi
  rw [hrest] at hmeets
  obtain ⟨hpre, hnext⟩ := (meets_call _ _).1 hmeets
  have hno : g.writing = false := hpre
  simp only [afterCall, hrest, answer] at h
  by_cases hopen : choose (.truncate file) = true
  · obtain ⟨hidle, hcurrent⟩ := hok hopen
    simp only [hopen, if_true, Option.some.injEq] at h
    subst h
    refine ⟨hs.none_lost, nofun, fun j hj => Option.some.inj hj ▸ hi, fun j hj => ?_⟩
    by_cases hji : j = i
    · subst hji
      refine ⟨{ g with writing := true }, ?_⟩
      simp only [Follows, Archive.set, Function.update_self]
      exact ⟨hnext true trivial, trivial, fun _ => hcurrent, hknown, hbound⟩
    · obtain ⟨g', hg'⟩ := hs.editors j hj
      refine ⟨g', hg'.same (Function.update_of_ne hji _ _) (iff_of_false ?_ ?_) rfl rfl⟩
      · exact fun he => hji (Option.some.inj he).symm
      · exact fun he => Option.some_ne_none j (he.symm.trans hidle)
  · simp only [hopen, Bool.false_eq_true, if_false, Option.some.injEq] at h
    subst h
    refine hs.set (g := { g with writing := false }) ?_
    simp only [Follows, Archive.set, Function.update_self]
    rw [hno] at hwriting
    exact ⟨hnext false trivial, hwriting, nofun, hknown, hbound⟩

lemma write_sound {choose : ∀ {β : Type}, StoreCall β → β} {file : Str} {root : Json} {k : Unit → Storing Unit}
    (hs : t.Sound) (hi : i < t.count) (hrest : (t.editor i).rest = .call (.write file root) k)
    (h : t.afterCall i choose = some t') : t'.Sound := by
  obtain ⟨g, hmeets, hwriting, hseen, hknown, hbound⟩ := hs.editors i hi
  rw [hrest] at hmeets
  obtain ⟨⟨hw, hnames⟩, hnext⟩ := (meets_call _ _).1 hmeets
  have hsaving : t.saving = some i := hwriting.1 hw
  have hdrops : t.drops i root = [] := by
    rw [drops, List.filter_eq_nil_iff]
    intro n hn
    rw [← hknown (hseen hw)] at hn
    rw [decide_eq_true_eq]
    exact fun hgone => hgone.1 (hnames n hn hgone.2)
  simp only [afterCall, hrest, answer, Option.some.injEq] at h
  subst h
  refine ⟨?_, fun _ => rfl, nofun, fun j hj => ?_⟩
  · change t.lost ++ t.drops i root = []
    rw [hs.none_lost, hdrops]
    rfl
  · by_cases hji : j = i
    · subst hji
      refine ⟨⟨storedNames (.json root), false⟩, ?_⟩
      simp only [Follows, Archive.set, Function.update_self]
      exact ⟨hnext () trivial, iff_of_false Bool.false_ne_true nofun, nofun, fun _ => trivial, fun v hv =>
        (Option.some.inj hv).ge⟩
    · obtain ⟨g', hmeets', hwriting', _, _, hbound'⟩ := hs.editors j hj
      have hno' : ¬g'.writing = true := fun hw' =>
        hji (Option.some.inj ((hwriting'.1 hw').symm.trans hsaving))
      refine ⟨g', ?_⟩
      simp only [Follows, Archive.set, Function.update_of_ne hji]
      refine ⟨hmeets', iff_of_false hno' nofun, fun hw' => absurd hw' hno', fun hv => ?_, fun v hv => ?_⟩
      · exact absurd (hbound' _ hv) (Nat.not_succ_le_self _)
      · exact Nat.le_succ_of_le (hbound' v hv)

lemma quiet_sound {choose : ∀ {β : Type}, StoreCall β → β} {β : Type} {o : StoreCall β} {k : β → Storing Unit}
    (hs : t.Sound) (hi : i < t.count) (hrest : (t.editor i).rest = .call o k)
    (ho : t.answer i choose o = (choose o, t))
    (hquiet : ∀ (g : Editing) (r : β), g.next o r = g) (h : t.afterCall i choose = some t') : t'.Sound := by
  obtain ⟨g, hmeets, hg⟩ := hs.editors i hi
  rw [hrest] at hmeets
  obtain ⟨_, hnext⟩ := (meets_call _ _).1 hmeets
  simp only [afterCall, hrest, ho, Option.some.injEq] at h
  subst h
  refine hs.set (g := g) ?_
  simp only [Follows, Archive.set, Function.update_self]
  refine ⟨?_, hg⟩
  have hmeets' := hnext (choose o) trivial
  rwa [show (editing (t.editor i).job.removes).next g o (choose o) = g from hquiet g _] at hmeets'

lemma sound_step {step : ArchiveStep} (hs : t.Sound) (hok : t.Exclusive step)
    (h : (archiveSystem pbkdf2 user_file).next t step = some t') : t'.Sound := by
  cases step with
  | start job =>
    cases h
    exact start_sound hs job
  | call i choose =>
    dsimp only [archiveSystem] at h
    split at h
    · rename_i hi
      cases hrest : (t.editor i).rest with
      | ret a => simp [afterCall, hrest] at h
      | throw e => simp [afterCall, hrest] at h
      | call o k =>
        simp only [Exclusive, hrest] at hok
        cases o with
        | read file => exact read_sound hs hi hrest hok h
        | truncate file => exact truncate_sound hs hi hrest hok h
        | write file root => exact write_sound hs hi hrest h
        | createDirectories | randBytes | systemNow => exact quiet_sound hs hi hrest rfl (fun _ _ => rfl) h
    · cases h

lemma sound_of_reach (h : (archiveSystem pbkdf2 user_file).Reach Exclusive t) : t.Sound := by
  refine h.invariant (fun t h0 => ?_) fun _ _ _ hs hok hn => sound_step hs hok hn
  obtain ⟨hcount, hsaving, _, hkept, hlost⟩ := h0
  refine ⟨hlost, fun _ => hkept, fun i hi => ?_, fun i hi => ?_⟩
  · cases hsaving.symm.trans hi
  · omega

end Archive

theorem stored_users_are_kept {t : Archive} (h : (archiveSystem pbkdf2 user_file).Reach Archive.Exclusive t) :
    t.lost = [] := (Archive.sound_of_reach h).none_lost

namespace Archive

instance (t : Archive) (step : ArchiveStep) : Decidable (t.Exclusive step) := by
  unfold Exclusive
  split
  · infer_instance
  · split <;> infer_instance

def sample : Archive :=
  let m : FTPUserManager := ⟨(∅ : UserMap).insert "alice" ⟨"alice", "p", "/", [], [], false, 0, 0⟩, []⟩
  let file : StoredFile := .json (m.toJson 0)
  ⟨file, 0, fun _ => ⟨.remove [], pure (), none⟩, none, 0, storedNames file, []⟩

def sampleCalls (i n : ℕ) : List ArchiveStep := List.replicate n (.call i StoreCall.favourable)

def sampleJobs : List ArchiveStep :=
  [.start (.add "bob" "q" "/" []), .start (.connection false)]

end Archive

theorem stored_users_are_kept_add :
    ∃ t : Archive, storedNames t.file = [ascii "bob", ascii "alice"] ∧ t.lost = [] := by
  obtain ⟨t, ht, hf⟩ := Option.map_eq_some_iff.1 (show
    ((archiveSystem (fun _ _ _ _ => none) "/u").run Archive.Exclusive Archive.sample
      (Archive.sampleJobs ++ Archive.sampleCalls 0 7 ++ Archive.sampleCalls 1 1)).map
        (fun t => storedNames t.file) =
        some [ascii "bob", ascii "alice"] by decide +kernel)
  exact ⟨t, hf, stored_users_are_kept _ _ (.run (.init ⟨rfl, rfl, rfl, rfl, rfl⟩) ht)⟩

theorem stored_users_are_not_kept : ∃ t : Archive,
    (archiveSystem (fun _ _ _ _ => none) "/u").Reach System.anyStep t ∧
      storedNames t.file = [ascii "test"] ∧ t.lost = [ascii "bob", ascii "alice"] := by
  obtain ⟨t, ht, hf⟩ := Option.map_eq_some_iff.1 (show
    ((archiveSystem (fun _ _ _ _ => none) "/u").run System.anyStep Archive.sample
      (Archive.sampleJobs ++ Archive.sampleCalls 0 6 ++ Archive.sampleCalls 1 1 ++ Archive.sampleCalls 0 1 ++
        Archive.sampleCalls 1 5)).map (fun t => (storedNames t.file, t.lost)) =
        some ([ascii "test"], [ascii "bob", ascii "alice"]) by decide +kernel)
  exact ⟨t, .run (.init ⟨rfl, rfl, rfl, rfl, rfl⟩) ht, congrArg Prod.fst hf, congrArg Prod.snd hf⟩

end SimpleSftpd
