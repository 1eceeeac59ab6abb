import SimpleSftpd.Sessions.VerifiedUser
import SimpleSftpd.User.SharedFile

/-! Where the record comes from that an anonymous session is logged in with: the user file over a
series of runs, one job after the other. -/

namespace SimpleSftpd

open Cxx Interaction Password Prog

variable (pbkdf2 : Pbkdf2) (user_file : Str)

def FTPUser.SameSecret (a u : FTPUser) : Prop :=
  u.password_ = a.password_ ∨ ∃ salt, u.password_ = hash pbkdf2 salt a.password_ ∧ u.password_ ≠ []

def StoreCall.shows (f : StoredFile) {β : Type} (o : StoreCall β) : β → Prop := match o with
  | .read _ => fun found => found = f
  | _ => fun _ => True

def StoreCall.leaves (f : StoredFile) {β : Type} (o : StoreCall β) : β → StoredFile := match o with
  | .truncate _ => fun opened => if opened then .unparsable else f
  | .write _ root => fun _ => .json root
  | _ => fun _ => f

def filing : Contract StoreCall StoredFile where
  pre _ _ := True
  post f o r := o.shows f r
  next f o r := o.leaves f r

structure Disk where
  file : StoredFile
  time : ℕ
  choose : ∀ {β : Type}, ℕ → StoreCall β → β

namespace Disk

def answer {β : Type} (w : Disk) : StoreCall β → β × Disk
  | .read _ => (w.file, w)
  | o => (w.choose w.time o, { w with file := o.leaves w.file (w.choose w.time o), time := w.time + 1 })

abbrev machine : Machine StoreCall Disk := fun _ w o => w.answer o

lemma machine_filing : filing.Describes machine fun f w => w.file = f := by
  rintro β f w o rfl _
  cases o with
  | read file => exact ⟨rfl, rfl⟩
  | _ => exact ⟨trivial, rfl⟩

end Disk

def StoreJob.stores (job : StoreJob) (w : Disk) : List FTPUser := match job with
  | .add username password home_dir permissions =>
    match (userAdd pbkdf2 user_file username password home_dir permissions).exec Disk.machine w with
    | (.ok m, w') => (m.getUser username).toList.filter (· ∈ storedUsers w'.file)
    | _ => []
  | _ => []

/-- The user file and, as history, the records that administrators stored in it. -/
structure History where
  file : StoredFile
  stored : List FTPUser

structure Errand where
  job : StoreJob
  choose : ∀ {β : Type}, ℕ → StoreCall β → β

def History.disk (h : History) (choose : ∀ {β : Type}, ℕ → StoreCall β → β) : Disk := ⟨h.file, 0, choose⟩

def historySystem : System History Errand where
  init h := ascii "anonymous" ∉ storedNames h.file ∧ h.stored = []
  next h e := some
    { file := ((e.job.program pbkdf2 user_file).exec Disk.machine (h.disk e.choose)).2.file
      stored := h.stored ++ e.job.stores pbkdf2 user_file (h.disk e.choose) }

def History.NotBootstrapped (h : History) (e : Errand) : Prop := match e.job with
  | .connection true => ascii "anonymous" ∈ storedNames h.file
  | _ => True

def FTPUser.From (S : List FTPUser) (u : FTPUser) : Prop :=
  u.username_ = "anonymous" → ∃ a ∈ S, a.username_ = "anonymous" ∧ FTPUser.SameSecret pbkdf2 a u

def FileFrom (S : List FTPUser) (f : StoredFile) : Prop := ∀ u ∈ storedUsers f, u.From pbkdf2 S

structure FTPUserManager.From (S : List FTPUser) (m : FTPUserManager) : Prop where
  sound : m.Sound
  accounts : ∀ k u, m.users_.lookup k = some u → u.From pbkdf2 S

structure FTPUserManager.LoadedFrom (S : List FTPUser) (f : StoredFile) (m : FTPUserManager) : Prop where
  accounts : m.From pbkdf2 S
  file : m.user_file_ = user_file
  names : user_file ≠ [] → ∀ n ∈ storedNames f, n ∈ m.users_

structure Session.AsksForAnonymous (env : Service) (s : Session) (w : World) : Prop where
  connected : s.socket_ ≠ none
  username : s.username_ = "anonymous"
  pam : s.pamAccepts env w [] = false
  host : s.current_virtual_host_.bind (·.user_manager_) = none

def Service.started (env : Service) (w : Disk) : Option Service :=
  match (constructUsers env.pbkdf2 env.config_.security.allow_anonymous user_file).exec Disk.machine w with
  | (.ok m, _) => some { env with user_manager_ := m }
  | (.error _, _) => none

variable {pbkdf2 user_file}

section

variable {S S' : List FTPUser} {m : FTPUserManager} {f : StoredFile} {u : FTPUser}

lemma FTPUser.SameSecret.renews {a entry : FTPUser} (h : SameSecret pbkdf2 a entry) (hu : Renews pbkdf2 entry u) :
    SameSecret pbkdf2 a u := by
  obtain ⟨salt, rfl⟩ := hu
  simp only [SameSecret, make, setPassword]
  split
  · exact h
  · rename_i hplain
    split
    · exact h
    · rename_i hhashed
      rcases h with he | ⟨salt', he, hne⟩
      · exact .inr ⟨salt, congrArg (hash pbkdf2 salt ·) he, hhashed⟩
      · rw [he] at hne hplain
        exact absurd (isHashed_hash hne) hplain

lemma FTPUser.From.renews {entry : FTPUser} (h : From pbkdf2 S entry) (hu : Renews pbkdf2 entry u) :
    From pbkdf2 S u := by
  intro hname
  obtain ⟨a, ha, hanon, hsame⟩ := h (hu.username ▸ hname)
  exact ⟨a, ha, hanon, hsame.renews hu⟩

lemma FTPUser.From.mono (h : u.From pbkdf2 S) (hS : S ⊆ S') : u.From pbkdf2 S' := by
  intro hname
  obtain ⟨a, ha, hanon, hsame⟩ := h hname
  exact ⟨a, hS ha, hanon, hsame⟩

lemma FileFrom.mono (h : FileFrom pbkdf2 S f) (hS : S ⊆ S') : FileFrom pbkdf2 S' f := fun u hu => (h u hu).mono hS

namespace FTPUserManager

lemma from_empty : FTPUserManager.From pbkdf2 S ⟨∅, user_file⟩ := by
  constructor <;> exact fun k u h => by cases h

lemma From.toJson (h : m.From pbkdf2 S) (updated : Int) : FileFrom pbkdf2 S (.json (m.toJson updated)) := by
  intro u hu
  rw [h.sound.storedUsers_toJson] at hu
  obtain ⟨e, he, rfl⟩ := List.mem_map.1 hu
  exact h.accounts e.1 e.2 (AList.mem_lookup_iff.2 he)

lemma From.mono (h : m.From pbkdf2 S) (hS : S ⊆ S') : m.From pbkdf2 S' :=
  ⟨h.sound, fun k u hl => (h.accounts k u hl).mono hS⟩

lemma From.insert (h : m.From pbkdf2 S) (hu : u.InRange) (hfrom : u.From pbkdf2 S) :
    From pbkdf2 S { m with users_ := m.users_.insert u.username_ u } := by
  refine ⟨h.sound.insert rfl hu, fun k u' hl => ?_⟩
  rcases lookup_of_insert hl with ⟨rfl, rfl⟩ | hl
  · exact hfrom
  · exact h.accounts k u' hl

lemma From.erase (h : m.From pbkdf2 S) (k : Str) : From pbkdf2 S { m with users_ := m.users_.erase k } :=
  ⟨h.sound.erase k, fun k' u' hl => h.accounts k' u' (lookup_of_erase hl).2⟩

end FTPUserManager

lemma generating_filing {α : Type} {p : Storing α} {P : α → Prop} (h : p.Within Generating P) :
    Ends filing p (fun a f' => P a ∧ f' = f) (· = f) f := by
  refine h.ends (J := (· = f)) (fun o f' ho hf => ⟨trivial, fun r _ => ?_⟩) rfl
  cases o with
  | randBytes n => exact hf
  | _ => exact absurd ho id

lemma saveUsers_filing (filename : Str) : Ends filing (m.saveUsers filename)
    (fun _ f' => f' = f ∨ ∃ updated, f' = .json (m.toJson updated)) (· = f) f := by
  refine ends_ite (fun _ => ends_pure (.inl rfl)) fun _ => ends_bind ?_
  have hdirectories : Ends filing (if Path.hasParentPath (if filename = [] then m.user_file_ else filename)
      then request (.createDirectories (Path.parentPath (if filename = [] then m.user_file_ else filename)))
      else pure none : Storing (Option Errc)) (fun _ f' => f' = f) (· = f) f :=
    ends_ite (fun _ => ends_perform trivial fun _ _ => rfl) fun _ => ends_pure rfl
  refine hdirectories.mono ?_ fun _ h => h
  rintro failure _ rfl
  cases failure with
  | some e => exact ends_throw rfl
  | none =>
    refine ends_bind (ends_perform trivial fun updated _ => ?_)
    refine ends_bind (ends_perform trivial fun opened _ => ?_)
    cases opened with
    | false => exact ends_pure (.inl rfl)
    | true => exact ends_bind (ends_perform trivial fun _ _ => ends_pure (.inr ⟨updated, rfl⟩))

lemma addUser_filing : Ends filing (m.addUser u)
    (fun m' f' => m' = { m with users_ := m.users_.insert u.username_ u } ∧
      (f' = f ∨ m.user_file_ ≠ [] ∧ ∃ updated, f' = .json (m'.toJson updated))) (· = f) f := by
  refine ends_bind (ends_ite (fun hfile => ?_) fun _ => ends_pure (ends_pure ⟨rfl, .inl rfl⟩))
  exact (saveUsers_filing _).mono (fun _ f' h => ends_pure ⟨rfl, h.imp_right fun h => ⟨hfile, h⟩⟩) fun _ h => h

lemma loadUsers_filing (hf : FileFrom pbkdf2 S f) (hfile : user_file ≠ []) :
    Ends filing (FTPUserManager.loadUsers pbkdf2 ⟨∅, user_file⟩ []) (fun r f' => FileFrom pbkdf2 S f' ∧
      ∀ b, r.1 = .ok b → r.2.LoadedFrom pbkdf2 user_file S f) (FileFrom pbkdf2 S) f := by
  refine ends_ite (fun h => absurd h hfile) fun _ => ends_bind (ends_perform trivial ?_)
  rintro found rfl
  cases found with
  | missing | unparsable =>
    refine ends_pure ⟨hf, fun _ _ => ?_⟩
    exact ⟨FTPUserManager.from_empty, rfl, fun _ n hn => by cases hn⟩
  | json root =>
    cases hroot : FTPUserManager.usersArray root with
    | error e => simpa only [hroot] using ends_pure ⟨hf, fun _ h => by cases h⟩
    | ok entries =>
      cases entries with
      | none =>
        have hnames : storedNames (.json root) = [] := by simp only [storedNames, storedUsers, hroot, List.map_nil]
        simp only [hroot]
        refine ends_pure ⟨hf, fun _ _ => ?_⟩
        exact ⟨FTPUserManager.from_empty, rfl, fun _ n hn => by rw [hnames] at hn; cases hn⟩
      | some entries =>
        simp only [hroot]
        have hread : (FTPUserManager.readUsers pbkdf2 ∅ false entries).Within Generating _ :=
          FTPUserManager.readUsers_of_file (P := fun k u => (u.username_ = k ∧ u.InRange) ∧ u.From pbkdf2 S) hroot
            fun entry he u hu =>
              ⟨⟨rfl, hu.inRange (FTPUserManager.storedUsers_inRange he)⟩, (hf entry he).renews hu⟩
        refine ends_bind ((generating_filing hread).mono ?_ fun f' h => h ▸ hf)
        rintro ⟨migrated, users⟩ _ ⟨⟨haccounts, hnames⟩, rfl⟩
        cases migrated with
        | error e => exact ends_pure ⟨hf, fun _ h => by cases h⟩
        | ok migrated =>
          have hm : FTPUserManager.From pbkdf2 S ⟨users, user_file⟩ :=
            ⟨fun k u h => (haccounts k u h).1, fun k u h => (haccounts k u h).2⟩
          have hloaded : FTPUserManager.LoadedFrom pbkdf2 user_file S (.json root) ⟨users, user_file⟩ :=
            ⟨hm, rfl, fun _ => hnames migrated rfl⟩
          refine ends_bind (ends_ite (fun _ => ?_) fun _ => ends_pure (ends_pure ⟨hf, fun _ _ => hloaded⟩))
          refine (saveUsers_filing _).mono (fun _ f' h => ends_pure ⟨?_, fun _ _ => hloaded⟩) fun f' h => h ▸ hf
          rcases h with rfl | ⟨updated, rfl⟩
          · exact hf
          · exact hm.toJson updated

lemma manager_filing (hf : FileFrom pbkdf2 S f) : Ends filing (FTPUserManager.construct pbkdf2 user_file)
    (fun m f' => FileFrom pbkdf2 S f' ∧ m.LoadedFrom pbkdf2 user_file S f) (FileFrom pbkdf2 S) f := by
  refine ends_ite (fun h => ends_pure ⟨hf, FTPUserManager.from_empty, rfl, fun hne => absurd h hne⟩)
    fun hfile => ?_
  refine ends_bind ?_
  refine (loadUsers_filing hf hfile).mono ?_ fun _ h => h
  rintro ⟨loaded, m⟩ f' ⟨hf', hm⟩
  cases loaded with
  | error e => exact ends_throw hf'
  | ok b => exact ends_pure ⟨hf', hm b rfl⟩

lemma addAccount_filing {f₀ : StoredFile} (hf : FileFrom pbkdf2 S f) (hm : m.LoadedFrom pbkdf2 user_file S f₀)
    {username : Str} (hname : username ≠ "anonymous") (password home_dir : Str) :
    Ends filing (FTPUser.construct pbkdf2 username password home_dir >>= fun u => m.addUser u)
      (fun m' f' => FileFrom pbkdf2 S f' ∧ m'.LoadedFrom pbkdf2 user_file S f₀) (FileFrom pbkdf2 S) f := by
  refine ends_bind ((generating_filing (FTPUser.construct_within _ _ _)).mono ?_ fun _ h => h ▸ hf)
  rintro _ _ ⟨⟨salt, rfl⟩, rfl⟩
  refine addUser_filing.mono ?_ fun _ h => h ▸ hf
  rintro m' f' ⟨rfl, hf'⟩
  have hother : (FTPUser.make pbkdf2 salt username password home_dir).From pbkdf2 S :=
    fun h => absurd ((FTPUser.make_username _ _ _).symm.trans h) hname
  have hadded := hm.accounts.insert (FTPUser.make_inRange username password home_dir) hother
  refine ⟨?_, hadded, hm.file, fun hfile n hn => (AList.mem_insert _).2 (.inr (hm.names hfile n hn))⟩
  rcases hf' with rfl | ⟨_, updated, rfl⟩
  · exact hf
  · exact hadded.toJson updated

lemma constructUsers_filing {allow_anonymous : Bool} (hf : FileFrom pbkdf2 S f)
    (hallow : allow_anonymous = true → ascii "anonymous" ∈ storedNames f) :
    Ends filing (constructUsers pbkdf2 allow_anonymous user_file)
      (fun m f' => FileFrom pbkdf2 S f' ∧ (allow_anonymous = false → m.From pbkdf2 S)) (FileFrom pbkdf2 S) f := by
  refine ends_bind ((manager_filing hf).mono ?_ fun _ h => h)
  rintro m f' ⟨hf', hm⟩
  have htest : Ends filing (if m.users_.keys = [] then do
      let test_user ← FTPUser.construct pbkdf2 "test" "test" "/tmp"
      m.addUser test_user
    else pure m : Storing FTPUserManager)
      (fun m' f' => FileFrom pbkdf2 S f' ∧ m'.LoadedFrom pbkdf2 user_file S f) (FileFrom pbkdf2 S) f' :=
    ends_ite (fun _ => addAccount_filing hf' hm (by decide) _ _) fun _ => ends_pure ⟨hf', hm⟩
  refine ends_bind (htest.mono ?_ fun _ h => h)
  rintro m' f'' ⟨hf'', hm'⟩
  refine ends_ite (fun hadd => ?_) fun _ => ends_pure ⟨hf'', fun _ => hm'.accounts⟩
  obtain ⟨rfl, hnone⟩ := Bool.and_eq_true_iff.1 hadd
  -- the account is in the file, so only a manager without a file can lack it
  have hfile : m'.user_file_ = [] := by
    by_contra hne
    have hthere := AList.lookup_isSome.2 (hm'.names (hm'.file ▸ hne) _ (hallow rfl))
    rw [FTPUserManager.getUser, Option.isNone_iff_eq_none] at hnone
    rw [hnone] at hthere
    cases hthere
  refine ends_bind ((generating_filing (FTPUser.construct_within _ _ _)).mono ?_ fun _ h => h ▸ hf'')
  rintro anon_user _ ⟨_, rfl⟩
  refine addUser_filing.mono ?_ fun _ h => h ▸ hf''
  rintro m'' f''' ⟨_, hf'''⟩
  rcases hf''' with rfl | ⟨hne, _⟩
  · exact ⟨hf'', nofun⟩
  · exact absurd hfile hne

lemma userAdd_filing (hf : FileFrom pbkdf2 S f) (username password home_dir : Str) (permissions : List Str) :
    Ends filing (userAdd pbkdf2 user_file username password home_dir permissions)
      (fun m f' => FileFrom pbkdf2 S f' ∨
        ∃ u, m.getUser username = some u ∧ u ∈ storedUsers f' ∧
          FileFrom pbkdf2 (u :: S) f') (FileFrom pbkdf2 S) f := by
  refine ends_bind ((manager_filing hf).mono ?_ fun _ h => h)
  rintro m f' ⟨hf', hm⟩
  refine ends_bind ((generating_filing (FTPUser.construct_within _ _ _)).mono ?_ fun _ h => h ▸ hf')
  rintro _ _ ⟨⟨salt, rfl⟩, rfl⟩
  obtain ⟨u, hu, hname, hrange⟩ :
    ∃ u, u = (if permissions = [] then FTPUser.make pbkdf2 salt username password home_dir
      else { FTPUser.make pbkdf2 salt username password home_dir with permissions_ := permissions }) ∧
      u.username_ = username ∧ u.InRange := by
    have hrange : (FTPUser.make pbkdf2 salt username password home_dir).InRange := FTPUser.make_inRange _ _ _
    refine ⟨_, rfl, ?_, ?_⟩
    · split <;> exact FTPUser.make_username _ _ _
    · split
      · exact hrange
      · exact ⟨hrange.expires_at, hrange.storage_quota_bytes⟩
  rw [← hu]
  refine addUser_filing.mono ?_ fun _ h => h ▸ hf'
  rintro m' f'' ⟨rfl, hf''⟩
  rcases hf'' with rfl | ⟨_, updated, rfl⟩
  · exact .inl hf'
  · have hself : u.From pbkdf2 (u :: S) := fun hanon => ⟨u, List.mem_cons_self, hanon, .inl rfl⟩
    have hadded := (hm.accounts.mono (List.subset_cons_self u S)).insert hrange hself
    have hlookup : (m.users_.insert u.username_ u).lookup u.username_ = some u := AList.lookup_insert _
    refine .inr ⟨u, hname ▸ hlookup, ?_, hadded.toJson updated⟩
    rw [hadded.sound.storedUsers_toJson]
    exact List.mem_map.2 ⟨⟨u.username_, u⟩, AList.mem_lookup_iff.1 hlookup, rfl⟩

lemma userRemove_filing (hf : FileFrom pbkdf2 S f) (username : Str) :
    Ends filing (userRemove pbkdf2 user_file username) (fun _ f' => FileFrom pbkdf2 S f')
      (FileFrom pbkdf2 S) f := by
  refine ends_bind ((manager_filing hf).mono ?_ fun _ h => h)
  rintro m f' ⟨hf', hm⟩
  refine ends_ite (fun _ => ends_bind (ends_ite (fun _ => ?_) fun _ => ends_pure (ends_pure hf')))
    fun _ => ends_pure hf'
  refine (saveUsers_filing _).mono (fun _ f'' h => ends_pure ?_) fun _ h => h ▸ hf'
  rcases h with rfl | ⟨updated, rfl⟩
  · exact hf'
  · exact (hm.accounts.erase username).toJson updated

lemma Disk.exec_of_ends {α : Type} {p : Storing α} {P : α → StoredFile → Prop} {E : StoredFile → Prop} {w : Disk}
    (h : Ends filing p P E w.file) :
    (∃ a w', p.exec machine w = (.ok a, w') ∧ P a w'.file) ∨ ∃ e w', p.exec machine w = (.error e, w') ∧
      E w'.file := by
  rcases h.exec machine_filing rfl with ⟨a, w', _, he, rfl, hP⟩ | ⟨e, w', _, he, rfl, hE⟩
  · exact .inl ⟨a, w', he, hP⟩
  · exact .inr ⟨e, w', he, hE⟩

lemma StoreJob.run_from (job : StoreJob) {w : Disk} (hf : FileFrom pbkdf2 S w.file)
    (hok : job = .connection true → ascii "anonymous" ∈ storedNames w.file) :
    FileFrom pbkdf2 (S ++ job.stores pbkdf2 user_file w)
      ((job.program pbkdf2 user_file).exec Disk.machine w).2.file := by
  have hkept {f : StoredFile} (h : FileFrom pbkdf2 S f) : FileFrom pbkdf2 (S ++ job.stores pbkdf2 user_file w) f :=
    h.mono (List.subset_append_left _ _)
  cases job with
  | connection allow_anonymous =>
    simp only [program, exec_bind]
    have hends : Ends filing (constructUsers pbkdf2 allow_anonymous user_file) _ _ w.file :=
      constructUsers_filing hf fun h => hok (h ▸ rfl)
    rcases Disk.exec_of_ends hends with ⟨m, w', he, h⟩ | ⟨e, w', he, h⟩
    · rw [he]
      exact hkept h.1
    · rw [he]
      exact hkept h
  | add username password home_dir permissions =>
    simp only [program, stores, exec_bind] at hkept ⊢
    have hends : Ends filing (userAdd pbkdf2 user_file username password home_dir permissions) _ _ w.file :=
      userAdd_filing hf username password home_dir permissions
    rcases Disk.exec_of_ends hends with ⟨m, w', he, h⟩ | ⟨e, w', he, h⟩
    · rw [he] at hkept ⊢
      rcases h with h | ⟨u, hu, hmem, h⟩
      · exact hkept h
      · refine h.mono (List.cons_subset.2 ⟨?_, List.subset_append_left _ _⟩)
        simp [hu, hmem]
    · rw [he] at hkept ⊢
      exact hkept h
  | remove username =>
    simp only [program, exec_bind]
    have hends : Ends filing (userRemove pbkdf2 user_file username) _ _ w.file := userRemove_filing hf username
    rcases Disk.exec_of_ends hends with ⟨r, w', he, h⟩ | ⟨e, w', he, h⟩
    · rw [he]
      exact hkept h
    · rw [he]
      exact hkept h

lemma History.from_of_reach {h : History} (hr : (historySystem pbkdf2 user_file).Reach NotBootstrapped h) :
    FileFrom pbkdf2 h.stored h.file := by
  refine hr.invariant (P := fun h => FileFrom pbkdf2 h.stored h.file) (fun h h0 u hu hname => ?_)
    fun h e h' hf hok hn => ?_
  · exact absurd (List.mem_map.2 ⟨u, hu, hname⟩) h0.1
  · cases hn
    refine StoreJob.run_from e.job hf fun hjob => ?_
    simp only [NotBootstrapped, hjob] at hok
    exact hok

lemma Service.started_eq {env env' : Service} {w : Disk} (h : env.started user_file w = some env') : ∃ m w',
    (constructUsers env.pbkdf2 env.config_.security.allow_anonymous user_file).exec Disk.machine w = (.ok m, w') ∧
      env' = { env with user_manager_ := m } := by
  unfold started at h
  split at h
  · rename_i m w' he
    cases h
    exact ⟨m, w', he, rfl⟩
  · cases h

lemma Service.started_from {env env' : Service} {w : Disk} (hf : FileFrom env.pbkdf2 S w.file)
    (hdeny : env.config_.security.allow_anonymous = false) (h : env.started user_file w = some env') :
    ∃ m, env' = { env with user_manager_ := m } ∧ m.From env.pbkdf2 S := by
  obtain ⟨m, w', he, rfl⟩ := started_eq h
  rw [hdeny] at he
  have hends : Ends filing (constructUsers env.pbkdf2 false user_file) _ _ w.file := constructUsers_filing hf nofun
  rcases Disk.exec_of_ends hends with ⟨m', w'', he', hm⟩ | ⟨e, w'', he', _⟩
  · cases he.symm.trans he'
    exact ⟨m, rfl, hm.2 rfl⟩
  · cases he.symm.trans he'

end

theorem anonymous_is_stored_by_administrators {h : History} {env env' : Service}
    (hr : (historySystem env.pbkdf2 user_file).Reach History.NotBootstrapped h)
    (choose : ∀ {β : Type}, ℕ → StoreCall β → β) (hstart : env.started user_file (h.disk choose) = some env')
    (hdeny : env.config_.security.allow_anonymous = false) {me : SessionId} {s s' : Session} {a : Arrival}
    (hs : s.AsksForAnonymous env' a.world) (hpass : a.command = ⟨.pass, []⟩) (ha : s.after env' me a = some s')
    (h230 : (s.trace env' me a).answers 230 = true) :
    ∃ u ∈ h.stored, u.username_ = "anonymous" ∧ ∃ r, s.storedUser env' = some r ∧
      FTPUser.SameSecret env.pbkdf2 u r := by
  obtain ⟨m, rfl, hm⟩ := Service.started_from (History.from_of_reach hr) hdeny hstart
  obtain ⟨_, code, hrun, hcode⟩ := Session.pass_run hs.connected (congrArg Command.verb hpass) ha
  rw [hcode, decide_eq_true_eq] at h230
  subst h230
  rw [hpass] at hrun
  cases hrun with
  | accepted r dir hname hr hroom =>
    have hpam : Session.pamAccepts { env with user_manager_ := m } s a.world [] = false := hs.pam
    have hstored : s.storedUser { env with user_manager_ := m } = some r := by
      unfold Session.verifiedUser at hr
      rw [hpam] at hr
      split at hr
      · exact hr
      · cases hr
    have hlookup : m.users_.lookup (ascii "anonymous") = some r := by
      have hown := hstored
      unfold Session.storedUser at hown
      rwa [hs.host, hs.username] at hown
    obtain ⟨u, hu, hanon, hsame⟩ := hm.accounts _ r hlookup (hm.sound _ r hlookup).1
    exact ⟨u, hu, hanon, r, hstored, hsame⟩

instance (h : History) (e : Errand) : Decidable (h.NotBootstrapped e) := match e with
  | ⟨.connection true, _⟩ => inferInstanceAs (Decidable (ascii "anonymous" ∈ storedNames h.file))
  | ⟨.connection false, _⟩ | ⟨.add _ _ _ _, _⟩ | ⟨.remove _, _⟩ => inferInstanceAs (Decidable True)

namespace History

def sampleErrand (job : StoreJob) : Errand := ⟨job, fun _ o => o.favourable⟩

def samplePass : Arrival := Attested.sampleLine "PASS"

def sampleSession : Session := { Session.opened 3 false false with username_ := "anonymous" }

lemma sampleSession_asks {w : Disk} {env' : Service} (h : (Service.standard [] []).started "/u" w = some env') :
    sampleSession.AsksForAnonymous env' samplePass.world := by
  obtain ⟨m, _, _, rfl⟩ := Service.started_eq h
  exact ⟨nofun, rfl, rfl, rfl⟩

def sampleLogin (ok : History → Errand → Prop) [∀ h e, Decidable (ok h e)] (jobs : List StoreJob) :
    Option (History × Service × Session × Bool) := do
  let env := Service.standard [] []
  let h ← (historySystem env.pbkdf2 "/u").run ok ⟨.missing, []⟩ (jobs.map sampleErrand)
  let env' ← env.started "/u" (h.disk fun _ o => o.favourable)
  let s' ← sampleSession.after env' 0 samplePass
  return (h, env', s', (sampleSession.trace env' 0 samplePass).answers 230)

end History

theorem anonymous_is_stored_by_administrators_added :
    ∃ h : History, ∃ u ∈ h.stored, u.username_ = "anonymous" := by
  obtain ⟨⟨h, env', s', b⟩, hrun, h230⟩ := Option.map_eq_some_iff.1 (show
    (History.sampleLogin History.NotBootstrapped [.add "anonymous" [] "/" []]).map
      (fun r => r.2.2.2) = some true by
      decide +kernel)
  simp only [History.sampleLogin, Option.bind_eq_bind, Option.bind_eq_some_iff] at hrun
  obtain ⟨_, hr, _, hstart, _, ha, he⟩ := hrun
  cases he
  obtain ⟨u, hu, hanon, _⟩ := anonymous_is_stored_by_administrators (.run (.init ⟨by decide, rfl⟩) hr) _ hstart rfl
    (History.sampleSession_asks hstart) rfl ha h230
  exact ⟨h, u, hu, hanon⟩

theorem anonymous_is_not_stored_by_administrators : ∃ (h : History) (env' : Service) (s' : Session),
    (historySystem (Service.standard [] []).pbkdf2 "/u").Reach System.anyStep h ∧
      (Service.standard [] []).started "/u" (h.disk fun _ o => o.favourable) = some env' ∧
      History.sampleSession.AsksForAnonymous env' History.samplePass.world ∧
      History.sampleSession.after env' 0 History.samplePass = some s' ∧
      (History.sampleSession.trace env' 0 History.samplePass).answers 230 = true ∧ h.stored = [] := by
  obtain ⟨⟨h, env', s', b⟩, hrun, hlogin⟩ := Option.map_eq_some_iff.1 (show
    (History.sampleLogin System.anyStep [.connection true]).map (fun r => (r.2.2.2, r.1.stored)) =
      some (true, []) by
      decide +kernel)
  simp only [History.sampleLogin, Option.bind_eq_bind, Option.bind_eq_some_iff] at hrun
  obtain ⟨_, hr, _, hstart, _, ha, he⟩ := hrun
  cases he
  exact ⟨h, env', s', .run (.init ⟨by decide, rfl⟩) hr, hstart, History.sampleSession_asks hstart, ha,
    congrArg Prod.fst hlogin, congrArg Prod.snd hlogin⟩

end SimpleSftpd
