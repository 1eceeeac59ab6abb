import SimpleSftpd.Core.Run

namespace SimpleSftpd

open Cxx Interaction Prog

variable (env : Service) (me : SessionId)

namespace Session

variable (s : Session) (w : World) (password : Str)

def storeAccepts : Bool :=
  (s.storedUser env).any fun u => u.authenticate env.pbkdf2 (w.choose w.time .systemNow) password

def pamAccepts : Bool :=
  env.config_.security.enable_pam && env.havePam &&
    w.choose (w.time + 1) (.pamAuthenticate s.username_ password)

def pamUser : FTPUser :=
  FTPUser.make env.pbkdf2 (w.choose (w.time + 3) (.randBytes Password.kSaltBytes)) s.username_ password
    (pamHome env (s.storedUser env) (w.choose (w.time + 2) (.getpwnam s.username_)))

def verifiedUser : Option FTPUser :=
  if s.storeAccepts env w password then s.storedUser env
  else if s.pamAccepts env w password then some (s.pamUser env w password)
  else none

def hasRoom : Bool :=
  !env.session_tracker_ ||
    ((env.config_.security.max_sessions_per_user ≤ 0 ||
        (w.tracker.getCountForUser s.username_ : Int) < env.config_.security.max_sessions_per_user) &&
      match s.current_virtual_host_ with
      | none => true
      | some h => h.max_sessions_ ≤ 0 || (w.tracker.getCountForHost s.hostname : Int) < h.max_sessions_)

lemma verifiedUser_isSome :
    (s.verifiedUser env w password).isSome = (s.storeAccepts env w password || s.pamAccepts env w password) := by
  unfold verifiedUser
  split
  · rename_i h
    rw [h, Bool.true_or]
    exact Option.isSome_of_any h
  · rename_i h
    rw [Bool.eq_false_iff.2 h, Bool.false_or]
    split <;> simp_all

def passTime : ℕ :=
  if s.storeAccepts env w password then w.time + 1
  else if env.config_.security.enable_pam && env.havePam then
    if s.pamAccepts env w password then w.time + 4 else w.time + 2
  else w.time + 1

lemma checkPassword_exec : (s.checkPassword env password).exec (World.machine me) w =
    (.ok (match s.verifiedUser env w password with
      | some u => (some u, true)
      | none => (s.storedUser env, false)), { w with time := s.passTime env w password }) := by
  by_cases hstore : s.storeAccepts env w password = true
  · obtain ⟨u, hu⟩ : ∃ u, s.storedUser env = some u := Option.isSome_iff_exists.1 (Option.isSome_of_any hstore)
    have hany := hstore
    rw [storeAccepts, hu] at hany
    simp only [checkPassword, exec_perform_bind, exec_pure, hany, if_true, verifiedUser, hstore, hu, passTime]
    rfl
  · have hany := hstore
    unfold storeAccepts at hany
    simp only [checkPassword, exec_perform_bind, exec_ite, exec_pure, hany, verifiedUser, hstore, passTime]
    by_cases hpam : (env.config_.security.enable_pam && env.havePam) = true
    · by_cases haccept : w.choose (w.time + 1) (.pamAuthenticate s.username_ password) = true
      · simp [pamAccepts, haccept, hpam, World.tick, pamUser]
      · simp [pamAccepts, haccept, hpam, World.tick]
    · simp [pamAccepts, hpam, World.tick]

lemma askCount_exec (max : Int) (c : Call ℕ) (n : ℕ) (hc : World.answer me w c = (n, w)) :
    (if max > 0 then perform c else pure 0 : Io ℕ).exec (World.machine me) w =
      (.ok (if max > 0 then n else 0), w) := by
  split
  · rw [exec_perform, World.machine, hc]
  · rfl

lemma atLimit_iff (max : Int) (n : ℕ) :
    (max > 0 ∧ max ≤ ((if max > 0 then n else 0 : ℕ) : Int)) ↔ ¬(max ≤ 0 ∨ (n : Int) < max) := by
  by_cases hmax : max > 0
  · simp only [if_pos hmax]
    omega
  · omega

lemma sessionLimit_exec : ∃ r,
    (s.sessionLimit env).exec (World.machine me) w = (.ok r, w) ∧ (r = none ↔ s.hasRoom env w = true) := by
  by_cases htracker : env.session_tracker_ = true
  · have husers := askCount_exec me w env.config_.security.max_sessions_per_user
      (.getCountForUser s.username_) _ rfl
    simp only [sessionLimit, hasRoom, htracker, if_true, exec_bind, husers, exec_ite, atLimit_iff]
    by_cases huser : env.config_.security.max_sessions_per_user ≤ 0 ∨
        (w.tracker.getCountForUser s.username_ : Int) < env.config_.security.max_sessions_per_user
    · cases s.current_virtual_host_ with
      | none => exact ⟨none, by simp [huser]⟩
      | some h =>
        have hsessions := askCount_exec me w h.max_sessions_ (.getCountForHost s.hostname) _ rfl
        simp only [exec_bind, hsessions, exec_ite, atLimit_iff]
        by_cases hhost : h.max_sessions_ ≤ 0 ∨ (w.tracker.getCountForHost s.hostname : Int) < h.max_sessions_
        · exact ⟨none, by simp [huser, hhost]⟩
        · exact ⟨some "Too many sessions for this host", by simp [huser, hhost]⟩
    · exact ⟨some "Too many sessions for user", by simp [huser]⟩
  · exact ⟨none, by simp [sessionLimit, hasRoom, htracker]⟩

inductive PassRun (env : Service) (s : Session) (w : World) (password : Str) :
    Session → SessionTracker → ℕ → Prop
  | unnamed : s.username_ = [] → PassRun env s w password s w.tracker 503
  | refused (u : Option FTPUser) : s.username_ ≠ [] →
    u = ((s.verifiedUser env w password).or (s.storedUser env)) →
    ¬((s.verifiedUser env w password).isSome ∧ s.hasRoom env w) →
    PassRun env s w password { s with current_user_ := u } w.tracker 530
  | accepted (u : FTPUser) (dir : Str) : s.username_ ≠ [] → s.verifiedUser env w password = some u →
    s.hasRoom env w →
    PassRun env s w password
      { s with
        current_user_ := some u, authenticated_ := true, current_directory_ := dir,
        session_registered_ := env.session_tracker_ || s.session_registered_ }
      (if env.session_tracker_ then w.tracker.registerSession s.username_ s.hostname else w.tracker) 230

lemma register_exec :
    (s.register env).exec (World.machine me) w = (.ok (env.session_tracker_ || s.session_registered_),
      if env.session_tracker_ then { w with tracker := w.tracker.registerSession s.username_ s.hostname }
      else w) := by
  unfold register
  split
  · rename_i h
    rw [h]
    rfl
  · rename_i h
    rw [Bool.eq_false_iff.2 h]
    rfl

lemma logIn_run {u : FTPUser} {s' : Session} {w' : World} (hs : s.socket_ ≠ none)
    (h : (s.logIn env u).exec (World.machine me) w = (.ok s', w')) :
    (∃ dir, s' = { s with
        authenticated_ := true, current_directory_ := dir,
        session_registered_ := env.session_tracker_ || s.session_registered_ }) ∧
      w'.tracker = (if env.session_tracker_ then w.tracker.registerSession s.username_ s.hostname
        else w.tracker) ∧
      ∀ c, Trace.answers ((s.logIn env u).calls (World.machine me) w) c = decide (230 = c) := by
  have hdir : (loginDirectory env u).Within (Kinds [.query, .chroot]) fun _ => True := by
    rw [loginDirectory_eq]
    exact applyChroot_within (List.Subset.refl _) _
  have hreg : (s.register env).Within (Kinds [.register]) fun _ => True := by
    simp [register, Call.kind]
  have htracker := tracker_of_within me hdir (by simp) w
  have hquiet := answers_of_within me hdir (by simp) w
  rw [logIn, exec_bind] at h
  rw [logIn, calls_bind]
  cases he : (loginDirectory env u).exec (World.machine me) w with
  | mk r v =>
  rw [he] at h htracker
  cases r with
  | error e => cases h
  | ok dir =>
    dsimp only at h htracker ⊢
    rw [exec_bind, register_exec] at h
    rw [calls_bind, register_exec]
    obtain ⟨rfl, hcalm, hcode⟩ := reply_return me hs h
    refine ⟨⟨dir, rfl⟩, ?_, fun c => ?_⟩
    · rw [hcalm.tracker, ← htracker]
      split <;> rfl
    · rw [Trace.answers_append, Trace.answers_append, hcode, hquiet, answers_of_within me hreg (by simp)]
      rfl

lemma finishLogin_run {ok : Bool} {s' : Session} {w' : World} (hs : s.socket_ ≠ none)
    (h : (s.finishLogin env ok).exec (World.machine me) w = (.ok s', w')) :
    (¬(s.current_user_.isSome ∧ ok ∧ s.hasRoom env w) ∧ s' = s ∧ w'.tracker = w.tracker ∧
        ∀ c, Trace.answers ((s.finishLogin env ok).calls (World.machine me) w) c = decide (530 = c)) ∨
      ((s.current_user_.isSome ∧ ok ∧ s.hasRoom env w) ∧
        (∃ dir, s' = { s with
          authenticated_ := true, current_directory_ := dir,
          session_registered_ := env.session_tracker_ || s.session_registered_ }) ∧
        w'.tracker = (if env.session_tracker_ then w.tracker.registerSession s.username_ s.hostname
          else w.tracker) ∧
        ∀ c, Trace.answers ((s.finishLogin env ok).calls (World.machine me) w) c = decide (230 = c)) := by
  unfold finishLogin at h ⊢
  split at h
  · rename_i u hu
    obtain ⟨r, hr, hroom⟩ := sessionLimit_exec env me s w
    have hlimit : (s.sessionLimit env).Within (Kinds [.census]) fun _ => True := sessionLimit_within (by simp)
    have hquiet := answers_of_within me hlimit (by simp) w
    simp only [exec_bind, hr, calls_bind, Trace.answers_append, hquiet, Bool.false_or] at h ⊢
    cases r with
    | some refusal =>
      obtain ⟨rfl, hcalm, hcode⟩ := reply_return me hs h
      have hno : s'.hasRoom env w ≠ true := fun hr => by simpa using hroom.2 hr
      exact .inl ⟨fun ⟨_, _, hr⟩ => hno hr, rfl, hcalm.tracker, hcode⟩
    | none => exact .inr ⟨by simp [hu, hroom.1 rfl], logIn_run env me s w hs h⟩
  · rename_i hno
    obtain ⟨rfl, hcalm, hcode⟩ := reply_return me hs h
    refine .inl ⟨fun ⟨hu, hok, _⟩ => ?_, rfl, hcalm.tracker, hcode⟩
    obtain ⟨u, hu⟩ := Option.isSome_iff_exists.1 hu
    exact hno u hu hok

theorem handlePASS_run {s' : Session} {w' : World} (hs : s.socket_ ≠ none)
    (h : (s.handlePASS env password).exec (World.machine me) w = (.ok s', w')) :
    ∃ code, PassRun env s w password s' w'.tracker code ∧
      ∀ c, Trace.answers ((s.handlePASS env password).calls (World.machine me) w) c = decide (code = c) := by
  by_cases hname : s.username_ = []
  · simp only [handlePASS, if_pos hname] at h ⊢
    obtain ⟨rfl, hcalm, hcode⟩ := reply_return me hs h
    exact ⟨503, hcalm.tracker ▸ .unnamed hname, hcode⟩
  · have hn := s.checkPassword_exec env me w password
    have hcheck : (s.checkPassword env password).Within (Kinds [.clock, .account]) _ :=
      checkPassword_within (List.Subset.refl _) password
    have hquiet := answers_of_within me hcheck (by simp) w
    simp only [handlePASS, if_neg hname, exec_bind, hn, calls_bind, Trace.answers_append, hquiet,
      Bool.false_or] at h ⊢
    cases hu : s.verifiedUser env w password with
    | none =>
      simp only [hu] at h ⊢
      rcases finishLogin_run env me { s with current_user_ := s.storedUser env } _ hs h with
        ⟨_, rfl, ht, hcode⟩ | ⟨⟨_, hok, _⟩, _⟩
      · exact ⟨530, ht ▸ .refused _ hname (by rw [hu]; rfl) (by simp [hu]), hcode⟩
      · cases hok
    | some u =>
      simp only [hu] at h ⊢
      rcases finishLogin_run env me { s with current_user_ := some u } _ hs h with
        ⟨hno, rfl, ht, hcode⟩ | ⟨⟨_, _, hroom⟩, ⟨dir, rfl⟩, ht, hcode⟩
      · exact ⟨530, ht ▸ .refused _ hname (by rw [hu]; rfl) fun h => hno ⟨rfl, rfl, h.2⟩, hcode⟩
      · exact ⟨230, ht ▸ .accepted u dir hname hu hroom, hcode⟩

structure LoginKept (v : Verb) (s s' : Session) : Prop where
  socket : s'.socket_ = s.socket_
  user : s'.current_user_ = s.current_user_
  registered : s'.session_registered_ = s.session_registered_
  login : v ≠ .user → s'.authenticated_ = s.authenticated_ ∧ s'.username_ = s.username_
  authenticated : s'.authenticated_ = true → s.authenticated_ = true
  host : s'.current_virtual_host_ = s.current_virtual_host_ ∨
    ∃ h, s'.current_virtual_host_ = some h ∧ h.hostname_ ≠ []

variable {env me s} {s' : Session} {a : Arrival}

lemma login_kept (hv : a.command.verb ≠ .pass) (h : s.after env me a = some s') :
    LoginKept a.command.verb s s' := by
  have hframe := after_frame h
  refine ⟨hframe.socket, hframe.user hv, hframe.registered hv, fun hu => hframe.login (by simp [hu, hv]),
    fun ha => ?_, ?_⟩
  · by_cases hu : a.command.verb = .user
    · rcases after_effect h with rfl | he
      · exact ha
      · rw [hu] at he
        rw [show s' = _ from he] at ha
        cases ha
    · rw [← (hframe.login (by simp [hu, hv])).1]
      exact ha
  · by_cases hh : a.command.verb = .host
    · rcases after_effect h with rfl | he
      · exact .inl rfl
      · rw [hh] at he
        rcases he with rfl | ⟨host, hname, hne, rfl⟩
        · exact .inl rfl
        · exact .inr ⟨host, rfl, hname ▸ hne⟩
    · exact .inl (hframe.host hh)

end Session

end SimpleSftpd
