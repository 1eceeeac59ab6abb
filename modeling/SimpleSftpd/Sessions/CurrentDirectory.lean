import SimpleSftpd.Core.TraceAccess
import SimpleSftpd.Sessions.VerifiedUser

namespace SimpleSftpd

open Cxx Interaction Prog

variable (env : Service) (me : SessionId)

namespace Service

def confinement (w : World) (time : ℕ) : Option Location :=
  let chroot_dir := env.config_.security.chroot_directory
  if env.config_.security.chroot_enabled ∧ chroot_dir ≠ [] ∧ isThere (w.fs.status chroot_dir) ∧
      w.choose time (.chroot chroot_dir) then (w.fs.locate chroot_dir).toOption
  else none

def entered (w : World) (time : ℕ) (u : FTPUser) : FileSystem × Str := match env.confinement w time with
  | some l =>
    ({ w.fs with root := l }, Session.chrootRelative env.config_.security.chroot_directory u.home_directory_)
  | none => (w.fs, u.home_directory_)

end Service

/-- A session, and the name space in which its current directory was last judged: the one that the
last command found, or that a PASS left. -/
structure Placed where
  session : Session
  seen : FileSystem

def placedSystem : System Placed Arrival where
  init v := v.session.IsNew
  next v a := (v.session.after env me a).map fun s' => ⟨s',
    if a.command.verb = .pass then ((v.session.dispatch env a.line).exec (World.machine me) a.world).2.fs
      else a.world.fs⟩

def Session.landmarks (s : Session) : List Str := s.current_directory_ ::
  (s.current_user_.map (·.home_directory_)).toList ++ (s.current_virtual_host_.map (·.root_directory_)).toList

def LiesIn (fs : FileSystem) (home dir : Str) : Prop :=
  Path.isWithin (normalizeForComparison fs dir) (normalizeForComparison fs home) = true

def FTPVirtualHost.Holds (host : FTPVirtualHost) (fs : FileSystem) (dir : Str) : Prop :=
  host.root_directory_ ≠ [] → LiesIn fs host.root_directory_ dir

/-- The home directory that an accepted PASS enters, as the process sees it, lies in the root of the
selected host, and where the process is confined the directory is still in the home directory. A refused
PASS leaves a logged-in session with a user whose home directory holds its directory. -/
structure Session.PassPlaces (s : Session) (w : World) (password : Str) : Prop where
  root : ∀ u ∈ s.verifiedUser env w password, s.hasRoom env w = true → ∀ host ∈ s.current_virtual_host_,
    host.Holds (env.entered w (s.passTime env w password) u).1 (env.entered w (s.passTime env w password) u).2
  chroot : ∀ u ∈ s.verifiedUser env w password, s.hasRoom env w = true →
    ∀ l ∈ env.confinement w (s.passTime env w password), LiesIn { w.fs with root := l } u.home_directory_
      (Session.chrootRelative env.config_.security.chroot_directory u.home_directory_)
  refused : s.authenticated_ = true → ¬((s.verifiedUser env w password).isSome ∧ s.hasRoom env w = true) →
    ∃ u ∈ (s.verifiedUser env w password).or (s.storedUser env), LiesIn w.fs u.home_directory_ s.current_directory_

def Session.HostPlaces (s : Session) (fs : FileSystem) (hostname : Str) : Prop :=
  s.authenticated_ = true → ∀ hosts ∈ env.virtual_host_manager_, ∀ host ∈ hosts.getVirtualHost hostname,
    host.enabled_ = true → host.Holds fs s.current_directory_

/-- Nothing on the way of the current directory, the home and the host's root has been redirected, and
the new user or host does not put the directory out of bounds. -/
structure Placed.Steady (v : Placed) (a : Arrival) : Prop where
  landmarks : ∀ p ∈ v.session.landmarks, normalizeForComparison a.world.fs p = normalizeForComparison v.seen p
  pass : a.command.verb = .pass → v.session.username_ ≠ [] → v.session.PassPlaces env a.world a.command.argument
  host : a.command.verb = .host → v.session.HostPlaces env a.world.fs a.command.argument

structure Placed.Sound (v : Placed) : Prop where
  connected : v.session.socket_ ≠ none
  valid : v.session.authenticated_ = true → v.session.validatePath v.seen v.session.current_directory_ = true

variable {env me} {s s' : Session} {a : Arrival} {fs fs' : FileSystem} {w w' : World}

lemma liesIn_self (fs : FileSystem) (home : Str) : LiesIn fs home home := by
  rw [LiesIn, Path.isWithin, List.isPrefixOf_iff_prefix]

lemma validatePath_iff {dir : Str} : s.validatePath fs dir = true ↔
    (∃ u ∈ s.current_user_, LiesIn fs u.home_directory_ dir) ∧ ∀ host ∈ s.current_virtual_host_,
      host.Holds fs dir := by
  rw [Session.validatePath, Bool.and_eq_true, Session.isPathWithinHome]
  refine and_congr ?_ ?_
  · cases s.current_user_ with
    | none => simp
    | some u => simp [LiesIn]
  · cases s.current_virtual_host_ with
    | none => simp
    | some host => simp [FTPVirtualHost.Holds, LiesIn, or_iff_not_imp_left]

lemma validatePath_landmarks
    (h : ∀ p ∈ s.landmarks, normalizeForComparison fs p = normalizeForComparison fs' p) :
    s.validatePath fs s.current_directory_ = s.validatePath fs' s.current_directory_ := by
  have hdir := h s.current_directory_ (by simp [Session.landmarks])
  unfold Session.validatePath Session.isPathWithinHome
  rw [hdir]
  congr 1
  · cases hu : s.current_user_ with
    | none => rfl
    | some u =>
      have hhome := h u.home_directory_ (by simp [Session.landmarks, hu])
      simp only [hhome]
  · cases hh : s.current_virtual_host_ with
    | none => rfl
    | some host =>
      have hroot := h host.root_directory_ (by simp [Session.landmarks, hh])
      simp only [hroot]

namespace Session

lemma PassPlaces.accepted {password : Str} (h : s.PassPlaces env w password) (u : FTPUser)
    (hu : u ∈ s.verifiedUser env w password) (hroom : s.hasRoom env w = true) :
    { s with current_user_ := some u }.validatePath (env.entered w (s.passTime env w password) u).1
      (env.entered w (s.passTime env w password) u).2 = true := by
  refine validatePath_iff.2 ⟨⟨u, rfl, ?_⟩, h.root u hu hroom⟩
  rw [Service.entered]
  cases hconfined : env.confinement w (s.passTime env w password) with
  | none => exact liesIn_self _ _
  | some l => exact h.chroot u hu hroom l hconfined

lemma loginDirectory_exec {u : FTPUser} {dir : Str}
    (h : (loginDirectory env u).exec (World.machine me) w = (.ok dir, w')) :
    (w'.fs, dir) = env.entered w w.time u := by
  rw [loginDirectory_eq, applyChroot] at h
  have hnone (hc : env.confinement w w.time = none) (hdir : dir = u.home_directory_) (hfs : w'.fs = w.fs) :
      (w'.fs, dir) = env.entered w w.time u := by
    rw [Service.entered, hc, hdir, hfs]
  by_cases hc : env.config_.security.chroot_enabled = true ∧ env.config_.security.chroot_directory ≠ []
  · rw [if_pos hc, exec_perform_bind] at h
    cases hfound : w.fs.status env.config_.security.chroot_directory with
    | error e =>
      simp only [hfound] at h
      cases h
    | ok found =>
      simp only [hfound] at h
      change (if found = .notFound then pure u.home_directory_ else _ : Io Str).exec (World.machine me) w = _ at h
      by_cases hmissing : found = .notFound
      · rw [if_pos hmissing] at h
        cases h
        refine hnone (if_neg fun hc => ?_) rfl rfl
        simp [hfound, hmissing, isThere] at hc
      · have hthere : isThere (w.fs.status env.config_.security.chroot_directory) = true := by
          simp [hfound, hmissing, isThere]
        rw [if_neg hmissing, exec_perform_bind] at h
        simp only [World.machine, World.answer] at h
        cases hgrant : w.choose w.time (.chroot env.config_.security.chroot_directory) with
        | false =>
          simp only [hgrant] at h
          cases h
          exact hnone (if_neg fun hc => by simp [hgrant] at hc) rfl rfl
        | true =>
          have hconfined :
              env.confinement w w.time = (w.fs.locate env.config_.security.chroot_directory).toOption :=
            if_pos ⟨hc.1, hc.2, hthere, hgrant⟩
          cases hl : w.fs.locate env.config_.security.chroot_directory with
          | error e =>
            simp only [hgrant, hl] at h
            cases h
            exact hnone (hconfined.trans (by rw [hl]; rfl)) rfl rfl
          | ok l =>
            simp only [hgrant, hl] at h
            cases h
            rw [Service.entered, hconfined, hl]
            rfl
  · rw [if_neg hc] at h
    cases h
    exact hnone (if_neg fun h => hc ⟨h.1, h.2.1⟩) rfl rfl

lemma finishLogin_false : s.finishLogin env false = do
    s.reply 530 "Login incorrect"
    return s := by
  unfold finishLogin
  cases s.current_user_ <;> rfl

lemma handlePASS_places {password : Str} (hs : s.socket_ ≠ none)
    (h : (s.handlePASS env password).exec (World.machine me) w = (.ok s', w')) :
    (∃ u, s.verifiedUser env w password = some u ∧ s.hasRoom env w = true ∧ s.username_ ≠ [] ∧
        (w'.fs, s'.current_directory_) = env.entered w (s.passTime env w password) u) ∨
      (s.username_ ≠ [] → ¬((s.verifiedUser env w password).isSome ∧ s.hasRoom env w = true)) ∧ w'.fs = w.fs := by
  by_cases hname : s.username_ = []
  · simp only [handlePASS, if_pos hname] at h
    obtain ⟨rfl, hcalm, _⟩ := reply_return me hs h
    exact .inr ⟨fun h => absurd hname h, hcalm.fs⟩
  · simp only [handlePASS, if_neg hname, exec_bind, s.checkPassword_exec env me w password] at h
    cases hu : s.verifiedUser env w password with
    | none =>
      simp only [hu] at h
      rw [finishLogin_false] at h
      obtain ⟨_, hcalm, _⟩ := reply_return me hs h
      exact .inr ⟨fun _ h => by simp at h, hcalm.fs⟩
    | some u =>
      simp only [hu] at h
      obtain ⟨r, hr, hroom⟩ :=
        { s with current_user_ := some u }.sessionLimit_exec env me { w with time := s.passTime env w password }
      simp only [finishLogin, exec_bind, hr] at h
      cases r with
      | some refusal =>
        obtain ⟨_, hcalm, _⟩ := reply_return me hs h
        refine .inr ⟨fun _ h => ?_, hcalm.fs⟩
        cases hroom.2 h.2
      | none =>
        obtain ⟨dir, v, hdir, h⟩ := exec_bind_ok (World.machine me) h
        obtain ⟨registered, v', hregister, h⟩ := exec_bind_ok (World.machine me) h
        obtain ⟨rfl, hcalm, _⟩ := reply_return me hs h
        have hentered := loginDirectory_exec hdir
        rw [register_exec] at hregister
        have hfs : v'.fs = v.fs := by
          cases hregister
          split <;> rfl
        refine .inl ⟨u, rfl, hroom.1 rfl, hname, ?_⟩
        rw [hcalm.fs, hfs]
        exact hentered

variable (env s) in
def Selects (hostname : Str) (s' : Session) : Prop := s' = s ∨
  ∃ hosts ∈ env.virtual_host_manager_, ∃ host ∈ hosts.getVirtualHost hostname, host.enabled_ = true ∧
    s' = { s with current_virtual_host_ := some host }

lemma handleHOST_selects (hostname : Str) :
    (s.handleHOST env hostname).Within (Kinds [.reply]) (Selects env s hostname) := by
  have hrefused (code : ℕ) (text : Str) :
      (s.reply code text >>= fun _ => pure s).Within (Kinds [.reply]) (Selects env s hostname) :=
    within_bind.2 ((reply_within (by simp) _ _).2 ((within_pure _).2 (.inl rfl)))
  unfold handleHOST
  refine within_ite.2 ⟨fun _ => hrefused _ _, fun _ => ?_⟩
  cases hhosts : env.virtual_host_manager_ with
  | none => exact hrefused _ _
  | some hosts =>
    dsimp only
    cases hhost : hosts.getVirtualHost hostname with
    | none => exact hrefused _ _
    | some host =>
      refine within_ite.2 ⟨fun _ => hrefused _ _, fun henabled => ?_⟩
      refine within_bind.2 ((reply_within (by simp) _ _).2 ?_)
      exact (within_pure _).2 (.inr ⟨hosts, hhosts, host, hhost, by simpa using henabled, rfl⟩)

lemma handleCWD_judged (path : Str) : Meets (onFiles fun _ _ => True) (s.handleCWD path)
    (fun dir _ => dir = s.current_directory_ ∨ s.validatePath fs dir = true) (.named fs) := by
  unfold handleCWD
  simp
  exact fun hvalid _ _ _ => .inr hvalid

lemma handleCDUP_judged : Meets (onFiles fun _ _ => True) s.handleCDUP
    (fun dir _ => dir = s.current_directory_ ∨ s.validatePath fs dir = true) (.named fs) := by
  unfold handleCDUP
  simp
  exact fun hvalid _ => .inr hvalid

lemma after_judged (hv : a.command.verb = .cwd ∨ a.command.verb = .cdup) (h : s.after env me a = some s') :
    s'.current_directory_ = s.current_directory_ ∨ s.validatePath a.world.fs s'.current_directory_ = true := by
  have hhandle : Meets (onFiles fun _ _ => True) (s.handle env a.command) (fun s' _ =>
      s'.current_directory_ = s.current_directory_ ∨ s.validatePath a.world.fs s'.current_directory_ = true)
      (.named a.world.fs) := by
    rcases hv with hv | hv
    · rw [Arrival.command_eq hv]
      exact meets_bind.2 ((handleCWD_judged _).mono fun _ _ h => (meets_pure _).2 h)
    · rw [Arrival.command_eq hv]
      exact meets_bind.2 (handleCDUP_judged.mono fun _ _ h => (meets_pure _).2 h)
  obtain ⟨w', he⟩ := exec_of_after h
  rcases dispatch_cases env s a.line with ⟨_, hd⟩ | ⟨hb, hauth, _⟩
  · rw [hd] at he
    exact (hhandle.leads (onFiles_describes me) (show Phase.Holds (.named a.world.fs) a.world from rfl)) s' w' he
  · obtain rfl := after_denied hb hauth h
    exact .inl rfl

lemma after_selects (hv : a.command.verb = .host) (h : s.after env me a = some s') :
    Selects env s a.command.argument s' := by
  obtain ⟨w', he⟩ := exec_of_after h
  rcases dispatch_cases env s a.line with ⟨_, hd⟩ | ⟨hb, _, _⟩
  · change s.dispatch env a.line = s.handle env a.command at hd
    rw [hd, Arrival.command_eq hv] at he
    exact (handleHOST_selects _).exec _ he
  · change a.command.verb.beforeLogin = false at hb
    rw [hv] at hb
    cases hb

end Session

lemma validatePath_congr {dir : Str} (hu : s'.current_user_ = s.current_user_)
    (hh : s'.current_virtual_host_ = s.current_virtual_host_) :
    s'.validatePath fs dir = s.validatePath fs dir := by
  unfold Session.validatePath Session.isPathWithinHome
  rw [hu, hh]

namespace Placed

variable {v v' : Placed}

lemma Sound.valid_now (hv : v.Sound) (hok : v.Steady env a) (hauth : v.session.authenticated_ = true) :
    v.session.validatePath a.world.fs v.session.current_directory_ = true :=
  (validatePath_landmarks hok.landmarks).trans (hv.valid hauth)

lemma sound_step (hv : v.Sound) (hok : v.Steady env a) (h : (placedSystem env me).next v a = some v') :
    v'.Sound := by
  obtain ⟨s', hs', rfl⟩ := Option.map_eq_some_iff.1 h
  have hframe := Session.after_frame hs'
  have hnow := hv.valid_now hok
  refine ⟨hframe.socket ▸ hv.connected, fun hauth => ?_⟩
  dsimp only at hauth ⊢
  by_cases hpass : a.command.verb = .pass
  · rw [if_pos hpass]
    obtain ⟨w', he⟩ := Session.exec_of_after hs'
    rw [he]
    rw [Session.dispatch_pass hpass] at he
    have hplaces := Session.handlePASS_places hv.connected he
    obtain ⟨_, hrun, _⟩ := Session.handlePASS_run env me v.session a.world a.command.argument hv.connected he
    generalize w'.tracker = tracker at hrun
    cases hrun with
    | unnamed hname =>
      rcases hplaces with ⟨_, _, _, hne, _⟩ | ⟨_, hfs⟩
      · exact absurd hname hne
      · exact hfs ▸ hnow hauth
    | refused u hname hu hno =>
      rcases hplaces with ⟨u', hu', hroom, _, _⟩ | ⟨_, hfs⟩
      · exact absurd ⟨by rw [hu']; rfl, hroom⟩ hno
      · rw [hfs, hu]
        exact validatePath_iff.2 ⟨(hok.pass hpass hname).refused hauth hno, (validatePath_iff.1 (hnow hauth)).2⟩
    | accepted u dir hname hu hroom =>
      rcases hplaces with ⟨u', hu', _, _, hentered⟩ | ⟨hno, _⟩
      · obtain rfl : u = u' := Option.some.inj (hu.symm.trans hu')
        have hvalid := (hok.pass hpass hname).accepted u hu hroom
        rw [← hentered] at hvalid
        exact hvalid
      · exact absurd ⟨by rw [hu]; rfl, hroom⟩ (hno hname)
  · rw [if_neg hpass]
    have huser := hframe.user hpass
    by_cases hhost : a.command.verb = .host
    · rcases Session.after_selects hhost hs' with rfl | ⟨hosts, hhosts, host, hfound, henabled, rfl⟩
      · exact hnow hauth
      · refine validatePath_iff.2 ⟨(validatePath_iff.1 (hnow hauth)).1, ?_⟩
        simpa using hok.host hhost hauth hosts hhosts host hfound henabled
    · rw [validatePath_congr huser (hframe.host hhost)]
      have hold : v.session.authenticated_ = true := (Session.login_kept hpass hs').authenticated hauth
      by_cases hmoves : a.command.verb = .cwd ∨ a.command.verb = .cdup
      · rcases Session.after_judged hmoves hs' with hsame | hvalid
        · rw [hsame]
          exact hnow hold
        · exact hvalid
      · rw [hframe.directory (by simpa [hpass] using hmoves)]
        exact hnow hold

lemma sound_of_reach (h : (placedSystem env me).Reach (Steady env) v) : v.Sound := by
  refine h.invariant ?_ fun _ _ _ hv hok hn => sound_step hv hok hn
  rintro v ⟨fd, context, ssl, hs⟩
  exact ⟨by simp [hs, Session.opened], by simp [hs, Session.opened]⟩

end Placed

variable (env me)

theorem current_directory_is_valid {v : Placed} (h : (placedSystem env me).Reach (Placed.Steady env) v)
    (hauth : v.session.authenticated_ = true) :
    v.session.validatePath v.seen v.session.current_directory_ = true ∧ ∀ a : Arrival, v.Steady env a →
      v.session.validatePath a.world.fs v.session.current_directory_ = true :=
  ⟨(Placed.sound_of_reach h).valid hauth, fun _ hok => (Placed.sound_of_reach h).valid_now hok hauth⟩

namespace Placed

instance (fs : FileSystem) (home dir : Str) : Decidable (LiesIn fs home dir) :=
  inferInstanceAs (Decidable (_ = true))

instance (host : FTPVirtualHost) (fs : FileSystem) (dir : Str) : Decidable (host.Holds fs dir) :=
  inferInstanceAs (Decidable (host.root_directory_ ≠ [] → LiesIn fs host.root_directory_ dir))

instance (s : Session) (w : World) (password : Str) : Decidable (s.PassPlaces env w password) :=
  decidable_of_iff ((∀ u ∈ s.verifiedUser env w password, s.hasRoom env w = true →
    ∀ host ∈ s.current_virtual_host_,
      host.Holds (env.entered w (s.passTime env w password) u).1 (env.entered w (s.passTime env w password) u).2) ∧
    (∀ u ∈ s.verifiedUser env w password, s.hasRoom env w = true →
      ∀ l ∈ env.confinement w (s.passTime env w password), LiesIn { w.fs with root := l } u.home_directory_
        (Session.chrootRelative env.config_.security.chroot_directory u.home_directory_)) ∧
    (s.authenticated_ = true → ¬((s.verifiedUser env w password).isSome ∧ s.hasRoom env w = true) →
      ∃ u ∈ (s.verifiedUser env w password).or (s.storedUser env),
        LiesIn w.fs u.home_directory_ s.current_directory_))
    ⟨fun h => ⟨h.1, h.2.1, h.2.2⟩, fun h => ⟨h.root, h.chroot, h.refused⟩⟩

instance (s : Session) (fs : FileSystem) (hostname : Str) : Decidable (s.HostPlaces env fs hostname) := by
  unfold Session.HostPlaces
  infer_instance

instance (v : Placed) (a : Arrival) : Decidable (v.Steady env a) :=
  decidable_of_iff
    ((∀ p ∈ v.session.landmarks, normalizeForComparison a.world.fs p = normalizeForComparison v.seen p) ∧
    (a.command.verb = .pass → v.session.username_ ≠ [] → v.session.PassPlaces env a.world a.command.argument) ∧
    (a.command.verb = .host → v.session.HostPlaces env a.world.fs a.command.argument))
    ⟨fun h => ⟨h.1, h.2.1, h.2.2⟩, fun h => ⟨h.landmarks, h.pass, h.host⟩⟩

def sampleTree : FileSystem :=
  ⟨[(["home"], .directory), (["home", "u"], .directory), (["home", "u", "d"], .directory),
    (["srv"], .directory)], [],
    fun _ _ _ => none, []⟩

def sampleService : Service := .standard [⟨"u", "p", "/home/u", [], [], false, 0, 0⟩]
  [{ hostname_ := "h", root_directory_ := "/srv" }]

def sampleLines (lines : List String) : List Arrival := lines.map fun line => ⟨.favourable sampleTree, ascii line⟩

end Placed

theorem current_directory_is_valid_deeper : ∃ v : Placed, v.session.current_directory_ = ascii "/home/u/d" ∧
    v.session.validatePath v.seen v.session.current_directory_ = true := by
  obtain ⟨v, hv, he⟩ := Option.map_eq_some_iff.1 (show
    ((placedSystem Placed.sampleService 0).run (Placed.Steady Placed.sampleService)
      ⟨.opened 3 false false, Placed.sampleTree⟩ (Placed.sampleLines ["USER u", "PASS p", "CWD d"])).map
      (fun v => (v.session.authenticated_, v.session.current_directory_)) = some (true, ascii "/home/u/d") by
        decide +kernel)
  simp only [Prod.mk.injEq] at he
  exact ⟨v, he.2, (current_directory_is_valid Placed.sampleService 0 (.run (.init ⟨_, _, _, rfl⟩) hv) he.1).1⟩

theorem current_directory_is_not_valid : ∃ v : Placed,
    (placedSystem Placed.sampleService 0).Reach System.anyStep v ∧ v.session.authenticated_ = true ∧
      v.session.validatePath v.seen v.session.current_directory_ = false := by
  obtain ⟨v, hv, he⟩ := Option.map_eq_some_iff.1 (show
    ((placedSystem Placed.sampleService 0).run System.anyStep ⟨.opened 3 false false, Placed.sampleTree⟩
      (Placed.sampleLines ["USER u", "PASS p", "HOST h"])).map (fun v => (v.session.authenticated_,
        v.session.validatePath v.seen v.session.current_directory_)) = some (true, false) by decide +kernel)
  simp only [Prod.mk.injEq] at he
  exact ⟨v, .run (.init ⟨_, _, _, rfl⟩) hv, he⟩

end SimpleSftpd
