import SimpleSftpd.Sessions.Counts

/-! Logins of connections that share one tracker, call by call: the counts a login asks for and its
registration are steps of their own. -/

namespace SimpleSftpd

open Cxx Interaction Prog

inductive Verdict
  | refused (code : ℕ) (text : Str) (s : Session)
  | accepted (u : FTPUser) (s : Session)

variable (env : Service)

namespace Session

variable (s : Session)

def judge (password : Str) : Io Verdict :=
  if s.username_ = [] then pure (.refused 503 "Login with USER first" s)
  else do
    let (user, login_success) ← s.checkPassword env password
    let s := { s with current_user_ := user }
    match s.current_user_, login_success with
    | some u, true => do
      match ← s.sessionLimit env with
      | some refusal => return .refused 530 refusal s
      | none => return .accepted u s
    | _, _ => return .refused 530 "Login incorrect" s

def conclude : Verdict → Io Session
  | .refused code text s => do
    s.reply code text
    return s
  | .accepted u s => s.logIn env u

def judged : Verdict → Session
  | .refused _ _ s => s
  | .accepted _ s => { s with authenticated_ := true }

lemma handlePASS_eq (password : Str) :
    s.handlePASS env password = s.judge env password >>= conclude env := by
  unfold handlePASS judge
  split
  · rfl
  · rw [bind_assoc]
    refine congrArg _ (funext fun ⟨user, login_success⟩ => ?_)
    unfold finishLogin
    cases user with
    | none => rfl
    | some u =>
      cases login_success with
      | false => rfl
      | true =>
        simp only [bind_assoc]
        refine congrArg _ (funext fun r => ?_)
        cases r <;> rfl

def perHost : Int := match s.current_virtual_host_ with
  | some h => h.max_sessions_
  | none => 0

end Session

structure Permit where
  user : Bool := false
  host : Bool := false
  registered : Bool := false

def Verdict.leaves (g : Permit) : Verdict → Permit
  | .refused _ _ _ => {}
  | .accepted _ _ => g

def Permit.next (g : Permit) (perUser perHost : Int) {β : Type} (o : Call β) : β → Permit := match o with
  | .getCountForUser _ => fun n => { g with user := (n : Int) < perUser }
  | .getCountForHost _ => fun n => { g with host := (n : Int) < perHost }
  | .registerSession _ _ => fun _ => ⟨false, false, true⟩
  | _ => fun _ => g

namespace Session

variable (s : Session)

def judging : Contract Call Permit where
  pre g o := match o with
    | .getCountForUser u => u = s.username_ ∧ u ≠ [] ∧ g.user = false
    | .getCountForHost h => h = s.hostname ∧ s.username_ ≠ [] ∧ g.host = false
    | .registerSession _ _ | .unregisterSession _ _ => False
    | _ => True
  post _ _ _ := True
  next g o r := g.next env.config_.security.max_sessions_per_user s.perHost o r

def concluding : Contract Call Permit where
  pre g o := match o with
    | .registerSession u h =>
      s.authenticated_ = true ∧ u = s.username_ ∧ u ≠ [] ∧ h = s.hostname ∧ g.registered = false
    | .getCountForUser _ | .getCountForHost _ | .unregisterSession _ _ => False
    | _ => True
  post _ _ _ := True
  next g o r := g.next env.config_.security.max_sessions_per_user s.perHost o r

def Judged (g : Permit) : Verdict → Prop
  | .refused _ _ s' => ∃ u, s' = { s with current_user_ := u }
  | .accepted _ s' => (∃ u, s' = { s with current_user_ := u }) ∧ s.username_ ≠ [] ∧ g.registered = false ∧
    (0 < env.config_.security.max_sessions_per_user → g.user = true) ∧ (0 < s.perHost → g.host = true)

structure Concluded (s' : Session) (g : Permit) : Prop where
  socket : s'.socket_ = s.socket_
  username : s'.username_ = s.username_
  host : s'.current_virtual_host_ = s.current_virtual_host_
  authenticated : s'.authenticated_ = s.authenticated_
  registered : s'.session_registered_ = s.authenticated_
  permit : g = ⟨false, false, s.authenticated_⟩

variable {env s} {g : Permit} {α β : Type}

lemma next_quiet {perUser perHost : Int} {o : Call β} (ho : o.kind ≠ .census) (hr : o.kind ≠ .register) (r : β) :
    g.next perUser perHost o r = g := by
  cases o with
  | getCountForUser | getCountForHost => exact absurd rfl ho
  | registerSession | unregisterSession => exact absurd rfl hr
  | _ => rfl

lemma judging_quiet {p : Io α} {ks : List Kind} {P : α → Prop} {P' : α → Permit → Prop} (h : p.Within (Kinds ks) P)
    (hk : .census ∉ ks ∧ .register ∉ ks) (hP : ∀ a, P a → P' a g) : Meets (s.judging env) p P' g := by
  refine h.meets (fun o ho => ?_) hP
  have hcensus : o.kind ≠ .census := fun he => hk.1 (he ▸ ho)
  have hregister : o.kind ≠ .register := fun he => hk.2 (he ▸ ho)
  refine ⟨?_, fun r => next_quiet hcensus hregister r⟩
  cases o with
  | getCountForUser | getCountForHost => exact absurd rfl hcensus
  | registerSession | unregisterSession => exact absurd rfl hregister
  | _ => trivial

lemma concluding_quiet {p : Io α} {ks : List Kind} {P : α → Prop} {P' : α → Permit → Prop}
    (h : p.Within (Kinds ks) P)
    (hk : .census ∉ ks ∧ .register ∉ ks) (hP : ∀ a, P a → P' a g) : Meets (s.concluding env) p P' g := by
  refine h.meets (fun o ho => ?_) hP
  have hcensus : o.kind ≠ .census := fun he => hk.1 (he ▸ ho)
  have hregister : o.kind ≠ .register := fun he => hk.2 (he ▸ ho)
  refine ⟨?_, fun r => next_quiet hcensus hregister r⟩
  cases o with
  | getCountForUser | getCountForHost => exact absurd rfl hcensus
  | registerSession | unregisterSession => exact absurd rfl hregister
  | _ => trivial

lemma sessionLimit_judging (ht : env.session_tracker_ = true) (hname : s.username_ ≠ []) :
    Meets (s.judging env) (s.sessionLimit env)
    (fun r g => r = none → g.registered = false ∧
      (0 < env.config_.security.max_sessions_per_user → g.user = true) ∧ (0 < s.perHost → g.host = true)) {} := by
  unfold sessionLimit
  rw [if_pos ht]
  let perUser := env.config_.security.max_sessions_per_user
  have hcount : Meets (s.judging env) (if perUser > 0 then perform (.getCountForUser s.username_) else
    pure 0 : Io ℕ)
      (fun users g => g.host = false ∧ g.registered = false ∧
        (¬(perUser > 0 ∧ perUser ≤ users) → 0 < perUser → g.user = true)) {} := by
    refine meets_ite.2 ⟨fun _ => (meets_perform _).2 ⟨⟨rfl, hname, rfl⟩,
      fun n _ => ⟨rfl, rfl, fun hroom hmax => ?_⟩⟩, fun hmax => ?_⟩
    · have hlt : (n : Int) < perUser := by
        by_contra hle
        exact hroom ⟨hmax, not_lt.1 hle⟩
      exact decide_eq_true hlt
    · exact (meets_pure _).2 ⟨rfl, rfl, fun _ h => absurd h hmax⟩
  refine meets_bind.2 (hcount.mono fun users g h => ?_)
  obtain ⟨hhost, hregistered, huser⟩ := h
  refine meets_ite.2 ⟨fun _ => (meets_pure _).2 (by simp), fun hroom => ?_⟩
  have hadmitted := huser hroom
  cases hh : s.current_virtual_host_ with
  | none => exact (meets_pure _).2 fun _ => ⟨hregistered, hadmitted, by simp [perHost, hh]⟩
  | some h =>
    have hperHost : s.perHost = h.max_sessions_ := by simp [perHost, hh]
    refine meets_bind.2 (meets_ite.2 ⟨fun _ => (meets_perform _).2 ⟨⟨rfl, hname, hhost⟩, fun n _ => ?_⟩,
      fun hmax => ?_⟩)
    · refine meets_ite.2 ⟨fun _ => (meets_pure _).2 (by simp), fun hroom' => ?_⟩
      refine (meets_pure _).2 fun _ => ?_
      refine ⟨hregistered, hadmitted, fun hmax => ?_⟩
      have hlt : (n : Int) < s.perHost := by
        rw [hperHost] at hmax ⊢
        by_contra hle
        exact hroom' ⟨hmax, not_lt.1 hle⟩
      exact decide_eq_true hlt
    · refine (meets_pure _).2 (meets_ite.2 ⟨fun h => absurd h.1 hmax, fun _ => ?_⟩)
      refine (meets_pure _).2 fun _ => ?_
      exact ⟨hregistered, hadmitted, fun h => absurd (hperHost ▸ h) hmax⟩

lemma judge_judging (ht : env.session_tracker_ = true) (password : Str) :
    Meets (s.judging env) (s.judge env password) (fun v g => s.Judged env g v) {} := by
  unfold judge
  refine meets_ite.2 ⟨fun _ => (meets_pure _).2 ⟨_, rfl⟩, fun hname => meets_bind.2 ?_⟩
  refine judging_quiet (checkPassword_within (List.Subset.refl _) password) (by simp) ?_
  rintro ⟨_ | u, _ | _⟩ -
  · exact (meets_pure _).2 ⟨_, rfl⟩
  · exact (meets_pure _).2 ⟨_, rfl⟩
  · exact (meets_pure _).2 ⟨_, rfl⟩
  · refine meets_bind.2 ((sessionLimit_judging (s := { s with current_user_ := some u }) ht hname).mono
      fun r g h => ?_)
    cases r with
    | some refusal => exact (meets_pure _).2 ⟨_, rfl⟩
    | none =>
      obtain ⟨hregistered, huser, hhost⟩ := h rfl
      exact (meets_pure _).2 ⟨⟨_, rfl⟩, hname, hregistered, huser, hhost⟩

lemma logIn_concluding (ht : env.session_tracker_ = true) (hname : s.username_ ≠ []) (u : FTPUser)
    (hg : g.registered = false) :
    Meets ({ s with authenticated_ := true }.concluding env) (s.logIn env u)
      ({ s with authenticated_ := true }.Concluded) g := by
  have hdir : (loginDirectory env u).Within (Kinds [.query, .chroot]) fun _ => True := by
    rw [loginDirectory_eq]
    exact applyChroot_within (List.Subset.refl _) _
  refine meets_bind.2 (concluding_quiet hdir (by simp) fun directory _ => meets_bind.2 ?_)
  unfold register
  rw [if_pos ht]
  refine meets_bind.2 ((meets_perform _).2 ⟨⟨rfl, rfl, hname, rfl, hg⟩, fun _ _ => ?_⟩)
  refine (meets_pure _).2 (meets_bind.2 ?_)
  have hreply : (s.reply 230 "User logged in, proceed").Within (Kinds [.reply]) fun _ => True := by simp
  exact concluding_quiet hreply (by simp) fun _ _ => (meets_pure _).2 ⟨rfl, rfl, rfl, rfl, rfl, rfl⟩

lemma conclude_concluding (ht : env.session_tracker_ = true) {v : Verdict} (hauth : s.authenticated_ = false)
    (hreg : s.session_registered_ = false) (hv : s.Judged env g v) :
    Meets ((judged v).concluding env) (conclude env v) (judged v).Concluded (v.leaves g) := by
  cases v with
  | refused code text s' =>
    obtain ⟨u, rfl⟩ := hv
    have hreply : ({ s with current_user_ := u }.reply code text).Within (Kinds [.reply]) fun _ => True := by simp
    refine meets_bind.2 (concluding_quiet hreply (by simp) fun _ _ => (meets_pure _).2 ?_)
    exact ⟨rfl, rfl, rfl, rfl, hreg.trans hauth.symm, by simp [judged, hauth, Verdict.leaves]⟩
  | accepted u s' =>
    obtain ⟨⟨w, rfl⟩, hname, hregistered, _⟩ := hv
    exact logIn_concluding (s := { s with current_user_ := w }) ht hname u hregistered

end Session

inductive Stage : Type 1
  | idle
  | checking (p : Io Verdict)
  | concluding (p : Io Session)

structure Caller where
  session : Session
  stage : Stage := .idle
  stopped : Bool := false
  permit : Permit := {}

structure Lobby where
  tracker : SessionTracker
  count : ℕ
  caller : ℕ → Caller

inductive LobbyStep
  | accept (fd : Fd) (context ssl : Bool)
  | command (i : ℕ) (arrival : Arrival)
  | pass (i : ℕ) (password : Str)
  | call (i : ℕ) (world : World)
  | stop (i : ℕ) (world : World)

def Caller.betweenCommands (c : Caller) : Bool := !c.stopped && match c.stage with
  | .idle => true
  | _ => false

namespace Lobby

variable (t : Lobby)

def set (i : ℕ) (c : Caller) (tracker : SessionTracker) : Lobby :=
  { t with tracker := tracker, caller := Function.update t.caller i c }

def share (w : World) : World := { w with tracker := t.tracker }

def afterCommand (i : ℕ) (a : Arrival) : Option Lobby :=
  match ((t.caller i).session.dispatch env a.line).exec (World.machine i) (t.share a.world) with
  | (.ok s', w') => some (t.set i { t.caller i with session := s' } w'.tracker)
  | (.error _, _) => none

def afterCall (i : ℕ) (w : World) : Option Lobby :=
  let c := t.caller i
  let perUser := env.config_.security.max_sessions_per_user
  match c.stage with
  | .checking (.call o k) =>
    let r := World.machine i (t.share w) o
    some (t.set i
      { c with stage := .checking (k r.1), permit := c.permit.next perUser c.session.perHost o r.1 } r.2.tracker)
  | .checking (.ret v) => some (t.set i
      { c with
        session := Session.judged v, stage := .concluding (Session.conclude env v), permit := v.leaves c.permit }
      t.tracker)
  | .concluding (.call o k) =>
    let r := World.machine i (t.share w) o
    some (t.set i
      { c with stage := .concluding (k r.1), permit := c.permit.next perUser c.session.perHost o r.1 } r.2.tracker)
  | .concluding (.ret s') => some (t.set i { c with session := s', stage := .idle } t.tracker)
  | _ => none

def afterStop (i : ℕ) (w : World) : Option Lobby :=
  match ((t.caller i).session.stop env).exec (World.machine i) (t.share w) with
  | (.ok s', w') => some (t.set i { t.caller i with session := s', stopped := true, permit := {} } w'.tracker)
  | (.error _, _) => none

end Lobby

/-- Each connection logs in once and changes neither user nor host afterwards. All commands but PASS
are one step; the steps of PASS are its calls. -/
def lobbySystem : System Lobby LobbyStep where
  init t := t.tracker = .empty ∧ t.count = 0
  next t
    | .accept fd context ssl => some
        { t with
          count := t.count + 1
          caller := Function.update t.caller t.count { session := .opened fd context ssl } }
    | .command i a =>
      if i < t.count ∧ (t.caller i).betweenCommands ∧ a.command.verb ≠ .pass ∧
          ((t.caller i).session.authenticated_ = true → a.command.verb ≠ .user ∧ a.command.verb ≠ .host) then
        t.afterCommand env i a
      else none
    | .pass i password =>
      if i < t.count ∧ (t.caller i).betweenCommands ∧ (t.caller i).session.authenticated_ = false then
        some (t.set i { t.caller i with stage := .checking ((t.caller i).session.judge env password) } t.tracker)
      else none
    | .call i w => if i < t.count then t.afterCall env i w else none
    | .stop i w => if i < t.count ∧ (t.caller i).betweenCommands then t.afterStop env i w else none

namespace Lobby

variable (t : Lobby)

def sessionsOf (u : Str) : Finset ℕ :=
  (Finset.range t.count).filter fun i =>
    (t.caller i).stopped = false ∧ (t.caller i).session.authenticated_ = true ∧ (t.caller i).session.username_ = u

def sessionsAt (h : Str) : Finset ℕ :=
  (Finset.range t.count).filter fun i =>
    (t.caller i).stopped = false ∧ (t.caller i).session.authenticated_ = true ∧
      (t.caller i).session.current_virtual_host_.map (·.hostname_) = some h

def waitingFor (u : Str) : Finset ℕ :=
  (Finset.range t.count).filter fun i => (t.caller i).permit.user = true ∧ (t.caller i).session.username_ = u

def waitingAt (h : Str) : Finset ℕ :=
  (Finset.range t.count).filter fun i =>
    (t.caller i).permit.host = true ∧ (t.caller i).session.current_virtual_host_.map (·.hostname_) = some h

def CountsWaiting : LobbyStep → Prop
  | .call i _ => match (t.caller i).stage with
    | .checking (.call (.getCountForUser u) _) =>
      let perUser := env.config_.security.max_sessions_per_user
      (t.tracker.getCountForUser u : Int) < perUser →
        ((t.tracker.getCountForUser u + (t.waitingFor u).card : ℕ) : Int) < perUser
    | .checking (.call (.getCountForHost h) _) =>
      let perHost := (t.caller i).session.perHost
      (t.tracker.getCountForHost h : Int) < perHost →
        ((t.tracker.getCountForHost h + (t.waitingAt h).card : ℕ) : Int) < perHost
    | _ => True
  | _ => True

end Lobby

namespace Session

def Hosted (s : Session) : Prop := ∀ h, s.current_virtual_host_ = some h → h.hostname_ ≠ [] ∧
  ∃ hosts, env.virtual_host_manager_ = some hosts ∧ hosts.getVirtualHost h.hostname_ = some h

variable {env} {me : SessionId} {s s' : Session} {a : Arrival}

lemma handleHOST_hosted (hs : s.Hosted env) (name : Str) :
    (s.handleHOST env name).Within (Kinds [.reply]) fun s' => s'.Hosted env := by
  have hrefused (code : ℕ) (text : Str) :
      (s.reply code text >>= fun _ => pure s).Within (Kinds [.reply]) fun s' => s'.Hosted env :=
    within_bind.2 ((reply_within (by simp) _ _).2 ((within_pure _).2 hs))
  refine within_ite.2 ⟨fun _ => hrefused _ _, fun hname => ?_⟩
  cases hm : env.virtual_host_manager_ with
  | none => exact hrefused _ _
  | some hosts =>
    cases hv : hosts.getVirtualHost name with
    | none => simpa only [hv] using hrefused _ _
    | some host =>
      simp only [hv]
      refine within_ite.2 ⟨fun _ => hrefused _ _, fun _ => ?_⟩
      refine within_bind.2 ((reply_within (by simp) _ _).2 ((within_pure _).2 fun h hh => ?_))
      obtain rfl : host = h := Option.some_inj.1 hh
      have hhost : host.hostname_ = name := VirtualHosts.getVirtualHost_hostname hv
      exact ⟨hhost ▸ hname, hosts, hm, hhost ▸ hv⟩

lemma hosted_after (hs : s.Hosted env) (h : s.after env me a = some s') :
    s'.Hosted env := by
  by_cases hhost : a.command.verb = .host
  · obtain ⟨w', he⟩ := exec_of_after h
    rcases dispatch_cases env s a.line with ⟨_, hd⟩ | ⟨hb, _⟩
    · rw [hd, show Command.parse a.line = ⟨.host, a.command.argument⟩ from Arrival.command_eq hhost] at he
      exact (handleHOST_hosted hs a.command.argument).exec _ he
    · exact absurd (hb.symm.trans (congrArg Verb.beforeLogin hhost)) (by decide)
  · intro h' hh'
    exact hs h' ((after_frame h).host hhost ▸ hh')

end Session

namespace Caller

variable (c : Caller)

def hostname? : Option Str := c.session.current_virtual_host_.map (·.hostname_)

def account : Option Str := if c.permit.registered then some c.session.username_ else none

def place : Option Str := if c.permit.registered then c.hostname? else none

def userClaim : Option Str := if c.permit.registered || c.permit.user then some c.session.username_ else none

def hostClaim : Option Str := if c.permit.registered || c.permit.host then c.hostname? else none

def Admitted : Prop := c.permit.registered = true ∨
  (0 < env.config_.security.max_sessions_per_user → c.permit.user = true) ∧
    (0 < c.session.perHost → c.permit.host = true)

def Proceeds : Stage → Prop
  | .idle => c.permit = ⟨false, false, c.session.authenticated_ && !c.stopped⟩ ∧
    c.session.session_registered_ = c.permit.registered
  | .checking p => c.stopped = false ∧ c.session.authenticated_ = false ∧ c.session.session_registered_ = false ∧
    c.permit.registered = false ∧ Meets (c.session.judging env) p (fun v g => c.session.Judged env g v) c.permit
  | .concluding p => c.stopped = false ∧ Meets (c.session.concluding env) p c.session.Concluded c.permit

structure Sound : Prop where
  connected : c.stopped = false → c.session.socket_ ≠ none
  hosted : c.session.Hosted env
  named : c.permit.registered = true ∨ c.permit.user = true ∨ c.permit.host = true → c.session.username_ ≠ []
  login : c.stopped = false → c.session.authenticated_ = true → c.Admitted env
  proceeds : c.Proceeds env c.stage

variable {env c}

lemma Sound.account_ne (h : c.Sound env) : c.account ≠ some [] := by
  unfold account
  split
  · rename_i hr
    exact fun he => h.named (.inl hr) (Option.some_inj.1 he)
  · exact Option.some_ne_none _ |>.symm

lemma Sound.place_ne (h : c.Sound env) : c.place ≠ some [] := by
  unfold place hostname?
  split
  · cases hh : c.session.current_virtual_host_ with
    | none => exact Option.some_ne_none _ |>.symm
    | some host => exact fun he => (h.hosted host hh).1 (Option.some_inj.1 he)
  · exact Option.some_ne_none _ |>.symm

end Caller

structure Lobby.Sound (t : Lobby) : Prop where
  caller : ∀ i < t.count, (t.caller i).Sound env
  users : t.tracker.count_by_user_.Tracks t.count fun i => (t.caller i).account
  hosts : t.tracker.count_by_host_.Tracks t.count fun i => (t.caller i).place
  userRoom : 0 < env.config_.security.max_sessions_per_user → ∀ u,
    (tally t.count (fun i => (t.caller i).userClaim) u : Int) ≤ env.config_.security.max_sessions_per_user
  hostRoom : ∀ hosts name h, env.virtual_host_manager_ = some hosts → hosts.getVirtualHost name = some h →
    0 < h.max_sessions_ → (tally t.count (fun i => (t.caller i).hostClaim) name : Int) ≤ h.max_sessions_

namespace Lobby

variable {env} {t t' : Lobby} {i : ℕ} {c : Caller} {tracker : SessionTracker}

lemma label_update (f : Caller → Option Str) :
    (fun j => f (Function.update t.caller i c j)) = Function.update (fun j => f (t.caller j)) i (f c) := by
  funext j
  by_cases hj : j = i
  · subst hj
    rw [Function.update_self, Function.update_self]
  · rw [Function.update_of_ne hj, Function.update_of_ne hj]

lemma Sound.set (h : t.Sound env) (hi : i < t.count) (hc : c.Sound env)
    (hu : tracker.count_by_user_.Tracks t.count (Function.update (fun j => (t.caller j).account) i c.account))
    (hh : tracker.count_by_host_.Tracks t.count (Function.update (fun j => (t.caller j).place) i c.place))
    (hur : 0 < env.config_.security.max_sessions_per_user → ∀ u, c.userClaim = some u →
      (t.caller i).userClaim ≠ some u →
      (tally t.count (fun j => (t.caller j).userClaim) u : Int) < env.config_.security.max_sessions_per_user)
    (hhr : ∀ hosts name h, env.virtual_host_manager_ = some hosts → hosts.getVirtualHost name = some h →
      0 < h.max_sessions_ → c.hostClaim = some name → (t.caller i).hostClaim ≠ some name →
        (tally t.count (fun j => (t.caller j).hostClaim) name : Int) < h.max_sessions_) :
    (t.set i c tracker).Sound env := by
  refine ⟨fun j hj => ?_, ?_, ?_, fun hmax u => ?_, fun hosts name h' hm hl hmax => ?_⟩
  · by_cases hji : j = i
    · subst hji
      simpa [Lobby.set] using hc
    · simpa [Lobby.set, hji] using h.caller j hj
  · simpa only [Lobby.set, label_update Caller.account] using hu
  · simpa only [Lobby.set, label_update Caller.place] using hh
  · simp only [Lobby.set, label_update Caller.userClaim]
    exact tally_update_le hi (h.userRoom hmax u) (hur hmax u)
  · simp only [Lobby.set, label_update Caller.hostClaim]
    exact tally_update_le hi (h.hostRoom hosts name h' hm hl hmax) (hhr hosts name h' hm hl hmax)

lemma Sound.set_claim (h : t.Sound env) (hi : i < t.count) (hc : c.Sound env)
    (hu : c.account = (t.caller i).account)
    (hp : c.place = (t.caller i).place)
    (hur : 0 < env.config_.security.max_sessions_per_user → ∀ u, c.userClaim = some u →
      (t.caller i).userClaim ≠ some u →
      (tally t.count (fun j => (t.caller j).userClaim) u : Int) < env.config_.security.max_sessions_per_user)
    (hhr : ∀ hosts name h, env.virtual_host_manager_ = some hosts → hosts.getVirtualHost name = some h →
      0 < h.max_sessions_ → c.hostClaim = some name → (t.caller i).hostClaim ≠ some name →
        (tally t.count (fun j => (t.caller j).hostClaim) name : Int) < h.max_sessions_) :
    (t.set i c t.tracker).Sound env := by
  refine h.set hi hc ?_ ?_ hur hhr
  · rw [hu, Function.update_eq_self]
    exact h.users
  · rw [hp, Function.update_eq_self]
    exact h.hosts

lemma Sound.set_same (h : t.Sound env) (hi : i < t.count) (hc : c.Sound env)
    (hu : c.account = (t.caller i).account)
    (hp : c.place = (t.caller i).place) (hur : c.userClaim = none ∨ c.userClaim = (t.caller i).userClaim)
    (hhr : c.hostClaim = none ∨ c.hostClaim = (t.caller i).hostClaim) : (t.set i c t.tracker).Sound env := by
  have hno {x y : Option Str} {k : Str} (h : x = none ∨ x = y) (hx : x = some k) (hy : y ≠ some k) : False := by
    rcases h with h | h
    · cases h.symm.trans hx
    · exact hy (h.symm.trans hx)
  refine h.set_claim hi hc hu hp (fun _ _ hx hy => (hno hur hx hy).elim) fun _ _ _ _ _ _ hx hy => ?_
  exact (hno hhr hx hy).elim

lemma accept_sound {fd : Fd} {context ssl : Bool} (hs : t.Sound env) : Sound env
    { t with
      count := t.count + 1
      caller := Function.update t.caller t.count { session := .opened fd context ssl } } := by
  have htally (f : Caller → Option Str) (hf : f { session := .opened fd context ssl } = none) (k : Str) :
      tally (t.count + 1)
        (fun i => f (Function.update t.caller t.count { session := .opened fd context ssl } i)) k =
        tally t.count (fun i => f (t.caller i)) k := by
    rw [tally_succ, Function.update_self, hf, if_neg (Option.some_ne_none _).symm, Nat.add_zero]
    refine congrFun (tally_congr fun i hi => ?_) k
    rw [Function.update_of_ne (Nat.ne_of_lt hi)]
  refine ⟨fun i hi => ?_, fun k => ?_, fun k => ?_, fun hmax u => ?_, fun hosts name h hm hl hmax => ?_⟩
  · rcases Nat.lt_succ_iff_lt_or_eq.1 hi with hlt | rfl
    · simpa [Nat.ne_of_lt hlt] using hs.caller i hlt
    · simp only [Function.update_self]
      exact ⟨by simp [Session.opened], by simp [Session.opened, Session.Hosted], by simp, by simp [Session.opened],
        rfl, rfl⟩
  · rw [hs.users k, htally Caller.account rfl]
  · rw [hs.hosts k, htally Caller.place rfl]
  · rw [htally Caller.userClaim rfl]
    exact hs.userRoom hmax u
  · rw [htally Caller.hostClaim rfl]
    exact hs.hostRoom hosts name h hm hl hmax

lemma idle_of_betweenCommands {c : Caller} (h : c.betweenCommands = true) :
    c.stopped = false ∧ c.stage = .idle := by
  unfold Caller.betweenCommands at h
  rw [Bool.and_eq_true, Bool.not_eq_true'] at h
  cases hstage : c.stage with
  | idle => exact ⟨h.1, rfl⟩
  | checking | concluding => simp [hstage] at h

lemma Sound.proceeds_idle (hs : t.Sound env) (hi : i < t.count) (hb : (t.caller i).betweenCommands = true) :
    (t.caller i).permit = ⟨false, false, (t.caller i).session.authenticated_⟩ ∧
      (t.caller i).session.session_registered_ = (t.caller i).session.authenticated_ := by
  obtain ⟨hstop, hstage⟩ := idle_of_betweenCommands hb
  have hidle := (hs.caller i hi).proceeds
  rw [hstage, Caller.Proceeds, hstop, Bool.not_false, Bool.and_true] at hidle
  exact ⟨hidle.1, by rw [hidle.2, hidle.1]⟩

lemma command_sound {a : Arrival} (hs : t.Sound env) (hi : i < t.count) (hb : (t.caller i).betweenCommands = true)
    (hpass : a.command.verb ≠ .pass)
    (hlater : (t.caller i).session.authenticated_ = true → a.command.verb ≠ .user ∧ a.command.verb ≠ .host)
    (h : t.afterCommand env i a = some t') : t'.Sound env := by
  have hc := hs.caller i hi
  obtain ⟨hstop, hstage⟩ := idle_of_betweenCommands hb
  obtain ⟨hpermit, hreg⟩ := hs.proceeds_idle hi hb
  unfold afterCommand at h
  split at h
  · rename_i s' w' he
    cases h
    have hafter : (t.caller i).session.after env i ⟨t.share a.world, a.line⟩ = some s' := by
      rw [Session.after, he]
    have hk := Session.login_kept (a := ⟨t.share a.world, a.line⟩) hpass hafter
    have htracker : w'.tracker = t.tracker := Session.tracker_kept (a := ⟨t.share a.world, a.line⟩) hpass he
    have hauth : s'.authenticated_ = (t.caller i).session.authenticated_ := by
      by_cases hu : a.command.verb = .user
      · have hno : (t.caller i).session.authenticated_ = false := by
          by_contra hyes
          exact (hlater (Bool.eq_true_of_not_eq_false hyes)).1 hu
        rw [hno, Bool.eq_false_iff]
        exact fun ha => Bool.false_ne_true (hno.symm.trans (hk.authenticated ha))
      · exact (hk.login hu).1
    have hnames : (t.caller i).session.authenticated_ = true → s'.username_ = (t.caller i).session.username_ ∧
        s'.current_virtual_host_ = (t.caller i).session.current_virtual_host_ := by
      intro ha
      obtain ⟨hu, hh⟩ := hlater ha
      exact ⟨(hk.login hu).2, (Session.after_frame hafter).host hh⟩
    rw [htracker]
    have hsound : Caller.Sound env { t.caller i with session := s' } := by
      refine ⟨fun _ => hk.socket ▸ hc.connected hstop, Session.hosted_after hc.hosted hafter, fun hp => ?_,
        fun _ ha => ?_, ?_⟩
      · simp only [hpermit, Bool.false_eq_true, or_false] at hp
        rw [(hnames hp).1]
        exact hc.named (.inl (by rw [hpermit]; exact hp))
      · exact .inl (by rw [hpermit]; exact hauth ▸ ha)
      · change Caller.Proceeds env { t.caller i with session := s' } (t.caller i).stage
        rw [hstage, Caller.Proceeds]
        exact ⟨by rw [hpermit, hauth, hstop, Bool.not_false, Bool.and_true], by rw [hk.registered, hreg, hpermit]⟩
    cases ha : (t.caller i).session.authenticated_ with
    | false =>
      refine hs.set_same hi hsound ?_ ?_ (.inl ?_) (.inl ?_) <;>
        simp [Caller.account, Caller.place, Caller.userClaim, Caller.hostClaim, hpermit, ha]
    | true =>
      obtain ⟨hu, hh⟩ := hnames ha
      refine hs.set_same hi hsound ?_ ?_ (.inr ?_) (.inr ?_) <;>
        simp [Caller.account, Caller.place, Caller.userClaim, Caller.hostClaim, Caller.hostname?, hu, hh]
  · cases h

lemma pass_sound (ht : env.session_tracker_ = true) (hs : t.Sound env) (hi : i < t.count)
    (hb : (t.caller i).betweenCommands = true) (hauth : (t.caller i).session.authenticated_ = false)
    (password : Str) :
    (t.set i { t.caller i with stage := .checking ((t.caller i).session.judge env password) } t.tracker).Sound
      env := by
  have hc := hs.caller i hi
  obtain ⟨hstop, _⟩ := idle_of_betweenCommands hb
  obtain ⟨hpermit, hreg⟩ := hs.proceeds_idle hi hb
  rw [hauth] at hpermit hreg
  refine hs.set_same hi ⟨hc.connected, hc.hosted, hc.named, hc.login, hstop, hauth, hreg, ?_, ?_⟩ rfl rfl
    (.inr rfl) (.inr rfl)
  · rw [hpermit]
  · rw [hpermit]
    exact Session.judge_judging ht password

lemma stop_sound (ht : env.session_tracker_ = true) {w : World} (hs : t.Sound env) (hi : i < t.count)
    (hb : (t.caller i).betweenCommands = true) (h : t.afterStop env i w = some t') : t'.Sound env := by
  have hc := hs.caller i hi
  obtain ⟨hstop, hstage⟩ := idle_of_betweenCommands hb
  obtain ⟨hpermit, hreg⟩ := hs.proceeds_idle hi hb
  unfold afterStop at h
  split at h
  · rename_i s' w' he
    cases h
    obtain ⟨⟨d, ssl, rfl⟩, htracker⟩ := Session.stop_run ht he
    let s' : Session :=
      { (t.caller i).session with session_registered_ := false, ssl_ := ssl, data := d, socket_ := none }
    have hsound : Caller.Sound env { t.caller i with session := s', stopped := true, permit := {} } := by
      refine ⟨nofun, hc.hosted, by simp, nofun, ?_⟩
      change Caller.Proceeds env { t.caller i with session := s', stopped := true, permit :=
        {} } (t.caller i).stage
      rw [hstage, Caller.Proceeds]
      simp [s']
    rw [htracker, hreg]
    by_cases ha : (t.caller i).session.authenticated_ = true
    · have hu : (t.caller i).account.getD [] = (t.caller i).session.username_ := by
        simp [Caller.account, hpermit, ha]
      have hh : (t.caller i).place.getD [] = (t.caller i).session.hostname := by
        simp only [Caller.place, hpermit, ha, if_true, Caller.hostname?, Session.hostname]
        cases (t.caller i).session.current_virtual_host_ <;> rfl
      refine hs.set hi hsound ?_ ?_ (fun _ u hu _ => by cases hu) fun _ _ _ _ _ _ hp _ => by cases hp
      · rw [if_pos ha]
        change Counts.Tracks (Counts.decrement _ (t.caller i).session.username_) _ _
        rw [← hu]
        exact hs.users.decrement hi rfl hc.account_ne
      · rw [if_pos ha]
        change Counts.Tracks (Counts.decrement _ (t.caller i).session.hostname) _ _
        rw [← hh]
        exact hs.hosts.decrement hi rfl hc.place_ne
    · rw [if_neg ha]
      refine hs.set_same hi hsound ?_ ?_ (.inl rfl) (.inl rfl) <;>
        simp [Caller.account, Caller.place, hpermit, ha]
  · cases h

lemma waitingFor_card (u : Str) : (t.waitingFor u).card =
    tally t.count (fun i => if (t.caller i).permit.user then some (t.caller i).session.username_ else none) u := by
  refine congrArg Finset.card (Finset.filter_congr fun i _ => ?_)
  cases hp : (t.caller i).permit.user <;> simp [hp]

lemma waitingAt_card (h : Str) : (t.waitingAt h).card =
    tally t.count (fun i => if (t.caller i).permit.host then (t.caller i).hostname? else none) h := by
  refine congrArg Finset.card (Finset.filter_congr fun i _ => ?_)
  cases hp : (t.caller i).permit.host <;> simp [hp, Caller.hostname?]

lemma Sound.userClaim_le (hs : t.Sound env) (u : Str) :
    tally t.count (fun i => (t.caller i).userClaim) u ≤ t.tracker.getCountForUser u + (t.waitingFor u).card := by
  rw [waitingFor_card, SessionTracker.getCountForUser, hs.users u]
  refine tally_le_add fun i _ hclaim => ?_
  revert hclaim
  unfold Caller.userClaim Caller.account
  cases (t.caller i).permit.registered <;> cases (t.caller i).permit.user <;> simp

lemma Sound.hostClaim_le (hs : t.Sound env) (h : Str) :
    tally t.count (fun i => (t.caller i).hostClaim) h ≤ t.tracker.getCountForHost h + (t.waitingAt h).card := by
  rw [waitingAt_card, SessionTracker.getCountForHost, hs.hosts h]
  refine tally_le_add fun i _ hclaim => ?_
  revert hclaim
  unfold Caller.hostClaim Caller.place
  cases (t.caller i).permit.registered <;> cases (t.caller i).permit.host <;> simp

lemma perHost_hosted {name : Str} {hosts : VirtualHosts} {h : FTPVirtualHost} (hc : c.session.Hosted env)
    (hplace : c.hostname? = some name) (hm : env.virtual_host_manager_ = some hosts)
    (hl : hosts.getVirtualHost name = some h) : c.session.perHost = h.max_sessions_ := by
  obtain ⟨host, hh, rfl⟩ := Option.map_eq_some_iff.1 hplace
  obtain ⟨_, hosts', hm', hl'⟩ := hc host hh
  obtain rfl : hosts' = hosts := Option.some_inj.1 (hm'.symm.trans hm)
  obtain rfl : host = h := Option.some_inj.1 (hl'.symm.trans hl)
  simp [Session.perHost, hh]

lemma checking_call_sound {w : World} {β : Type} {o : Call β} {k : β → Io Verdict} (hs : t.Sound env)
    (hi : i < t.count) (hstage : (t.caller i).stage = .checking (.call o k))
    (hok : t.CountsWaiting env (.call i w)) (h : t.afterCall env i w = some t') : t'.Sound env := by
  have hc := hs.caller i hi
  have hgo := hc.proceeds
  rw [hstage] at hgo
  obtain ⟨hstop, hauth, hreg, hunregistered, hmeets⟩ := hgo
  obtain ⟨hpre, hnext⟩ := (meets_call o k).1 hmeets
  simp only [afterCall, hstage, Option.some.injEq] at h
  subst h
  have hsound (g : Permit) (r : β) (hg : g = ((t.caller i).session.judging env).next (t.caller i).permit o r)
      (hname : g.user = true ∨ g.host = true → (t.caller i).session.username_ ≠ []) (hno : g.registered = false) :
      Caller.Sound env { t.caller i with stage := .checking (k r), permit := g } := by
    refine ⟨hc.connected, hc.hosted, fun hg' => hname ?_, fun _ ha => ?_, hstop, hauth, hreg, hno, ?_⟩
    · exact hg'.resolve_left fun hr => Bool.false_ne_true (hno.symm.trans hr)
    · exact absurd (hauth.symm.trans ha) Bool.false_ne_true
    · exact hg ▸ hnext r trivial
  have hquiet (hcensus : o.kind ≠ .census) (hregister : o.kind ≠ .register) : (t.set i
      { t.caller i with
        stage := .checking (k (World.machine i (t.share w) o).1)
        permit := (t.caller i).permit.next env.config_.security.max_sessions_per_user
          (t.caller i).session.perHost o
          (World.machine i (t.share w) o).1 } (World.machine i (t.share w) o).2.tracker).Sound env := by
    have hkept (r : β) : (t.caller i).permit.next env.config_.security.max_sessions_per_user
        (t.caller i).session.perHost o r = (t.caller i).permit := Session.next_quiet hcensus hregister r
    have htracker : (World.machine i (t.share w) o).2.tracker = t.tracker := World.answer_tracker o hregister
    rw [hkept, htracker]
    refine hs.set_same hi (hsound _ _ (hkept _).symm (fun h => hc.named (.inr h)) hunregistered) ?_ ?_
      (.inr ?_) (.inr ?_) <;> rfl
  cases o with
  | getCountForUser u =>
    obtain ⟨rfl, hname, hnone⟩ := hpre
    simp only [CountsWaiting, hstage] at hok
    have hle := hs.userClaim_le (t.caller i).session.username_
    refine hs.set_claim hi (hsound _ _ rfl (fun _ => hname) hunregistered) rfl rfl (fun _ u hu hold => ?_)
      fun _ _ _ _ _ _ hx hy => ?_
    · simp only [Caller.userClaim, Permit.next, hunregistered, Bool.false_or, ite_eq_iff, decide_eq_true_eq,
        Option.some_inj, reduceCtorEq, and_false, or_false] at hu
      obtain ⟨hroom, rfl⟩ := hu
      have hwaiting := hok hroom
      omega
    · exact absurd hx hy
  | getCountForHost h =>
    obtain ⟨rfl, hname, hnone⟩ := hpre
    simp only [CountsWaiting, hstage] at hok
    have hle := hs.hostClaim_le (t.caller i).session.hostname
    refine hs.set_claim hi (hsound _ _ rfl (fun _ => hname) hunregistered) rfl rfl
      (fun _ _ hx hy => absurd hx hy) ?_
    intro hosts name h hm hl hmax hx _
    simp only [Caller.hostClaim, Permit.next, hunregistered, Bool.false_or, ite_eq_iff, decide_eq_true_eq,
      reduceCtorEq, and_false, or_false] at hx
    obtain ⟨hroom, hplace⟩ := hx
    have hself : (t.caller i).session.hostname = name := by
      simp only [Caller.hostname?, Session.hostname] at hplace ⊢
      cases hh : (t.caller i).session.current_virtual_host_ with
      | none => simp [hh] at hplace
      | some host => simpa [hh] using hplace
    subst hself
    rw [← perHost_hosted hc.hosted hplace hm hl]
    have hwaiting := hok hroom
    omega
  | registerSession | unregisterSession => exact hpre.elim
  | _ => exact hquiet (fun h => by cases h) fun h => by cases h

lemma checking_ret_sound (ht : env.session_tracker_ = true) {w : World} {v : Verdict} (hs : t.Sound env)
    (hi : i < t.count) (hstage : (t.caller i).stage = .checking (.ret v)) (h : t.afterCall env i w = some t') :
    t'.Sound env := by
  have hc := hs.caller i hi
  have hgo := hc.proceeds
  rw [hstage] at hgo
  obtain ⟨hstop, hauth, hreg, hunregistered, hmeets⟩ := hgo
  have hjudged : (t.caller i).session.Judged env (t.caller i).permit v := (meets_pure v).1 hmeets
  have hgoes := Session.conclude_concluding ht hauth hreg hjudged
  simp only [afterCall, hstage, Option.some.injEq] at h
  subst h
  cases v with
  | refused code text s' =>
    obtain ⟨u, rfl⟩ := hjudged
    refine hs.set_same hi ⟨hc.connected, hc.hosted, by simp [Verdict.leaves], fun _ ha => ?_, hstop, hgoes⟩ ?_ ?_
      (.inl rfl) (.inl rfl)
    · exact absurd (hauth.symm.trans ha) Bool.false_ne_true
    · rw [Caller.account, Caller.account, hunregistered]
      rfl
    · rw [Caller.place, Caller.place, hunregistered]
      rfl
  | accepted u s' =>
    obtain ⟨⟨u', rfl⟩, hname, _, hroom⟩ := hjudged
    exact hs.set_same hi ⟨hc.connected, hc.hosted, fun _ => hname, fun _ _ => .inr hroom, hstop, hgoes⟩ rfl rfl
      (.inr rfl) (.inr rfl)

lemma concluding_call_sound {w : World} {β : Type} {o : Call β} {k : β → Io Session} (hs : t.Sound env)
    (hi : i < t.count) (hstage : (t.caller i).stage = .concluding (.call o k))
    (h : t.afterCall env i w = some t') :
    t'.Sound env := by
  have hc := hs.caller i hi
  have hgo := hc.proceeds
  rw [hstage] at hgo
  obtain ⟨hstop, hmeets⟩ := hgo
  obtain ⟨hpre, hnext⟩ := (meets_call o k).1 hmeets
  simp only [afterCall, hstage, Option.some.injEq] at h
  subst h
  have hquiet (hcensus : o.kind ≠ .census) (hregister : o.kind ≠ .register) : (t.set i
      { t.caller i with
        stage := .concluding (k (World.machine i (t.share w) o).1)
        permit := (t.caller i).permit.next env.config_.security.max_sessions_per_user
          (t.caller i).session.perHost o
          (World.machine i (t.share w) o).1 } (World.machine i (t.share w) o).2.tracker).Sound env := by
    have hkept (r : β) : (t.caller i).permit.next env.config_.security.max_sessions_per_user
        (t.caller i).session.perHost o r = (t.caller i).permit := Session.next_quiet hcensus hregister r
    have htracker : (World.machine i (t.share w) o).2.tracker = t.tracker := World.answer_tracker o hregister
    rw [hkept, htracker]
    have hmeets' := hnext (World.machine i (t.share w) o).1 trivial
    rw [show ((t.caller i).session.concluding env).next (t.caller i).permit o _ = (t.caller i).permit from
      hkept _] at hmeets'
    exact hs.set_same hi ⟨hc.connected, hc.hosted, hc.named, hc.login, hstop, hmeets'⟩ rfl rfl
      (.inr rfl) (.inr rfl)
  cases o with
  | registerSession u h =>
    obtain ⟨hauth, rfl, hname, rfl, hunregistered⟩ := hpre
    obtain ⟨hroom, hroomAt⟩ : (0 < env.config_.security.max_sessions_per_user → (t.caller i).permit.user = true) ∧
        (0 < (t.caller i).session.perHost → (t.caller i).permit.host = true) :=
      (hc.login hstop hauth).resolve_left fun hr => Bool.false_ne_true (hunregistered.symm.trans hr)
    obtain ⟨hno, hnoPlace⟩ : (t.caller i).account = none ∧ (t.caller i).place = none := by
      simp [Caller.account, Caller.place, hunregistered]
    let c : Caller := { t.caller i with stage := .concluding (k ()), permit := ⟨false, false, true⟩ }
    have hsound : c.Sound env :=
      ⟨hc.connected, hc.hosted, fun _ => hname, fun _ _ => .inl rfl, hstop, hnext () trivial⟩
    have hplace : c.place.getD [] = (t.caller i).session.hostname := by
      simp only [c, Caller.place, if_true, Caller.hostname?, Session.hostname]
      cases (t.caller i).session.current_virtual_host_ <;> rfl
    refine hs.set hi hsound ?_ ?_ (fun hmax u hclaim hold => ?_) fun hosts name h hm hl hmax hclaim hold => ?_
    · exact hs.users.increment hi hno hsound.account_ne
    · change Counts.Tracks (Counts.increment _ (t.caller i).session.hostname) _ _
      rw [← hplace]
      exact hs.hosts.increment hi hnoPlace hsound.place_ne
    · refine absurd ?_ hold
      rw [Caller.userClaim, hroom hmax, Bool.or_true, if_pos rfl]
      exact hclaim
    · refine absurd ?_ hold
      have hlimit : c.session.perHost = h.max_sessions_ := perHost_hosted (c := c) hc.hosted hclaim hm hl
      rw [Caller.hostClaim, hroomAt (hlimit ▸ hmax), Bool.or_true, if_pos rfl]
      exact hclaim
  | getCountForUser | getCountForHost | unregisterSession => exact hpre.elim
  | _ => exact hquiet (fun h => by cases h) fun h => by cases h

lemma concluding_ret_sound {w : World} {s' : Session} (hs : t.Sound env) (hi : i < t.count)
    (hstage : (t.caller i).stage = .concluding (.ret s')) (h : t.afterCall env i w = some t') : t'.Sound env := by
  have hc := hs.caller i hi
  have hgo := hc.proceeds
  rw [hstage] at hgo
  obtain ⟨hstop, hmeets⟩ := hgo
  have hdone : (t.caller i).session.Concluded s' (t.caller i).permit := (meets_pure s').1 hmeets
  simp only [afterCall, hstage, Option.some.injEq] at h
  subst h
  have hpermit : (t.caller i).permit = ⟨false, false, s'.authenticated_⟩ := by
    rw [hdone.permit, hdone.authenticated]
  have hsound : Caller.Sound env { t.caller i with session := s', stage := .idle } := by
    refine ⟨fun h => hdone.socket ▸ hc.connected h, fun h hh => hc.hosted h (hdone.host ▸ hh), ?_,
      fun _ ha => .inl ?_, ?_, ?_⟩
    · simp only [hdone.username]
      exact hc.named
    · rw [hpermit]
      exact ha
    · simp only [hpermit, hstop, Bool.not_false, Bool.and_true]
    · simp only [hpermit, hdone.registered, hdone.authenticated]
  refine hs.set_same hi hsound ?_ ?_ (.inr ?_) (.inr ?_) <;>
    simp [Caller.account, Caller.place, Caller.userClaim, Caller.hostClaim, Caller.hostname?,
      hdone.username, hdone.host]

lemma sound_step (ht : env.session_tracker_ = true) {step : LobbyStep} (hs : t.Sound env)
    (hok : t.CountsWaiting env step) (h : (lobbySystem env).next t step = some t') : t'.Sound env := by
  cases step with
  | accept fd context ssl =>
    cases h
    exact accept_sound hs
  | command i a =>
    dsimp only [lobbySystem] at h
    split at h
    · rename_i hi
      exact command_sound hs hi.1 hi.2.1 hi.2.2.1 hi.2.2.2 h
    · cases h
  | pass i password =>
    dsimp only [lobbySystem] at h
    split at h
    · rename_i hi
      cases h
      exact pass_sound ht hs hi.1 hi.2.1 hi.2.2 password
    · cases h
  | call i w =>
    dsimp only [lobbySystem] at h
    split at h
    · rename_i hi
      cases hstage : (t.caller i).stage with
      | idle => simp [afterCall, hstage] at h
      | checking p =>
        cases p with
        | ret v => exact checking_ret_sound ht hs hi hstage h
        | throw e => simp [afterCall, hstage] at h
        | call o k => exact checking_call_sound hs hi hstage hok h
      | concluding p =>
        cases p with
        | ret s' => exact concluding_ret_sound hs hi hstage h
        | throw e => simp [afterCall, hstage] at h
        | call o k => exact concluding_call_sound hs hi hstage h
    · cases h
  | stop i w =>
    dsimp only [lobbySystem] at h
    split at h
    · rename_i hi
      exact stop_sound ht hs hi.1 hi.2 h
    · cases h

lemma sound_of_reach (ht : env.session_tracker_ = true)
    (h : (lobbySystem env).Reach (fun t => t.CountsWaiting env) t) : t.Sound env := by
  refine h.invariant (fun t h0 => ?_) fun t step t' hs hok hn => sound_step ht hs hok hn
  obtain ⟨htracker, hcount⟩ := h0
  refine ⟨fun i hi => ?_, fun k => ?_, fun k => ?_, fun hmax u => ?_, fun hosts name h _ _ hmax => ?_⟩
  · omega
  · simp [htracker, hcount, SessionTracker.empty, tally, Counts.get]
  · simp [htracker, hcount, SessionTracker.empty, tally, Counts.get]
  · rw [hcount]
    exact hmax.le
  · rw [hcount]
    exact hmax.le

lemma Sound.sessionsOf_le (hs : t.Sound env) (hmax : 0 < env.config_.security.max_sessions_per_user) (u : Str) :
    (t.sessionsOf u).card ≤ tally t.count (fun i => (t.caller i).userClaim) u := by
  refine Finset.card_le_card fun i hi => ?_
  simp only [sessionsOf, Finset.mem_filter, Finset.mem_range] at hi ⊢
  obtain ⟨hlt, hstop, hauth, hname⟩ := hi
  have hclaim : ((t.caller i).permit.registered || (t.caller i).permit.user) = true := by
    rcases (hs.caller i hlt).login hstop hauth with hr | ⟨huser, _⟩
    · rw [hr, Bool.true_or]
    · rw [huser hmax, Bool.or_true]
  refine ⟨hlt, ?_⟩
  rw [Caller.userClaim, hclaim, if_pos rfl, hname]

lemma Sound.sessionsAt_le (hs : t.Sound env) {hosts : VirtualHosts} {name : Str} {h : FTPVirtualHost}
    (hm : env.virtual_host_manager_ = some hosts) (hl : hosts.getVirtualHost name = some h)
    (hmax : 0 < h.max_sessions_) :
    (t.sessionsAt name).card ≤ tally t.count (fun i => (t.caller i).hostClaim) name := by
  refine Finset.card_le_card fun i hi => ?_
  simp only [sessionsAt, Finset.mem_filter, Finset.mem_range] at hi ⊢
  obtain ⟨hlt, hstop, hauth, hplace⟩ := hi
  have hc := hs.caller i hlt
  have hlimit : (t.caller i).session.perHost = h.max_sessions_ := perHost_hosted hc.hosted hplace hm hl
  have hclaim : ((t.caller i).permit.registered || (t.caller i).permit.host) = true := by
    rcases hc.login hstop hauth with hr | ⟨_, hhost⟩
    · rw [hr, Bool.true_or]
    · rw [hhost (hlimit ▸ hmax), Bool.or_true]
  refine ⟨hlt, ?_⟩
  rw [Caller.hostClaim, hclaim, if_pos rfl]
  exact hplace

end Lobby

theorem sessions_are_limited (ht : env.session_tracker_ = true) {t : Lobby}
    (h : (lobbySystem env).Reach (fun t => t.CountsWaiting env) t) :
    (0 < env.config_.security.max_sessions_per_user →
      ∀ u, ((t.sessionsOf u).card : Int) ≤ env.config_.security.max_sessions_per_user) ∧
    ∀ hosts name host, env.virtual_host_manager_ = some hosts → hosts.getVirtualHost name = some host →
      0 < host.max_sessions_ → ((t.sessionsAt name).card : Int) ≤ host.max_sessions_ := by
  have hs := Lobby.sound_of_reach ht h
  refine ⟨fun hmax u => ?_, fun hosts name host hm hl hmax => ?_⟩
  · exact le_trans (Int.ofNat_le.2 (hs.sessionsOf_le hmax u)) (hs.userRoom hmax u)
  · exact le_trans (Int.ofNat_le.2 (hs.sessionsAt_le hm hl hmax)) (hs.hostRoom hosts name host hm hl hmax)

namespace Lobby

instance (t : Lobby) (step : LobbyStep) : Decidable (t.CountsWaiting env step) := by
  unfold CountsWaiting
  split
  · split <;> infer_instance
  · infer_instance

def sampleService : Service :=
  let env : Service := .standard [⟨"u", "p", "/", [], [], false, 0, 0⟩]
    [{ hostname_ := "h", root_directory_ := [], max_sessions_ := 1 }]
  { env with config_.security := { env.config_.security with max_sessions_per_user := 1 } }

def empty : Lobby := ⟨.empty, 0, fun _ => { session := .opened 0 false false }⟩

def sampleCalls (i n : ℕ) : List LobbyStep :=
  List.replicate n (.call i (.favourable ⟨[], [], fun _ _ _ => none, []⟩))

def sampleSteps : List LobbyStep :=
  [.accept 3 false false, .accept 4 false false] ++
    (Attested.sampleLines ["HOST h", "USER u"]).map (.command 0) ++
    (Attested.sampleLines ["HOST h", "USER u"]).map (.command 1)

end Lobby

theorem sessions_are_limited_login : ∃ t : Lobby, t.sessionsOf (ascii "u") = {1} ∧
    ((t.sessionsOf (ascii "u")).card : Int) ≤ 1 := by
  obtain ⟨t, ht, hu⟩ := Option.map_eq_some_iff.1 (show
    ((lobbySystem Lobby.sampleService).run (fun t => t.CountsWaiting Lobby.sampleService) Lobby.empty
      (Lobby.sampleSteps ++ [.pass 0 (ascii "q")] ++ Lobby.sampleCalls 0 4 ++ [.pass 1 (ascii "p")] ++
        Lobby.sampleCalls 1 7 ++ [.pass 0 (ascii "p")] ++ Lobby.sampleCalls 0 3)).map (·.sessionsOf (ascii "u")) =
      some {1} by decide +kernel)
  have hlimited := sessions_are_limited Lobby.sampleService rfl (.run (.init ⟨rfl, rfl⟩) ht)
  exact ⟨t, hu, hlimited.1 (by decide) (ascii "u")⟩

theorem sessions_are_not_limited : Lobby.sampleService.config_.security.max_sessions_per_user = 1 ∧
    ∃ t : Lobby, (lobbySystem Lobby.sampleService).Reach System.anyStep t ∧
      (t.sessionsOf (ascii "u")).card = 2 ∧ (t.sessionsAt (ascii "h")).card = 2 := by
  refine ⟨rfl, ?_⟩
  obtain ⟨t, ht, hu⟩ := Option.map_eq_some_iff.1 (show
    ((lobbySystem Lobby.sampleService).run System.anyStep Lobby.empty
      (Lobby.sampleSteps ++ [.pass 0 (ascii "p")] ++ Lobby.sampleCalls 0 3 ++ [.pass 1 (ascii "p")] ++
        Lobby.sampleCalls 1 7 ++ Lobby.sampleCalls 0 4)).map (fun t =>
          ((t.sessionsOf (ascii "u")).card, (t.sessionsAt (ascii "h")).card)) = some (2, 2) by decide +kernel)
  exact ⟨t, .run (.init ⟨rfl, rfl⟩) ht, congrArg Prod.fst hu, congrArg Prod.snd hu⟩

end SimpleSftpd
