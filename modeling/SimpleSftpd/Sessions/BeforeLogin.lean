import SimpleSftpd.Sessions.VerifiedUser

namespace SimpleSftpd

open Cxx Interaction Prog

variable (env : Service) (me : SessionId)

def harmlessKinds : List Kind := [.reply, .clock, .account, .census, .register, .close]

def Call.Harmless {β : Type} : Call β → Prop
  | status p | chroot p => p = env.config_.security.chroot_directory
  | c => c.kind ∈ harmlessKinds

/-- A session and, as history, whether it waits for a login: no PASS was answered 230 since its
start or its last USER. -/
structure Visitor where
  session : Session
  waiting : Bool

def visitorSystem : System Visitor Arrival where
  init v := v.session.IsNew ∧ v.waiting = true
  next v a := (v.session.after env me a).map fun s' => ⟨s',
    if a.command.verb = .user then true
    else if a.command.verb = .pass ∧ (v.session.trace env me a).answers 230 then false
    else v.waiting⟩

structure Visitor.Sound (v : Visitor) : Prop where
  connected : v.session.socket_ ≠ none
  visitor : v.waiting = true → v.session.authenticated_ = false

structure Session.SameSettings (s s' : Session) : Prop where
  directory : s'.current_directory_ = s.current_directory_
  type : s'.transfer_type_ = s.transfer_type_
  mode : s'.transfer_mode_ = s.transfer_mode_
  position : s'.resume_position_ = s.resume_position_
  source : s'.rename_from_path_ = s.rename_from_path_

variable {env me} {α : Type} {p : Io α} {s s' : Session} {a : Arrival}

lemma harmless_of_kind {β : Type} {c : Call β} (hc : c.kind ∈ harmlessKinds) : c.Harmless env := by
  cases c with
  | status | chroot => simp [Call.kind, harmlessKinds] at hc
  | _ => exact hc

lemma harmless_of_kinds {ks : List Kind} {P P' : α → Prop} (h : p.Within (Kinds ks) P) (hk : ks ⊆ harmlessKinds)
    (hP : ∀ r, P r → P' r) : p.Within (fun o => o.2.Harmless env) P' :=
  h.mono (fun _ ho => harmless_of_kind (hk ho)) hP

namespace Session

lemma loginDirectory_harmless (u : FTPUser) :
    (loginDirectory env u).Within (fun o => o.2.Harmless env) fun _ => True := by
  have hstatus : (Call.status env.config_.security.chroot_directory).Harmless env := rfl
  have hchroot : (Call.chroot env.config_.security.chroot_directory).Harmless env := rfl
  have hfound (x : Except Errc FileType) : (orThrow x).Within (fun o => o.2.Harmless env) fun _ => True := by
    cases x with
    | ok t => exact (within_pure t).2 trivial
    | error e => exact within_throw _
  rw [loginDirectory_eq, applyChroot]
  refine within_ite.2 ⟨fun _ => ?_, fun _ => (within_pure _).2 trivial⟩
  refine within_bind.2 ((within_perform _).2 ⟨hstatus, fun x => ?_⟩)
  refine Within.bind (hfound x) fun found => ?_
  refine within_ite.2 ⟨fun _ => (within_pure _).2 trivial, fun _ => ?_⟩
  exact within_bind.2 ((within_perform _).2 ⟨hchroot, fun _ => (within_pure _).2 trivial⟩)

lemma reply_harmless (code : ℕ) (text : Str) :
    (s.reply code text).Within (fun o => o.2.Harmless env) fun _ => True := by
  have hreply : (s.reply code text).Within (Kinds [.reply]) fun _ => True := by simp
  exact harmless_of_kinds hreply (by simp [harmlessKinds]) fun _ h => h

lemma logIn_harmless (u : FTPUser) : (s.logIn env u).Within (fun o => o.2.Harmless env) fun _ => True := by
  refine Within.bind (loginDirectory_harmless u) fun dir => ?_
  have hregister : (s.register env).Within (Kinds [.register]) fun _ => True := by
    simp [register, Call.kind]
  refine Within.bind (harmless_of_kinds hregister (by simp [harmlessKinds]) fun _ h => h) fun registered => ?_
  exact Within.bind (reply_harmless _ _) fun _ => (within_pure _).2 trivial

lemma refusal_harmless (code : ℕ) (text : Str) : (do
    s.reply code text
    return s : Io Session).Within (fun o => o.2.Harmless env) fun _ => True :=
  Within.bind (reply_harmless _ _) fun _ => (within_pure _).2 trivial

lemma finishLogin_harmless (ok : Bool) :
    (s.finishLogin env ok).Within (fun o => o.2.Harmless env) fun _ => True := by
  unfold finishLogin
  split
  · have hlimit : (s.sessionLimit env).Within (Kinds [.census]) fun _ => True := sessionLimit_within (by simp)
    refine Within.bind (harmless_of_kinds hlimit (by simp [harmlessKinds]) fun _ h => h) fun limit => ?_
    cases limit with
    | some refusal => exact refusal_harmless 530 refusal
    | none => exact logIn_harmless _
  · exact refusal_harmless 530 _

lemma handlePASS_harmless (password : Str) :
    (s.handlePASS env password).Within (fun o => o.2.Harmless env) fun _ => True := by
  refine within_ite.2 ⟨fun _ => refusal_harmless 503 _, fun _ => ?_⟩
  have hcheck : (s.checkPassword env password).Within (Kinds [.clock, .account]) _ :=
    checkPassword_within (List.Subset.refl _) password
  refine Within.bind (harmless_of_kinds hcheck (by simp [harmlessKinds]) fun _ _ => trivial) fun r => ?_
  exact finishLogin_harmless _

lemma trace_harmless (hs : s.authenticated_ = false) {c : World × Σ β, Call β} (hc : c ∈ s.trace env me a) :
    c.2.2.Harmless env := by
  by_cases hpass : a.command.verb = .pass
  · rw [trace, dispatch_pass hpass] at hc
    exact (handlePASS_harmless _).calls _ _ c hc
  · have hkind : c.2.2.kind ∈ .reply :: a.command.verb.kinds s.data := (dispatch_within a.line).calls _ _ c hc
    by_cases hreply : c.2.2.kind = .reply
    · exact harmless_of_kind (by simp [hreply, harmlessKinds])
    · have hearly : a.command.verb.beforeLogin = true := by simpa [hs] using trace_logged hc hreply
      refine harmless_of_kind ?_
      cases hv : a.command.verb <;> rw [hv] at hkind hearly hpass <;>
        simp [Verb.beforeLogin, Verb.kinds, harmlessKinds] at hkind hearly hpass ⊢ <;> tauto

lemma SameSettings.refl : s.SameSettings s := ⟨rfl, rfl, rfl, rfl, rfl⟩

lemma after_sameSettings (hconn : s.socket_ ≠ none) (hs : s.authenticated_ = false)
    (h : s.after env me a = some s')
    (hno : ¬(a.command.verb = .pass ∧ (s.trace env me a).answers 230 = true)) : s.SameSettings s' := by
  by_cases hearly : a.command.verb.beforeLogin = true
  · by_cases hpass : a.command.verb = .pass
    · obtain ⟨_, code, hrun, hcode⟩ := pass_run hconn hpass h
      cases hrun with
      | unnamed => exact .refl
      | refused => exact ⟨rfl, rfl, rfl, rfl, rfl⟩
      | accepted => exact absurd ⟨hpass, by simp [hcode]⟩ hno
    · have hframe := after_frame h
      have hverb : a.command.verb ∉ [.pass, .cwd, .cdup, .type, .mode, .rest, .retr, .stor, .stou, .appe,
          .rnfr, .rnto] := by
        intro hmem
        cases hv : a.command.verb <;> rw [hv] at hmem hearly hpass <;> simp [Verb.beforeLogin] at hmem hearly hpass
      simp only [List.mem_cons, List.not_mem_nil, or_false, not_or] at hverb
      exact ⟨hframe.directory (by simp [hverb]), hframe.type (by simp [hverb]), hframe.mode (by simp [hverb]),
        hframe.resume (by simp [hverb]), hframe.rename (by simp [hverb])⟩
  · obtain rfl := after_denied (by simpa using hearly) hs h
    exact .refl

end Session

namespace Visitor

variable {v v' : Visitor}

lemma sound_step (hv : v.Sound) (h : (visitorSystem env me).next v a = some v') : v'.Sound := by
  obtain ⟨s', hs', rfl⟩ := Option.map_eq_some_iff.1 h
  by_cases hpass : a.command.verb = .pass
  · obtain ⟨_, code, hrun, hcode⟩ := Session.pass_run hv.connected hpass hs'
    simp only [hpass, hcode, reduceCtorEq, if_false, true_and, decide_eq_true_eq]
    cases hrun with
    | unnamed => exact ⟨hv.connected, hv.visitor⟩
    | refused => exact ⟨hv.connected, hv.visitor⟩
    | accepted => exact ⟨hv.connected, fun hw => by simp at hw⟩
  · have hk := Session.login_kept hpass hs'
    refine ⟨hk.socket ▸ hv.connected, fun hw => ?_⟩
    by_cases huser : a.command.verb = .user
    · have he := Session.handled_effect (.inl (by rw [huser]; rfl)) hs'
      rw [huser] at he
      exact congrArg Session.authenticated_ he
    · simp only [huser, hpass, if_false, false_and] at hw
      by_contra hauth
      have hbefore := hk.authenticated (by simpa using hauth)
      rw [hv.visitor hw] at hbefore
      cases hbefore

lemma sound_of_reach (h : (visitorSystem env me).Reach System.anyStep v) : v.Sound := by
  refine h.invariant ?_ fun _ _ _ hv _ hn => sound_step hv hn
  rintro v ⟨⟨fd, context, ssl, hs⟩, _⟩
  exact ⟨by simp [hs, Session.opened], by simp [hs, Session.opened]⟩

end Visitor

variable (env me)

theorem nothing_before_login {v : Visitor} (h : (visitorSystem env me).Reach System.anyStep v)
    (hw : v.waiting = true) (a : Arrival) :
    (∀ c ∈ v.session.trace env me a, c.2.2.Harmless env) ∧
      ∀ v', (visitorSystem env me).next v a = some v' → v'.waiting = true → v.session.SameSettings v'.session := by
  have hv := Visitor.sound_of_reach h
  have hauth := hv.visitor hw
  refine ⟨fun c hc => Session.trace_harmless hauth hc, fun v' hn hw' => ?_⟩
  obtain ⟨s', hs', rfl⟩ := Option.map_eq_some_iff.1 hn
  refine Session.after_sameSettings hv.connected hauth hs' fun hpass => ?_
  rw [if_neg (by simp [hpass.1]), if_pos hpass] at hw'
  cases hw'

theorem nothing_before_login_again : ∃ v : Visitor, v.session.current_directory_ = ascii "/" ∧ v.waiting = true ∧
    ∀ c ∈ v.session.trace Attested.sampleService 0 (Attested.sampleLine "retr f"),
      c.2.2.Harmless Attested.sampleService := by
  obtain ⟨v, hv, he⟩ := Option.map_eq_some_iff.1 (show
    ((visitorSystem Attested.sampleService 0).run System.anyStep ⟨.opened 3 false false, true⟩
      (Attested.sampleLines ["USER u", "PASS p", "user v", "PASS q"])).map
      (fun v => (v.session.current_directory_, v.waiting)) = some (ascii "/", true) by decide +kernel)
  simp only [Prod.mk.injEq] at he
  have hreach : (visitorSystem Attested.sampleService 0).Reach System.anyStep v :=
    .run (.init ⟨⟨_, _, _, rfl⟩, rfl⟩) hv
  exact ⟨v, he.1, he.2, (nothing_before_login _ _ hreach he.2 _).1⟩

end SimpleSftpd
