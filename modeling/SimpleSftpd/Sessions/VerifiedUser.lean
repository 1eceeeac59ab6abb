import SimpleSftpd.Sessions.Login

namespace SimpleSftpd

open Cxx Interaction Prog

variable (env : Service) (me : SessionId)

/-- A session and, as history, the record that the last PASS answered 230 verified. -/
structure Attested where
  session : Session
  record : Option FTPUser

/-- A PASS sent while logged in leaves the session with the record it verifies or with the record
it has: it succeeds, or the record it looks up is the current one. -/
def Session.PassKeepsUser (s : Session) (w : World) (password : Str) : Prop :=
  if s.storeAccepts env w password then s.hasRoom env w ∨ s.storedUser env = s.current_user_
  else if s.pamAccepts env w password then s.hasRoom env w = true
  else s.storedUser env = s.current_user_

def Attested.KeepsUser (v : Attested) (a : Arrival) : Prop :=
  a.command.verb = .pass → v.session.authenticated_ → v.session.username_ ≠ [] →
    v.session.PassKeepsUser env a.world a.command.argument

def attestedSystem : System Attested Arrival where
  init v := v.session.IsNew ∧ v.record = none
  next v a := (v.session.after env me a).map fun s' => ⟨s',
    if a.command.verb = .pass ∧ (v.session.trace env me a).answers 230 then
      v.session.verifiedUser env a.world a.command.argument
    else v.record⟩

structure Attested.Sound (v : Attested) : Prop where
  connected : v.session.socket_ ≠ none
  user : v.session.authenticated_ = true → ∃ u, v.session.current_user_ = some u ∧ v.record = some u

variable {env me}

namespace Session

variable {s s' : Session} {a : Arrival}

lemma dispatch_pass (hv : a.command.verb = .pass) :
    s.dispatch env a.line = s.handlePASS env a.command.argument := by
  have hp : Command.parse a.line = ⟨.pass, a.command.argument⟩ := by
    rw [← hv]
    rfl
  unfold dispatch
  simp [hp, Verb.beforeLogin, handle]

lemma pass_run (hs : s.socket_ ≠ none) (hv : a.command.verb = .pass) (h : s.after env me a = some s') :
    ∃ tracker code, PassRun env s a.world a.command.argument s' tracker code ∧
      ∀ c, (s.trace env me a).answers c = decide (code = c) := by
  obtain ⟨w', he⟩ := exec_of_after h
  rw [dispatch_pass hv] at he
  obtain ⟨code, hrun, hcode⟩ := handlePASS_run env me s a.world a.command.argument hs he
  exact ⟨_, code, hrun, by rw [trace, dispatch_pass hv]; exact hcode⟩

end Session

lemma Attested.refused_keeps {s : Session} {w : World} {password : Str} {u : Option FTPUser}
    (hkeep : s.PassKeepsUser env w password)
    (hu : u = (s.verifiedUser env w password).or (s.storedUser env))
    (hno : ¬((s.verifiedUser env w password).isSome ∧ s.hasRoom env w = true)) : u = s.current_user_ := by
  subst hu
  unfold Session.PassKeepsUser at hkeep
  unfold Session.verifiedUser at hno ⊢
  split at hkeep
  · rename_i hstore
    rw [if_pos hstore] at hno ⊢
    rcases hkeep with hroom | heq
    · exact absurd ⟨Option.isSome_of_any hstore, hroom⟩ hno
    · rw [Option.or_self, heq]
  · rename_i hstore
    rw [if_neg hstore] at hno ⊢
    split at hkeep
    · rename_i hpam
      rw [if_pos hpam] at hno
      exact absurd ⟨rfl, hkeep⟩ hno
    · rename_i hpam
      rw [if_neg hpam, Option.none_or, hkeep]

lemma Attested.sound_step {v v' : Attested} {a : Arrival} (hv : v.Sound) (hok : v.KeepsUser env a)
    (h : (attestedSystem env me).next v a = some v') : v'.Sound := by
  obtain ⟨s', hs', rfl⟩ := Option.map_eq_some_iff.1 h
  by_cases hpass : a.command.verb = .pass
  · obtain ⟨_, code, hrun, hcode⟩ := Session.pass_run hv.connected hpass hs'
    simp only [hpass, true_and, hcode, decide_eq_true_eq]
    cases hrun with
    | unnamed hname => exact ⟨hv.connected, by simpa using hv.user⟩
    | refused u hname hu hno =>
      refine ⟨hv.connected, fun hauth => ?_⟩
      have hkeep := refused_keeps (hok hpass hauth hname) hu hno
      obtain ⟨u', hu', hr⟩ := hv.user hauth
      exact ⟨u', hkeep.trans hu', by simpa using hr⟩
    | accepted u dir hname hu hroom => exact ⟨hv.connected, fun _ => ⟨u, rfl, by simpa using hu⟩⟩
  · have hk := Session.login_kept hpass hs'
    refine ⟨hk.socket ▸ hv.connected, fun ha => ?_⟩
    obtain ⟨u, hu, hr⟩ := hv.user (hk.authenticated ha)
    exact ⟨u, hk.user.trans hu, by simp [hpass, hr]⟩

lemma Attested.sound_of_reach {v : Attested} (h : (attestedSystem env me).Reach (KeepsUser env) v) :
    v.Sound := by
  refine h.invariant ?_ fun _ _ _ hv hok hn => sound_step hv hok hn
  rintro v ⟨⟨fd, context, ssl, hs⟩, _⟩
  exact ⟨by simp [hs, Session.opened], by simp [hs, Session.opened]⟩

variable (env me)

theorem current_user_is_verified {v : Attested}
    (h : (attestedSystem env me).Reach (Attested.KeepsUser env) v) :
    (v.session.authenticated_ = true → ∃ u, v.session.current_user_ = some u ∧ v.record = some u) ∧
      ∀ a s', v.KeepsUser env a → v.session.after env me a = some s' → a.command.verb = .pass →
        (v.session.trace env me a).answers 530 = true → v.session.authenticated_ = true →
        s'.current_user_ = v.session.current_user_ := by
  have hv := Attested.sound_of_reach h
  refine ⟨hv.user, fun a s' hok hs' hpass h530 hauth => ?_⟩
  obtain ⟨_, code, hrun, hcode⟩ := Session.pass_run hv.connected hpass hs'
  rw [hcode, decide_eq_true_eq] at h530
  subst h530
  cases hrun with
  | refused u hname hu hno => exact Attested.refused_keeps (hok hpass hauth hname) hu hno

namespace Attested

instance (s : Session) (w : World) (password : Str) : Decidable (s.PassKeepsUser env w password) := by
  unfold Session.PassKeepsUser
  infer_instance

instance (v : Attested) (a : Arrival) : Decidable (v.KeepsUser env a) := by
  unfold KeepsUser
  infer_instance

def sampleService : Service :=
  .standard [⟨"u", "p", "/", [], [], false, 0, 0⟩]
    [{ hostname_ := "h", root_directory_ := [], user_manager_ := some ⟨∅, []⟩ }]

def sampleLine (line : String) : Arrival := ⟨.favourable ⟨[], [], fun _ _ _ => none, []⟩, ascii line⟩

def sampleLines (lines : List String) : List Arrival := lines.map sampleLine

end Attested

theorem current_user_is_verified_login :
    ∃ v : Attested, v.session.authenticated_ = true ∧
      ∃ u, v.session.current_user_ = some u ∧ v.record = some u := by
  obtain ⟨v, hv, hauth⟩ := Option.map_eq_some_iff.1 (show
    ((attestedSystem Attested.sampleService 0).run (Attested.KeepsUser Attested.sampleService)
      ⟨.opened 3 false false, none⟩ (Attested.sampleLines ["USER u", "PASS p", "PASS q"])).map
      (·.session.authenticated_) = some true by decide +kernel)
  exact ⟨v, hauth, (current_user_is_verified Attested.sampleService 0
    (.run (.init ⟨⟨_, _, _, rfl⟩, rfl⟩) hv)).1 hauth⟩

theorem current_user_not_verified : ∃ v : Attested,
    (attestedSystem Attested.sampleService 0).Reach System.anyStep v ∧ v.session.authenticated_ = true ∧
      ¬∃ u, v.session.current_user_ = some u ∧ v.record = some u := by
  obtain ⟨v, hv, he⟩ := Option.map_eq_some_iff.1 (show
    ((attestedSystem Attested.sampleService 0).run System.anyStep ⟨.opened 3 false false, none⟩
      (Attested.sampleLines ["USER u", "PASS p", "HOST h", "PASS p"])).map
      (fun v => (v.session.authenticated_, v.session.current_user_)) = some (true, none) by decide +kernel)
  have hauth : v.session.authenticated_ = true := congrArg Prod.fst he
  have huser : v.session.current_user_ = none := congrArg Prod.snd he
  exact ⟨v, .run (.init ⟨⟨_, _, _, rfl⟩, rfl⟩) hv, hauth, fun ⟨u, hu, _⟩ => by simp [huser] at hu⟩

end SimpleSftpd
