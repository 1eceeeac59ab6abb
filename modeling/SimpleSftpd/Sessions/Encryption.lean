import SimpleSftpd.Sessions.VerifiedUser

namespace SimpleSftpd

open Cxx Interaction Prog

variable (env : Service) (me : SessionId)

namespace Session

variable (s : Session)

def encrypted : Bool := s.ssl_active_ && s.ssl_ && s.ssl_context_

def LogsInEncrypted (a : Arrival) : Prop :=
  a.command.verb = .pass → s.username_ ≠ [] → (s.verifiedUser env a.world a.command.argument).isSome →
    s.hasRoom env a.world = true → s.ssl_active_ = true

structure Upgraded (s s' : Session) : Prop where
  kept : s.ssl_active_ = true → s' = s
  gained : s'.ssl_active_ = true → s.ssl_active_ = true ∨ s'.encrypted = true

structure Sealed : Prop where
  connected : s.socket_ ≠ none
  active : s.ssl_active_ = true → s.encrypted = true
  login : s.authenticated_ = true → s.ssl_active_ = true

variable {env me s} {s' : Session} {a : Arrival}

lemma loadHostCertificate_active : s.loadHostCertificate.Within (Kinds [.reply, .account]) fun s' =>
    s'.ssl_active_ = s.ssl_active_ := by
  unfold loadHostCertificate
  split
  · simp
  · simp [Call.kind]

lemma handleAUTH_upgraded (method : Str) :
    (s.handleAUTH method).Within (Kinds [.reply, .account]) s.Upgraded := by
  have hsame : s.Upgraded s := ⟨fun _ => rfl, .inl⟩
  simp only [handleAUTH, within_ite, within_bind, within_pure]
  refine ⟨fun _ => ⟨by simp [hsame], fun hplain => ?_⟩, by simp [hsame]⟩
  refine loadHostCertificate_active.mono (fun _ h => h) fun t ht => ?_
  have hstill (u : Session) (hu : u.ssl_active_ = t.ssl_active_) : s.Upgraded u :=
    ⟨fun h => absurd h hplain, fun h => .inl ((hu.trans ht) ▸ h)⟩
  refine ⟨fun _ => (reply_within (by simp) _ _).2 (hstill t rfl), fun hready => ?_⟩
  refine (reply_within (by simp) _ _).2 ((within_perform _).2 ⟨by simp [Call.kind], fun upgraded => ?_⟩)
  refine ⟨fun _ => (within_perform _).2 ⟨by simp [Call.kind], fun _ => hstill _ rfl⟩, fun _ => ?_⟩
  refine ⟨fun h => absurd h hplain, fun _ => .inr ?_⟩
  have hcontext : t.ssl_context_ = true := by
    revert hready
    cases t.ssl_context_ <;> simp
  simp [encrypted, hcontext]

lemma after_upgraded (h : s.after env me a = some s') :
    (s.ssl_active_ = true → s'.ssl_active_ = true ∧ s'.encrypted = s.encrypted) ∧
      (s'.ssl_active_ = true → s.ssl_active_ = true ∨ s'.encrypted = true) := by
  by_cases hauth : a.command.verb = .auth
  · obtain ⟨w', he⟩ := exec_of_after h
    have hd : s.dispatch env a.line = s.handleAUTH a.command.argument := by
      rcases dispatch_cases env s a.line with ⟨_, hd⟩ | ⟨hb, _⟩
      · rw [hd, show Command.parse a.line = ⟨.auth, a.command.argument⟩ by rw [← hauth]; rfl]
        rfl
      · change a.command.verb.beforeLogin = false at hb
        simp [hauth, Verb.beforeLogin] at hb
    rw [hd] at he
    have hup := (handleAUTH_upgraded a.command.argument).exec _ he
    refine ⟨fun ha => ?_, hup.gained⟩
    obtain rfl := hup.kept ha
    exact ⟨ha, rfl⟩
  · have hsame : s'.ssl_active_ = s.ssl_active_ ∧ s'.encrypted = s.encrypted := by
      obtain ⟨ha, hssl, hcontext⟩ := (after_frame h).tls hauth
      exact ⟨ha, by simp only [encrypted, ha, hssl, hcontext]⟩
    exact ⟨fun ha => ⟨hsame.1.trans ha, hsame.2⟩, fun ha => .inl (hsame.1 ▸ ha)⟩

lemma Sealed.step (hs : s.Sealed) (hok : s.LogsInEncrypted env a) (h : s.after env me a = some s') :
    s'.Sealed := by
  obtain ⟨hkept, hgained⟩ := after_upgraded h
  have hactive : s'.ssl_active_ = true → s'.encrypted = true := by
    intro ha
    rcases hgained ha with hbefore | hnow
    · exact (hkept hbefore).2.trans (hs.active hbefore)
    · exact hnow
  by_cases hpass : a.command.verb = .pass
  · obtain ⟨_, code, hrun, _⟩ := pass_run hs.connected hpass h
    cases hrun with
    | unnamed => exact hs
    | refused => exact ⟨hs.connected, hactive, hs.login⟩
    | accepted u dir hname hu hroom =>
      exact ⟨hs.connected, hactive, fun _ => hok hpass hname (by simp [hu]) hroom⟩
  · have hl := login_kept hpass h
    exact ⟨hl.socket ▸ hs.connected, hactive, fun ha => (hkept (hs.login (hl.authenticated ha))).1⟩

lemma sealed_of_reach (h : (sessionSystem env me).Reach (LogsInEncrypted env) s) : s.Sealed := by
  refine h.invariant ?_ fun _ _ _ hs hok hn => hs.step hok hn
  rintro s ⟨fd, context, ssl, rfl⟩
  exact ⟨by simp [opened], by simp [opened], by simp [opened]⟩

end Session

theorem logged_in_is_encrypted {s : Session} (h : (sessionSystem env me).Reach (Session.LogsInEncrypted env) s) :
    (s.authenticated_ = true → s.ssl_active_ = true) ∧
      ∀ line, (Command.parse line).verb.beforeLogin = false → s.encrypted = false →
        s.dispatch env line = do
          s.reply 530 "Please login with USER and PASS"
          return s := by
  have hs := Session.sealed_of_reach h
  refine ⟨hs.login, fun line hb hplain => ?_⟩
  rcases Session.dispatch_cases env s line with ⟨hb' | ha, _⟩ | ⟨_, _, hd⟩
  · exact absurd (hb'.symm.trans hb) (by decide)
  · exact absurd ((hs.active (hs.login ha)).symm.trans hplain) (by decide)
  · exact hd

namespace Session

instance (s : Session) (a : Arrival) : Decidable (s.LogsInEncrypted env a) := by
  unfold LogsInEncrypted
  infer_instance

def secureService : Service :=
  let env := Attested.sampleService
  { env with config_.security := { env.config_.security with
      require_ssl := true, ssl_cert_file := "/c", ssl_key_file := "/k" } }

end Session

theorem logged_in_is_encrypted_tls : ∃ s : Session, s.authenticated_ = true ∧ s.ssl_active_ = true := by
  obtain ⟨s, hs, ha⟩ := Option.map_eq_some_iff.1 (show
    ((sessionSystem Session.secureService 0).run (Session.LogsInEncrypted Session.secureService)
      (.opened 3 true true) (Attested.sampleLines ["AUTH TLS", "USER u", "PASS p"])).map (·.authenticated_) =
        some true by decide +kernel)
  exact ⟨s, ha, (logged_in_is_encrypted Session.secureService 0 (.run (.init ⟨_, _, _, rfl⟩) hs)).1 ha⟩

theorem logged_in_is_not_encrypted : Session.secureService.config_.security.require_ssl = true ∧
    ∃ s : Session, (sessionSystem Session.secureService 0).Reach System.anyStep s ∧
      s.authenticated_ = true ∧ s.ssl_active_ = false ∧
      (s.trace Session.secureService 0 (Attested.sampleLine "PWD")).answers 257 = true := by
  refine ⟨rfl, ?_⟩
  obtain ⟨s, hs, he⟩ := Option.map_eq_some_iff.1 (show
    ((sessionSystem Session.secureService 0).run System.anyStep (.opened 3 true true)
      (Attested.sampleLines ["USER u", "PASS p"])).map (fun s => (s.authenticated_, s.ssl_active_,
        (s.trace Session.secureService 0 (Attested.sampleLine "PWD")).answers 257)) = some (true, false, true)
      by decide +kernel)
  simp only [Prod.mk.injEq] at he
  exact ⟨s, .run (.init ⟨_, _, _, rfl⟩) hs, he.1, he.2.1, he.2.2⟩

end SimpleSftpd
