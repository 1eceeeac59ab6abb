import SimpleSftpd.Core.Answered
import SimpleSftpd.Sessions.VerifiedUser

namespace SimpleSftpd

open Cxx Interaction Prog

variable (env : Service) (me : SessionId)

/-- The ghost state is the descriptor last put to listen. -/
def listening : Contract Call (Option Fd) where
  pre _ _ := True
  post _ _ _ := True
  next g o := match o with
    | .listen fd => fun ok => if ok then some fd else g
    | _ => fun _ => g

def Trace.listener (t : Trace) : Option Fd := listening.final (World.machine me) none t

def Command.isEpsvAll (c : Command) : Bool := c.verb = .epsv && upper c.argument = "ALL"

/-- A session and, as history, whether EPSV ALL has been answered 200 and what the last EPSV since
then put to listen. -/
structure Extended where
  session : Session
  all : Bool
  listener : Option Fd

def extendedSystem : System Extended Arrival where
  init v := v.session.IsNew ∧ v.all = false ∧ v.listener = none
  next v a := (v.session.after env me a).map fun s' => ⟨s',
    v.all || a.command.isEpsvAll && (v.session.trace env me a).answers 200,
    if v.all && a.command.verb = .epsv then ((v.session.trace env me a).listener me).or v.listener
    else v.listener⟩

def Extended.Unprepared (v : Extended) (a : Arrival) : Prop :=
  v.all = false → a.command.isEpsvAll = true → v.session.authenticated_ = true →
    v.session.data.active_mode_enabled_ = false ∧ v.session.data.passive_listen_socket_ = none

def Call.accepts? {β : Type} : Call β → Option Fd
  | accept fd => some fd
  | _ => none

structure Call.Passive {β : Type} (listener : Option Fd) (c : Call β) : Prop where
  connect : ∀ ip port, c.kind ≠ .connect ip port
  accept : ∀ fd, c.accepts? = some fd → listener = some fd

structure DataConnection.Locked (d : DataConnection) : Prop where
  all : d.epsv_all_ = true
  inactive : d.active_mode_enabled_ = false

structure Extended.Sound (v : Extended) : Prop where
  connected : v.session.socket_ ≠ none
  locked : v.all = true → v.session.data.Locked
  listener : v.all = true → ∀ fd, v.session.data.passive_listen_socket_ = some fd → v.listener = some fd

variable {env me} {s s' : Session} {a : Arrival} {d : DataConnection} {listener : Option Fd} {β : Type}

lemma passive_of_kind {c : Call β} (hc : c.kind ≠ .opens) (hconnect : ∀ ip port, c.kind ≠ .connect ip port) :
    c.Passive listener := by
  refine ⟨hconnect, fun fd h => ?_⟩
  cases c with
  | accept => exact absurd rfl hc
  | _ => cases h

lemma allows_passive {ks : List Kind} (hks : .opens ∉ ks) (hconnect : ∀ ip port, .connect ip port ∉ ks) :
    Allows (fun o => o.2.Passive listener) ks :=
  fun _ ho => passive_of_kind (fun h => hks (h ▸ ho)) fun ip port h => hconnect ip port (h ▸ ho)

lemma kinds_passive {v : Verb} (hv : v.usesData = false) :
    .opens ∉ v.kinds d ∧ ∀ ip port, .connect ip port ∉ v.kinds d := by
  cases v <;> simp [Verb.usesData] at hv <;> simp [Verb.kinds, Session.passKinds]

namespace DataConnection

def Keeps (d d' : DataConnection) : Prop := d'.Locked ∧ d'.passive_listen_socket_ = d.passive_listen_socket_

lemma acceptDataConnection_passive (hd : d.Locked) :
    d.acceptDataConnection.Within (fun o => o.2.Passive d.passive_listen_socket_) fun r => d.Keeps r.2 := by
  unfold acceptDataConnection
  rw [if_neg (by simp [hd.inactive])]
  cases hlistener : d.passive_listen_socket_ with
  | none => exact (within_pure _).2 ⟨hd, rfl⟩
  | some listener =>
    refine within_bind.2 ((within_perform _).2 ⟨passive_of_kind (by simp [Call.kind]) (by simp [Call.kind]), ?_⟩)
    refine fun ready => within_ite.2 ⟨fun _ => (within_pure _).2 ⟨hd, rfl⟩, fun _ => ?_⟩
    refine within_bind.2 ((within_perform _).2 ⟨⟨by simp [Call.kind], fun fd h => ?_⟩, fun accepted => ?_⟩)
    · exact h
    · exact (within_pure _).2 ⟨⟨hd.all, hd.inactive⟩, hlistener.symm⟩

lemma createPassiveDataSocket_passive (hd : d.Locked) (config : ConnectionConfig) :
    (d.createPassiveDataSocket config).Within (fun o => o.2.Passive listener) fun r => r.2.Locked := by
  have hclose : Allows (fun o => o.2.Passive listener) [.close] := allows_passive (by simp) (by simp)
  have hbind : Allows (fun o => o.2.Passive listener) [.transfer] := allows_passive (by simp) (by simp)
  refine within_bind.2 (hclose.within (closeDataSocket_within d (by simp) ?_))
  refine within_bind.2 ((within_perform _).2 ⟨⟨by simp [Call.kind], fun _ h => (by cases h)⟩, fun made => ?_⟩)
  cases made with
  | none => exact (within_pure _).2 ⟨hd.all, hd.inactive⟩
  | some fd =>
    refine Within.bind (hbind.within (bindFrom_within (by simp) _ _ _)) fun found => ?_
    cases found with
    | none => exact Session.perform_calls hclose (.close fd) (by simp [Call.kind]) fun _ =>
      (within_pure _).2 ⟨hd.all, hd.inactive⟩
    | some port => exact (within_pure _).2 ⟨hd.all, hd.inactive⟩

end DataConnection

lemma listening_quiet {α : Type} {p : Io α} {ks : List Kind} {P : α → Prop} {P' : α → Option Fd → Prop}
    {g : Option Fd}
    (h : p.Within (Kinds ks) P) (hks : .transfer ∉ ks) (hP : ∀ r, P r → P' r g) : Meets listening p P' g := by
  refine h.meets (fun o ho => ⟨trivial, fun r => ?_⟩) hP
  cases o with
  | listen => exact absurd ho hks
  | _ => rfl

lemma listening_call {α : Type} {c : Call β} {f : β → Io α} {P : α → Option Fd → Prop} {g : Option Fd}
    (h : ∀ r, Meets listening (f r) P (listening.next g c r)) : Meets listening (perform c >>= f) P g :=
  meets_bind.2 ((meets_perform c).2 ⟨trivial, fun r _ => h r⟩)

lemma bindFrom_listening (fd : Fd) (n : ℕ) : ∀ port, Meets listening (DataConnection.bindFrom fd port n)
    (fun found g => found.isSome = true → g = some fd) none := by
  induction n with
  | zero => exact fun port => (meets_pure _).2 fun h => absurd h Bool.false_ne_true
  | succ n ih =>
    refine fun port => listening_call fun bound => ?_
    refine meets_ite.2 ⟨fun _ => listening_call fun ok => ?_, fun _ => ih _⟩
    cases ok with
    | true => exact (meets_pure _).2 fun _ => rfl
    | false => exact ih _

lemma createPassiveDataSocket_listening (d : DataConnection) (config : ConnectionConfig) :
    Meets listening (d.createPassiveDataSocket config) (fun r g =>
      ∀ fd, r.2.passive_listen_socket_ = some fd → g = some fd) none := by
  have hclose : d.closeDataSocket.Within (Kinds [.close]) fun d' => d'.passive_listen_socket_ = none :=
    DataConnection.closeDataSocket_within d (by simp) rfl
  refine meets_bind.2 (listening_quiet hclose (by simp) fun d hd => listening_call fun made => ?_)
  have hnone : ∀ fd, d.passive_listen_socket_ = some fd → (none : Option Fd) = some fd :=
    fun fd h => hd.symm.trans h
  cases made with
  | none => exact (meets_pure _).2 hnone
  | some fd =>
    refine meets_bind.2 ((bindFrom_listening fd _ _).mono fun found g hg => ?_)
    cases found with
    | none =>
      refine listening_call fun _ => ?_
      exact (meets_pure _).2 fun fd h => by cases hd.symm.trans h
    | some port =>
      refine (meets_pure _).2 fun fd' h => ?_
      cases h
      exact hg rfl

namespace Session

open DataConnection

lemma handleEPSV_passive (hd : s.data.Locked) (argument : Str) : (s.handleEPSV env argument).Within
    (fun o => o.2.Passive listener) Locked := by
  have hsay : Allows (fun o => o.2.Passive listener) [.reply] := allows_passive (by simp) (by simp)
  have hclose : Allows (fun o => o.2.Passive listener) [.close] := allows_passive (by simp) (by simp)
  refine within_ite.2 ⟨fun _ => reply_return_calls hsay (by simp) _ _ ⟨rfl, hd.inactive⟩, fun _ => ?_⟩
  refine within_ite.2 ⟨fun _ => reply_return_calls hsay (by simp) _ _ hd, fun _ => ?_⟩
  refine within_bind.2 (hclose.within (closeDataSocket_within _ (by simp) ?_))
  refine within_bind.2 ((createPassiveDataSocket_passive ?_ _).mono (fun _ ho => ho) fun r hr => ?_)
  · exact ⟨hd.all, rfl⟩
  refine within_ite.2 ⟨fun _ => ?_, fun _ => ?_⟩
  · exact reply_return_calls hsay (by simp) _ _ hr
  · exact reply_return_calls hsay (by simp) _ _ hr

lemma handleEPSV_listening (argument : Str) : Meets listening (s.handleEPSV env argument) (fun d g =>
    ∀ fd, d.passive_listen_socket_ = some fd → g = some fd ∨
      (g = none ∧ s.data.passive_listen_socket_ = some fd)) none := by
  have hsay (t : Session) (code : ℕ) (text : Str) : (t.reply code text).Within (Kinds [.reply]) fun _ =>
    True := by simp
  refine meets_ite.2 ⟨fun _ => ?_, fun _ => meets_ite.2 ⟨fun _ => ?_, fun _ => ?_⟩⟩
  · refine meets_bind.2 (listening_quiet (hsay _ _ _) (by simp) fun _ _ => ?_)
    exact (meets_pure _).2 fun fd h => .inr ⟨rfl, h⟩
  · refine meets_bind.2 (listening_quiet (hsay _ _ _) (by simp) fun _ _ => ?_)
    exact (meets_pure _).2 fun fd h => .inr ⟨rfl, h⟩
  · have hclose : ({ s.data with active_mode_enabled_ := false }.closeDataSocket).Within (Kinds [.close])
        fun _ => True :=
      closeDataSocket_within _ (by simp) trivial
    refine meets_bind.2 (listening_quiet hclose (by simp) fun d _ => meets_bind.2 ?_)
    refine (createPassiveDataSocket_listening d _).mono fun r g hg => ?_
    refine meets_ite.2 ⟨fun _ => ?_, fun _ => ?_⟩
    · refine meets_bind.2 (listening_quiet (hsay _ _ _) (by simp) fun _ _ => ?_)
      exact (meets_pure _).2 fun fd h => .inl (hg fd h)
    · refine meets_bind.2 (listening_quiet (hsay _ _ _) (by simp) fun _ _ => ?_)
      exact (meets_pure _).2 fun fd h => .inl (hg fd h)

lemma handle_passive (hd : s.data.Locked) (c : Command) :
    (s.handle env c).Within (fun o => o.2.Passive s.data.passive_listen_socket_) fun s' =>
      s'.data.Locked ∧ (c.verb ≠ .epsv → ∀ fd, s'.data.passive_listen_socket_ = some fd →
        s.data.passive_listen_socket_ = some fd) := by
  have hsame : s.data.Keeps s.data := ⟨hd, rfl⟩
  have hmoved (s' : Session) (h : Carried s.data.Keeps s s') : s'.data.Locked ∧ (c.verb ≠ .epsv →
      ∀ fd, s'.data.passive_listen_socket_ = some fd → s.data.passive_listen_socket_ = some fd) := by
    obtain ⟨d, _, _, hk, rfl⟩ := h
    exact ⟨hk.1, fun _ fd hfd => hk.2.symm.trans hfd⟩
  have hlist (d : DataConnection) (hk : s.data.Keeps d) : d.Locked ∧ (c.verb ≠ .epsv →
      ∀ fd, d.passive_listen_socket_ = some fd → s.data.passive_listen_socket_ = some fd) :=
    ⟨hk.1, fun _ fd hfd => hk.2.symm.trans hfd⟩
  have haccept := acceptDataConnection_passive hd
  have hallows {ks : List Kind} (hks : .opens ∉ ks) (hconnect : ∀ ip port, .connect ip port ∉ ks) :
      Allows (fun o => o.2.Passive s.data.passive_listen_socket_) ks := allows_passive hks hconnect
  have hsay : Allows (fun o => o.2.Passive s.data.passive_listen_socket_) [.reply] := hallows (by simp) (by simp)
  by_cases hv : c.verb.usesData = true
  · rcases c with ⟨v, a⟩
    cases v with
    | retr => exact (handleRETR_calls (hallows (by simp) (by simp)) hsame haccept a).mono (fun _ ho => ho) hmoved
    | stor => exact (handleSTOR_calls (hallows (by simp) (by simp)) hsame haccept a).mono (fun _ ho => ho) hmoved
    | stou => exact (handleSTOU_calls (hallows (by simp) (by simp)) hsame haccept a).mono (fun _ ho => ho) hmoved
    | appe => exact (handleAPPE_calls (hallows (by simp) (by simp)) hsame haccept a).mono (fun _ ho => ho) hmoved
    | list =>
      refine within_bind.2 ((handleLIST_calls (hallows (by simp) (by simp)) hsame haccept a).mono
        (fun _ ho => ho) ?_)
      exact fun d hk => (within_pure _).2 (hlist d hk)
    | mlsd =>
      refine within_bind.2 ((handleMLSD_calls (hallows (by simp) (by simp)) hsame haccept a).mono
        (fun _ ho => ho) ?_)
      exact fun d hk => (within_pure _).2 (hlist d hk)
    | epsv =>
      refine within_bind.2 ((handleEPSV_passive hd a).mono (fun _ ho => ho) fun d hk => ?_)
      refine (within_pure _).2 ?_
      exact ⟨hk, fun h => absurd rfl h⟩
    | pasv =>
      refine within_bind.2 ?_
      rw [handlePASV, if_pos hd.all]
      exact reply_return_calls hsay (by simp) _ _ ((within_pure _).2 ⟨hd, fun _ _ h => h⟩)
    | port =>
      refine within_bind.2 ?_
      rw [handlePORT, if_pos hd.all]
      exact reply_return_calls hsay (by simp) _ _ ((within_pure _).2 ⟨hd, fun _ _ h => h⟩)
    | eprt =>
      refine within_bind.2 ?_
      rw [handleEPRT, if_pos hd.all]
      exact reply_return_calls hsay (by simp) _ _ ((within_pure _).2 ⟨hd, fun _ _ h => h⟩)
    | abor =>
      refine within_bind.2
        (within_bind.2
        ((hallows (by simp) (by simp)).within (closeDataSocket_within _ (List.mem_singleton_self _) ?_)))
      refine reply_return_calls hsay (by simp) _ _ ((within_pure _).2 ⟨⟨hd.all, hd.inactive⟩, fun _ fd h => ?_⟩)
      cases h
    | _ => simp [Verb.usesData] at hv
  · have hquiet : c.verb.usesData = false := by simpa using hv
    obtain ⟨hopens, hconnect⟩ := kinds_passive (d := s.data) hquiet
    refine (handle_within c).mono (allows_passive hopens hconnect) fun s' he => ?_
    rw [he.frame.data hquiet]
    exact ⟨hd, fun _ _ h => h⟩

lemma trace_passive (hd : s.data.Locked) {c : World × Σ β, Call β} (hc : c ∈ s.trace env me a) :
    c.2.2.Passive s.data.passive_listen_socket_ := by
  have hsay : Allows (fun o => o.2.Passive s.data.passive_listen_socket_) [.reply] :=
    allows_passive (by simp) (by simp)
  have hdispatch : (s.dispatch env a.line).Within (fun o => o.2.Passive s.data.passive_listen_socket_)
      fun _ => True := by
    rcases dispatch_cases env s a.line with ⟨_, h⟩ | ⟨_, _, h⟩
    · rw [h]
      exact (handle_passive hd _).mono (fun _ ho => ho) fun _ _ => trivial
    · rw [h]
      exact reply_return_calls hsay (by simp) _ _ trivial
  exact hdispatch.calls _ _ c hc

lemma after_passive (hd : s.data.Locked) (h : s.after env me a = some s') : s'.data.Locked ∧
    (a.command.verb ≠ .epsv → ∀ fd, s'.data.passive_listen_socket_ = some fd →
      s.data.passive_listen_socket_ = some fd) := by
  obtain ⟨w', he⟩ := exec_of_after h
  rcases dispatch_cases env s a.line with ⟨_, hh⟩ | ⟨_, _, hh⟩
  · rw [hh] at he
    exact (handle_passive hd _).exec _ he
  · have hsame : (s.dispatch env a.line).Within (Kinds [.reply]) fun s' => s' = s := by
      rw [hh]
      simp
    obtain rfl := hsame.exec _ he
    exact ⟨hd, fun _ _ h => h⟩

lemma epsv_listener (hv : a.command.verb = .epsv) (h : s.after env me a = some s') {fd : Fd}
    (hfd : s'.data.passive_listen_socket_ = some fd) : (s.trace env me a).listener me = some fd ∨
      ((s.trace env me a).listener me = none ∧ s.data.passive_listen_socket_ = some fd) := by
  have hsay : (s.reply 530 "Please login with USER and PASS").Within (Kinds [.reply]) fun _ => True := by simp
  have hdispatch : Meets listening (s.dispatch env a.line) (fun s' g => ∀ fd,
    s'.data.passive_listen_socket_ = some fd →
      g = some fd ∨ (g = none ∧ s.data.passive_listen_socket_ = some fd)) none := by
    rcases dispatch_cases env s a.line with ⟨_, hh⟩ | ⟨_, _, hh⟩
    · rw [hh]
      change Meets listening (s.handle env a.command) _ none
      rw [Arrival.command_eq hv]
      exact meets_bind.2 ((handleEPSV_listening _).mono fun _ _ hd => (meets_pure _).2 hd)
    · rw [hh]
      refine meets_bind.2 (listening_quiet hsay (by simp) fun _ _ => ?_)
      exact (meets_pure _).2 fun fd h => .inr ⟨rfl, h⟩
  have hdescribes : listening.Describes (World.machine me) fun _ _ => True := fun _ _ _ _ _ => ⟨trivial, trivial⟩
  obtain ⟨w', he⟩ := exec_of_after h
  exact (hdispatch.leads hdescribes (w := a.world) trivial) s' w' he fd hfd

lemma epsvAll_run (hs : s.socket_ ≠ none) (hv : a.command.isEpsvAll = true) (h : s.after env me a = some s')
    (h200 : (s.trace env me a).answers 200 = true) :
    s.authenticated_ = true ∧ s'.data = { s.data with epsv_all_ := true } := by
  simp only [Command.isEpsvAll, Bool.and_eq_true, decide_eq_true_eq] at hv
  obtain ⟨code, hcode, hP⟩ := answered_dispatch hs h
    (P := fun code s' _ => (code = 200 → s.authenticated_ = true) ∧
      (s.authenticated_ = true → s'.data = { s.data with epsv_all_ := true }))
    (fun hlogin => by
      have hauth : s.authenticated_ = true := hlogin.resolve_left (by simp [hv.1, Verb.beforeLogin])
      have hall : s.handleEPSV env a.command.argument = do
          s.reply 200 "EPSV ALL command successful"
          return { s.data with epsv_all_ := true } := if_pos hv.2
      rw [Arrival.command_eq hv.1]
      refine answered_pure ?_
      rw [hall]
      exact answered_return hs fun _ _ => ⟨fun _ => hauth, fun _ => rfl⟩)
    fun _ hauth _ _ => ⟨fun h => absurd h (by decide), fun h => absurd (hauth.symm.trans h) Bool.false_ne_true⟩
  have hauth := hP.1 (by simpa [hcode] using h200)
  exact ⟨hauth, hP.2 hauth⟩

end Session

namespace Extended

variable {v v' : Extended}

lemma sound_step (hv : v.Sound) (hok : v.Unprepared a) (h : (extendedSystem env me).next v a = some v') :
    v'.Sound := by
  obtain ⟨s', hs', rfl⟩ := Option.map_eq_some_iff.1 h
  have hconn : s'.socket_ ≠ none := (Session.after_frame hs').socket ▸ hv.connected
  cases hall : v.all with
  | true =>
    obtain ⟨hlocked, hkept⟩ := Session.after_passive (hv.locked hall) hs'
    refine ⟨hconn, fun _ => hlocked, fun _ fd hfd => ?_⟩
    by_cases hepsv : a.command.verb = .epsv
    · simp only [hepsv, decide_true, Bool.and_true, if_true]
      rcases Session.epsv_listener hepsv hs' hfd with hnew | ⟨hnone, hold⟩
      · rw [hnew]
        rfl
      · rw [hnone]
        exact hv.listener hall fd hold
    · simp only [hepsv, decide_false, Bool.and_false, Bool.false_eq_true, if_false]
      exact hv.listener hall fd (hkept hepsv fd hfd)
  | false =>
    have hnew (hnow : (false || a.command.isEpsvAll && (v.session.trace env me a).answers 200) = true) :
        s'.data.Locked ∧ s'.data.passive_listen_socket_ = none := by
      simp only [Bool.false_or, Bool.and_eq_true] at hnow
      obtain ⟨hauth, hdata⟩ := Session.epsvAll_run hv.connected hnow.1 hs' hnow.2
      obtain ⟨hinactive, hlistener⟩ := hok hall hnow.1 hauth
      exact ⟨⟨congrArg DataConnection.epsv_all_ hdata, by rw [hdata]; exact hinactive⟩,
        by rw [hdata]; exact hlistener⟩
    exact ⟨hconn, fun hnow => (hnew hnow).1, fun hnow fd hfd => by cases (hnew hnow).2.symm.trans hfd⟩

lemma sound_of_reach (h : (extendedSystem env me).Reach Unprepared v) : v.Sound := by
  refine h.invariant ?_ fun _ _ _ hv hok hn => sound_step hv hok hn
  rintro v ⟨⟨fd, context, ssl, hs⟩, hall, _⟩
  exact ⟨by simp [hs, Session.opened], fun h => by simp [hall] at h, fun h => by simp [hall] at h⟩

end Extended

variable (env me)

theorem epsv_all_is_kept {v : Extended} (h : (extendedSystem env me).Reach Extended.Unprepared v)
    (hall : v.all = true)
    (a : Arrival) : ∀ c ∈ v.session.trace env me a, c.2.2.Passive v.listener := by
  have hv := Extended.sound_of_reach h
  intro c hc
  have hpassive := Session.trace_passive (hv.locked hall) hc
  exact ⟨hpassive.connect, fun fd hfd => hv.listener hall fd (hpassive.accept fd hfd)⟩

instance (v : Extended) (a : Arrival) : Decidable (v.Unprepared a) := by
  unfold Extended.Unprepared
  infer_instance

theorem epsv_all_is_kept_list : ∃ v : Extended, v.listener = some 0 ∧
    (∃ c ∈ v.session.trace Attested.sampleService 0 (Attested.sampleLine "LIST"), c.2.2.accepts? = some 0) ∧
      ∀ c ∈ v.session.trace Attested.sampleService 0 (Attested.sampleLine "LIST"), c.2.2.Passive v.listener := by
  obtain ⟨v, hv, he⟩ := Option.map_eq_some_iff.1 (show
    ((extendedSystem Attested.sampleService 0).run Extended.Unprepared ⟨.opened 3 false false, false, none⟩
      (Attested.sampleLines ["USER u", "PASS p", "EPSV ALL", "EPSV"])).map
      (fun v => (v.all, v.listener, (v.session.trace Attested.sampleService 0 (Attested.sampleLine "LIST")).any
        (fun c => c.2.2.accepts? = some 0))) = some (true, some 0, true) by decide +kernel)
  simp only [Prod.mk.injEq] at he
  obtain ⟨c, hc, hk⟩ := List.any_eq_true.1 he.2.2
  exact ⟨v, he.2.1, ⟨c, hc, of_decide_eq_true hk⟩, epsv_all_is_kept Attested.sampleService 0
    (.run (.init ⟨⟨_, _, _, rfl⟩, rfl, rfl⟩) hv) he.1 _⟩

theorem epsv_all_is_not_kept : ∃ v : Extended, (extendedSystem Attested.sampleService 0).Reach System.anyStep v ∧
    v.all = true ∧ ∃ c ∈ v.session.trace Attested.sampleService 0 (Attested.sampleLine "LIST"),
      c.2.2.kind = .connect "127.0.0.1" 1052 := by
  obtain ⟨v, hv, he⟩ := Option.map_eq_some_iff.1 (show
    ((extendedSystem Attested.sampleService 0).run System.anyStep ⟨.opened 3 false false, false, none⟩
      (Attested.sampleLines ["USER u", "PASS p", "PORT 127,0,0,1,4,28", "EPSV ALL"])).map
      (fun v => (v.all, (v.session.trace Attested.sampleService 0 (Attested.sampleLine "LIST")).any
        (fun c => c.2.2.kind = .connect "127.0.0.1" 1052))) = some (true, true) by decide +kernel)
  simp only [Prod.mk.injEq] at he
  obtain ⟨c, hc, hk⟩ := List.any_eq_true.1 he.2
  exact ⟨v, .run (.init ⟨⟨_, _, _, rfl⟩, rfl, rfl⟩) hv, he.1, c, hc, of_decide_eq_true hk⟩

end SimpleSftpd
