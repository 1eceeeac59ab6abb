import SimpleSftpd.Sessions.VerifiedUser

namespace SimpleSftpd

open Cxx Interaction Prog

variable (env : Service) (me : SessionId)

def portEndpoint (address_port : Str) : Option (Str × Int) :=
  match Session.portParts address_port with
  | some [a, b, c, d, p1, p2] => some (Session.dotted a b c d, p1 * 256 + p2)
  | _ => none

def eprtEndpoint (endpoint : Str) : Option (Str × Int) :=
  match Session.eprtFields (endpoint.headD 0) [] endpoint.tail with
  | [_, address, port] => (stoi port).map (address, ·)
  | _ => none

def Command.endpoint : Command → Option (Str × Int)
  | ⟨.port, a⟩ => portEndpoint a
  | ⟨.eprt, a⟩ => eprtEndpoint a
  | _ => none

def IsPort (port : Int) : Prop := 1024 ≤ port ∧ port ≤ 65535

/-- A session and, as history, the endpoints that commands answered 200 have named. -/
structure Routed where
  session : Session
  named : List (Str × Int)

def routedSystem : System Routed Arrival where
  init v := v.session.IsNew ∧ v.named = []
  next v a := (v.session.after env me a).map fun s' => ⟨s',
    if (v.session.trace env me a).answers 200 then a.command.endpoint.toList ++ v.named else v.named⟩

def Routed.NamesPort (v : Routed) (a : Arrival) : Prop :=
  a.command.verb = .port → v.session.authenticated_ = true → v.session.data.epsv_all_ = false →
    ∀ e, portEndpoint a.command.argument = some e → IsPort e.2

structure Routed.Sound (v : Routed) : Prop where
  connected : v.session.socket_ ≠ none
  enabled : v.session.data.active_mode_enabled_ = true →
    (v.session.data.active_mode_ip_, v.session.data.active_mode_port_) ∈ v.named ∧
      IsPort v.session.data.active_mode_port_

variable {env me}

lemma connect_kind {v : Verb} {d : DataConnection} {ip : Str} {port : Int}
    (h : .connect ip port ∈ Kind.reply :: v.kinds d) :
    d.active_mode_enabled_ = true ∧ ip = d.active_mode_ip_ ∧ port = d.active_mode_port_ := by
  cases v <;>
    simp [Verb.kinds, Session.dataKinds, storeKinds, retrieveKinds, Session.passKinds] at h <;> exact h

namespace DataConnection

variable {d d' : DataConnection} {w w' : World}

lemma closeDataSocket_run (h : d.closeDataSocket.exec (World.machine me) w = (.ok d', w')) :
    d' = { d with data_socket_ := none, passive_listen_socket_ := none } :=
  (closeDataSocket_within d (List.mem_singleton.2 rfl) rfl :
    d.closeDataSocket.Within (Kinds [.close]) (· = _)).exec _ h

end DataConnection

namespace Session

variable {s : Session} {w w' : World} {d : DataConnection}

inductive EndpointRun (d : DataConnection) (named : Option (Str × Int)) : DataConnection → ℕ → Prop
  | refused (code : ℕ) : 500 ≤ code → EndpointRun d named d code
  | accepted (ip : Str) (port : Int) : named = some (ip, port) → IsPort port →
    EndpointRun d named
      { d with
        data_socket_ := none, passive_listen_socket_ := none,
        active_mode_ip_ := ip, active_mode_port_ := port, active_mode_enabled_ := true } 200

inductive EndpointProg (s : Session) (named : Option (Str × Int)) (p : Io DataConnection) : Prop
  | refused (code : ℕ) (text : Str) : 500 ≤ code → p = (do s.reply code text; return s.data) →
    EndpointProg s named p
  | accepted (ip : Str) (port : Int) (stored : DataConnection) (text : Str)
      (enable : DataConnection → DataConnection) :
    named = some (ip, port) → IsPort port →
    enable { stored with data_socket_ := none, passive_listen_socket_ := none } =
      { s.data with
        data_socket_ := none, passive_listen_socket_ := none,
        active_mode_ip_ := ip, active_mode_port_ := port, active_mode_enabled_ := true } →
    p = (do
      let closed ← stored.closeDataSocket
      s.reply 200 text
      return enable closed) → EndpointProg s named p

lemma handlePORT_prog {a : Str}
    (hok : s.data.epsv_all_ = false → ∀ e, portEndpoint a = some e → IsPort e.2) :
    EndpointProg s (portEndpoint a) (s.handlePORT a) := by
  unfold handlePORT
  split
  · exact .refused _ _ (by decide) rfl
  · rename_i hall
    split
    · rename_i x1 x2 x3 x4 p1 p2 hparts
      have hname : portEndpoint a = some (dotted x1 x2 x3 x4, p1 * 256 + p2) := by
        simp [portEndpoint, hparts]
      have hport : IsPort (p1 * 256 + p2) := hok (by simpa using hall) _ hname
      have hwrap : wrapInt (wrapInt (p1 * 256) + p2) = p1 * 256 + p2 := by
        unfold IsPort at hport
        simp only [wrapInt]
        omega
      have hno : ¬(p1 * 256 + p2 < 1024 ∨ p1 * 256 + p2 > 65535) := by
        unfold IsPort at hport
        omega
      simp only [hwrap, if_neg hno]
      exact .accepted _ _ _ _ (fun d => { d with active_mode_enabled_ := true }) hname hport rfl rfl
    · exact .refused _ _ (by decide) rfl

lemma handleEPRT_prog (s : Session) (a : Str) : EndpointProg s (eprtEndpoint a) (s.handleEPRT a) := by
  unfold handleEPRT
  split
  · exact .refused _ _ (by decide) rfl
  · split
    · exact .refused _ _ (by decide) rfl
    · dsimp only
      split
      · exact .refused _ _ (by decide) rfl
      · split
        · rename_i protocol address text hfields
          split
          · exact .refused _ _ (by decide) rfl
          · split
            · exact .refused _ _ (by decide) rfl
            · rename_i port hport
              split
              · exact .refused _ _ (by decide) rfl
              · rename_i hrange
                exact .accepted address port s.data _
                  (fun d => { d with
                    active_mode_ip_ := address, active_mode_port_ := port, active_mode_enabled_ := true })
                  (by simp only [eprtEndpoint, hfields, hport, Option.map_some]) ⟨by omega, by omega⟩ rfl rfl
        · exact .refused _ _ (by decide) rfl

lemma EndpointProg.run {named : Option (Str × Int)} {p : Io DataConnection}
    (hp : EndpointProg s named p) (hs : s.socket_ ≠ none)
    (h : p.exec (World.machine me) w = (.ok d, w')) :
    ∃ c, EndpointRun s.data named d c ∧
      ∀ c', Trace.answers (p.calls (World.machine me) w) c' = decide (c = c') := by
  cases hp with
  | refused code text hcode hp =>
    subst hp
    obtain ⟨rfl, _, hc⟩ := reply_return me hs h
    exact ⟨code, .refused code hcode, hc⟩
  | accepted ip port stored text enable hn hport henable hp =>
    subst hp
    have hclose : stored.closeDataSocket.Within (Kinds [.close]) fun _ => True :=
      DataConnection.closeDataSocket_within stored (List.mem_singleton.2 rfl) trivial
    obtain ⟨closed, v, hc, hr⟩ := exec_bind_ok (World.machine me) h
    obtain rfl := DataConnection.closeDataSocket_run hc
    obtain ⟨rfl, _, hcode⟩ := reply_return me hs hr
    refine ⟨200, henable ▸ .accepted ip port hn hport, fun c' => ?_⟩
    rw [calls_bind, hc, Trace.answers_append, answers_of_within me hclose (by simp), Bool.false_or]
    exact hcode c'

lemma EndpointProg.store_run {s' : Session} {named : Option (Str × Int)} {p : Io DataConnection}
    (hp : EndpointProg s named p) (hs : s.socket_ ≠ none)
    (h : (p >>= fun d => pure { s with data := d }).exec (World.machine me) w = (.ok s', w')) :
    ∃ d c, s' = { s with data := d } ∧ EndpointRun s.data named d c ∧ ∀ c', Trace.answers
      ((p >>= fun d => pure { s with data := d }).calls (World.machine me) w) c' = decide (c = c') := by
  obtain ⟨d, v, hd, hr⟩ := exec_bind_ok (World.machine me) h
  obtain ⟨c, hrun, hc⟩ := hp.run hs hd
  cases hr
  exact ⟨d, c, rfl, hrun, fun c' => by rw [calls_bind_pure, hc]⟩

lemma endpoint_run {s' : Session} {a : Arrival} (hs : s.socket_ ≠ none)
    (hv : a.command.verb = .port ∨ a.command.verb = .eprt)
    (hok : a.command.verb = .port → s.authenticated_ = true → s.data.epsv_all_ = false →
      ∀ e, portEndpoint a.command.argument = some e → IsPort e.2)
    (h : s.after env me a = some s') : ∃ d c, s' = { s with data := d } ∧
      EndpointRun s.data a.command.endpoint d c ∧
        ∀ c', (s.trace env me a).answers c' = decide (c = c') := by
  obtain ⟨w', he⟩ := exec_of_after h
  unfold trace
  rcases dispatch_cases env s a.line with ⟨hb, hd⟩ | ⟨_, _, hd⟩
  · rw [hd] at he ⊢
    change (s.handle env a.command).exec _ _ = _ at he
    change ∃ d c, _ ∧ _ ∧ ∀ c', Trace.answers ((s.handle env a.command).calls _ _) c' = _
    change a.command.verb.beforeLogin = true ∨ _ at hb
    generalize a.command = command at *
    rcases command with ⟨v, arg⟩
    rcases hv with rfl | rfl
    · exact (handlePORT_prog (hok rfl (hb.resolve_left (by simp [Verb.beforeLogin])))).store_run hs he
    · exact (handleEPRT_prog s arg).store_run hs he
  · rw [hd] at he ⊢
    obtain ⟨rfl, _, hc⟩ := reply_return me hs he
    exact ⟨s'.data, 530, rfl, .refused 530 (by decide), hc⟩

end Session

namespace Routed

lemma sound_step {v v' : Routed} {a : Arrival} (hv : v.Sound) (hok : v.NamesPort a)
    (h : (routedSystem env me).next v a = some v') : v'.Sound := by
  obtain ⟨s', hs', rfl⟩ := Option.map_eq_some_iff.1 h
  have hmem {e : Str × Int} (he : e ∈ v.named) : e ∈
      if (v.session.trace env me a).answers 200 then a.command.endpoint.toList ++ v.named else v.named := by
    split
    · exact List.mem_append_right _ he
    · exact he
  by_cases hport : a.command.verb = .port ∨ a.command.verb = .eprt
  · obtain ⟨d, c, rfl, hrun, hc⟩ := Session.endpoint_run hv.connected hport hok hs'
    refine ⟨hv.connected, fun he => ?_⟩
    cases hrun with
    | refused _ hcode => exact ⟨hmem (hv.enabled he).1, (hv.enabled he).2⟩
    | accepted ip port hn hp => simp [hc, hn, hp]
  · have hkeep := Session.after_frame hs'
    refine ⟨hkeep.socket ▸ hv.connected, fun he => ?_⟩
    obtain ⟨he, hip, hp⟩ := hkeep.inherits (by simpa using hport) he
    simp only [hip, hp]
    exact ⟨hmem (hv.enabled he).1, (hv.enabled he).2⟩

lemma sound_of_reach {v : Routed} (h : (routedSystem env me).Reach NamesPort v) : v.Sound := by
  refine h.invariant ?_ fun _ _ _ hv hok hn => sound_step hv hok hn
  rintro v ⟨⟨fd, context, ssl, hs⟩, _⟩
  exact ⟨by simp [hs, Session.opened], by simp [hs, Session.opened]⟩

end Routed

variable (env me)

theorem endpoints_are_named {v : Routed} (h : (routedSystem env me).Reach Routed.NamesPort v) {a : Arrival}
    (hok : v.NamesPort a) :
    (a.command.verb = .port ∨ a.command.verb = .eprt → ∀ s', v.session.after env me a = some s' →
      (∃ code, 500 ≤ code ∧ (v.session.trace env me a).answers code = true) →
        s'.data.active_mode_ip_ = v.session.data.active_mode_ip_ ∧
        s'.data.active_mode_port_ = v.session.data.active_mode_port_ ∧
        s'.data.active_mode_enabled_ = v.session.data.active_mode_enabled_) ∧
      ∀ c ∈ v.session.trace env me a, ∀ ip port, c.2.2.kind = .connect ip port →
        (ip, port) ∈ v.named ∧ IsPort port := by
  have hv := Routed.sound_of_reach h
  refine ⟨fun hport s' hs' ⟨code, hcode, h5⟩ => ?_, fun c hc ip port hk => ?_⟩
  · obtain ⟨d, c, rfl, hrun, hc⟩ := Session.endpoint_run hv.connected hport hok hs'
    rw [hc, decide_eq_true_eq] at h5
    subst h5
    cases hrun with
    | refused => exact ⟨rfl, rfl, rfl⟩
    | accepted => omega
  · have hkinds := (Session.dispatch_within a.line).calls _ _ c hc
    unfold Kinds at hkinds
    rw [hk] at hkinds
    obtain ⟨he, rfl, rfl⟩ := connect_kind hkinds
    exact hv.enabled he

namespace Routed

instance (v : Routed) (a : Arrival) : Decidable (v.NamesPort a) := by
  unfold NamesPort IsPort
  infer_instance

end Routed

theorem endpoints_are_named_list : ∃ v : Routed,
    (∃ c ∈ v.session.trace Attested.sampleService 0 (Attested.sampleLine "LIST"),
      c.2.2.kind = .connect "127.0.0.1" 1052) ∧ (("127.0.0.1" : Str), (1052 : Int)) ∈ v.named := by
  obtain ⟨v, hv, he⟩ := Option.map_eq_some_iff.1 (show
    ((routedSystem Attested.sampleService 0).run Routed.NamesPort ⟨.opened 3 false false, []⟩
      (Attested.sampleLines ["USER u", "PASS p", "PORT 127,0,0,1,4,28"])).map
      (fun v => (v.session.trace Attested.sampleService 0 (Attested.sampleLine "LIST")).any
        fun c => c.2.2.kind = .connect "127.0.0.1" 1052) = some true by decide +kernel)
  obtain ⟨c, hc, hk⟩ := List.any_eq_true.1 he
  have hk := of_decide_eq_true hk
  have hlist : (Attested.sampleLine "LIST").command.verb ≠ .port := by decide
  exact ⟨v, ⟨c, hc, hk⟩, ((endpoints_are_named Attested.sampleService 0 (.run (.init ⟨⟨_, _, _, rfl⟩, rfl⟩) hv)
    (fun h => absurd h hlist)).2 c hc _ _ hk).1⟩

theorem endpoints_are_not_named : ∃ v : Routed,
    (routedSystem Attested.sampleService 0).Reach System.anyStep v ∧
      (∃ c ∈ v.session.trace Attested.sampleService 0 (Attested.sampleLine "LIST"),
        c.2.2.kind = .connect "10.0.0.1" 80) ∧
      (("10.0.0.1" : Str), (80 : Int)) ∉ v.named := by
  obtain ⟨v, hv, he⟩ := Option.map_eq_some_iff.1 (show
    ((routedSystem Attested.sampleService 0).run System.anyStep ⟨.opened 3 false false, []⟩
      (Attested.sampleLines ["USER u", "PASS p", "PORT 127,0,0,1,4,28", "PORT 10,0,0,1,0,80"])).map
      (fun v => ((v.session.trace Attested.sampleService 0 (Attested.sampleLine "LIST")).any
        (fun c => c.2.2.kind = .connect "10.0.0.1" 80), decide ((("10.0.0.1" : Str), (80 : Int)) ∈ v.named))) =
        some (true, false)
      by decide +kernel)
  obtain ⟨c, hc, hk⟩ := List.any_eq_true.1 (congrArg Prod.fst he)
  exact ⟨v, .run (.init ⟨⟨_, _, _, rfl⟩, rfl⟩) hv, ⟨c, hc, of_decide_eq_true hk⟩,
    of_decide_eq_false (congrArg Prod.snd he)⟩

end SimpleSftpd
