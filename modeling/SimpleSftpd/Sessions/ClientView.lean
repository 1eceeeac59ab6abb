import SimpleSftpd.Core.Answered
import SimpleSftpd.Sessions.Renames
import SimpleSftpd.Sessions.VerifiedUser

namespace SimpleSftpd

open Cxx Interaction Prog

structure View where
  username : Str := []
  loggedIn : Bool := false
  hostname : Option Str := none
  type : Str := "A"
  mode : Str := "S"
  level : Str := "C"
  utf8 : Bool := true
  epsvAll : Bool := false
  -- RNFR has been answered 350, and no RNTO has come since
  selected : Bool := false
  deriving DecidableEq

def View.hear (v : View) (c : Command) (answers : ℕ → Bool) : View := match c.verb with
  | .user => if answers 331 then { v with username := c.argument, loggedIn := false } else v
  | .pass => if answers 230 then { v with loggedIn := true } else v
  | .host => if answers 220 then { v with hostname := some c.argument } else v
  | .type => if answers 200 then { v with type := c.argument } else v
  | .mode => if answers 200 then { v with mode := if upper c.argument = "Z" then "Z" else "S" } else v
  | .prot => if answers 200 then { v with level :=
    ((Session.protectionLevel c.argument).map Prod.fst).getD v.level } else v
  | .opts =>
    let option := extract c.argument
    if answers 200 ∧ upper option.1 = "UTF8" then { v with utf8 := upper (extract option.2).1 ≠ "OFF" } else v
  | .epsv => if answers 200 then { v with epsvAll := true } else v
  | .rnfr => if answers 350 then { v with selected := true } else v
  | .rnto => if answers 530 then v else { v with selected := false }
  | _ => v

def Verb.tells : Verb → Bool
  | .user | .pass | .host | .type | .mode | .prot | .opts | .epsv | .rnfr | .rnto => true
  | _ => false

namespace Session

def view (s : Session) : View where
  username := s.username_
  loggedIn := s.authenticated_
  hostname := s.current_virtual_host_.map (·.hostname_)
  type := s.transfer_type_
  mode := s.transfer_mode_
  level := s.protection_level_
  utf8 := s.utf8_enabled_
  epsvAll := s.data.epsv_all_
  selected := s.rename_from_path_ ≠ []

variable {env : Service} {me : SessionId} {s s' : Session} {w : World} {a : Arrival}

lemma accept_epsvAll (d : DataConnection) :
    d.acceptDataConnection.Within (fun _ => True) fun r => r.2.epsv_all_ = d.epsv_all_ := by
  unfold DataConnection.acceptDataConnection DataConnection.connectActiveDataSocket
  refine within_ite.2 ⟨fun _ => within_ite.2 ⟨fun _ => (within_pure _).2 rfl, fun _ => ?_⟩, fun _ => ?_⟩
  · refine (within_call _ _).2 ⟨trivial, fun made => ?_⟩
    cases made with
    | none => exact (within_pure _).2 rfl
    | some fd =>
      dsimp only
      split
      · exact (within_call _ _).2 ⟨trivial, fun _ => (within_pure _).2 rfl⟩
      · refine (within_call _ _).2 ⟨trivial, fun peer => ?_⟩
        cases peer with
        | none => exact (within_call _ _).2 ⟨trivial, fun _ => (within_pure _).2 rfl⟩
        | some peer => exact (within_pure _).2 rfl
  · split
    · exact (within_pure _).2 rfl
    · refine (within_call _ _).2 ⟨trivial, fun ready => ?_⟩
      refine within_ite.2 ⟨fun _ => (within_pure _).2 rfl, fun _ => ?_⟩
      exact (within_call _ _).2 ⟨trivial, fun _ => (within_pure _).2 rfl⟩

section

variable {b : Bool}

def Heeds (b : Bool) (d : DataConnection) : Prop := d.epsv_all_ = b

lemma heeds_reply {code : ℕ} {text : Str} {d : DataConnection} (hd : Heeds b d) :
    (s.reply code text >>= fun _ => pure d).Within (fun _ => True) (Heeds b) := by
  have hany : Allows (fun _ => True) [.reply] := fun _ _ => trivial
  exact reply_return_calls hany (by simp) _ _ hd

lemma heeds_close {d : DataConnection} {f : DataConnection → Io DataConnection} (hd : Heeds b d)
    (hf : ∀ d, Heeds b d → (f d).Within (fun _ => True) (Heeds b)) :
    (d.closeDataSocket >>= f).Within (fun _ => True) (Heeds b) := by
  have hany : Allows (fun _ => True) [.close] := fun _ _ => trivial
  exact within_bind.2 (hany.within (d.closeDataSocket_within (by simp) (hf _ hd)))

lemma handlePASV_heeds (hs : Heeds b s.data) : (s.handlePASV env).Within (fun _ => True) (Heeds b) := by
  have hany : Allows (fun _ => True) [.opens, .close, .transfer] := fun _ _ => trivial
  refine within_ite.2 ⟨fun _ => heeds_reply hs, fun _ => heeds_close hs fun d hd => ?_⟩
  refine within_bind.2 (hany.within (d.createPassiveDataSocket_within (List.Subset.refl _) _
    fun port listener => ?_))
  exact within_ite.2 ⟨fun _ => heeds_reply hd, fun _ => heeds_reply hd⟩

lemma handlePORT_heeds (hs : Heeds b s.data) (address_port : Str) :
    (s.handlePORT address_port).Within (fun _ => True) (Heeds b) := by
  refine within_ite.2 ⟨fun _ => heeds_reply hs, fun _ => ?_⟩
  split
  · refine within_ite.2 ⟨fun _ => heeds_reply hs, fun _ => ?_⟩
    exact heeds_close hs fun d hd => heeds_reply hd
  · exact heeds_reply hs

lemma handleEPRT_heeds (hs : Heeds b s.data) (endpoint : Str) :
    (s.handleEPRT endpoint).Within (fun _ => True) (Heeds b) := by
  refine within_ite.2 ⟨fun _ => heeds_reply hs, fun _ => ?_⟩
  refine within_ite.2 ⟨fun _ => heeds_reply hs, fun _ => ?_⟩
  refine within_ite.2 ⟨fun _ => heeds_reply hs, fun _ => ?_⟩
  split
  · refine within_ite.2 ⟨fun _ => heeds_reply hs, fun _ => ?_⟩
    split
    · exact heeds_reply hs
    · refine within_ite.2 ⟨fun _ => heeds_reply hs, fun _ => ?_⟩
      exact heeds_close hs fun d hd => heeds_reply hd
  · exact heeds_reply hs

end

lemma handle_heeds (c : Command) (hc : c.verb ≠ .epsv) :
    (s.handle env c).Within (fun _ => True) fun s' => Heeds s.data.epsv_all_ s'.data := by
  have hany (ks : List Kind) : Allows (fun _ => True) ks := fun _ _ => trivial
  have hset {p : Io DataConnection} (hp : p.Within (fun _ => True) (Heeds s.data.epsv_all_)) :
      (p >>= fun d => pure { s with data := d }).Within (fun _ => True) fun s' => Heeds s.data.epsv_all_ s'.data :=
    within_bind.2 (hp.mono (fun _ h => h) fun d hd => (within_pure _).2 hd)
  have hcarried {p : Io Session} (hp : p.Within (fun _ => True) (Carried (Heeds s.data.epsv_all_) s)) :
      p.Within (fun _ => True) fun s' => Heeds s.data.epsv_all_ s'.data := by
    refine hp.mono (fun _ h => h) ?_
    rintro _ ⟨d, _, _, hd, rfl⟩
    exact hd
  have hsame : Heeds s.data.epsv_all_ s.data := rfl
  rcases c with ⟨v, a⟩
  by_cases hdata : v.usesData = false
  · refine (handle_within ⟨v, a⟩).mono (fun _ _ => trivial) fun s' he => ?_
    rw [he.frame.data hdata]
    exact hsame
  · cases v with
    | epsv => exact absurd rfl hc
    | list => exact hset (handleLIST_calls (hany _) hsame (accept_epsvAll _) a)
    | mlsd => exact hset (handleMLSD_calls (hany _) hsame (accept_epsvAll _) a)
    | retr => exact hcarried (handleRETR_calls (hany _) hsame (accept_epsvAll _) a)
    | stor => exact hcarried (handleSTOR_calls (hany _) hsame (accept_epsvAll _) a)
    | stou => exact hcarried (handleSTOU_calls (hany _) hsame (accept_epsvAll _) a)
    | appe => exact hcarried (handleAPPE_calls (hany _) hsame (accept_epsvAll _) a)
    | pasv => exact hset (handlePASV_heeds hsame)
    | port => exact hset (handlePORT_heeds hsame a)
    | eprt => exact hset (handleEPRT_heeds hsame a)
    | abor => exact hset (heeds_close hsame fun d hd => heeds_reply hd)
    | _ => exact absurd rfl hdata

lemma view_of_effect {v : Verb} {argument : Str} (h : Verb.Effect argument s s' v) (hv : v.tells = false)
    (hdata : Heeds s.data.epsv_all_ s'.data) : s'.view = s.view := by
  cases v with
  | user | pass | host | type | mode | prot | opts | epsv | rnfr | rnto => cases hv
  | auth =>
    obtain ⟨_, _, _, _, rfl⟩ := h
    rfl
  | retr | stor | stou | appe =>
    obtain ⟨d, _, _, _, rfl⟩ := h
    exact congrArg (fun b => { s.view with epsvAll := b }) hdata
  | abor | list | mlsd | pasv =>
    obtain ⟨d, _, rfl⟩ := h
    exact congrArg (fun b => { s.view with epsvAll := b }) hdata
  | port | eprt =>
    obtain ⟨d, rfl⟩ := h
    exact congrArg (fun b => { s.view with epsvAll := b }) hdata
  | cwd | cdup | rest =>
    obtain ⟨_, rfl⟩ := h
    rfl
  | _ =>
    subst h
    rfl

/-! The commands whose replies tell. -/

lemma answered_quiet {α β : Type} {ks : List Kind} {p : Io β} {f : β → Io α} {P : β → Prop}
    {Q : ℕ → α → World → Prop}
    (hp : p.Within (Kinds ks) P) (hks : Kind.reply ∉ ks) (hf : ∀ b w', P b → Answered me (f b) w' Q) :
    Answered me (p >>= f) w Q := by
  intro a w' ha
  obtain ⟨b, v, hb, hfb⟩ := exec_bind_ok (World.machine me) ha
  obtain ⟨code, hcode, hQ⟩ := hf b v (hp.exec _ hb) a w' hfb
  refine ⟨code, fun c => ?_, hQ⟩
  rw [calls_bind, Trace.answers_append, answers_of_within me hp hks w, hb, Bool.false_or]
  exact hcode c

def Tells (env : Service) (me : SessionId) (s : Session) (c : Command) : Prop :=
  ∀ w, Answered me (s.handle env c) w fun code s' _ => s'.view = s.view.hear c fun n => decide (code = n)

variable (hs : s.socket_ ≠ none)
include hs

lemma user_tells (a : Str) : Tells env me s ⟨.user, a⟩ := fun _ => answered_return hs fun _ _ => rfl

lemma type_tells (a : Str) : Tells env me s ⟨.type, a⟩ :=
  fun _ => answered_pure (answered_ite (fun _ => answered_return hs fun _ _ => rfl)
    fun _ => answered_return hs fun _ _ => rfl)

lemma mode_tells (a : Str) : Tells env me s ⟨.mode, a⟩ := by
  intro w
  have hstream {code : Str} (hcode : code = "S" ∨ code = "STREAM") : code ≠ "Z" := by
    rcases hcode with rfl | rfl <;> decide
  refine answered_pure (answered_ite (fun hm => answered_return hs fun _ _ => ?_)
    fun _ => answered_ite (fun hm => ?_) fun _ => ?_)
  · exact (congrArg (fun m => { s.view with mode := m }) (if_neg (hstream hm))).symm
  · refine answered_ite (fun _ => answered_return hs fun _ _ => rfl) fun _ => ?_
    refine answered_return hs fun _ _ => ?_
    exact (congrArg (fun m => { s.view with mode := m }) (if_pos hm)).symm
  · exact answered_return hs fun _ _ => rfl

lemma prot_tells (a : Str) : Tells env me s ⟨.prot, a⟩ := by
  intro w
  refine answered_pure (answered_ite (fun _ => answered_return hs fun _ _ => rfl) fun _ => ?_)
  split
  · rename_i letter name hlevel
    refine answered_return hs fun _ _ => ?_
    change _ = { s.view with level := ((protectionLevel a).map Prod.fst).getD s.view.level }
    rw [hlevel]
    rfl
  · exact answered_return hs fun _ _ => rfl

lemma opts_tells (a : Str) : Tells env me s ⟨.opts, a⟩ := by
  intro w
  refine answered_pure ?_
  unfold handleOPTS
  dsimp only
  refine answered_ite (fun hutf8 => ?_) fun hother => ?_
  · refine answered_ite (fun hon => ?_) fun _ => answered_ite (fun hoff => ?_) fun _ => ?_
    · have hvalue : upper (extract (extract a).2).1 ≠ "OFF" := by
        rcases hon with h | h <;> rw [h] <;> decide
      exact answered_return hs fun _ _ => by simp [View.hear, view, hutf8, hvalue]
    · exact answered_return hs fun _ _ => by simp [View.hear, view, hutf8, hoff]
    · exact answered_return hs fun _ _ => rfl
  · refine answered_ite (fun _ => ?_) fun _ => answered_return hs fun _ _ => rfl
    exact answered_return hs fun _ _ => by simp [View.hear, view, hother]

lemma host_tells (a : Str) : Tells env me s ⟨.host, a⟩ := by
  intro w
  refine answered_ite (fun _ => answered_return hs fun _ _ => rfl) fun _ => ?_
  split
  · exact answered_return hs fun _ _ => rfl
  · rename_i hosts _
    cases hfound : hosts.getVirtualHost a with
    | none => exact answered_return hs fun _ _ => rfl
    | some host =>
      refine answered_ite (fun _ => answered_return hs fun _ _ => rfl) fun _ => ?_
      refine answered_return (s := { s with current_virtual_host_ := some host }) hs fun _ _ => ?_
      exact congrArg (fun name => { s.view with hostname := some name })
        (VirtualHosts.getVirtualHost_hostname hfound)

lemma epsv_tells (a : Str) : Tells env me s ⟨.epsv, a⟩ := by
  intro w
  refine answered_pure (answered_ite (fun _ => answered_return hs fun _ _ => rfl) fun _ => ?_)
  refine answered_ite (fun _ => answered_return hs fun _ _ => rfl) fun _ => ?_
  have hclose : (DataConnection.closeDataSocket { s.data with active_mode_enabled_ := false }).Within
    (Kinds [.close])
      (Heeds s.data.epsv_all_) := DataConnection.closeDataSocket_within _ (by simp) rfl
  refine answered_quiet hclose (by simp) fun d v hd => ?_
  have hlisten : (d.createPassiveDataSocket env.config_.connection).Within (Kinds [.opens, .close, .transfer])
    fun r =>
      Heeds s.data.epsv_all_ r.2 := d.createPassiveDataSocket_within (List.Subset.refl _) _ fun _ _ => hd
  refine answered_quiet hlisten (by simp) fun r v hr => ?_
  have hview : ({ s with data := r.2 } : Session).view = s.view :=
    congrArg (fun b => { s.view with epsvAll := b }) hr
  refine answered_ite (fun _ => answered_return hs fun _ _ => hview) fun _ => ?_
  exact answered_return hs fun _ _ => hview

lemma rnfr_tells (a : Str) : Tells env me s ⟨.rnfr, a⟩ := by
  intro w
  refine answered_pure ((handleRNFR_answered hs a).mono fun code p _ h => ?_)
  rcases h.2 with ⟨rfl, _, hp⟩ | ⟨hcode, rfl⟩
  · exact congrArg (fun b => { s.view with selected := b }) (decide_eq_true hp)
  · exact (if_neg (by simpa using hcode)).symm

lemma renameTo_code (a : Str) : Answered me (s.renameTo a) w fun code _ _ => code ≠ 530 := by
  have hcode {code : ℕ} {text : Str} (hcode : code ≠ 530) {w : World} : Answered me (s.reply code text) w
      fun code _ _ => code ≠ 530 :=
    answered_reply hs fun _ _ => hcode
  refine answered_call rfl (answered_ite (fun _ => hcode (by decide)) fun _ => ?_)
  refine answered_ite (fun _ => hcode (by decide)) fun _ => ?_
  refine answered_call rfl (answered_orThrow fun found _ => ?_)
  refine answered_ite (fun _ => hcode (by decide)) fun _ => ?_
  refine answered_call rfl ?_
  split <;> exact hcode (by decide)

lemma rnto_tells (a : Str) : Tells env me s ⟨.rnto, a⟩ := by
  intro w
  have hforgot {code : ℕ} (hcode : code ≠ 530) :
      ({ s with rename_from_path_ := [] } : Session).view = s.view.hear ⟨.rnto, a⟩ fun n => decide (code = n) :=
    (if_neg (by simpa using hcode)).symm
  refine answered_pure (answered_ite (fun _ => answered_return hs fun _ _ => hforgot (by decide)) fun _ => ?_)
  exact answered_pure ((renameTo_code hs a).mono fun _ _ _ h => hforgot h)

omit hs in
lemma after_heeds (h : s.after env me a = some s') (hv : a.command.verb ≠ .epsv) :
    Heeds s.data.epsv_all_ s'.data := by
  obtain ⟨w', he⟩ := exec_of_after h
  have hdispatch : (s.dispatch env a.line).Within (fun _ => True) fun s' => Heeds s.data.epsv_all_ s'.data := by
    rcases dispatch_cases env s a.line with ⟨_, hd⟩ | ⟨_, _, hd⟩
    · rw [hd]
      exact handle_heeds a.command hv
    · rw [hd]
      have hany : Allows (fun _ => True) [.reply] := fun _ _ => trivial
      exact reply_return_calls hany (by simp) _ _ rfl
  exact hdispatch.exec _ he

lemma view_after (h : s.after env me a = some s') :
    s'.view = s.view.hear a.command (s.trace env me a).answers := by
  have hheard {code : ℕ} (hcode : ∀ c, (s.trace env me a).answers c = decide (code = c)) :
      (fun c => decide (code = c)) = (s.trace env me a).answers := funext fun c => (hcode c).symm
  have hanswered (v : Verb) (hv : a.command.verb = v) (htells : Tells env me s ⟨v, a.command.argument⟩)
      (hrefused : v.beforeLogin = false → s.view = s.view.hear ⟨v, a.command.argument⟩ fun n => decide (530 = n)) :
      s'.view = s.view.hear a.command (s.trace env me a).answers := by
    have hcommand := Arrival.command_eq hv
    have hhandle : Answered me (s.handle env a.command) a.world fun code s' _ =>
        s'.view = s.view.hear a.command fun n => decide (code = n) := by
      rw [hcommand]
      exact htells a.world
    obtain ⟨code, hcode, hview⟩ := answered_dispatch hs h (fun _ => hhandle) fun hafter _ _ _ => by
      rw [hcommand]
      exact hrefused (hv ▸ hafter)
    rw [← hheard hcode]
    exact hview
  cases hv : a.command.verb with
  | user => exact hanswered _ hv (user_tells hs _) (by simp [Verb.beforeLogin])
  | host => exact hanswered _ hv (host_tells hs _) (by simp [Verb.beforeLogin])
  | prot => exact hanswered _ hv (prot_tells hs _) (by simp [Verb.beforeLogin])
  | opts => exact hanswered _ hv (opts_tells hs _) (by simp [Verb.beforeLogin])
  | type => exact hanswered _ hv (type_tells hs _) fun _ => rfl
  | mode => exact hanswered _ hv (mode_tells hs _) fun _ => rfl
  | epsv => exact hanswered _ hv (epsv_tells hs _) fun _ => rfl
  | rnfr => exact hanswered _ hv (rnfr_tells hs _) fun _ => rfl
  | rnto => exact hanswered _ hv (rnto_tells hs _) fun _ => rfl
  | pass =>
    obtain ⟨tracker, code, hrun, hcode⟩ := pass_run hs hv h
    rw [← hheard hcode, Arrival.command_eq hv]
    cases hrun <;> rfl
  | _ =>
    have hsame : s.view.hear a.command (s.trace env me a).answers = s.view := by
      rw [View.hear, hv]
    rw [hsame]
    rcases after_effect h with rfl | he
    · rfl
    · rw [hv] at he
      exact view_of_effect he rfl (after_heeds h (by simp [hv]))

end Session

def clientSystem (env : Service) (me : SessionId) : System (Session × View) Arrival where
  init p := p.1.IsNew ∧ p.2 = {}
  next p a := (p.1.after env me a).map fun s' => (s', p.2.hear a.command (p.1.trace env me a).answers)

/-- A client that goes by the codes of the replies knows its session: after any commands, in any
environments, it takes itself to be in the session it is in. -/
theorem clients_know_their_sessions (env : Service) (me : SessionId) {p : Session × View}
    (h : (clientSystem env me).Reach System.anyStep p) : p.2 = p.1.view := by
  have hknown : p.1.socket_ ≠ none ∧ p.2 = p.1.view := by
    refine h.invariant (P := fun p => p.1.socket_ ≠ none ∧ p.2 = p.1.view) ?_ fun p a p' hp _ hnext => ?_
    · rintro ⟨s, v⟩ ⟨⟨fd, context, ssl, rfl⟩, rfl⟩
      exact ⟨Option.some_ne_none fd, rfl⟩
    · obtain ⟨s', hs', rfl⟩ := Option.map_eq_some_iff.1 hnext
      refine ⟨(Session.after_frame hs').socket ▸ hp.1, ?_⟩
      rw [Session.view_after hp.1 hs', ← hp.2]
  exact hknown.2

theorem clients_know_their_sessions_type : ∃ p : Session × View, p.2 = p.1.view ∧
    p.1.view = { username := "u", loggedIn := true, type := "I", utf8 := false } := by
  obtain ⟨p, hp, hview⟩ := Option.map_eq_some_iff.1 (show
    ((clientSystem Attested.sampleService 0).run System.anyStep (.opened 3 false false, {})
      (Attested.sampleLines ["USER u", "TYPE I", "PASS q", "PASS p", "MODE B", "TYPE I", "OPTS utf8 off",
        "RNTO f"])).map
      (·.1.view) = some { username := "u", loggedIn := true, type := "I", utf8 := false } by decide +kernel)
  exact ⟨p, clients_know_their_sessions Attested.sampleService 0 (.run (.init ⟨⟨_, _, _, rfl⟩, rfl⟩) hp), hview⟩

end SimpleSftpd
