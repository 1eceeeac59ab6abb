import SimpleSftpd.Interaction.System
import SimpleSftpd.Core.Footprint

namespace SimpleSftpd

open Cxx Interaction Prog

def Session.opened (fd : Fd) (context ssl : Bool) : Session :=
  { socket_ := some fd, ssl_context_ := context, ssl_enabled_ := ssl }

def Session.IsNew (s : Session) : Prop := ∃ fd context ssl, s = Session.opened fd context ssl

structure Arrival where
  world : World
  line : Str

def Arrival.command (a : Arrival) : Command := Command.parse a.line

lemma Arrival.command_eq {a : Arrival} {v : Verb} (hv : a.command.verb = v) :
    a.command = ⟨v, a.command.argument⟩ := by
  subst hv
  rfl

abbrev Trace := List (World × Σ β, Call β)

def Call.reply? {β : Type} : Call β → Option Reply
  | sendControl _ r => some r
  | _ => none

def Trace.replies (t : Trace) : List Reply := t.filterMap fun c => c.2.2.reply?

def Trace.answers (t : Trace) (code : ℕ) : Bool := t.replies.any fun
  | .final c _ => c = code
  | _ => false

variable (env : Service) (me : SessionId)

namespace Session

def after (s : Session) (a : Arrival) : Option Session :=
  match (s.dispatch env a.line).exec (World.machine me) a.world with
  | (.ok s', _) => some s'
  | (.error _, _) => none

def trace (s : Session) (a : Arrival) : Trace := (s.dispatch env a.line).calls (World.machine me) a.world

variable {env me} {s s' : Session} {a : Arrival}

lemma exec_of_after (h : s.after env me a = some s') :
    ∃ w', (s.dispatch env a.line).exec (World.machine me) a.world = (.ok s', w') := by
  unfold after at h
  split at h
  · rename_i t w' he
    cases h
    exact ⟨w', he⟩
  · cases h

lemma dispatch_cases (env : Service) (s : Session) (line : Str) :
    (((Command.parse line).verb.beforeLogin = true ∨ s.authenticated_ = true) ∧
        s.dispatch env line = s.handle env (.parse line)) ∨
      ((Command.parse line).verb.beforeLogin = false ∧ s.authenticated_ = false ∧
        s.dispatch env line = do
          s.reply 530 "Please login with USER and PASS"
          return s) := by
  unfold dispatch
  by_cases hb : (Command.parse line).verb.beforeLogin = true
  · exact .inl ⟨.inl hb, by simp [hb]⟩
  · by_cases ha : s.authenticated_ = true
    · exact .inl ⟨.inr ha, by simp [ha]⟩
    · exact .inr ⟨by simpa using hb, by simpa using ha, by simp [hb, ha]⟩

lemma dispatch_handle (h : a.command.verb.beforeLogin = true ∨ s.authenticated_ = true) :
    s.dispatch env a.line = s.handle env a.command := if_pos h

theorem dispatch_within (line : Str) :
    (s.dispatch env line).Within (Kinds (.reply :: (Command.parse line).verb.kinds s.data)) fun s' =>
      s' = s ∨ Verb.Effect (Command.parse line).argument s s' (Command.parse line).verb := by
  rcases dispatch_cases env s line with ⟨_, h⟩ | ⟨_, _, h⟩
  · rw [h]
    exact (handle_within _).mono (fun _ hk => List.mem_cons_of_mem _ hk) fun _ => .inr
  · rw [h]
    simp

lemma trace_logged {c : World × Σ β, Call β} (hc : c ∈ s.trace env me a) (hk : c.2.2.kind ≠ .reply) :
    a.command.verb.beforeLogin = true ∨ s.authenticated_ = true := by
  rcases dispatch_cases env s a.line with ⟨hb, _⟩ | ⟨_, _, hd⟩
  · exact hb
  · have hreply : (s.dispatch env a.line).Within (Kinds [.reply]) fun _ => True := by
      rw [hd]
      simp
    exact absurd (List.mem_singleton.1 (hreply.calls _ _ c hc)) hk

lemma after_effect (h : s.after env me a = some s') :
    s' = s ∨ Verb.Effect a.command.argument s s' a.command.verb := by
  obtain ⟨w', he⟩ := exec_of_after h
  exact (dispatch_within a.line).exec _ he

lemma after_frame (h : s.after env me a = some s') : a.command.verb.Frame s s' := by
  rcases after_effect h with rfl | he
  · exact .refl _ _
  · exact he.frame

lemma handled_effect (hlogin : a.command.verb.beforeLogin = true ∨ s.authenticated_ = true)
    (h : s.after env me a = some s') : Verb.Effect a.command.argument s s' a.command.verb := by
  obtain ⟨w', he⟩ := exec_of_after h
  rcases dispatch_cases env s a.line with ⟨_, hd⟩ | ⟨hb, hauth, _⟩
  · rw [hd] at he
    exact (handle_within _).exec _ he
  · change a.command.verb.beforeLogin = false at hb
    simp [hb, hauth] at hlogin

end Session

def sessionSystem : System Session Arrival where
  init s := s.IsNew
  next s a := s.after env me a

variable {env me} in
lemma Session.connected_of_reach {ok : Session → Arrival → Prop} {s : Session}
    (h : (sessionSystem env me).Reach ok s) : s.socket_ ≠ none := by
  refine h.invariant (P := fun s => s.socket_ ≠ none) ?_ fun s a s' hs _ hn => ?_
  · rintro s ⟨fd, context, ssl, rfl⟩
    exact Option.some_ne_none fd
  · exact (after_frame hn).socket ▸ hs

namespace World

variable {β : Type} {me : SessionId} {w w' : World}

structure Calm (w w' : World) : Prop where
  fs : w'.fs = w.fs
  fds : w'.fds = w.fds
  tracker : w'.tracker = w.tracker
  choose : @World.choose w' = @World.choose w

lemma Calm.refl : w.Calm w := ⟨rfl, rfl, rfl, rfl⟩

lemma Calm.trans {w'' : World} (h : w.Calm w') (h' : w'.Calm w'') : w.Calm w'' :=
  ⟨h'.fs.trans h.fs, h'.fds.trans h.fds, h'.tracker.trans h.tracker, h'.choose.trans h.choose⟩

def calmKinds : List Kind := [.reply, .clock, .account, .census, .query]

lemma answer_calm (c : Call β) (hc : c.kind ∈ calmKinds) : w.Calm (answer me w c).2 := by
  cases c with
  | createDirectory | createDirectories | remove | rename | permissions | openWrite | chroot | socket
  | accept | openRead | close | connect | bind | listen | select | send | recv | fstat | lseek | read
  | sendfile | mmap | sendMapped | munmap | write | appendTo | zlibInit | registerSession
  | unregisterSession => simp [Call.kind, calmKinds] at hc
  | _ => exact ⟨rfl, rfl, rfl, rfl⟩

lemma openPath_tracker (chosen : Option Fd) (r : Except Errc Location) :
    (w.openPath me chosen r).2.tracker = w.tracker := by
  unfold openPath
  split <;> rfl

lemma openSocket_tracker (chosen : Option Fd) : (w.openSocket me chosen).2.tracker = w.tracker := by
  unfold openSocket
  split <;> rfl

lemma answer_tracker (c : Call β) (hc : c.kind ≠ .register) : (answer me w c).2.tracker = w.tracker := by
  cases c with
  | registerSession | unregisterSession => exact absurd rfl hc
  | socket => exact openSocket_tracker _
  | openRead => exact openPath_tracker _ _
  | openWrite => exact openPath_tracker _ _
  | accept =>
    simp only [answer]
    split
    · exact openSocket_tracker _
    · rfl
  | chroot | lseek | read | sendfile | mmap | write | appendTo =>
    simp only [answer]
    split <;> rfl
  | _ => rfl

end World

section

variable (me : SessionId) {ks : List Kind} {α β : Type} {p : Io α} {P : α → Prop}

lemma calm_of_within (h : p.Within (Kinds ks) P) (hk : ks ⊆ World.calmKinds) (w : World) :
    w.Calm (p.exec (World.machine me) w).2 :=
  h.keeps (J := w.Calm) (fun _ o ho hw => hw.trans (World.answer_calm o (hk ho))) .refl

lemma tracker_of_within (h : p.Within (Kinds ks) P) (hk : .register ∉ ks) (w : World) :
    (p.exec (World.machine me) w).2.tracker = w.tracker :=
  h.keeps (J := fun v => World.tracker v = w.tracker)
    (fun _ o ho hw => (World.answer_tracker o fun he => hk (he ▸ ho)).trans hw) rfl

lemma Trace.replies_append (t t' : Trace) : (t ++ t' : Trace).replies = t.replies ++ t'.replies :=
  List.filterMap_append

lemma Trace.answers_append (t t' : Trace) (code : ℕ) :
    (t ++ t' : Trace).answers code = (t.answers code || t'.answers code) := by
  simp only [answers, replies_append, List.any_append]

lemma replies_of_within (h : p.Within (Kinds ks) P) (hk : .reply ∉ ks) (w : World) :
    Trace.replies (p.calls (World.machine me) w) = [] := by
  refine List.filterMap_eq_nil_iff.2 fun c hc => ?_
  have hkind : c.2.2.kind ∈ ks := h.calls _ w c hc
  obtain ⟨_, _, c⟩ := c
  cases c with
  | sendControl => exact absurd hkind hk
  | _ => rfl

lemma answers_of_within (h : p.Within (Kinds ks) P) (hk : .reply ∉ ks) (w : World) (code : ℕ) :
    Trace.answers (p.calls (World.machine me) w) code = false := by
  rw [Trace.answers, replies_of_within me h hk, List.any_nil]

lemma Session.sendResponse_replies {s : Session} (hs : s.socket_ ≠ none) (r : Reply) (w : World) :
    Trace.replies ((s.sendResponse r).calls (World.machine me) w) = [r.customized s.current_virtual_host_] := by
  simp only [sendResponse, if_neg hs, calls_bind, calls_perform, exec_perform]
  split <;> simp [Trace.replies, Call.reply?]

lemma Session.reply_answers {s : Session} (hs : s.socket_ ≠ none) (code code' : ℕ) (text : Str)
    (w : World) :
    Trace.answers ((s.reply code text).calls (World.machine me) w) code' = decide (code = code') := by
  unfold Trace.answers
  rw [reply, sendResponse_replies me hs]
  cases s.current_virtual_host_ with
  | none => simp [Reply.customized]
  | some h =>
    simp only [Reply.customized]
    split <;> simp

lemma Session.reply_exec (s : Session) (code : ℕ) (text : Str) (w : World) : ∃ w',
    (s.reply code text).exec (World.machine me) w = (.ok (), w') ∧ w.Calm w' := by
  have hk : (s.reply code text).Within (Kinds [.reply]) fun _ => True := by simp
  refine ⟨((s.reply code text).exec (World.machine me) w).2, ?_,
    calm_of_within me hk (by simp [World.calmKinds]) w⟩
  unfold reply sendResponse
  split
  · rfl
  · simp only [exec_perform_bind, exec_ite]
    split <;> rfl

lemma Session.reply_return {s : Session} {t t' : α} (hs : s.socket_ ≠ none) {code : ℕ} {text : Str} {w w' : World}
    (h : (s.reply code text >>= fun _ => pure t).exec (World.machine me) w = (.ok t', w')) :
    t' = t ∧ w.Calm w' ∧ ∀ code', Trace.answers
      ((s.reply code text >>= fun _ => pure t).calls (World.machine me) w) code' = decide (code = code') := by
  obtain ⟨v, hv, hcalm⟩ := s.reply_exec me code text w
  simp only [exec_bind, hv, exec_pure] at h
  cases h
  refine ⟨rfl, hcalm, fun code' => ?_⟩
  simp only [calls_bind, hv, calls_pure, List.append_nil, reply_answers me hs]

variable {me} in
lemma Session.after_denied {env : Service} {s s' : Session} {a : Arrival} (hb : a.command.verb.beforeLogin = false)
    (hauth : s.authenticated_ = false) (h : s.after env me a = some s') : s' = s := by
  obtain ⟨w', he⟩ := exec_of_after h
  rcases dispatch_cases env s a.line with ⟨hlogin, _⟩ | ⟨_, _, hd⟩
  · change a.command.verb.beforeLogin = true ∨ _ at hlogin
    simp [hb, hauth] at hlogin
  · obtain ⟨v, hv, _⟩ := s.reply_exec me 530 "Please login with USER and PASS" a.world
    rw [hd, exec_bind, hv] at he
    cases he
    rfl

end

end SimpleSftpd
