import SimpleSftpd.Core.Run

namespace SimpleSftpd

open Cxx Interaction Prog

/-- If the program returns, it has sent one final reply, and its code, the value and the
environment left behind satisfy `P`. -/
def Answered (me : SessionId) {α : Type} (p : Io α) (w : World) (P : ℕ → α → World → Prop) : Prop :=
  ∀ a w', p.exec (World.machine me) w = (.ok a, w') →
    ∃ code, (∀ c, Trace.answers (p.calls (World.machine me) w) c = decide (code = c)) ∧ P code a w'

variable {me : SessionId} {s : Session} {w : World} {α β : Type}

lemma answered_reply (hs : s.socket_ ≠ none) {code : ℕ} {text : Str} {P : ℕ → Unit → World → Prop}
    (hP : ∀ w', w.Calm w' → P code () w') : Answered me (s.reply code text) w P := by
  intro u w' h
  obtain ⟨v, hv, hcalm⟩ := s.reply_exec me code text w
  rw [hv] at h
  cases h
  exact ⟨code, fun c => Session.reply_answers me hs code c text w, hP _ hcalm⟩

lemma Answered.mono {p : Io α} {P P' : ℕ → α → World → Prop} (h : Answered me p w P)
    (hP : ∀ code a w', P code a w' → P' code a w') : Answered me p w P' := by
  intro a w' ha
  obtain ⟨code, hcode, h⟩ := h a w' ha
  exact ⟨code, hcode, hP _ _ _ h⟩

lemma answered_pure {p : Io α} {f : α → β} {P : ℕ → β → World → Prop}
    (h : Answered me p w fun code a w' => P code (f a) w') : Answered me (p >>= fun a => pure (f a)) w P := by
  intro b w' hb
  obtain ⟨a, v, ha, hr⟩ := exec_bind_ok (World.machine me) hb
  cases hr
  obtain ⟨code, hcode, hP⟩ := h a _ ha
  exact ⟨code, fun c => by rw [calls_bind_pure, hcode], hP⟩

lemma answered_return (hs : s.socket_ ≠ none) {code : ℕ} {text : Str} {t : α} {P : ℕ → α → World → Prop}
    (hP : ∀ w', w.Calm w' → P code t w') :
    Answered me (s.reply code text >>= fun _ => pure t) w P :=
  answered_pure (answered_reply hs hP)

lemma answered_call {c : Call β} {f : β → Io α} {P : ℕ → α → World → Prop} (hc : c.reply? = none)
    (h : Answered me (f (World.machine me w c).1) (World.machine me w c).2 P) :
    Answered me (perform c >>= f) w P := by
  intro a w' ha
  obtain ⟨code, hcode, hP⟩ := h a w' ha
  refine ⟨code, fun code' => ?_, hP⟩
  rw [calls_perform_bind]
  simpa [Trace.answers, Trace.replies, hc] using hcode code'

lemma answered_orThrow {x : Except Errc β} {f : β → Io α} {P : ℕ → α → World → Prop}
    (h : ∀ b, x = .ok b → Answered me (f b) w P) : Answered me (orThrow x >>= f) w P := by
  cases x with
  | ok b => exact h b rfl
  | error e => exact fun a w' ha => by cases ha

lemma answered_ite {c : Prop} [Decidable c] {p q : Io α} {P : ℕ → α → World → Prop}
    (hp : c → Answered me p w P) (hq : ¬c → Answered me q w P) : Answered me (if c then p else q) w P := by
  split
  · exact hp ‹_›
  · exact hq ‹_›

lemma Session.answered_dispatch {env : Service} {a : Arrival} {s' : Session} {P : ℕ → Session → World → Prop}
    (hs : s.socket_ ≠ none) (h : s.after env me a = some s')
    (hhandle : a.command.verb.beforeLogin = true ∨ s.authenticated_ = true →
      Answered me (s.handle env a.command) a.world P)
    (hrefused : a.command.verb.beforeLogin = false → s.authenticated_ = false → ∀ w',
      a.world.Calm w' → P 530 s w') :
    ∃ code, (∀ c, (s.trace env me a).answers c = decide (code = c)) ∧
      P code s' ((s.dispatch env a.line).exec (World.machine me) a.world).2 := by
  obtain ⟨w', he⟩ := exec_of_after h
  rw [he]
  have hdispatch : Answered me (s.dispatch env a.line) a.world P := by
    rcases dispatch_cases env s a.line with ⟨hb, hd⟩ | ⟨hb, ha, hd⟩
    · rw [hd]
      exact hhandle hb
    · rw [hd]
      exact answered_return hs (hrefused hb ha)
  exact hdispatch s' w' he

def answeredWith (code : ℕ) (rs : List Reply) : Bool := rs.any fun
  | .final c _ => c = code
  | _ => false

lemma Trace.answers_eq (t : Trace) (code : ℕ) : t.answers code = answeredWith code t.replies := rfl

@[simp] lemma answeredWith_final (code code' : ℕ) (text : Str) (host : Option FTPVirtualHost) :
    answeredWith code' [(Reply.final code text).customized host] = decide (code = code') := by
  unfold answeredWith
  cases host with
  | none => simp [Reply.customized]
  | some h =>
    simp only [Reply.customized]
    split <;> simp

/-- How a program ends: with a value, and `Q` of the replies, the value and the environment left
behind, or without one, and `E` of the replies. -/
def Yields (me : SessionId) {α : Type} (p : Io α) (w : World) (Q : List Reply → α → World → Prop)
    (E : List Reply → Prop) : Prop :=
  match p.exec (World.machine me) w with
  | (.ok a, w') => Q (Trace.replies (p.calls (World.machine me) w)) a w'
  | (.error _, _) => E (Trace.replies (p.calls (World.machine me) w))

section

variable {Q : List Reply → α → World → Prop} {E : List Reply → Prop}

lemma yields_pure {a : α} (h : Q [] a w) : Yields me (pure a) w Q E := h

lemma yields_bind {p : Io β} {f : β → Io α} (h : Yields me p w (fun rs b w' =>
      Yields me (f b) w' (fun rs' => Q (rs ++ rs')) fun rs' => E (rs ++ rs')) E) : Yields me (p >>= f) w Q E := by
  unfold Yields at h ⊢
  rw [exec_bind, calls_bind]
  cases hp : p.exec (World.machine me) w with
  | mk r v =>
    rw [hp] at h
    cases r with
    | error e => simpa using h
    | ok b =>
      simp only [Trace.replies_append]
      exact h

lemma yields_call {c : Call β} {f : β → Io α} (hc : c.reply? = none)
    (h : Yields me (f (World.machine me w c).1) (World.machine me w c).2 Q E) :
    Yields me (perform c >>= f) w Q E := by
  have hskip (t : Trace) : Trace.replies ((w, ⟨_, c⟩) :: t) = t.replies := List.filterMap_cons_none hc
  unfold Yields at h ⊢
  rw [exec_perform_bind, calls_perform_bind, hskip]
  exact h

lemma yields_orThrow {x : Except Errc β} {f : β → Io α} (h : ∀ b, x = .ok b → Yields me (f b) w Q E)
    (hE : ∀ e, x = .error e → E []) : Yields me (orThrow x >>= f) w Q E := by
  cases x with
  | ok b => exact h b rfl
  | error e => exact hE e rfl

lemma yields_ite {c : Prop} [Decidable c] {p q : Io α} (hp : c → Yields me p w Q E)
    (hq : ¬c → Yields me q w Q E) : Yields me (if c then p else q) w Q E := by
  split
  · exact hp ‹_›
  · exact hq ‹_›

lemma yields_reply {Q : List Reply → Unit → World → Prop} (hs : s.socket_ ≠ none) {code : ℕ} {text : Str}
    (h : ∀ w', w.Calm w' → Q [(Reply.final code text).customized s.current_virtual_host_] () w') :
    Yields me (s.reply code text) w Q E := by
  obtain ⟨w', hw', hcalm⟩ := s.reply_exec me code text w
  unfold Yields
  rw [hw']
  have := h w' hcalm
  rwa [← Session.sendResponse_replies me hs] at this

lemma yields_return (hs : s.socket_ ≠ none) {code : ℕ} {text : Str} {a : α}
    (h : ∀ w', w.Calm w' → Q [(Reply.final code text).customized s.current_virtual_host_] a w') :
    Yields me (s.reply code text >>= fun _ => pure a) w Q E :=
  yields_bind (yields_reply hs fun w' hw => yields_pure (by simpa using h w' hw))

lemma Session.yields_dispatch {env : Service} {a : Arrival} {Q : List Reply → Session → World → Prop}
    (h : Yields me (s.dispatch env a.line) a.world Q E) :
    (∃ s' w', s.after env me a = some s' ∧ Q (s.trace env me a).replies s' w') ∨
      s.after env me a = none ∧ E (s.trace env me a).replies := by
  unfold Yields at h
  unfold after trace
  cases he : (s.dispatch env a.line).exec (World.machine me) a.world with
  | mk r w' =>
    rw [he] at h
    cases r with
    | ok s' => exact .inl ⟨s', w', rfl, h⟩
    | error e => exact .inr ⟨rfl, h⟩

end

end SimpleSftpd
