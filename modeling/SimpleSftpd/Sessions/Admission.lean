import Mathlib.Data.List.Nodup
import SimpleSftpd.Core.Server

/-! The connections a server has going: those its manager knows and the one its loop has in hand.
What is left of them when the server has stopped, and how many come from one address. -/

namespace SimpleSftpd

open Cxx Interaction

namespace LoopPhase

def inHand : LoopPhase → Option ConnectionId
  | .accepted c | .allowed c | .recorded c | .admitted c | .added c | .started c => some c
  | _ => none

def unstarted : LoopPhase → Option ConnectionId
  | .accepted c | .allowed c | .recorded c | .admitted c | .added c => some c
  | _ => none

def unadded : LoopPhase → Option ConnectionId
  | .accepted c | .allowed c | .recorded c | .admitted c => some c
  | _ => none

def counted : LoopPhase → Option ConnectionId
  | .admitted c | .added c | .started c => some c
  | _ => none

def checked : LoopPhase → Option ConnectionId
  | .allowed c | .recorded c | .admitted c | .added c | .started c => some c
  | _ => none

def adds : LoopPhase → Bool
  | .admitted _ => true
  | _ => false

end LoopPhase

namespace FTPServer

variable {config : FTPServerConfig} {v v' : FTPServer} {l : ServerStep} {c : ConnectionId}

lemma awake_of_update {active : ConnectionId → Bool} {c' : ConnectionId}
    (h : Function.update active c false c' = true) : c' ≠ c ∧ active c' = true := by
  by_cases heq : c' = c
  · subst heq
    rw [Function.update_self] at h
    cases h
  · rw [Function.update_of_ne heq] at h
    exact ⟨heq, h⟩

lemma release_eq : v.release c = { v with active := (v.release c).active } := by
  unfold release
  split <;> rfl

structure Registered (v : FTPServer) : Prop where
  nodup : v.connections_.Nodup
  arrived : ∀ c ∈ v.connections_, c < v.arrivals
  inHand : ∀ c, v.server_thread.inHand = some c → c < v.arrivals
  unstarted : ∀ c, v.server_thread.unstarted = some c → v.active c = false
  unadded : ∀ c, v.server_thread.unadded = some c → c ∉ v.connections_
  awake : ∀ c, v.active c = true → c ∈ v.connections_ ∨ v.server_thread = .started c

namespace Registered

lemma lt (h : v.Registered) (hc : v.active c = true) : c < v.arrivals := by
  rcases h.awake c hc with hmem | hstarted
  · exact h.arrived c hmem
  · apply h.inHand
    rw [hstarted]
    rfl

lemma of_started (config : FTPServerConfig) : (started config).Registered := by
  constructor <;> simp [started, LoopPhase.inHand, LoopPhase.unstarted, LoopPhase.unadded]

lemma onward (h : v.Registered) {limiter : Option FTPRateLimiter} {now : ℕ} {thread : LoopPhase}
    (hhand : ∀ c, thread.inHand = some c → v.server_thread.inHand = some c)
    (hunstarted : thread.unstarted = v.server_thread.unstarted ∨ thread.unstarted = none)
    (hunadded : thread.unadded = v.server_thread.unadded ∨ thread.unadded = none)
    (hstarted : ∀ c, v.server_thread ≠ .started c) :
    Registered { v with rate_limiter_ := limiter, clock := now, server_thread := thread } where
  nodup := h.nodup
  arrived := h.arrived
  inHand c hc := h.inHand c (hhand c hc)
  unstarted c hc := by
    rcases hunstarted with heq | heq
    · exact h.unstarted c (heq ▸ hc)
    · exact absurd (heq.symm.trans hc) (by simp)
  unadded c hc := by
    rcases hunadded with heq | heq
    · exact h.unadded c (heq ▸ hc)
    · exact absurd (heq.symm.trans hc) (by simp)
  awake c hc := .inl ((h.awake c hc).resolve_right (hstarted c))

lemma quieter (h : v.Registered) {running_ listening : Bool} {connections_ : List ConnectionId}
    {active : ConnectionId → Bool} {phase : StopPhase} (hsub : connections_.Sublist v.connections_)
    (hactive : ∀ c, active c = true → v.active c = true ∧
      (c ∈ v.connections_ → c ∈ connections_ ∨ v.server_thread = .started c)) :
    Registered { v with running_, listening, connections_, active, stopper := phase } where
  nodup := h.nodup.sublist hsub
  arrived c hc := h.arrived c (hsub.subset hc)
  inHand := h.inHand
  unstarted c hc := by
    apply Bool.eq_false_iff.2
    intro hawake
    exact Bool.eq_false_iff.1 (h.unstarted c hc) (hactive c hawake).1
  unadded c hc := fun hmem => h.unadded c hc (hsub.subset hmem)
  awake c hc := by
    obtain ⟨hawake, hkept⟩ := hactive c hc
    rcases h.awake c hawake with hmem | hstarted
    · exact hkept hmem
    · exact .inr hstarted

lemma step (h : v.Registered) (heffect : Effect config v l v') : v'.Registered := by
  cases heffect with
  | unaccepted hthread => exact h.onward (by simp [LoopPhase.inHand]) (.inr rfl) (.inr rfl) (by simp [hthread])
  | accepted ip hthread _ =>
    have hfresh : v.arrivals ∉ v.connections_ := fun hmem => (h.arrived _ hmem).false
    refine ⟨h.nodup, fun c hc => (h.arrived c hc).trans (Nat.lt_succ_self _), ?_, ?_, ?_, fun c hc => ?_⟩
    · rintro c ⟨⟩
      exact Nat.lt_succ_self _
    · rintro c ⟨⟩
      exact Bool.eq_false_iff.2 fun hawake => (h.lt hawake).false
    · rintro c ⟨⟩
      exact hfresh
    · exact .inl ((h.awake c hc).resolve_right (by simp [hthread]))
  | blocked now c hthread => exact h.onward (by simp [LoopPhase.inHand]) (.inr rfl) (.inr rfl) (by simp [hthread])
  | limited now c hthread => exact h.onward (by simp [LoopPhase.inHand]) (.inr rfl) (.inr rfl) (by simp [hthread])
  | allowed now c hthread _ =>
    apply h.onward
    · simp [hthread, LoopPhase.inHand]
    · simp [hthread, LoopPhase.unstarted]
    · simp [hthread, LoopPhase.unadded]
    · simp [hthread]
  | recorded now c hthread =>
    apply h.onward
    · simp [hthread, LoopPhase.inHand]
    · simp [hthread, LoopPhase.unstarted]
    · simp [hthread, LoopPhase.unadded]
    · simp [hthread]
  | entered hthread _ => exact h.onward (by simp [LoopPhase.inHand]) (.inr rfl) (.inr rfl) (by simp [hthread])
  | exited hthread _ => exact h.onward (by simp [LoopPhase.inHand]) (.inr rfl) (.inr rfl) (by simp [hthread])
  | crowded c hthread => exact h.onward (by simp [LoopPhase.inHand]) (.inr rfl) (.inr rfl) (by simp [hthread])
  | admitted c hthread _ =>
    apply h.onward
    · simp [hthread, LoopPhase.inHand]
    · simp [hthread, LoopPhase.unstarted]
    · simp [hthread, LoopPhase.unadded]
    · simp [hthread]
  | added c hthread _ =>
    have hunadded : c ∉ v.connections_ := h.unadded c (by rw [hthread]; rfl)
    have harrived : c < v.arrivals := h.inHand c (by rw [hthread]; rfl)
    refine ⟨?_, ?_, ?_, ?_, ?_, ?_⟩
    · exact List.nodup_append.2 ⟨h.nodup, List.nodup_singleton c, by
        intro a ha b hb
        rw [List.mem_singleton.1 hb]
        rintro rfl
        exact hunadded ha⟩
    · intro c' hc'
      rcases List.mem_append.1 hc' with hmem | hnew
      · exact h.arrived c' hmem
      · rwa [List.mem_singleton.1 hnew]
    · rintro c' ⟨⟩
      exact harrived
    · rintro c' ⟨⟩
      exact h.unstarted c (by rw [hthread]; rfl)
    · rintro c' ⟨⟩
    · intro c' hc'
      exact .inl (List.mem_append_left _ ((h.awake c' hc').resolve_right (by simp [hthread])))
  | started c hthread =>
    refine ⟨h.nodup, h.arrived, ?_, ?_, ?_, ?_⟩
    · rintro c' ⟨⟩
      exact h.inHand c (by rw [hthread]; rfl)
    · rintro c' ⟨⟩
    · rintro c' ⟨⟩
    · intro c' hc'
      by_cases heq : c' = c
      · subst heq
        exact .inr rfl
      · simp only [Function.update_of_ne heq] at hc'
        exact .inl ((h.awake c' hc').resolve_right (by simp [hthread]))
  | handled c hthread =>
    have hawake : ∀ c', (v.release c).active c' = true → c' ∈ v.connections_ := by
      intro c' hc'
      unfold release at hc'
      split at hc'
      · rename_i hmem
        rcases h.awake c' hc' with hmem' | hstarted
        · exact hmem'
        · rw [hthread] at hstarted
          cases hstarted
          exact hmem
      · rename_i hmem
        obtain ⟨hne, hc'⟩ := awake_of_update hc'
        apply (h.awake c' hc').resolve_right
        rw [hthread]
        rintro ⟨⟩
        exact hne rfl
    rw [release_eq]
    exact ⟨h.nodup, h.arrived,
      by simp [LoopPhase.inHand], by simp [LoopPhase.unstarted], by simp [LoopPhase.unadded],
      fun c' hc' => .inl (hawake c' hc')⟩
  | cleaned c hasleep =>
    apply h.quieter List.erase_sublist
    intro c' hawake
    refine ⟨hawake, fun hmem => .inl ((List.mem_erase_of_ne ?_).2 hmem)⟩
    rintro rfl
    exact Bool.eq_false_iff.1 hasleep hawake
  | finished c =>
    refine h.quieter (List.Sublist.refl _) fun c' hc' => ?_
    exact ⟨(awake_of_update hc').2, .inl⟩
  | flagged _ => exact h.quieter (List.Sublist.refl _) fun c hc => ⟨hc, .inl⟩
  | closed _ => exact h.quieter (List.Sublist.refl _) fun c hc => ⟨hc, .inl⟩
  | advanced phase _ _ _ => exact h.quieter (List.Sublist.refl _) fun c hc => ⟨hc, .inl⟩
  | stopped c phase _ _ _ =>
    refine h.quieter (List.Sublist.refl _) fun c' hc' => ?_
    exact ⟨(awake_of_update hc').2, .inl⟩
  | cleared phase _ =>
    apply h.quieter (List.nil_sublist _)
    intro c hc
    obtain ⟨hawake, hheld⟩ := Bool.and_eq_true_iff.1 hc
    refine ⟨hawake, fun hmem => .inr ?_⟩
    simp only [hmem, not_true, decide_false, Bool.false_or, holds, Bool.or_eq_true, decide_eq_true_eq] at hheld
    rcases hheld with hadded | hstarted
    · have hasleep := h.unstarted c (by rw [hadded]; rfl)
      exact absurd hawake (Bool.eq_false_iff.1 hasleep)
    · exact hstarted
  | returned _ _ => exact h.quieter (List.Sublist.refl _) fun c hc => ⟨hc, .inl⟩

end Registered

lemma reach_registered {ok : FTPServer → ServerStep → Prop} (h : (running config).Reach ok v) : v.Registered := by
  apply h.invariant
  · rintro _ rfl
    exact Registered.of_started config
  · intro v l v' hv _ hnext
    exact hv.step (step_effect hnext)

def AddsInTime (v : FTPServer) (l : ServerStep) : Prop :=
  ¬(l = .serverLoop ∧ v.server_thread.adds = true ∧ v.stopper = .sweptAgain)

instance (v : FTPServer) (l : ServerStep) : Decidable (v.AddsInTime l) := inferInstanceAs (Decidable (¬_))

structure Emptied (v : FTPServer) : Prop where
  swept : v.stopper = .sweptAgain → v.connections_ = []
  returned : v.stopper = .returned → v.connections_ = [] ∧ v.server_thread = .exited

lemma Emptied.going (h : v.Emptied) (hthread : v.server_thread ≠ .exited) : v.stopper ≠ .returned :=
  fun hreturned => hthread (h.returned hreturned).2

lemma Emptied.step (h : v.Emptied) (hok : v.AddsInTime l) (heffect : Effect config v l v') : v'.Emptied := by
  cases heffect with
  | unaccepted hthread | accepted ip hthread _ | blocked now c hthread | limited now c hthread
  | allowed now c hthread _ | recorded now c hthread | entered hthread _ | exited hthread _ | crowded c hthread
  | admitted c hthread _
  | started c hthread =>
    have hgoing := h.going (by rw [hthread]; simp)
    exact ⟨h.swept, fun hreturned => absurd hreturned hgoing⟩
  | added c hthread _ =>
    have hgoing := h.going (by rw [hthread]; simp)
    exact ⟨fun hswept => absurd ⟨rfl, by rw [hthread]; rfl, hswept⟩ hok, fun hreturned => absurd hreturned hgoing⟩
  | handled c hthread =>
    have hgoing := h.going (by rw [hthread]; simp)
    rw [release_eq]
    exact ⟨h.swept, fun hreturned => absurd hreturned hgoing⟩
  | cleaned c _ =>
    refine ⟨fun hswept => ?_, fun hreturned => ⟨?_, (h.returned hreturned).2⟩⟩
    · exact congrArg (List.erase · c) (h.swept hswept)
    · exact congrArg (List.erase · c) (h.returned hreturned).1
  | finished c => exact ⟨h.swept, h.returned⟩
  | flagged _ | closed _ => exact ⟨by simp, by simp⟩
  | advanced phase hswept hreturned _ | stopped c phase hswept hreturned _ =>
    exact ⟨fun heq => absurd heq hswept, fun heq => absurd heq hreturned⟩
  | cleared phase hreturned => exact ⟨fun _ => rfl, fun heq => absurd heq hreturned⟩
  | returned hswept hexited => exact ⟨by simp, fun _ => ⟨h.swept hswept, hexited⟩⟩

lemma reach_emptied (h : (running config).Reach AddsInTime v) : v.Emptied := by
  apply h.invariant
  · rintro _ rfl
    exact ⟨by simp [started], by simp [started]⟩
  · intro v l v' hv hok hnext
    exact hv.step hok (step_effect hnext)

end FTPServer

theorem stop_ends_connections (config : FTPServerConfig) {v : FTPServer}
    (h : (FTPServer.running config).Reach FTPServer.AddsInTime v) (hreturned : v.stopper = .returned)
    (c : ConnectionId) :
    v.active c = false := by
  obtain ⟨hempty, hexited⟩ := (FTPServer.reach_emptied h).returned hreturned
  apply Bool.eq_false_iff.2
  intro hawake
  rcases (FTPServer.reach_registered h).awake c hawake with hmem | hstarted
  · rw [hempty] at hmem
    cases hmem
  · rw [hexited] at hstarted
    cases hstarted

namespace FTPServer

def arrival (now : ℕ) : List ServerStep :=
  [.serverLoop, .accept (some "192.0.2.1"), .check now, .record now, .serverLoop]

def handling : List ServerStep := [.serverLoop, .serverLoop, .serverLoop]

def stopping (swept : ℕ) : List ServerStep := List.replicate (8 + swept) .stop

def stoppedLate : List ServerStep := arrival 1 ++ handling ++ stopping 1 ++ [.serverLoop, .stop]

def stoppedEarly : List ServerStep := arrival 1 ++ stopping 0 ++ handling ++ [.serverLoop, .stop]

end FTPServer

theorem stop_ends_connections_served :
    ∃ v, (FTPServer.running {}).run FTPServer.AddsInTime (FTPServer.started {}) FTPServer.stoppedLate = some v ∧
      v.stopper = .returned ∧ v.active 0 = false := by
  have hrun : ((FTPServer.running {}).run FTPServer.AddsInTime (FTPServer.started {}) FTPServer.stoppedLate).map
      (fun v => decide (v.stopper = .returned)) = some true := by
    decide +kernel
  obtain ⟨v, hv, hdecide⟩ := Option.map_eq_some_iff.1 hrun
  have hreturned : v.stopper = .returned := of_decide_eq_true hdecide
  have hinit : (FTPServer.running {}).Reach FTPServer.AddsInTime (FTPServer.started {}) := .init rfl
  exact ⟨v, hv, hreturned, stop_ends_connections {} (hinit.run hv) hreturned 0⟩

theorem stop_leaves_connections :
    ∃ v, (FTPServer.running {}).Reach System.anyStep v ∧ v.stopper = .returned ∧ v.active 0 = true := by
  have hrun : ((FTPServer.running {}).run System.anyStep (FTPServer.started {}) FTPServer.stoppedEarly).map
      (fun v => decide (v.stopper = .returned ∧ v.active 0 = true)) = some true := by
    decide +kernel
  obtain ⟨v, hv, hdecide⟩ := Option.map_eq_some_iff.1 hrun
  have hinit : (FTPServer.running {}).Reach System.anyStep (FTPServer.started {}) := .init rfl
  exact ⟨v, hinit.run hv, of_decide_eq_true hdecide⟩

namespace FTPServer

variable {config : FTPServerConfig} {v v' : FTPServer} {l : ServerStep} {c : ConnectionId}

structure Capped (limit : ℕ) (v : FTPServer) : Prop where
  length : v.connections_.length ≤ limit
  room : ∀ c, v.server_thread.counted = some c → c ∉ v.connections_ → v.connections_.length < limit

lemma Capped.step (h : v.Capped (toSize config.connection.max_connections)) (hv : v.Registered)
    (heffect : Effect config v l v') : v'.Capped (toSize config.connection.max_connections) := by
  cases heffect with
  | unaccepted _ | accepted _ _ _ | blocked _ _ _ | limited _ _ _ | allowed _ _ _ _ | recorded _ _ _ | entered _ _
  | exited _ _ | crowded _ _ => exact ⟨h.length, by simp [LoopPhase.counted]⟩
  | admitted c _ hroom => exact ⟨h.length, fun _ _ _ => hroom⟩
  | added c hthread _ =>
    have hroom := h.room c (by rw [hthread]; rfl) (hv.unadded c (by rw [hthread]; rfl))
    refine ⟨?_, ?_⟩
    · rw [List.length_append]
      exact hroom
    · rintro c' ⟨⟩ hmem
      exact absurd (List.mem_append_right _ (List.mem_singleton_self c)) hmem
  | started c hthread => exact ⟨h.length, fun c' hc' => h.room c' (by rw [hthread]; exact hc')⟩
  | handled c _ =>
    rw [release_eq]
    exact ⟨h.length, by simp [LoopPhase.counted]⟩
  | cleaned c _ =>
    have hle : (v.connections_.erase c).length ≤ v.connections_.length := List.length_erase_le
    refine ⟨hle.trans h.length, fun c' hc' hmem => ?_⟩
    by_cases hin : c' ∈ v.connections_
    · have heq : c' = c := by
        by_contra hne
        exact hmem ((List.mem_erase_of_ne hne).2 hin)
      subst heq
      have herase := List.length_erase_of_mem hin
      have hpos := List.length_pos_of_mem hin
      have hle' := h.length
      simp only
      omega
    · exact hle.trans_lt (h.room c' hc' hin)
  | finished _ | flagged _ | closed _ | advanced _ _ _ _ | stopped _ _ _ _ _ | returned _ _ =>
    exact ⟨h.length, h.room⟩
  | cleared _ _ =>
    refine ⟨Nat.zero_le _, fun c hc _ => ?_⟩
    by_cases hin : c ∈ v.connections_
    · exact (List.length_pos_of_mem hin).trans_le h.length
    · exact (Nat.zero_le _).trans_lt (h.room c hc hin)

lemma reach_capped (h : (running config).Reach System.anyStep v) :
    v.Capped (toSize config.connection.max_connections) := by
  have hboth : v.Registered ∧ v.Capped (toSize config.connection.max_connections) := by
    apply h.invariant
    · rintro _ rfl
      exact ⟨Registered.of_started config, Nat.zero_le _, by simp [started, LoopPhase.counted]⟩
    · rintro v l v' ⟨hv, hcapped⟩ _ hnext
      exact ⟨hv.step (step_effect hnext), hcapped.step hv (step_effect hnext)⟩
  exact hboth.2

lemma awake_le (h : (running config).Reach System.anyStep v) {p : ConnectionId → Bool}
    (hp : ∀ c, p c = true → v.active c = true) :
    ((List.range v.arrivals).filter p).length ≤ toSize config.connection.max_connections := by
  have hv := reach_registered h
  have hcapped := reach_capped h
  have hnodup : ((List.range v.arrivals).filter p).Nodup := List.nodup_range.filter _
  have hawake : ∀ c ∈ (List.range v.arrivals).filter p, c ∈ v.connections_ ∨ v.server_thread = .started c := by
    intro c hc
    exact hv.awake c (hp c (List.mem_filter.1 hc).2)
  by_cases hstarted : ∃ c, v.server_thread = .started c ∧ c ∉ v.connections_
  · obtain ⟨c, hthread, hmem⟩ := hstarted
    have hsub : (List.range v.arrivals).filter p ⊆ c :: v.connections_ := by
      intro c' hc'
      rcases hawake c' hc' with hin | hin
      · exact List.mem_cons_of_mem _ hin
      · rw [hthread] at hin
        cases hin
        exact List.mem_cons_self
    exact (hnodup.subperm hsub).length_le.trans (hcapped.room c (by rw [hthread]; rfl) hmem)
  · have hsub : (List.range v.arrivals).filter p ⊆ v.connections_ := by
      intro c' hc'
      rcases hawake c' hc' with hin | hin
      · exact hin
      · by_contra hmem
        exact hstarted ⟨c', hin, hmem⟩
    exact (hnodup.subperm hsub).length_le.trans hcapped.length

def activeFrom (v : FTPServer) (ip : Str) : ℕ :=
  ((List.range v.arrivals).filter fun c => v.active c && v.client_ip c = ip).length

lemma activeFrom_le (h : (running config).Reach System.anyStep v) (ip : Str) :
    v.activeFrom ip ≤ toSize config.connection.max_connections :=
  awake_le h fun _ hc => (Bool.and_eq_true_iff.1 hc).1

structure Refusing (config : FTPServerConfig) (v : FTPServer) : Prop where
  limiter : ∃ l, v.rate_limiter_ = some l ∧ l.max_requests_per_minute_ = config.rate_limit.max_requests_per_minute
  unchecked : v.server_thread.checked = none
  asleep : ∀ c, v.active c = false

lemma Refusing.step (hrate : config.rate_limit.max_requests_per_minute ≤ 0) (h : v.Refusing config)
    (heffect : Effect config v l v') : v'.Refusing config := by
  obtain ⟨limiter, hlimiter, hmax⟩ := h.limiter
  have hunchecked := h.unchecked
  cases heffect with
  | unaccepted _ | accepted _ _ _ | blocked _ _ _ | entered _ _ | exited _ _ =>
    exact ⟨h.limiter, rfl, h.asleep⟩
  | limited now c _ =>
    refine ⟨⟨(limiter.isAllowed (v.client_ip c) now).2, ?_, hmax⟩, rfl, h.asleep⟩
    simp only [hlimiter, Option.map_some]
  | allowed now c _ hallowed =>
    have hlt := of_decide_eq_true (hallowed limiter hlimiter)
    rw [hmax] at hlt
    omega
  | recorded now c hthread =>
    rw [hthread] at hunchecked
    cases hunchecked
  | crowded c hthread | admitted c hthread _ | added c hthread _ | started c hthread | handled c hthread =>
    rw [hthread] at hunchecked
    cases hunchecked
  | cleaned _ _ | flagged _ | closed _ | advanced _ _ _ _ | returned _ _ =>
    exact ⟨h.limiter, h.unchecked, h.asleep⟩
  | finished c | stopped c _ _ _ _ =>
    refine ⟨h.limiter, h.unchecked, fun c' => Bool.eq_false_iff.2 fun hawake => ?_⟩
    exact Bool.eq_false_iff.1 (h.asleep c') (awake_of_update hawake).2
  | cleared _ _ => exact ⟨h.limiter, h.unchecked, fun c => by simp only [clear, h.asleep c, Bool.false_and]⟩

lemma activeFrom_refusing (henabled : config.rate_limit.enabled = true)
    (hrate : config.rate_limit.max_requests_per_minute ≤ 0)
    (h : (running config).Reach System.anyStep v) (ip : Str) :
    v.activeFrom ip = 0 := by
  have hrefusing : v.Refusing config := by
    apply h.invariant
    · rintro _ rfl
      exact ⟨⟨_, if_pos henabled, rfl⟩, rfl, fun _ => rfl⟩
    · intro v l v' hv _ hnext
      exact hv.step hrate (step_effect hnext)
  apply List.length_eq_zero_iff.2
  apply List.filter_eq_nil_iff.2
  intro c _
  rw [hrefusing.asleep c]
  simp

structure Crowded (config : FTPServerConfig) (ip : Str) (n : ℕ) (v : FTPServer) : Prop where
  running_ : v.running_ = true
  listening : v.listening = true
  stopper : v.stopper = .uncalled
  server_thread : v.server_thread = .test
  ip_access_control_ : v.ip_access_control_ = {}
  arrivals : v.arrivals = n
  connections_ : v.connections_.length = n
  awake : ∀ c < n, v.active c = true ∧ v.client_ip c = ip
  limiter : ∃ l, v.rate_limiter_ = some l ∧
    l.max_requests_per_minute_ = config.rate_limit.max_requests_per_minute ∧
    (l.rate_limits_ ip).window_start ≤ v.clock

lemma check_allowed {ip : Str} {now : ℕ} {limiter : FTPRateLimiter} (hthread : v.server_thread = .accepted c)
    (hip : v.client_ip c = ip) (hclock : v.clock ≤ now) (haccess : v.ip_access_control_ = {})
    (hlimiter : v.rate_limiter_ = some limiter) (hallowed : (limiter.isAllowed ip now).1 = true) :
    v.check now = some { v with
      rate_limiter_ := some (limiter.isAllowed ip now).2, server_thread := .allowed c, clock := now } := by
  subst hip
  have hlisted : v.ip_access_control_.isAllowed (v.client_ip c) = .ok true := by
    rw [haccess]
    rfl
  unfold check
  simp only [hthread, if_neg (not_lt.2 hclock), hlisted, hlimiter, hallowed, if_true]

lemma record_allowed {ip : Str} {now : ℕ} {limiter : FTPRateLimiter} (hthread : v.server_thread = .allowed c)
    (hip : v.client_ip c = ip) (hclock : v.clock ≤ now) (hlimiter : v.rate_limiter_ = some limiter) :
    v.record now = some { v with
      rate_limiter_ := some (limiter.recordRequest ip now), server_thread := .recorded c, clock := now } := by
  subst hip
  unfold record
  simp only [hthread, if_neg (not_lt.2 hclock), hlimiter, Option.map_some]

lemma serverLoop_admits (hthread : v.server_thread = .recorded c) (hlocks : v.stopper.locks = false)
    (hroom : v.connections_.length < toSize config.connection.max_connections) :
    v.serverLoop config = some { v with server_thread := .admitted c } := by
  unfold serverLoop
  simp only [hthread, hlocks, if_neg (not_le.2 hroom), Bool.false_eq_true, if_false]

lemma serverLoop_adds (hthread : v.server_thread = .admitted c) (hlocks : v.stopper.locks = false) :
    v.serverLoop config = some { v with connections_ := v.connections_ ++ [c], server_thread := .added c } := by
  unfold serverLoop
  simp only [hthread, hlocks, Bool.false_eq_true, if_false]

lemma serverLoop_returns (hthread : v.server_thread = .started c) (hmem : c ∈ v.connections_) :
    v.serverLoop config = some { v with server_thread := .test } := by
  unfold serverLoop release
  simp only [hthread, if_pos hmem]

lemma reach_serverLoop (hreach : (running config).Reach System.anyStep v) (h : v.serverLoop config = some v') :
    (running config).Reach System.anyStep v' := hreach.step (l := .serverLoop) trivial h

lemma reach_handled (hreach : (running config).Reach System.anyStep v) (hthread : v.server_thread = .recorded c)
    (hlocks : v.stopper.locks = false) (hroom : v.connections_.length < toSize config.connection.max_connections) :
    (running config).Reach System.anyStep { v with
      connections_ := v.connections_ ++ [c], active := Function.update v.active c true,
        server_thread := .test } := by
  have hadmitted := reach_serverLoop hreach (serverLoop_admits hthread hlocks hroom)
  have hadded := reach_serverLoop hadmitted (serverLoop_adds rfl hlocks)
  have hstarted := reach_serverLoop hadded rfl
  exact reach_serverLoop hstarted (serverLoop_returns rfl (List.mem_append_right _ (List.mem_singleton_self c)))

lemma reach_recorded {ip : Str} {now : ℕ} {limiter : FTPRateLimiter}
    (hreach : (running config).Reach System.anyStep v)
    (hthread : v.server_thread = .accepted c) (hip : v.client_ip c = ip) (hclock : v.clock ≤ now)
    (haccess : v.ip_access_control_ = {}) (hlimiter : v.rate_limiter_ = some limiter)
    (hallowed : (limiter.isAllowed ip now).1 = true) :
    (running config).Reach System.anyStep { v with
      rate_limiter_ := some ((limiter.isAllowed ip now).2.recordRequest ip now)
      server_thread := .recorded c
      clock := now } := by
  have hchecked :=
    hreach.step (l := ServerStep.check now) trivial (check_allowed hthread hip hclock haccess hlimiter hallowed)
  have hrecord := record_allowed (v := { v with
      rate_limiter_ := some (limiter.isAllowed ip now).2, server_thread := .allowed c, clock :=
        now }) rfl hip le_rfl rfl
  exact hchecked.step (l := ServerStep.record now) trivial hrecord

lemma reach_accepted (ip : Str) (hreach : (running config).Reach System.anyStep v)
    (hthread : v.server_thread = .test)
    (hrunning : v.running_ = true) (hlistening : v.listening = true) :
    (running config).Reach System.anyStep { v with
      client_ip := Function.update v.client_ip v.arrivals ip
      arrivals := v.arrivals + 1
      server_thread := .accepted v.arrivals } := by
  have hentered : v.serverLoop config = some { v with server_thread := .accepting } := by
    unfold serverLoop
    simp only [hthread, hrunning, if_true]
  have haccepting := reach_serverLoop hreach hentered
  exact haccepting.step (l := ServerStep.accept (some ip)) trivial (if_pos ⟨rfl, hlistening⟩)

lemma Crowded.next {ip : Str} {n : ℕ} (h : v.Crowded config ip n)
    (hrate : 0 < config.rate_limit.max_requests_per_minute)
    (hn : n < toSize config.connection.max_connections) (hreach : (running config).Reach System.anyStep v) :
    ∃ v', (running config).Reach System.anyStep v' ∧ v'.Crowded config ip (n + 1) := by
  obtain ⟨l, hlimiter, hmax, hwindow⟩ := h.limiter
  have hexpired : (l.rate_limits_ ip).Expired (v.clock + minute) := .inr (by omega)
  have hrefresh : (l.rate_limits_ ip).refresh (v.clock + minute) = ⟨0, v.clock + minute⟩ := if_pos hexpired
  have hallowed : (l.isAllowed ip (v.clock + minute)).1 = true := by
    simp only [FTPRateLimiter.isAllowed, hrefresh, hmax, Nat.cast_zero, hrate, decide_true]
  have hlocks : v.stopper.locks = false := by
    rw [h.stopper]
    rfl
  have haccepted := reach_accepted ip hreach h.server_thread h.running_ h.listening
  have hrecorded := reach_recorded haccepted rfl (Function.update_self _ _ _) (Nat.le_add_right v.clock minute)
    h.ip_access_control_ hlimiter hallowed
  have hhandled := reach_handled hrecorded rfl hlocks (h.connections_.trans_lt hn)
  refine ⟨_, hhandled, h.running_, h.listening, h.stopper, rfl, h.ip_access_control_,
    congrArg (· + 1) h.arrivals, ?_, ?_, ?_⟩
  · rw [List.length_append, h.connections_]
    rfl
  · intro c hc
    rcases Nat.lt_succ_iff_lt_or_eq.1 hc with hlt | rfl
    · have hne : c ≠ v.arrivals := by
        rw [h.arrivals]
        exact hlt.ne
      simp only [Function.update_of_ne hne]
      exact h.awake c hlt
    · simp only [h.arrivals, Function.update_self, and_self]
  · refine ⟨_, rfl, hmax, ?_⟩
    have hopen : RateLimitEntry.refresh ⟨0, v.clock + minute⟩ (v.clock + minute) = ⟨0, v.clock + minute⟩ :=
      ite_self _
    simp only [FTPRateLimiter.recordRequest, FTPRateLimiter.isAllowed, Function.update_self, hrefresh,
      hopen, le_refl]

lemma reach_crowded (henabled : config.rate_limit.enabled = true)
    (hrate : 0 < config.rate_limit.max_requests_per_minute)
    (ip : Str) {n : ℕ} (hn : n ≤ toSize config.connection.max_connections) :
    ∃ v, (running config).Reach System.anyStep v ∧ v.Crowded config ip n := by
  induction n with
  | zero =>
    have hnone : ∀ c < 0, (started config).active c = true ∧ (started config).client_ip c = ip := by
      intro c hc
      exact absurd hc (Nat.not_lt_zero c)
    exact ⟨_, .init rfl, rfl, rfl, rfl, rfl, rfl, rfl, rfl, hnone, _, if_pos henabled, rfl, le_rfl⟩
  | succ n ih =>
    obtain ⟨v, hreach, hcrowded⟩ := ih (Nat.le_of_succ_le hn)
    exact hcrowded.next hrate hn hreach

lemma Crowded.activeFrom {ip : Str} {n : ℕ} (h : v.Crowded config ip n) : v.activeFrom ip = n := by
  have hall : (List.range v.arrivals).filter (fun c => v.active c && v.client_ip c = ip) =
      List.range v.arrivals := by
    apply List.filter_eq_self.2
    intro c hc
    rw [List.mem_range, h.arrivals] at hc
    obtain ⟨hawake, hip⟩ := h.awake c hc
    simp only [hawake, hip, decide_true, Bool.and_self]
  rw [FTPServer.activeFrom, hall, List.length_range, h.arrivals]

end FTPServer

theorem connections_per_ip_are_limited (config : FTPServerConfig) (henabled : config.rate_limit.enabled = true) :
    (∀ v, (FTPServer.running config).Reach System.anyStep v → ∀ ip,
        (v.activeFrom ip : Int) ≤ config.rate_limit.max_connections_per_ip) ↔
      0 ≤ config.rate_limit.max_connections_per_ip ∧ (config.rate_limit.max_requests_per_minute ≤ 0 ∨
        (toSize config.connection.max_connections : Int) ≤ config.rate_limit.max_connections_per_ip) := by
  constructor
  · intro h
    have hnonneg : 0 ≤ config.rate_limit.max_connections_per_ip := h _ (.init rfl) []
    refine ⟨hnonneg, ?_⟩
    by_contra hlarge
    obtain ⟨hrate, hroom⟩ := not_or.1 hlarge
    have hle : config.rate_limit.max_connections_per_ip.toNat + 1 ≤
      toSize config.connection.max_connections := by omega
    obtain ⟨v, hreach, hcrowded⟩ := FTPServer.reach_crowded henabled (not_le.1 hrate) [] hle
    have hlimit := h v hreach []
    rw [hcrowded.activeFrom] at hlimit
    omega
  · rintro ⟨hnonneg, hrate | hroom⟩ v hv ip
    · rw [FTPServer.activeFrom_refusing henabled hrate hv ip]
      exact hnonneg
    · exact (Int.ofNat_le.2 (FTPServer.activeFrom_le hv ip)).trans hroom

def FTPServerConfig.small : FTPServerConfig where
  connection := { max_connections := 5 }
  rate_limit := { enabled := true }

theorem connections_per_ip_are_limited_small : FTPServerConfig.small.rate_limit.enabled = true ∧
    ∀ v, (FTPServer.running .small).Reach System.anyStep v → ∀ ip, (v.activeFrom ip : Int) ≤ 10 :=
  ⟨rfl, (connections_per_ip_are_limited .small rfl).2 ⟨by decide, .inr (by decide)⟩⟩

def FTPServerConfig.single : FTPServerConfig where
  rate_limit := { enabled := true, max_connections_per_ip := 1 }

theorem connections_per_ip_are_not_limited :
    ∃ v, (FTPServer.running .single).Reach System.anyStep v ∧
      FTPServerConfig.single.rate_limit.max_connections_per_ip < v.activeFrom "192.0.2.1" := by
  have hrun : ((FTPServer.running .single).run System.anyStep (FTPServer.started .single)
      (FTPServer.arrival 1 ++ FTPServer.handling ++ FTPServer.arrival 2 ++ FTPServer.handling)).map
        (fun v => decide (FTPServerConfig.single.rate_limit.max_connections_per_ip < v.activeFrom "192.0.2.1")) =
      some true := by
    decide +kernel
  obtain ⟨v, hv, hdecide⟩ := Option.map_eq_some_iff.1 hrun
  have hinit : (FTPServer.running .single).Reach System.anyStep (FTPServer.started .single) := .init rfl
  exact ⟨v, hinit.run hv, of_decide_eq_true hdecide⟩

theorem active_connections_are_limited (config : FTPServerConfig) {v : FTPServer}
    (h : (FTPServer.running config).Reach System.anyStep v) :
    ((List.range v.arrivals).filter v.active).length ≤ toSize config.connection.max_connections ∧
      ∀ c, v.active c = true → c < v.arrivals :=
  ⟨FTPServer.awake_le h fun _ => id, fun _ => (FTPServer.reach_registered h).lt⟩

theorem active_connections_are_limited_served : ∃ v : FTPServer, v.active 0 = true ∧
    ((List.range v.arrivals).filter v.active).length ≤ 5 := by
  obtain ⟨v, hv, hactive⟩ := Option.map_eq_some_iff.1 (show
    ((FTPServer.running FTPServerConfig.small).run System.anyStep (FTPServer.started FTPServerConfig.small)
      (FTPServer.arrival 1 ++ FTPServer.handling)).map (fun v => v.active 0) = some true by decide)
  exact ⟨v, hactive, (active_connections_are_limited FTPServerConfig.small (.run (.init rfl) hv)).1⟩

end SimpleSftpd
