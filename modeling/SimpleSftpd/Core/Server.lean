import SimpleSftpd.Config.ServerConfig
import SimpleSftpd.Interaction.System
import SimpleSftpd.Security.IPAccessControl
import SimpleSftpd.Security.RateLimiter

/-! server.cpp and connection_manager.cpp: the thread that accepts connections, the thread that
stops the server, the clean-up thread and the ends of connections, in steps that interleave. -/

namespace SimpleSftpd

open Cxx Interaction

abbrev ConnectionId := ℕ

inductive LoopPhase
  | test
  | accepting
  | accepted (c : ConnectionId)
  | allowed (c : ConnectionId)
  | recorded (c : ConnectionId)
  | admitted (c : ConnectionId)
  | added (c : ConnectionId)
  | started (c : ConnectionId)
  | exited
  deriving DecidableEq

inductive StopPhase
  | uncalled
  | flagged
  | closed
  | sweeping (rest : List ConnectionId)
  | swept
  | unflagged
  | joined
  | sweepingAgain (rest : List ConnectionId)
  | sweptAgain
  | returned
  deriving DecidableEq

def StopPhase.locks : StopPhase → Bool
  | .sweeping _ | .sweepingAgain _ => true
  | _ => false

def StopPhase.cleans : StopPhase → Bool
  | .uncalled | .flagged | .closed | .sweeping _ | .swept | .unflagged => true
  | _ => false

structure FTPServer where
  running_ : Bool := true
  listening : Bool := true
  rate_limiter_ : Option FTPRateLimiter
  ip_access_control_ : IPAccessControl := {}
  connections_ : List ConnectionId := []
  active : ConnectionId → Bool := fun _ => false
  client_ip : ConnectionId → Str := fun _ => []
  arrivals : ℕ := 0
  clock : ℕ := 0
  server_thread : LoopPhase := .test
  stopper : StopPhase := .uncalled

def toSize (n : Int) : ℕ := (n % 2 ^ 64).toNat

namespace FTPServer

variable (config : FTPServerConfig) (v : FTPServer)

def started : FTPServer where
  rate_limiter_ := if config.rate_limit.enabled then
      some ((FTPRateLimiter.setRateLimit {} config.rate_limit.max_requests_per_minute).setConnectionLimit
        config.rate_limit.max_connections_per_ip)
    else none

def holds (c : ConnectionId) : Bool := v.server_thread = .added c || v.server_thread = .started c

def release (c : ConnectionId) : FTPServer :=
  if c ∈ v.connections_ then v else { v with active := Function.update v.active c false }

def accept : Option Str → Option FTPServer
  | none => if v.server_thread = .accepting then some { v with server_thread := .test } else none
  | some ip =>
    if v.server_thread = .accepting ∧ v.listening then
      some { v with
        client_ip := Function.update v.client_ip v.arrivals ip
        arrivals := v.arrivals + 1
        server_thread := .accepted v.arrivals }
    else none

def check (now : ℕ) : Option FTPServer :=
  match v.server_thread with
  | .accepted c =>
    if now < v.clock then none
    else match v.ip_access_control_.isAllowed (v.client_ip c) with
      | .error _ => none
      | .ok false => some { v with server_thread := .test, clock := now }
      | .ok true => match v.rate_limiter_ with
        | none => some { v with server_thread := .allowed c, clock := now }
        | some limiter =>
          let (allowed, limiter) := limiter.isAllowed (v.client_ip c) now
          some { v with
            rate_limiter_ := some limiter
            server_thread := if allowed then .allowed c else .test
            clock := now }
  | _ => none

def record (now : ℕ) : Option FTPServer :=
  match v.server_thread with
  | .allowed c =>
    if now < v.clock then none
    else some { v with
      rate_limiter_ := v.rate_limiter_.map fun limiter => limiter.recordRequest (v.client_ip c) now
      server_thread := .recorded c
      clock := now }
  | _ => none

def serverLoop : Option FTPServer :=
  match v.server_thread with
  | .test => some { v with server_thread := if v.running_ then .accepting else .exited }
  | .recorded c =>
    if v.stopper.locks then none
    else some { v with
      server_thread := if v.connections_.length ≥ toSize config.connection.max_connections then
        .test else .admitted c }
  | .admitted c =>
    if v.stopper.locks then none
    else some { v with connections_ := v.connections_ ++ [c], server_thread := .added c }
  | .added c => some { v with active := Function.update v.active c true, server_thread := .started c }
  | .started c => some { v.release c with server_thread := .test }
  | _ => none

def cleanup (c : ConnectionId) : Option FTPServer :=
  if v.stopper.cleans ∧ ¬ v.stopper.locks ∧ c ∈ v.connections_ ∧ ¬ v.active c then
    some { v with connections_ := v.connections_.erase c }
  else none

def finish (c : ConnectionId) : Option FTPServer :=
  if v.active c then some { v with active := Function.update v.active c false } else none

def clear : FTPServer :=
  { v with
    connections_ := []
    active := fun c => v.active c && (c ∉ v.connections_ || v.holds c) }

def sweep (onward : List ConnectionId → StopPhase) (done : StopPhase) : List ConnectionId → FTPServer
  | [] => { v.clear with stopper := done }
  | c :: rest => { v with active := Function.update v.active c false, stopper := onward rest }

def stop : Option FTPServer :=
  match v.stopper with
  | .uncalled => some { v with running_ := false, stopper := .flagged }
  | .flagged => some { v with listening := false, stopper := .closed }
  | .closed => some { v with stopper := .sweeping v.connections_ }
  | .sweeping rest => some (v.sweep .sweeping .swept rest)
  | .swept => some { v with stopper := .unflagged }
  | .unflagged => some { v with stopper := .joined }
  | .joined => some { v with stopper := .sweepingAgain v.connections_ }
  | .sweepingAgain rest => some (v.sweep .sweepingAgain .sweptAgain rest)
  | .sweptAgain => if v.server_thread = .exited then some { v with stopper := .returned } else none
  | .returned => none

end FTPServer

inductive ServerStep
  | accept (client_ip : Option Str)
  | check (now : ℕ)
  | record (now : ℕ)
  | serverLoop
  | cleanup (c : ConnectionId)
  | finish (c : ConnectionId)
  | stop
  deriving DecidableEq

namespace FTPServer

def step (config : FTPServerConfig) (v : FTPServer) : ServerStep → Option FTPServer
  | .accept client_ip => v.accept client_ip
  | .check now => v.check now
  | .record now => v.record now
  | .serverLoop => v.serverLoop config
  | .cleanup c => v.cleanup c
  | .finish c => v.finish c
  | .stop => v.stop

def running (config : FTPServerConfig) : System FTPServer ServerStep where
  init v := v = started config
  next := step config

inductive Effect (config : FTPServerConfig) (v : FTPServer) : ServerStep → FTPServer → Prop
  | unaccepted : v.server_thread = .accepting → Effect config v (.accept none) { v with server_thread := .test }
  | accepted (ip : Str) : v.server_thread = .accepting → v.listening = true →
      Effect config v (.accept (some ip)) { v with
        client_ip := Function.update v.client_ip v.arrivals ip
        arrivals := v.arrivals + 1
        server_thread := .accepted v.arrivals }
  | blocked (now : ℕ) (c : ConnectionId) : v.server_thread = .accepted c →
      Effect config v (.check now) { v with server_thread := .test, clock := now }
  | limited (now : ℕ) (c : ConnectionId) : v.server_thread = .accepted c →
      Effect config v (.check now) { v with
        rate_limiter_ := v.rate_limiter_.map fun l => (l.isAllowed (v.client_ip c) now).2
        server_thread := .test
        clock := now }
  | allowed (now : ℕ) (c : ConnectionId) : v.server_thread = .accepted c →
      (∀ l, v.rate_limiter_ = some l → (l.isAllowed (v.client_ip c) now).1 = true) →
      Effect config v (.check now) { v with
        rate_limiter_ := v.rate_limiter_.map fun l => (l.isAllowed (v.client_ip c) now).2
        server_thread := .allowed c
        clock := now }
  | recorded (now : ℕ) (c : ConnectionId) : v.server_thread = .allowed c →
      Effect config v (.record now) { v with
        rate_limiter_ := v.rate_limiter_.map fun l => l.recordRequest (v.client_ip c) now
        server_thread := .recorded c
        clock := now }
  | entered : v.server_thread = .test → v.running_ = true →
      Effect config v .serverLoop { v with server_thread := .accepting }
  | exited : v.server_thread = .test → v.running_ = false →
      Effect config v .serverLoop { v with server_thread := .exited }
  | crowded (c : ConnectionId) : v.server_thread = .recorded c →
      Effect config v .serverLoop { v with server_thread := .test }
  | admitted (c : ConnectionId) : v.server_thread = .recorded c →
      v.connections_.length < toSize config.connection.max_connections →
      Effect config v .serverLoop { v with server_thread := .admitted c }
  | added (c : ConnectionId) : v.server_thread = .admitted c → v.stopper.locks = false →
      Effect config v .serverLoop { v with connections_ := v.connections_ ++ [c], server_thread := .added c }
  | started (c : ConnectionId) : v.server_thread = .added c →
      Effect config v .serverLoop { v with active := Function.update v.active c true, server_thread := .started c }
  | handled (c : ConnectionId) : v.server_thread = .started c →
      Effect config v .serverLoop { v.release c with server_thread := .test }
  | cleaned (c : ConnectionId) : v.active c = false →
      Effect config v (.cleanup c) { v with connections_ := v.connections_.erase c }
  | finished (c : ConnectionId) : Effect config v (.finish c) { v with active := Function.update v.active c false }
  | flagged : v.stopper = .uncalled → Effect config v .stop { v with running_ := false, stopper := .flagged }
  | closed : v.stopper = .flagged → Effect config v .stop { v with listening := false, stopper := .closed }
  | advanced (phase : StopPhase) : phase ≠ .sweptAgain → phase ≠ .returned → v.stopper ≠ .sweptAgain →
      Effect config v .stop { v with stopper := phase }
  | stopped (c : ConnectionId) (phase : StopPhase) : phase ≠ .sweptAgain → phase ≠ .returned →
    v.stopper ≠ .sweptAgain →
      Effect config v .stop { v with active := Function.update v.active c false, stopper := phase }
  | cleared (phase : StopPhase) : phase ≠ .returned → Effect config v .stop { v.clear with stopper := phase }
  | returned : v.stopper = .sweptAgain → v.server_thread = .exited →
    Effect config v .stop { v with stopper := .returned }

variable {config : FTPServerConfig} {v v' : FTPServer}

lemma accept_effect {ip : Option Str} (h : v.accept ip = some v') : Effect config v (.accept ip) v' := by
  cases ip with
  | none =>
    obtain ⟨hthread, heq⟩ := Option.ite_none_right_eq_some.1 h
    cases heq
    exact .unaccepted hthread
  | some ip =>
    obtain ⟨⟨hthread, hlistening⟩, heq⟩ := Option.ite_none_right_eq_some.1 h
    cases heq
    exact .accepted ip hthread hlistening

lemma check_effect {now : ℕ} (h : v.check now = some v') : Effect config v (.check now) v' := by
  obtain ⟨_, _, limiter, _, _, _, _, _, _, thread, _⟩ := v
  unfold check at h
  split at h
  · rename_i c hthread
    obtain ⟨_, h⟩ := Option.ite_none_left_eq_some.1 h
    split at h
    · cases h
    · cases h
      exact .blocked now c hthread
    · cases limiter with
      | none =>
        cases h
        exact .allowed now c hthread fun l hl => by cases hl
      | some l =>
        cases h
        dsimp only
        split
        · rename_i hallowed
          apply Effect.allowed now c hthread
          intro l' hl
          cases hl
          exact hallowed
        · exact .limited now c hthread
  · cases h

lemma record_effect {now : ℕ} (h : v.record now = some v') : Effect config v (.record now) v' := by
  unfold record at h
  split at h
  · rename_i c hthread
    obtain ⟨_, heq⟩ := Option.ite_none_left_eq_some.1 h
    cases heq
    exact .recorded now c hthread
  · cases h

lemma serverLoop_effect (h : v.serverLoop config = some v') : Effect config v .serverLoop v' := by
  unfold serverLoop at h
  split at h
  · rename_i hthread
    cases h
    split
    · rename_i hrunning
      exact .entered hthread hrunning
    · rename_i hrunning
      exact .exited hthread (by simpa using hrunning)
  · rename_i c hthread
    obtain ⟨_, heq⟩ := Option.ite_none_left_eq_some.1 h
    cases heq
    split
    · exact .crowded c hthread
    · rename_i hroom
      exact .admitted c hthread (not_le.1 hroom)
  · rename_i c hthread
    obtain ⟨hlock, heq⟩ := Option.ite_none_left_eq_some.1 h
    cases heq
    exact .added c hthread (by simpa using hlock)
  · rename_i c hthread
    cases h
    exact .started c hthread
  · rename_i c hthread
    cases h
    exact .handled c hthread
  · cases h

lemma sweep_effect {onward : List ConnectionId → StopPhase} {done : StopPhase} {rest : List ConnectionId}
    (hone : ∀ r, onward r ≠ .sweptAgain ∧ onward r ≠ .returned) (hdone : done ≠ .returned)
    (hv : v.stopper ≠ .sweptAgain) :
    Effect config v .stop (v.sweep onward done rest) := by
  cases rest with
  | nil => exact .cleared done hdone
  | cons c rest => exact .stopped c (onward rest) (hone rest).1 (hone rest).2 hv

lemma stop_effect (h : v.stop = some v') : Effect config v .stop v' := by
  unfold stop at h
  split at h
  case h_1 hphase =>
    cases h
    exact .flagged hphase
  case h_2 hphase =>
    cases h
    exact .closed hphase
  case h_4 rest hphase =>
    cases h
    exact sweep_effect (by simp) (by simp) (by simp [hphase])
  case h_8 rest hphase =>
    cases h
    exact sweep_effect (by simp) (by simp) (by simp [hphase])
  case h_9 hphase =>
    obtain ⟨hthread, heq⟩ := Option.ite_none_right_eq_some.1 h
    cases heq
    exact .returned hphase hthread
  case h_10 => cases h
  all_goals
    rename_i hphase
    cases h
    exact .advanced _ (by simp) (by simp) (by simp [hphase])

lemma step_effect {l : ServerStep} (h : step config v l = some v') : Effect config v l v' := by
  cases l with
  | accept ip => exact accept_effect h
  | check now => exact check_effect h
  | record now => exact record_effect h
  | serverLoop => exact serverLoop_effect h
  | cleanup c =>
    obtain ⟨⟨_, _, _, hactive⟩, heq⟩ := Option.ite_none_right_eq_some.1 h
    cases heq
    exact .cleaned c (by simpa using hactive)
  | finish c =>
    obtain ⟨_, heq⟩ := Option.ite_none_right_eq_some.1 h
    cases heq
    exact .finished c
  | stop => exact stop_effect h

end FTPServer

end SimpleSftpd
