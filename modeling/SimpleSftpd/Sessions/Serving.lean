import SimpleSftpd.Interaction.Pool
import SimpleSftpd.Sessions.VerifiedUser

namespace SimpleSftpd

open Cxx Interaction Prog

structure Accepted where
  number : Fd
  context : Bool
  ssl : Bool

inductive Turn
  | line (line : Str)
  | stop

def Session.welcome (s : Session) : Io Session := do
  s.reply 220 "Welcome to Simple Secure FTP Daemon"
  return s

def Session.take (env : Service) (s : Session) : Turn → Io Session
  | .line line => s.dispatch env line
  | .stop => s.stop env

abbrev Serving (H : Type) := Pool Call Abort Session H World

def serving {H : Type} (env : Service) (first : Fd → H) (begin : H → Session → Turn → H)
    (note : ∀ {β : Type}, H → Call β → β → H) (finish : H → H) :
    Threads Call Abort Session Accepted Turn H World where
  machine := World.machine
  enter i e w :=
    ((.opened (w.freshFd e.number) e.context e.ssl, first (w.freshFd e.number)),
      (w.openSocket i (some e.number)).2)
  greet := Session.welcome
  turn := Session.take env
  begin := begin
  note := note
  finish := finish

def Serving.Unopened {H : Type} (none : H) (st : Serving H) : Prop :=
  ∀ i, st.thread i = .none ∧ st.history i = none

namespace Serving

variable {H : Type}

def sampleEntry (i : SessionId) (e : Accepted) : List (PoolStep Accepted Turn) := [.enter i e, .call i, .done i]

def sampleTurn (i : SessionId) (line : String) (calls : ℕ) : List (PoolStep Accepted Turn) :=
  .turn i (.line (ascii line)) :: List.replicate calls (.call i) ++ [.done i]

def sampleSteps (i : SessionId) (number : Fd) : List (PoolStep Accepted Turn) :=
  sampleEntry i ⟨number, false, false⟩ ++ sampleTurn i "USER u" 1 ++ sampleTurn i "PASS p" 3 ++
    sampleTurn i "PASV" 4

def sampleStart (h : H) (w : World) : Serving H := ⟨w, fun _ => none, fun _ => h⟩

lemma sampleStart_unopened (h : H) (w : World) : (sampleStart h w).Unopened h := fun _ => ⟨rfl, rfl⟩

end Serving

end SimpleSftpd
