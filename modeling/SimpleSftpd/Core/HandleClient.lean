import SimpleSftpd.Core.Run

namespace SimpleSftpd

open Cxx Interaction

/-- What the control connection will still deliver: bytes one by one, then its end, which is
either orderly or an error. A call that would block is tried again. -/
structure Control where
  bytes : Str
  orderly : Bool

structure Received where
  line : Str
  rest : Control
  active_ : Bool

def chomp (line : Str) : Str := if line.getLast? = some 13 then line.dropLast else line

def readLineFrom (orderly : Bool) (line : Str) : Str → Received
  | [] => ⟨line, ⟨[], orderly⟩, !orderly⟩
  | c :: bytes =>
    if c = 10 then ⟨chomp line, ⟨bytes, orderly⟩, true⟩
    else if (line ++ [c]).length > 1024 then ⟨line ++ [c], ⟨bytes, orderly⟩, true⟩
    else readLineFrom orderly (line ++ [c]) bytes

variable (env : Service) (me : SessionId)

namespace Session

variable (s : Session)

def readLine (control : Control) : Received :=
  if s.socket_ = none then ⟨[], control, true⟩ else readLineFrom control.orderly [] control.bytes

/-- The loop of `handleClient`: the lines it dispatches. `fuel` bounds the rounds, each of which
reads at least one byte. -/
def serve : ℕ → Session → World → Control → List Str
  | 0, _, _, _ => []
  | fuel + 1, s, w, control =>
    if !w.active me then []
    else
      let received := s.readLine control
      let w := if received.active_ then w else (World.machine me w .deactivate).2
      if received.line = [] then []
      else received.line :: match (s.dispatch env received.line).exec (World.machine me) w with
        | (.ok s', w') =>
          if (Command.parse received.line).verb = .quit then [] else serve fuel s' w' received.rest
        | (.error _, _) => []

def greet (w : World) : World :=
  ((s.reply 220 "Welcome to Simple Secure FTP Daemon").exec (World.machine me) w).2

def handleClient (w : World) (control : Control) : List Str :=
  serve env me (control.bytes.length + 1) s (s.greet me w) control

end Session

structure Round where
  session : Session
  arrival : Arrival

namespace Session

variable (s : Session)

def rounds : ℕ → Session → World → Control → List Round
  | 0, _, _, _ => []
  | fuel + 1, s, w, control =>
    if !w.active me then []
    else
      let received := s.readLine control
      let w := if received.active_ then w else (World.machine me w .deactivate).2
      if received.line = [] then []
      else ⟨s, w, received.line⟩ :: match (s.dispatch env received.line).exec (World.machine me) w with
        | (.ok s', w') =>
          if (Command.parse received.line).verb = .quit then [] else rounds fuel s' w' received.rest
        | (.error _, _) => []

lemma rounds_lines (fuel : ℕ) (w : World) (control : Control) :
    (rounds env me fuel s w control).map (·.arrival.line) = serve env me fuel s w control := by
  induction fuel generalizing s w control with
  | zero => rfl
  | succ fuel ih =>
    unfold rounds serve
    split
    · rfl
    · dsimp only
      split
      · rfl
      · rw [List.map_cons]
        congr 1
        split
        · split
          · rfl
          · exact ih _ _ _
        · rfl

def conversation (w : World) (control : Control) : List Round :=
  rounds env me (control.bytes.length + 1) s (s.greet me w) control

def replies (w : World) (control : Control) : List Reply :=
  Trace.replies ((s.reply 220 "Welcome to Simple Secure FTP Daemon").calls (World.machine me) w) ++
    (s.conversation env me w control).flatMap fun r => (r.session.trace env me r.arrival).replies

end Session

end SimpleSftpd
