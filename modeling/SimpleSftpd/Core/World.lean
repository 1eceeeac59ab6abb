import SimpleSftpd.Core.Calls
import SimpleSftpd.Core.SessionTracker

/-! The environment of the sessions of one process. What the code cannot know (peers, clocks, the
random generator, PAM, short counts) is drawn from `choose`, call by call; the rest is computed. -/

namespace SimpleSftpd

open Cxx Interaction

abbrev SessionId := ℕ

inductive Opened
  | socket
  | file (at_ : Location) (offset : Int)
  deriving DecidableEq

structure Descriptor where
  owner : SessionId
  what : Opened
  deriving DecidableEq

structure World where
  fs : FileSystem
  fds : List (Fd × Descriptor)
  tracker : SessionTracker
  active : SessionId → Bool
  time : ℕ
  choose : ∀ {β : Type}, ℕ → Call β → β
  epipe : ℕ → Bool

namespace World

variable (w : World)

def tick : World := { w with time := w.time + 1 }

def freshFd (n : Fd) : Fd :=
  if (w.fds.lookup n).isSome then (w.fds.map Prod.fst).foldl max 0 + 1 else n

def openFd (n : Fd) (d : Descriptor) : World := { w with fds := (w.freshFd n, d) :: w.fds }

def closeFd (n : Fd) : World := { w with fds := w.fds.filter (·.1 ≠ n) }

def fileAt (n : Fd) : Option (Location × Int) := match w.fds.lookup n with
  | some ⟨_, .file l pos⟩ => some (l, pos)
  | _ => none

def seek (n : Fd) (pos : Int) : World :=
  { w with fds := w.fds.map fun (m, d) =>
      if m = n then (m, match d.what with
        | .file l _ => { d with what := .file l pos }
        | .socket => d)
      else (m, d) }

def withFs (fs : FileSystem) : World := { w with fs }

def openPath (me : SessionId) (chosen : Option Fd) (r : Except Errc Location) : Option Fd × World :=
  match chosen, r with
  | some n, .ok l => (some (w.freshFd n), (w.openFd n ⟨me, .file l 0⟩).tick)
  | _, _ => (none, w.tick)

def openSocket (me : SessionId) (chosen : Option Fd) : Option Fd × World :=
  match chosen with
  | some n => (some (w.freshFd n), (w.openFd n ⟨me, .socket⟩).tick)
  | none => (none, w.tick)

def upTo (len : ℕ) (n : Int) : Int := min n len

abbrev answer {β : Type} (me : SessionId) (w : World) : Call β → β × World
  | .sendControl tls line => (w.choose w.time (.sendControl tls line), w.tick)
  | .deactivate => ((), { w with active := Function.update w.active me false })
  | .steadyNow => (w.choose w.time .steadyNow, w.tick)
  | .systemNow => (w.choose w.time .systemNow, w.tick)
  | .sleepFor _ => ((), w)
  | .randBytes n => (w.choose w.time (.randBytes n), w.tick)
  | .pamAuthenticate u p => (w.choose w.time (.pamAuthenticate u p), w.tick)
  | .getpwnam u => (w.choose w.time (.getpwnam u), w.tick)
  | .sslInitialize c k ca => (w.choose w.time (.sslInitialize c k ca), w.tick)
  | .sslAccept => (w.choose w.time .sslAccept, w.tick)
  | .getCountForUser u => (w.tracker.getCountForUser u, w)
  | .getCountForHost h => (w.tracker.getCountForHost h, w)
  | .registerSession u h => ((), { w with tracker := w.tracker.registerSession u h })
  | .unregisterSession u h => ((), { w with tracker := w.tracker.unregisterSession u h })
  | .nameSpace => (w.fs, w)
  | .status p => (w.fs.status p, w)
  | .fileSize p => (w.fs.fileSize p, w)
  | .lastWriteTime p => (match w.fs.deny .lastWriteTime p with | some e => .error e | none => .ok (), w)
  | .modifiedTimeUtc p => (w.choose w.time (.modifiedTimeUtc p), w.tick)
  | .readDirectory p => (w.fs.readDirectory p, w)
  | .regularFilesBelow p => (w.fs.regularFilesBelow p, w)
  | .createDirectory p => ((w.fs.createDirectory p).1, w.withFs (w.fs.createDirectory p).2)
  | .createDirectories p => ((w.fs.createDirectories p).1, w.withFs (w.fs.createDirectories p).2)
  | .remove p => ((w.fs.remove p).1, w.withFs (w.fs.remove p).2)
  | .rename p q => ((w.fs.rename p q).1, w.withFs (w.fs.rename p q).2)
  | .permissions p mode => ((w.fs.permissions p mode).1, w.withFs (w.fs.permissions p mode).2)
  | .chroot p => match w.choose w.time (.chroot p), w.fs.locate p with
    | true, .ok l => (true, (w.withFs { w.fs with root := l }).tick)
    | _, _ => (false, w.tick)
  | .socket => w.openSocket me (w.choose w.time .socket)
  | .bind fd port => (w.choose w.time (.bind fd port), w.tick)
  | .listen fd => (w.choose w.time (.listen fd), w.tick)
  | .select fd => (w.choose w.time (.select fd), w.tick)
  | .accept fd => match w.choose w.time (.accept fd) with
    | some (n, peer) => ((w.openSocket me (some n)).1.map (·, peer), (w.openSocket me (some n)).2)
    | none => (none, w.tick)
  | .connect fd ip port => (w.choose w.time (.connect fd ip port), w.tick)
  | .close fd => ((), w.closeFd fd)
  | .send fd data => (upTo data.length (w.choose w.time (.send fd data)), w.tick)
  | .recv _ _ => ((), w)
  | .openRead p => w.openPath me (w.choose w.time (.openRead p)) (w.fs.openRead p)
  | .fstat fd => ((w.fileAt fd).bind fun (l, _) => (w.fs.node l).map fun n => match n with
      | .regular b => (true, b.length)
      | _ => (false, 0), w)
  | .lseek fd pos =>
    if 0 ≤ pos ∧ (w.fileAt fd).isSome then (true, w.seek fd pos) else (false, w)
  | .read fd n => match w.fileAt fd, w.choose w.time (.read fd n) with
    | some (l, pos), some b =>
      let data := ((w.fs.content l).drop pos.toNat).take (min n b.length)
      (some data, (w.seek fd (pos + data.length)).tick)
    | _, _ => (none, w.tick)
  | .sendfile out file offset count => match w.fileAt file, decide (0 ≤ offset) with
    | some (l, _), true =>
      (upTo (min count ((w.fs.content l).length - offset.toNat))
        (w.choose w.time (.sendfile out file offset count)), w.tick)
    | _, _ => (upTo 0 (-1), w.tick)
  | .mmap fd len => match w.fileAt fd, w.choose w.time (.mmap fd len) with
    | some (l, _), some _ => (some ((w.fs.content l).take len), w.tick)
    | _, _ => (none, w.tick)
  | .sendMapped fd mapped index count =>
    (upTo count (w.choose w.time (.sendMapped fd mapped index count)), w.tick)
  | .munmap _ => ((), w)
  | .openWrite p mode =>
    let r := w.fs.openWrite p mode
    (w.withFs r.2).openPath me (w.choose w.time (.openWrite p mode)) r.1
  | .write fd pos data => match w.fileAt fd, w.choose w.time (.write fd pos data) with
    | some (l, _), true => (true, (w.withFs (w.fs.writeAt l pos data)).tick)
    | _, _ => (false, w.tick)
  | .appendTo fd data => match w.fileAt fd, w.choose w.time (.appendTo fd data) with
    | some (l, _), true => (true, (w.withFs (w.fs.append l data)).tick)
    | _, _ => (false, w.tick)
  | .zlibInit c => (w.choose w.time (.zlibInit c), w.tick)
  -- no vector has more than `PTRDIFF_MAX` bytes
  | .allocate n => (decide (n < 2 ^ 63) && w.choose w.time (.allocate n), w.tick)

abbrev machine (me : SessionId) : Machine Call World := fun _ w c => answer me w c

def start (fs : FileSystem) (choose : ∀ {β : Type}, ℕ → Call β → β) : World :=
  ⟨fs, [], .empty, fun _ => true, 0, choose, fun _ => false⟩

end World

def Call.favourable {β : Type} : Call β → β
  | sendControl _ _ | pamAuthenticate _ _ | sslInitialize _ _ _ | sslAccept | chroot _ | bind _ _
  | listen _ | select _ | lseek _ _ | write _ _ _ | appendTo _ _ | zlibInit _ | allocate _ => true
  | deactivate | sleepFor _ | registerSession _ _ | unregisterSession _ _ | close _ | recv _ _
  | munmap _ => ()
  | steadyNow | getCountForUser _ | getCountForHost _ => 0
  | systemNow => 0
  | randBytes _ | getpwnam _ | modifiedTimeUtc _ | permissions _ _ | fstat _ => none
  | nameSpace => ⟨[], [], fun _ _ _ => none, []⟩
  | status _ => .ok .notFound
  | fileSize _ => .ok 0
  | lastWriteTime _ | rename _ _ => .ok ()
  | readDirectory _ => ([], none)
  | regularFilesBelow _ => []
  | createDirectory _ | createDirectories _ | remove _ => .ok true
  | socket | openRead _ | openWrite _ _ => some 0
  | accept _ => some (0, .silent)
  | connect _ _ _ => some .silent
  | send _ data => data.length
  | sendMapped _ _ _ n | sendfile _ _ _ n => n
  | read _ n => some (List.replicate n 0)
  | mmap _ _ => some []

def World.favourable (fs : FileSystem) : World := .start fs fun _ c => c.favourable

end SimpleSftpd
