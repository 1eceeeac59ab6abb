import SimpleSftpd.Interaction.Contract
import SimpleSftpd.VirtualHost.VirtualHost

namespace SimpleSftpd

open Cxx Interaction

abbrev Fd := ℕ

inductive Reply
  | final (code : ℕ) (text : Str)
  | opening (code : ℕ) (text : Str)
  | inner (text : Str)
  deriving DecidableEq

def Reply.render : Reply → Str
  | final code text => decimal code ++ " " ++ text
  | opening code text => decimal code ++ "-" ++ text
  | inner text => " " ++ text

/-- How the other end of a data connection will behave: the results of successive `recv` calls,
of which only the last may be empty. -/
structure Peer where
  chunks : List Str
  orderly : Bool
  nonempty : ∀ chunk ∈ chunks, chunk ≠ []

def Peer.silent : Peer := ⟨[], true, List.forall_mem_nil _⟩

inductive Coder
  | deflate | inflate
  deriving DecidableEq

/-- `ZlibStream::process`: the bytes produced, a failure, or a loop that never ends. -/
inductive Processed
  | ok (output : Str)
  | failed
  | hangs
  deriving DecidableEq

/-- What `process` makes of the last of the calls made on a stream; each call is its input and
`finish`. The loop around `deflate` ends, the one around `inflate` waits for the end of the stream
when `finish` is set. -/
structure Zlib where
  deflate : List (Str × Bool) → Option Str
  inflate : List (Str × Bool) → Processed

inductive Call : Type → Type
  | sendControl (tls : Bool) (line : Reply) : Call Bool
  | deactivate : Call Unit
  | steadyNow : Call ℕ
  | systemNow : Call Int
  | sleepFor (ms : ℕ) : Call Unit
  | randBytes (n : ℕ) : Call (Option (List Byte))
  | pamAuthenticate (username password : Str) : Call Bool
  | getpwnam (username : Str) : Call (Option Str)
  | sslInitialize (cert key ca : Str) : Call Bool
  | sslAccept : Call Bool
  | getCountForUser (username : Str) : Call ℕ
  | getCountForHost (hostname : Str) : Call ℕ
  | registerSession (username hostname : Str) : Call Unit
  | unregisterSession (username hostname : Str) : Call Unit
  | nameSpace : Call FileSystem
  | status (p : Str) : Call (Except Errc FileType)
  | fileSize (p : Str) : Call (Except Errc ℕ)
  | lastWriteTime (p : Str) : Call (Except Errc Unit)
  | modifiedTimeUtc (p : Str) : Call (Option Str)
  | readDirectory (p : Str) : Call (List Str × Option Errc)
  | regularFilesBelow (p : Str) : Call (List (Except Errc ℕ))
  | createDirectory (p : Str) : Call (Except Errc Bool)
  | createDirectories (p : Str) : Call (Except Errc Bool)
  | remove (p : Str) : Call (Except Errc Bool)
  | rename (p q : Str) : Call (Except Errc Unit)
  | permissions (p : Str) (mode : ℕ) : Call (Option Errc)
  | chroot (p : Str) : Call Bool
  | socket : Call (Option Fd)
  | bind (fd : Fd) (port : Int) : Call Bool
  | listen (fd : Fd) : Call Bool
  | select (fd : Fd) : Call Bool
  | accept (fd : Fd) : Call (Option (Fd × Peer))
  | connect (fd : Fd) (ip : Str) (port : Int) : Call (Option Peer)
  | close (fd : Fd) : Call Unit
  | send (fd : Fd) (data : Str) : Call Int
  | recv (fd : Fd) (result : Option Str) : Call Unit
  | openRead (p : Str) : Call (Option Fd)
  | fstat (fd : Fd) : Call (Option (Bool × ℕ))
  | lseek (fd : Fd) (pos : Int) : Call Bool
  | read (fd : Fd) (n : ℕ) : Call (Option Str)
  | sendfile (out file : Fd) (offset : Int) (count : ℕ) : Call Int
  | mmap (fd : Fd) (len : ℕ) : Call (Option Str)
  | sendMapped (fd : Fd) (mapped : Str) (index : Int) (count : ℕ) : Call Int
  | munmap (len : ℕ) : Call Unit
  | openWrite (p : Str) (mode : FileSystem.OpenMode) : Call (Option Fd)
  | write (fd : Fd) (pos : ℕ) (data : Str) : Call Bool
  | appendTo (fd : Fd) (data : Str) : Call Bool
  | zlibInit (coder : Coder) : Call Bool
  | allocate (n : ℕ) : Call Bool

inductive Abort
  | filesystem_error (e : Errc)
  | bad_alloc
  | hangs
  deriving DecidableEq

abbrev Io (α : Type) := Prog Call Abort α

abbrev perform {β : Type} (c : Call β) : Io β := Prog.perform c

/-- A `std::filesystem` call without an `error_code` argument throws what it would report. -/
def orThrow {α : Type} : Except Errc α → Io α
  | .ok a => pure a
  | .error e => Prog.throw (.filesystem_error e)

end SimpleSftpd
