import SimpleSftpd.Core.DataConnection

namespace SimpleSftpd

open Cxx Interaction

variable (env : Service)

structure Progress where
  total_bytes : ℕ
  remaining : ℕ

def applyThrottle (max_rate : Int) (start_time bytes : ℕ) : Io Unit :=
  if max_rate ≤ 0 then return ()
  else do
    let now : ℕ ← perform .steadyNow
    let elapsed := now - start_time
    let allowed := max_rate.toNat * elapsed % 2 ^ 64 / 1000
    if 0 < elapsed ∧ allowed < bytes then
      perform (.sleepFor ((bytes - allowed) * 1000 % 2 ^ 64 / max_rate.toNat))
    else return ()

structure Retrieval where
  data_fd : Fd
  file_fd : Fd
  buf_size : ℕ
  max_rate : Int
  start_time : ℕ

def Service.bufferSize : ℕ :=
  if env.config_.transfer.buffer_size > 0 then env.config_.transfer.buffer_size else 32768

def Service.sendsFiles : Bool := env.config_.transfer.use_sendfile && decide (env.bufferSize < 2 ^ 63)

namespace Retrieval

variable (t : Retrieval)

def throttle (bytes : ℕ) : Io Unit := applyThrottle t.max_rate t.start_time bytes

/-- The sendfile loop: each round moves `offset`, and a short count ends it. `fuel` bounds the
rounds, each of which sends at least one of the remaining bytes. -/
def sendfileLoop : ℕ → Int → Progress → Io (Int × Progress)
  | 0, offset, g => return (offset, g)
  | fuel + 1, offset, g =>
    if g.remaining = 0 then return (offset, g)
    else do
      t.throttle g.total_bytes
      let chunk := min t.buf_size g.remaining
      let n : Int ← perform (.sendfile t.data_fd t.file_fd offset chunk)
      if n ≤ 0 then return (offset, g)
      else
        let g := ⟨g.total_bytes + n.toNat, g.remaining - n.toNat⟩
        if n < chunk then return (offset + n, g) else sendfileLoop fuel (offset + n) g

def mmapLoop (mapped : Str) : ℕ → Int → Progress → Io Progress
  | 0, _, g => return g
  | fuel + 1, index, g =>
    if g.remaining = 0 then return g
    else do
      t.throttle g.total_bytes
      let sent : Int ← perform (.sendMapped t.data_fd mapped index (min t.buf_size g.remaining))
      if sent ≤ 0 then return g
      else mmapLoop mapped fuel (index + sent) ⟨g.total_bytes + sent.toNat, g.remaining - sent.toNat⟩

def readLoop : ℕ → Progress → Io Progress
  | 0, g => return g
  | fuel + 1, g =>
    if g.remaining = 0 then return g
    else do
      t.throttle g.total_bytes
      let got : Option Str ← perform (.read t.file_fd (min t.buf_size g.remaining))
      match got with
      | none => return g
      | some data =>
        if data = [] then return g
        else do
          let sent : Int ← perform (.send t.data_fd data)
          if sent ≤ 0 then return g
          else
            let g := ⟨g.total_bytes + sent.toNat, g.remaining - sent.toNat⟩
            if sent < data.length then return g else readLoop fuel g

def sendCompressed (data : Str) : Io Bool :=
  if data = [] then return true
  else do
    let sent : Int ← perform (.send t.data_fd data)
    return sent = data.length

def deflateLoop (zlib : Zlib) : ℕ → List (Str × Bool) → Progress → Io (Bool × List (Str × Bool) × Progress)
  | 0, made, g => return (g.remaining = 0, made, g)
  | fuel + 1, made, g =>
    if g.remaining = 0 then return (true, made, g)
    else do
      t.throttle g.total_bytes
      let got : Option Str ← perform (.read t.file_fd (min t.buf_size g.remaining))
      match got with
      | none => return (false, made, g)
      | some data =>
        if data = [] then return (false, made, g)
        else
          let made := made ++ [(data, false)]
          match zlib.deflate made with
          | none => return (false, made, g)
          | some compressed => do
            let ok ← t.sendCompressed compressed
            if !ok then return (false, made, g)
            else deflateLoop zlib fuel made ⟨g.total_bytes + compressed.length, g.remaining - data.length⟩

/-- `std::vector<char> buffer(buf_size)`, which throws where the memory cannot be had. -/
def makeBuffer : Io Unit := do
  let made : Bool ← perform (.allocate t.buf_size)
  if made then return () else Prog.throw .bad_alloc

def deflateFile (zlib : Zlib) (g : Progress) : Io (Bool × Progress) := do
  t.makeBuffer
  let (ok, made, g) ← t.deflateLoop zlib g.remaining [] g
  if !ok then return (false, g)
  else
    match zlib.deflate (made ++ [([], true)]) with
    | none => return (false, g)
    | some compressed => do
      let ok ← t.sendCompressed compressed
      return (ok, ⟨g.total_bytes + (if ok then compressed.length else 0), g.remaining⟩)

def mmapFile (file_size : ℕ) (offset : Int) (total_bytes : ℕ) : Io (Option Progress) := do
  let mapped : Option Str ← perform (.mmap t.file_fd file_size)
  match mapped with
  | none => return none
  | some bytes => do
    let remaining := (file_size - offset).toNat
    let g ← t.mmapLoop bytes remaining offset ⟨total_bytes, remaining⟩
    perform (.munmap file_size)
    return some g

/-- Stream mode: sendfile, then the mapping, then read and send, each taking over where the one
before it stopped. The result is `false` when the final seek fails. -/
def sendFile (use_sendfile use_mmap : Bool) (file_size : ℕ) (offset : Int) : Io Bool := do
  let remaining := (file_size - offset).toNat
  let (offset, g) ← (if use_sendfile then t.sendfileLoop remaining offset ⟨0, remaining⟩
    else return (offset, ⟨0, remaining⟩) : Io (Int × Progress))
  let sent := use_sendfile && (0 < remaining && g.remaining = 0 : Bool)
  if sent then return true
  else do
  let mapped ← (if use_mmap ∧ 0 < file_size ∧ offset < file_size then
      t.mmapFile file_size offset g.total_bytes
    else return none : Io (Option Progress))
  let (total_bytes, sent) := match mapped with
    | some m => (m.total_bytes, decide (m.remaining = 0))
    | none => (g.total_bytes, false)
  if sent then return true
  else do
  let sought : Bool ← perform (.lseek t.file_fd offset)
  if !sought then return false
  else do
    t.makeBuffer
    let remaining := (file_size - offset).toNat
    let _ ← t.readLoop remaining ⟨total_bytes, remaining⟩
    return true

end Retrieval

namespace Session

variable (s : Session)

def handleMODE (mode : Str) : Io Str :=
  let m := upper mode
  if m = "S" ∨ m = "STREAM" then do
    s.reply 200 "Mode set to Stream"
    return "S"
  else if m = "Z" then
    if !env.compressionEnabled then do
      s.reply 504 "MODE Z is not enabled"
      return s.transfer_mode_
    else do
      s.reply 200 "Mode set to Compressed (Z)"
      return "Z"
  else do
    s.reply 504 "Command not implemented for that parameter"
    return s.transfer_mode_

def handleTYPE (type : Str) : Io Str :=
  if type = "A" ∨ type = "I" then do
    s.reply 200 ("Type set to " ++ type)
    return type
  else do
    s.reply 504 "Command not implemented for that parameter"
    return s.transfer_type_

/-- The value of a `std::streampos` made from an unsigned 64-bit number. -/
def toStreampos (n : ℕ) : Int := if n < 2 ^ 63 then n else (n : Int) - 2 ^ 64

def handleREST (position : Str) : Io Int :=
  if s.transferModeZ then do
    s.reply 550 "REST is not supported with MODE Z"
    return s.resume_position_
  else match stoull position with
  | some n => do
    s.reply 350 ("Restarting at " ++ position ++ ". Send STOR or RETR to initiate transfer")
    return toStreampos n
  | none => do
    s.reply 501 "Invalid restart position"
    return s.resume_position_

def modeZRefusal : Io (Option Session) :=
  if !s.transferModeZ then return none
  else if s.resume_position_ > 0 then do
    s.reply 550 "REST is not supported with MODE Z"
    return some { s with resume_position_ := 0 }
  else if !env.compressionEnabled then do
    s.reply 504 "MODE Z is not enabled"
    return some s
  else return none

def sendOpened (data_fd file_fd : Fd) (start_time size : ℕ) : Io (ℕ × Str) := do
  let t : Retrieval := ⟨data_fd, file_fd, env.bufferSize, env.config_.rate_limit.max_transfer_rate, start_time⟩
  let offset := s.resume_position_
  if s.transferModeZ then do
    let sought : Bool ← perform (.lseek file_fd offset)
    if !sought then return (550, "Seek failed")
    else do
      let valid : Bool ← perform (.zlibInit .deflate)
      if !valid then return (426, "Compression is not available")
      else do
        let _ ← t.deflateFile env.zlib ⟨0, (size - offset).toNat⟩
        return (226, "Transfer complete")
  else do
    let sent ← t.sendFile env.sendsFiles env.config_.transfer.use_mmap size offset
    return if sent then (226, "Transfer complete") else (550, "Seek failed")

def retrieveTo (data_fd : Fd) (filepath : Str) : Io (ℕ × Str × Bool) := do
  let start_time : ℕ ← perform .steadyNow
  let opened : Option Fd ← perform (.openRead filepath)
  match opened with
  | none => do
    perform (.close data_fd)
    return (550, "Failed to open file", false)
  | some file_fd => do
    let st : Option (Bool × ℕ) ← perform (.fstat file_fd)
    match st with
    | some (true, size) =>
      if 0 < s.resume_position_ ∧ size ≤ s.resume_position_ then do
        perform (.close file_fd)
        perform (.close data_fd)
        return (226, "Transfer complete", true)
      else do
        let (code, text) ← s.sendOpened env data_fd file_fd start_time size
        perform (.close file_fd)
        perform (.close data_fd)
        return (code, text, code = 226)
    | _ => do
      perform (.close file_fd)
      perform (.close data_fd)
      return (550, "Invalid file", false)

def handleRETR (filename : Str) : Io Session := do
  let fs : FileSystem ← perform .nameSpace
  if !s.hasPermission fs "read" filename then do
    s.reply 550 "Permission denied"
    return s
  else
  let filepath := s.resolvePath fs filename
  if !s.validatePath fs filepath then do
    s.reply 550 "Invalid path"
    return s
  else do
  let found ← orThrow (← perform (.status filepath))
  if found ≠ .regular then do
    s.reply 550 "File not found"
    return s
  else do
  match ← s.modeZRefusal env with
  | some s' => return s'
  | none => do
  s.reply 150 ("Opening " ++ s.transfer_type_ ++ " mode data connection")
  let (opened, d) ← s.data.acceptDataConnection
  let s := { s with data := d }
  match opened with
  | none => do
    s.reply 425 "Can't open data connection"
    return s
  | some (data_fd, _) => do
    let (code, text, used) ← s.retrieveTo env data_fd filepath
    s.reply code text
    return if used then { s with resume_position_ := 0 } else s

/-- A `std::ofstream`: its descriptor, where the next byte goes, and whether it is still good. -/
structure OutFile where
  fd : Fd
  pos : ℕ
  good : Bool

def OutFile.write (f : OutFile) (data : Str) : Io OutFile :=
  if !f.good then return f
  else do
    let ok : Bool ← perform (.write f.fd f.pos data)
    return { f with pos := f.pos + data.length, good := ok }

def openTarget (filepath : Str) : Io (Option OutFile) := do
  let resumed ← (if 0 < s.resume_position_ then do
      let found ← orThrow (← perform (.status filepath))
      if found ≠ .notFound then perform (.openWrite filepath .update) else return none
    else return none : Io (Option Fd))
  match resumed with
  | some fd => return some ⟨fd, s.resume_position_.toNat, true⟩
  | none => do
    let opened : Option Fd ← perform (.openWrite filepath .truncate)
    return opened.map fun fd => ⟨fd, 0, true⟩

def receiveLoop (max_rate : Int) (start_time : ℕ) (data_fd : Fd) (peer : Peer) :
    List Str → ℕ → OutFile → Io OutFile
  | [], _, f => do
    perform (.recv data_fd (if peer.orderly then some [] else none))
    return f
  | chunk :: chunks, total_bytes, f => do
    perform (.recv data_fd (some chunk))
    applyThrottle max_rate start_time (total_bytes + chunk.length)
    let f ← f.write chunk
    receiveLoop max_rate start_time data_fd peer chunks (total_bytes + chunk.length) f

def inflate (zlib : Zlib) (made : List (Str × Bool)) : Io (Option Str) :=
  match zlib.inflate made with
  | .ok output => return some output
  | .failed => return none
  | .hangs => Prog.throw .hangs

def inflateLoop (zlib : Zlib) (max_rate : Int) (start_time : ℕ) (data_fd : Fd) (peer : Peer) :
    List Str → List (Str × Bool) → ℕ → OutFile → Io Bool
  | [], made, _, f => do
    perform (.recv data_fd (if peer.orderly then some [] else none))
    if !peer.orderly then return false
    else
      match ← inflate zlib (made ++ [([], true)]) with
      | none => return false
      | some plain => do
        let _ ← (if plain = [] then return f else f.write plain : Io OutFile)
        return true
  | chunk :: chunks, made, total_bytes, f => do
    perform (.recv data_fd (some chunk))
    match ← inflate zlib (made ++ [(chunk, false)]) with
    | none => return false
    | some plain => do
      let f ← (if plain = [] then return f else f.write plain : Io OutFile)
      applyThrottle max_rate start_time (total_bytes + plain.length)
      inflateLoop zlib max_rate start_time data_fd peer chunks (made ++ [(chunk, false)])
        (total_bytes + plain.length) f

def receiveTo (data_fd : Fd) (peer : Peer) (f : OutFile) : Io (ℕ × Str × Bool) := do
  let start_time : ℕ ← perform .steadyNow
  let max_rate := env.config_.rate_limit.max_transfer_rate
  if s.transferModeZ then do
    let valid : Bool ← perform (.zlibInit .inflate)
    if !valid then do
      perform (.close f.fd)
      perform (.close data_fd)
      return (426, "Compression is not available", false)
    else do
      let ok ← inflateLoop env.zlib max_rate start_time data_fd peer peer.chunks [] 0 f
      perform (.close f.fd)
      perform (.close data_fd)
      return if ok then (226, "Transfer complete", true) else (426, "Transfer aborted", true)
  else do
    let _ ← receiveLoop max_rate start_time data_fd peer peer.chunks 0 f
    perform (.close f.fd)
    perform (.close data_fd)
    return (226, "Transfer complete", true)

/-- `getDirectorySize`: `file_size` reports an error as the largest number, and sums wrap. -/
def directorySize (sizes : List (Except Errc ℕ)) : ℕ :=
  sizes.foldl (fun total size => (total + match size with
    | .ok n => n
    | .error _ => 2 ^ 64 - 1) % 2 ^ 64) 0

def storageQuota : ℕ :=
  let quota := match s.current_user_ with
    | some u => u.storage_quota_bytes_
    | none => 0
  match s.current_virtual_host_ with
  | some h =>
    if 0 < h.storage_quota_bytes_ then
      if quota = 0 then h.storage_quota_bytes_ else min quota h.storage_quota_bytes_
    else quota
  | none => quota

def quotaExceeded : Io Bool :=
  match s.current_user_ with
  | some u =>
    if 0 < s.storageQuota then do
      let sizes : List (Except Errc ℕ) ← perform (.regularFilesBelow u.home_directory_)
      return s.storageQuota ≤ directorySize sizes
    else return false
  | none => return false

def storeFrom (data_fd : Fd) (peer : Peer) (filepath : Str) : Io (ℕ × Str × Bool) := do
  (if Path.hasParentPath filepath then do
    let _ ← orThrow (← perform (.createDirectories (Path.parentPath filepath)))
    return ()
  else return () : Io Unit)
  match ← s.openTarget filepath with
  | none => do
    perform (.close data_fd)
    return (550, "Failed to create file", false)
  | some f => s.receiveTo env data_fd peer f

def handleSTOR (filename : Str) : Io Session := do
  let fs : FileSystem ← perform .nameSpace
  if !s.hasPermission fs "write" filename then do
    s.reply 550 "Permission denied"
    return s
  else
  let filepath := s.resolvePath fs filename
  if !s.validatePath fs filepath then do
    s.reply 550 "Invalid path"
    return s
  else do
  let exceeded ← s.quotaExceeded
  if exceeded then do
    s.reply 552 "Storage quota exceeded"
    return s
  else do
  match ← s.modeZRefusal env with
  | some s' => return s'
  | none => do
  s.reply 150 (if s.store_unique_name_ = [] then "Opening " ++ s.transfer_type_ ++ " mode data connection"
    else "FILE: " ++ s.store_unique_name_)
  let (opened, d) ← s.data.acceptDataConnection
  let s := { s with data := d }
  match opened with
  | none => do
    s.reply 425 "Can't open data connection"
    return s
  | some (data_fd, peer) => do
    let (code, text, used) ← s.storeFrom env data_fd peer filepath
    s.reply code text
    return if used then { s with resume_position_ := 0 } else s

def uniqueName (dir base : Str) (attempt : ℕ) : ℕ → Io (Option Str)
  | 0 => return none
  | n + 1 => do
    let candidate := base ++ "." ++ decimal attempt
    let found : Except Errc FileType ← perform (.status (dir ++ "/" ++ candidate))
    if !isThere found then return some candidate else uniqueName dir base (attempt + 1) n

def handleSTOU (filename : Str) : Io Session := do
  let base : Str := if filename = [] then "ftpd" else Path.filename filename
  match ← uniqueName s.current_directory_ base 0 10000 with
  | none => do
    s.reply 452 "Could not allocate a unique file name"
    return s
  | some unique => do
    let s ← { s with store_unique_name_ := unique, resume_position_ := 0 }.handleSTOR env unique
    return { s with store_unique_name_ := [] }

def appendLoop (data_fd fd : Fd) (peer : Peer) : List Str → Bool → Io Unit
  | [], _ => perform (.recv data_fd (if peer.orderly then some [] else none))
  | chunk :: chunks, good => do
    perform (.recv data_fd (some chunk))
    let good ← (if good then perform (.appendTo fd chunk) else return false : Io Bool)
    appendLoop data_fd fd peer chunks good

def handleAPPE (filename : Str) : Io Session := do
  let fs : FileSystem ← perform .nameSpace
  if !s.hasPermission fs "write" filename then do
    s.reply 550 "Permission denied"
    return s
  else
  let filepath := s.resolvePath fs filename
  if !s.validatePath fs filepath then do
    s.reply 550 "Invalid path"
    return s
  else if s.transferModeZ then do
    s.reply 550 "APPE is not supported with MODE Z"
    return s
  else do
  s.reply 150 "Opening data connection for append"
  let (opened, d) ← s.data.acceptDataConnection
  let s := { s with data := d }
  match opened with
  | none => do
    s.reply 425 "Can't open data connection"
    return s
  | some (data_fd, peer) => do
    let found ← orThrow (← perform (.status filepath))
    let opened : Option Fd ←
      perform (.openWrite filepath (if found ≠ .notFound then .append else .truncate))
    match opened with
    | none => do
      perform (.close data_fd)
      s.reply 550 "Failed to open file for append"
      return s
    | some fd => do
      appendLoop data_fd fd peer peer.chunks true
      perform (.close fd)
      perform (.close data_fd)
      s.reply 226 "Transfer complete"
      return { s with resume_position_ := 0 }

end Session

end SimpleSftpd
