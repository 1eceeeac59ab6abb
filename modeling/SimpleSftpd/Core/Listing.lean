import SimpleSftpd.Core.DataConnection

/-! The commands that move through directories and look at them. `exists(p) && is_directory(p)`
asks for the status of `p` once. -/

namespace SimpleSftpd

open Cxx Interaction

namespace Session

variable (s : Session)

def handlePWD : Io Unit := s.reply 257 ("\"" ++ s.current_directory_ ++ "\"")

def handleCWD (path : Str) : Io Str := do
  let fs : FileSystem ← perform .nameSpace
  let new_path := s.resolvePath fs path
  if !s.validatePath fs new_path then do
    s.reply 550 "Invalid path"
    return s.current_directory_
  else do
    let found ← orThrow (← perform (.status new_path))
    if found = .directory then do
      s.reply 250 "CWD command successful"
      return new_path
    else do
      s.reply 550 "Failed to change directory"
      return s.current_directory_

def handleCDUP : Io Str := do
  let fs : FileSystem ← perform .nameSpace
  let parent := s.resolvePath fs ".."
  if !s.validatePath fs parent then do
    s.reply 550 "Invalid path"
    return s.current_directory_
  else do
    let found : Except Errc FileType ← perform (.status parent)
    if isDirectory found then do
      s.reply 250 "CDUP command successful"
      return parent
    else do
      s.reply 550 "Failed to change directory"
      return s.current_directory_

def listEntry (dir name : Str) : Io (Option Str) := do
  let p := Path.join dir name
  match (← perform (.status p) : Except Errc FileType) with
  | .error _ => return none
  | .ok t => do
    let size ← (if t = .directory then pure (.ok 0) else perform (.fileSize p) : Io (Except Errc ℕ))
    match size with
    | .error _ => return none
    | .ok size =>
      match (← perform (.lastWriteTime p) : Except Errc Unit) with
      | .error _ => return none
      | .ok _ =>
        return some ((if t = .directory then "d" else "-") ++ "rw-rw-rw- 1 owner group " ++
          decimal size ++ " " ++ name ++ "\r\n")

def listEntries (dir : Str) : List Str → Io (Option Str)
  | [] => return some []
  | name :: names => do
    match ← listEntry dir name with
    | none => return none
    | some line =>
      match ← listEntries dir names with
      | none => return none
      | some rest => return some (line ++ rest)

def listDirectory (dir : Str) : Io (Option Str) := do
  let (names, failure) : List Str × Option Errc ← perform (.readDirectory dir)
  match ← listEntries dir names, failure with
  | some listing, none => return some listing
  | _, _ => return none

def handleLIST (path : Str) : Io DataConnection := do
  let fs : FileSystem ← perform .nameSpace
  if !s.hasPermission fs "list" [] then do
    s.reply 550 "Permission denied"
    return s.data
  else
  let list_path := if path = [] then s.current_directory_ else s.resolvePath fs path
  if !s.validatePath fs list_path then do
    s.reply 550 "Invalid path"
    return s.data
  else do
  let found ← orThrow (← perform (.status list_path))
  if found = .notFound then do
    s.reply 550 "File or directory not found"
    return s.data
  else do
  s.reply 150 "Opening ASCII mode data connection for file list"
  let (opened, d) ← s.data.acceptDataConnection
  match opened with
  | none => do
    s.reply 425 "Can't open data connection"
    return d
  | some (data_fd, _) => do
    let kind ← orThrow (← perform (.status list_path))
    let listing ← (if kind = .directory then listDirectory list_path
      else do
        let size ← orThrow (← perform (.fileSize list_path))
        return some ("-rw-rw-rw- 1 owner group " ++ decimal size ++ " " ++
          Path.filename list_path ++ "\r\n") : Io (Option Str))
    match listing with
    | none => do
      perform (.close data_fd)
      s.reply 550 "Error listing directory"
      return d
    | some listing => do
      let _ ← perform (.send data_fd listing)
      perform (.close data_fd)
      s.reply 226 "Transfer complete"
      return d

def sizeFact (is_directory : Bool) (path : Str) : Io Str :=
  if is_directory then return []
  else do
    match (← perform (.fileSize path) : Except Errc ℕ) with
    | .ok size => return "size=" ++ decimal size ++ ";"
    | .error _ => return []

def permFact (is_directory writable : Bool) : Str :=
  if is_directory then if writable then "perm=elcmpd;" else "perm=el;"
  else if writable then "perm=adfrw;" else "perm=r;"

def buildMachineFacts (path name : Str) : Io Str := do
  let found : Except Errc FileType ← perform (.status path)
  let is_directory := isDirectory found
  let size ← sizeFact is_directory path
  let modify : Option Str ← perform (.modifiedTimeUtc path)
  let fs : FileSystem ← perform .nameSpace
  let writable := s.current_user_.any fun u => u.hasPermission fs "write" path
  return (if is_directory then "type=dir;" else "type=file;") ++ size ++
    (match modify with | some m => "modify=" ++ m ++ ";" | none => []) ++
    permFact is_directory writable ++ " " ++ name

def machineEntries (dir : Str) : List Str → Io Str
  | [] => return []
  | name :: names => do
    let line ← s.buildMachineFacts (Path.join dir name) name
    let rest ← machineEntries dir names
    return line ++ "\r\n" ++ rest

def handleMLSD (path : Str) : Io DataConnection := do
  let fs : FileSystem ← perform .nameSpace
  if !s.hasPermission fs "list" path then do
    s.reply 550 "Permission denied"
    return s.data
  else
  let target := if path = [] then s.current_directory_ else s.resolvePath fs path
  if !s.validatePath fs target then do
    s.reply 550 "Invalid path"
    return s.data
  else do
  let found : Except Errc FileType ← perform (.status target)
  if !isDirectory found then do
    s.reply 550 "Not a directory"
    return s.data
  else do
  s.reply 150 "Opening data connection for MLSD"
  let (opened, d) ← s.data.acceptDataConnection
  match opened with
  | none => do
    s.reply 425 "Can't open data connection"
    return d
  | some (data_fd, _) => do
    let (names, failure) : List Str × Option Errc ← perform (.readDirectory target)
    let listing ← s.machineEntries target names
    match failure with
    | some _ => do
      perform (.close data_fd)
      s.reply 550 "Error listing directory"
      return d
    | none => do
      let _ ← perform (.send data_fd listing)
      perform (.close data_fd)
      s.reply 226 "Transfer complete"
      return d

def handleMLST (path : Str) : Io Unit := do
  let fs : FileSystem ← perform .nameSpace
  let target := if path = [] then s.current_directory_ else s.resolvePath fs path
  if !s.validatePath fs target then s.reply 550 "Invalid path"
  else do
  let found : Except Errc FileType ← perform (.status target)
  if !isThere found then s.reply 550 "File or directory not found"
  else do
  let name := if path = [] then s.current_directory_ else path
  s.sendResponse (.opening 250 ("Listing " ++ name))
  let facts ← s.buildMachineFacts target name
  s.sendResponse (.inner facts)
  s.reply 250 "End"

def handleMDTM (filename : Str) : Io Unit :=
  if filename = [] then s.reply 501 "MDTM requires a file name"
  else do
  let fs : FileSystem ← perform .nameSpace
  let filepath := s.resolvePath fs filename
  if !s.validatePath fs filepath then s.reply 550 "Invalid path"
  else do
  let found : Except Errc FileType ← perform (.status filepath)
  if !isThere found then s.reply 550 "File not found"
  else do
  let modify : Option Str ← perform (.modifiedTimeUtc filepath)
  match modify with
  | none => s.reply 550 "Could not determine modification time"
  | some modify => s.reply 213 modify

def statEntries (dir : Str) : List Str → Io Unit
  | [] => return ()
  | name :: names => do
    let facts ← s.buildMachineFacts (Path.join dir name) name
    s.sendResponse (.inner facts)
    statEntries dir names

def statusLines : List Reply :=
  [.opening 211 "simple-sftpd status",
    .inner ("Logged in as: " ++ if s.username_ = [] then ("(none)" : Str) else s.username_),
    .inner ("Current directory: " ++ s.current_directory_),
    .inner ("Transfer type: " ++ s.transfer_type_ ++ ", mode: " ++ s.transfer_mode_),
    .inner ("Control connection: " ++ if s.ssl_active_ then ("TLS" : Str) else "plaintext"),
    .inner ("Data protection: " ++ s.protection_level_),
    .final 211 "End of status"]

def handleSTAT (argument : Str) : Io Unit :=
  if argument = [] then s.sendLines s.statusLines
  else do
  let fs : FileSystem ← perform .nameSpace
  let target := s.resolvePath fs argument
  if !s.validatePath fs target then s.reply 550 "Invalid path"
  else do
  let found : Except Errc FileType ← perform (.status target)
  if !isThere found then s.reply 550 "File or directory not found"
  else do
  s.sendResponse (.opening 213 ("Status of " ++ argument))
  let kind : Except Errc FileType ← perform (.status target)
  (if isDirectory kind then do
    let (names, _) : List Str × Option Errc ← perform (.readDirectory target)
    s.statEntries target names
  else do
    let facts ← s.buildMachineFacts target (Path.filename target)
    s.sendResponse (.inner facts) : Io Unit)
  s.reply 213 "End of status"

def handleSIZE (filename : Str) : Io Unit := do
  let fs : FileSystem ← perform .nameSpace
  let filepath := s.resolvePath fs filename
  let found ← orThrow (← perform (.status filepath))
  if found = .regular then do
    let size ← orThrow (← perform (.fileSize filepath))
    s.reply 213 (decimal size)
  else s.reply 550 "File not found"

end Session

end SimpleSftpd
