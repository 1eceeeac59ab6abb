import SimpleSftpd.Core.DataConnection

namespace SimpleSftpd

open Cxx Interaction

/-- The message of an error in `std::generic_category`. -/
def message : Errc → Str
  | .enoent => "No such file or directory"
  | .enotdir => "Not a directory"
  | .eloop => "Too many levels of symbolic links"
  | .eexist => "File exists"
  | .enotempty => "Directory not empty"
  | .eisdir => "Is a directory"
  | .einval => "Invalid argument"
  | .eacces => "Permission denied"
  | .eio => "Input/output error"

namespace Session

variable (s : Session)

def handleDELE (filename : Str) : Io Unit := do
  let fs : FileSystem ← perform .nameSpace
  if !s.hasPermission fs "write" filename then s.reply 550 "Permission denied"
  else
  let filepath := s.resolvePath fs filename
  if !s.validatePath fs filepath then s.reply 550 "Invalid path"
  else do
  let found ← orThrow (← perform (.status filepath))
  if found = .regular then do
    let removed ← orThrow (← perform (.remove filepath))
    if removed then s.reply 250 "DELE command successful"
    else s.reply 550 "Failed to delete file"
  else s.reply 550 "File not found"

def handleMKD (dirname : Str) : Io Unit := do
  let fs : FileSystem ← perform .nameSpace
  if !s.hasPermission fs "write" dirname then s.reply 550 "Permission denied"
  else
  let dirpath := s.resolvePath fs dirname
  if !s.validatePath fs dirpath then s.reply 550 "Invalid path"
  else do
  let made ← orThrow (← perform (.createDirectory dirpath))
  if made then s.reply 257 ("\"" ++ dirpath ++ "\" created")
  else s.reply 550 "Failed to create directory"

def handleRMD (dirname : Str) : Io Unit := do
  let fs : FileSystem ← perform .nameSpace
  if !s.hasPermission fs "write" dirname then s.reply 550 "Permission denied"
  else
  let dirpath := s.resolvePath fs dirname
  if !s.validatePath fs dirpath then s.reply 550 "Invalid path"
  else do
  let found ← orThrow (← perform (.status dirpath))
  if found = .directory then do
    let removed ← orThrow (← perform (.remove dirpath))
    if removed then s.reply 250 "RMD command successful"
    else s.reply 550 "Failed to remove directory"
  else s.reply 550 "Directory not found"

def handleRNFR (filename : Str) : Io Str := do
  let fs : FileSystem ← perform .nameSpace
  if !s.hasPermission fs "write" filename then do
    s.reply 550 "Permission denied"
    return s.rename_from_path_
  else
  let filepath := s.resolvePath fs filename
  if !s.validatePath fs filepath then do
    s.reply 550 "Invalid path"
    return s.rename_from_path_
  else do
  let found ← orThrow (← perform (.status filepath))
  if found = .notFound then do
    s.reply 550 "File or directory not found"
    return s.rename_from_path_
  else do
    s.reply 350 "File or directory exists, ready for destination name"
    return filepath

/-- RNTO with a source path saved; whatever the outcome, the source is forgotten. -/
def renameTo (filename : Str) : Io Unit := do
  let fs : FileSystem ← perform .nameSpace
  if !s.hasPermission fs "write" filename then s.reply 550 "Permission denied"
  else
  let filepath := s.resolvePath fs filename
  if !s.validatePath fs filepath then s.reply 550 "Invalid path"
  else do
  let found ← orThrow (← perform (.status filepath))
  if found ≠ .notFound then s.reply 553 "File already exists"
  else do
  match (← perform (.rename s.rename_from_path_ filepath) : Except Errc Unit) with
  | .ok _ => s.reply 250 "Rename successful"
  | .error e =>
    s.reply 550 ("Rename failed: filesystem error: cannot rename: " ++ message e ++ " [" ++
      s.rename_from_path_ ++ "] [" ++ filepath ++ "]")

def handleRNTO (filename : Str) : Io Str :=
  if s.rename_from_path_ = [] then do
    s.reply 503 "RNFR required first"
    return []
  else do
    s.renameTo filename
    return []

def siteHelp : List Reply :=
  [.opening 214 "The following SITE commands are recognized:", .inner "CHMOD <mode> <path>",
    .inner "UMASK", .final 214 "SITE help complete"]

def siteChmod (mode_text target : Str) : Io Unit :=
  if mode_text = [] ∨ target = [] then s.reply 501 "Usage: SITE CHMOD <mode> <path>"
  else do
  let fs : FileSystem ← perform .nameSpace
  if !s.hasPermission fs "write" target then s.reply 550 "Permission denied"
  else
  let path := s.resolvePath fs target
  if !s.validatePath fs path then s.reply 550 "Invalid path"
  else match stoull mode_text 8 with
  | none => s.reply 501 "Invalid mode"
  | some mode => do
    let failure : Option Errc ← perform (.permissions path (mode % 4096))
    match failure with
    | some _ => s.reply 550 "SITE CHMOD failed"
    | none => s.reply 200 "SITE CHMOD command successful"

def handleSITE (argument : Str) : Io Unit :=
  let (word, rest) := extract argument
  let subcommand := upper word
  if subcommand = [] ∨ subcommand = "HELP" then s.sendLines siteHelp
  else if subcommand = "UMASK" then s.reply 200 "UMASK is fixed at 022"
  else if subcommand = "CHMOD" then
    let (mode_text, rest) := extract rest
    s.siteChmod mode_text (trimLeft (getline rest))
  else s.reply 500 "Unknown SITE command"

end Session

end SimpleSftpd
