import SimpleSftpd.Core.Login
import SimpleSftpd.Core.Listing
import SimpleSftpd.Core.Transfer
import SimpleSftpd.Core.Files

namespace SimpleSftpd

open Cxx Interaction

variable (env : Service)

namespace Session

variable (s : Session)

def loadHostCertificate : Io Session :=
  match s.current_virtual_host_ with
  | none => return s
  | some h =>
    if h.ssl_cert_file_ = [] ∨ h.ssl_key_file_ = [] then return s
    else do
      let ok : Bool ← perform (.sslInitialize h.ssl_cert_file_ h.ssl_key_file_ h.ssl_ca_file_)
      return { s with ssl_context_ := true, ssl_enabled_ := ok || s.ssl_enabled_ }

def handleAUTH (method : Str) : Io Session :=
  let method_upper := upper method
  if method_upper = "TLS" ∨ method_upper = "SSL" then
    if s.ssl_active_ then do
      s.reply 534 "SSL/TLS already active"
      return s
    else do
      let s ← s.loadHostCertificate
      if !s.ssl_enabled_ || !s.ssl_context_ then do
        s.reply 534 "SSL/TLS not available"
        return s
      else do
        s.reply 234 "AUTH TLS successful"
        let upgraded : Bool ← perform .sslAccept
        if !upgraded then do
          perform .deactivate
          return { s with ssl_ := false }
        else return { s with ssl_ := true, ssl_active_ := true }
  else do
    s.reply 504 "Unsupported AUTH method"
    return s

def handlePBSZ : Io Unit :=
  if !s.ssl_active_ then s.reply 503 "PBSZ command only valid in secure mode"
  else s.reply 200 "PBSZ=0"

def protectionLevel (level : Str) : Option (Str × Str) :=
  let level_upper := upper level
  if level_upper = "C" ∨ level_upper = "CLEAR" then some ("C", "Clear")
  else if level_upper = "P" ∨ level_upper = "PRIVATE" then some ("P", "Private")
  else if level_upper = "S" ∨ level_upper = "SAFE" then some ("S", "Safe")
  else if level_upper = "E" ∨ level_upper = "CONFIDENTIAL" then some ("E", "Confidential")
  else none

def handlePROT (level : Str) : Io Str :=
  if !s.ssl_active_ then do
    s.reply 503 "PROT command only valid in secure mode"
    return s.protection_level_
  else match protectionLevel level with
  | some (letter, name) => do
    s.reply 200 ("Protection level set to " ++ name)
    return letter
  | none => do
    s.reply 504 "Unsupported protection level"
    return s.protection_level_

def handleOPTS (argument : Str) : Io Bool :=
  let (word, rest) := extract argument
  let option := upper word
  let value := upper (extract rest).1
  if option = "UTF8" then
    if value = [] ∨ value = "ON" then do
      s.reply 200 "UTF8 set to on"
      return true
    else if value = "OFF" then do
      s.reply 200 "UTF8 set to off"
      return false
    else do
      s.reply 501 "Invalid UTF8 option"
      return s.utf8_enabled_
  else if option = "MLST" then do
    s.reply 200 "MLST OPTS type;size;modify;perm;"
    return s.utf8_enabled_
  else do
    s.reply 501 "Option not supported"
    return s.utf8_enabled_

def hasHosts : Bool := env.virtual_host_manager_.any fun v => !v.map.entries.isEmpty

def features : List Reply :=
  [.opening 211 "Features:", .inner "SIZE", .inner "REST STREAM", .inner "PORT", .inner "EPRT",
    .inner "EPSV", .inner "MDTM", .inner "MLST type*;size*;modify*;perm*;", .inner "TVFS",
    .inner "UTF8"] ++
    (if hasHosts env then [.inner "HOST"] else []) ++
    (if s.ssl_enabled_ then [.inner "AUTH TLS", .inner "PBSZ", .inner "PROT"] else []) ++
    (if env.compressionEnabled then [.inner "MODE Z"] else []) ++ [.final 211 "End"]

def helpLines : List Reply :=
  [.opening 214 "The following commands are recognized:",
    .inner "USER PASS QUIT NOOP SYST FEAT OPTS HELP HOST", .inner "AUTH PBSZ PROT",
    .inner "PWD XPWD CWD XCWD CDUP XCUP", .inner "LIST NLST MLSD MLST STAT SIZE MDTM",
    .inner "PASV EPSV PORT EPRT MODE TYPE ALLO ABOR", .inner "RETR STOR STOU APPE REST DELE",
    .inner "MKD XMKD RMD XRMD RNFR RNTO SITE", .final 214 "Help command successful"]

end Session

inductive Verb
  | user | pass | quit | noop | syst | feat | auth | pbsz | prot | host | opts | help | abor
  | pwd | cwd | cdup | list | mlsd | mlst | mdtm | stat | site | allo | stou | pasv | epsv | port
  | eprt | mode | type | size | retr | stor | dele | mkd | rmd | rest | appe | rnfr | rnto
  | unknown
  deriving DecidableEq

namespace Verb

def ofCommand (command : Str) : Verb :=
  if command = "USER" then user
  else if command = "PASS" then pass
  else if command = "QUIT" then quit
  else if command = "NOOP" then noop
  else if command = "SYST" then syst
  else if command = "FEAT" then feat
  else if command = "AUTH" then auth
  else if command = "PBSZ" then pbsz
  else if command = "PROT" then prot
  else if command = "HOST" then host
  else if command = "OPTS" then opts
  else if command = "HELP" then help
  else if command = "ABOR" then abor
  else if command = "PWD" ∨ command = "XPWD" then pwd
  else if command = "CWD" ∨ command = "XCWD" then cwd
  else if command = "CDUP" ∨ command = "XCUP" then cdup
  else if command = "LIST" ∨ command = "NLST" then list
  else if command = "MLSD" then mlsd
  else if command = "MLST" then mlst
  else if command = "MDTM" then mdtm
  else if command = "STAT" then stat
  else if command = "SITE" then site
  else if command = "ALLO" then allo
  else if command = "STOU" then stou
  else if command = "PASV" then pasv
  else if command = "EPSV" then epsv
  else if command = "PORT" then port
  else if command = "EPRT" then eprt
  else if command = "MODE" then mode
  else if command = "TYPE" then type
  else if command = "SIZE" then size
  else if command = "RETR" then retr
  else if command = "STOR" then stor
  else if command = "DELE" then dele
  else if command = "MKD" ∨ command = "XMKD" then mkd
  else if command = "RMD" ∨ command = "XRMD" then rmd
  else if command = "REST" then rest
  else if command = "APPE" then appe
  else if command = "RNFR" then rnfr
  else if command = "RNTO" then rnto
  else unknown

def beforeLogin : Verb → Bool
  | user | pass | quit | noop | syst | feat | auth | pbsz | prot | host | opts | help | abor => true
  | _ => false

end Verb

structure Command where
  verb : Verb
  argument : Str

def Command.parse (line : Str) : Command :=
  let (word, rest) := extract line
  ⟨Verb.ofCommand (upper word), trimRight (trimLeft (getline rest))⟩

namespace Session

variable (s : Session)

def handle : Command → Io Session
  | ⟨.user, a⟩ => s.handleUSER a
  | ⟨.pass, a⟩ => s.handlePASS env a
  | ⟨.quit, _⟩ => do s.handleQUIT; return s
  | ⟨.noop, _⟩ => do s.reply 200 "NOOP command successful"; return s
  | ⟨.syst, _⟩ => do s.reply 215 "UNIX Type: L8"; return s
  | ⟨.feat, _⟩ => do s.sendLines (s.features env); return s
  | ⟨.auth, a⟩ => s.handleAUTH a
  | ⟨.pbsz, _⟩ => do s.handlePBSZ; return s
  | ⟨.prot, a⟩ => do return { s with protection_level_ := ← s.handlePROT a }
  | ⟨.host, a⟩ => s.handleHOST env a
  | ⟨.opts, a⟩ => do return { s with utf8_enabled_ := ← s.handleOPTS a }
  | ⟨.help, _⟩ => do s.sendLines helpLines; return s
  | ⟨.abor, _⟩ => do return { s with data := ← s.handleABOR }
  | ⟨.pwd, _⟩ => do s.handlePWD; return s
  | ⟨.cwd, a⟩ => do return { s with current_directory_ := ← s.handleCWD a }
  | ⟨.cdup, _⟩ => do return { s with current_directory_ := ← s.handleCDUP }
  | ⟨.list, a⟩ => do return { s with data := ← s.handleLIST a }
  | ⟨.mlsd, a⟩ => do return { s with data := ← s.handleMLSD a }
  | ⟨.mlst, a⟩ => do s.handleMLST a; return s
  | ⟨.mdtm, a⟩ => do s.handleMDTM a; return s
  | ⟨.stat, a⟩ => do s.handleSTAT a; return s
  | ⟨.site, a⟩ => do s.handleSITE a; return s
  | ⟨.allo, _⟩ => do s.reply 202 "ALLO not required, storage is allocated on demand"; return s
  | ⟨.stou, a⟩ => s.handleSTOU env a
  | ⟨.pasv, _⟩ => do return { s with data := ← s.handlePASV env }
  | ⟨.epsv, a⟩ => do return { s with data := ← s.handleEPSV env a }
  | ⟨.port, a⟩ => do return { s with data := ← s.handlePORT a }
  | ⟨.eprt, a⟩ => do return { s with data := ← s.handleEPRT a }
  | ⟨.mode, a⟩ => do return { s with transfer_mode_ := ← s.handleMODE env a }
  | ⟨.type, a⟩ => do return { s with transfer_type_ := ← s.handleTYPE a }
  | ⟨.size, a⟩ => do s.handleSIZE a; return s
  | ⟨.retr, a⟩ => s.handleRETR env a
  | ⟨.stor, a⟩ => s.handleSTOR env a
  | ⟨.dele, a⟩ => do s.handleDELE a; return s
  | ⟨.mkd, a⟩ => do s.handleMKD a; return s
  | ⟨.rmd, a⟩ => do s.handleRMD a; return s
  | ⟨.rest, a⟩ => do return { s with resume_position_ := ← s.handleREST a }
  | ⟨.appe, a⟩ => s.handleAPPE a
  | ⟨.rnfr, a⟩ => do return { s with rename_from_path_ := ← s.handleRNFR a }
  | ⟨.rnto, a⟩ => do return { s with rename_from_path_ := ← s.handleRNTO a }
  | ⟨.unknown, _⟩ => do s.reply 502 "Command not implemented"; return s

def dispatch (line : Str) : Io Session :=
  let c := Command.parse line
  if c.verb.beforeLogin ∨ s.authenticated_ then s.handle env c
  else do
    s.reply 530 "Please login with USER and PASS"
    return s

end Session

end SimpleSftpd
