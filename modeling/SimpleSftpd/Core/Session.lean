import SimpleSftpd.Config.ServerConfig
import SimpleSftpd.Core.World

namespace SimpleSftpd

open Cxx Interaction

structure Service where
  config_ : FTPServerConfig
  user_manager_ : FTPUserManager
  virtual_host_manager_ : Option VirtualHosts
  session_tracker_ : Bool
  pbkdf2 : Password.Pbkdf2
  havePam : Bool
  haveCompression : Bool
  zlib : Zlib

def Service.standard (users : List FTPUser) (hosts : List FTPVirtualHost) : Service where
  config_ := {}
  user_manager_ := ⟨users.foldl (fun m u => m.insert u.username_ u) ∅, []⟩
  virtual_host_manager_ := some (hosts.foldl .add .empty)
  session_tracker_ := true
  pbkdf2 _ _ _ _ := none
  havePam := false
  haveCompression := true
  zlib := ⟨fun _ => none, fun _ => .failed⟩

structure DataConnection where
  passive_listen_socket_ : Option Fd := none
  data_socket_ : Option Fd := none
  active_mode_ip_ : Str := []
  active_mode_port_ : Int := 0
  active_mode_enabled_ : Bool := false
  epsv_all_ : Bool := false
  deriving DecidableEq

structure Session where
  socket_ : Option Fd
  authenticated_ : Bool := false
  username_ : Str := []
  current_user_ : Option FTPUser := none
  current_directory_ : Str := "/"
  current_virtual_host_ : Option FTPVirtualHost := none
  session_registered_ : Bool := false
  ssl_context_ : Bool := false
  ssl_enabled_ : Bool := false
  ssl_active_ : Bool := false
  ssl_ : Bool := false
  protection_level_ : Str := "C"
  data : DataConnection := {}
  transfer_type_ : Str := "A"
  transfer_mode_ : Str := "S"
  resume_position_ : Int := 0
  rename_from_path_ : Str := []
  store_unique_name_ : Str := []
  utf8_enabled_ : Bool := true

def Reply.customized (host : Option FTPVirtualHost) : Reply → Reply
  | .final code text => match host with
    | some h =>
      let custom := h.getCustomError (decimal code)
      if custom = [] then .final code text else .final code custom
    | none => .final code text
  | line => line

namespace Session

variable (s : Session)

def sendResponse (r : Reply) : Io Unit :=
  if s.socket_ = none then pure ()
  else do
    let sent : Bool ← perform
      (.sendControl (s.ssl_active_ && s.ssl_ && s.ssl_context_) (r.customized s.current_virtual_host_))
    if sent then pure () else perform .deactivate

def reply (code : ℕ) (text : Str) : Io Unit := s.sendResponse (.final code text)

def sendLines : List Reply → Io Unit
  | [] => pure ()
  | r :: rs => do
    s.sendResponse r
    sendLines rs

def resolvePath (fs : FileSystem) (path : Str) : Str :=
  if path = [] then s.current_directory_
  else
    let candidate :=
      if path.head? = some 47 then
        let home : Str := match s.current_user_ with
          | some u => u.home_directory_
          | none => "/"
        Path.join home (Path.relativePath path)
      else Path.join s.current_directory_ path
    normalizeForComparison fs candidate

def isPathWithinHome (fs : FileSystem) (path : Str) : Bool :=
  match s.current_user_ with
  | none => false
  | some u =>
    Path.isWithin (normalizeForComparison fs path) (normalizeForComparison fs u.home_directory_)

def validatePath (fs : FileSystem) (path : Str) : Bool :=
  s.isPathWithinHome fs path && match s.current_virtual_host_ with
    | none => true
    | some h => h.root_directory_ = [] ||
        Path.isWithin (normalizeForComparison fs path) (normalizeForComparison fs h.root_directory_)

def hasPermission (fs : FileSystem) (operation path : Str) : Bool :=
  match s.current_user_ with
  | none => false
  | some u =>
    let resolved := if path = [] then s.current_directory_ else s.resolvePath fs path
    u.hasPermission fs operation resolved

def transferModeZ : Bool := s.transfer_mode_ = "Z"

end Session

def Service.compressionEnabled (env : Service) : Bool :=
  env.haveCompression && env.config_.transfer.enable_compression

def isDirectory : Except Errc FileType → Bool
  | .ok t => t = .directory
  | .error _ => false

def isThere : Except Errc FileType → Bool
  | .ok t => t ≠ .notFound
  | .error _ => false

end SimpleSftpd
