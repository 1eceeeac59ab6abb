import SimpleSftpd.Security.Password
import SimpleSftpd.Cxx.FileSystem

/-! user.cpp: an account, its credential and its permissions. -/

namespace SimpleSftpd

open Cxx

structure FTPUser where
  username_ : Str
  password_ : Str
  home_directory_ : Str
  permissions_ : List Str := []
  groups_ : List Str := []
  is_guest_ : Bool := false
  expires_at_ : Int := 0
  storage_quota_bytes_ : ℕ := 0
  deriving DecidableEq

def normalizeForComparison (fs : FileSystem) (p : Str) : Str :=
  match fs.weaklyCanonical p with
  | .ok [] => Path.lexicallyNormal p
  | .ok q => q
  | .error _ => Path.lexicallyNormal p

namespace FTPUser

open Password (Pbkdf2)

def setPassword (pbkdf2 : Pbkdf2) (salt : Option (List Byte)) (password : Str) (u : FTPUser) :
    FTPUser :=
  if Password.isHashed password then { u with password_ := password }
  else
    let hashed := Password.hash pbkdf2 salt password
    if hashed = [] then { u with password_ := password } else { u with password_ := hashed }

def make (pbkdf2 : Pbkdf2) (salt : Option (List Byte)) (username password home_dir : Str) :
    FTPUser :=
  setPassword pbkdf2 salt password ⟨username, [], home_dir, [], [], false, 0, 0⟩

def hasLegacyPassword (u : FTPUser) : Bool := !Password.isHashed u.password_

def isExpired (u : FTPUser) (now : Int) : Bool :=
  if u.expires_at_ ≤ 0 then false else now > u.expires_at_

def authenticate (pbkdf2 : Pbkdf2) (u : FTPUser) (now : Int) (password : Str) : Bool :=
  if u.isExpired now then false else Password.verify pbkdf2 password u.password_

def entryAllows (fs : FileSystem) (home operation path entry : Str) : Bool :=
  let allowed_operation := entry.takeWhile (· ≠ 58)
  if allowed_operation ≠ operation ∧ allowed_operation ≠ "all" then false
  else match entry.dropWhile (· ≠ 58) with
  | [] => true
  | _ :: scope =>
    if scope = [] ∨ scope = "/" then true
    else if path = [] then false
    else
      let scope_root := normalizeForComparison fs (Path.join home (Path.relativePath scope))
      Path.isWithin (normalizeForComparison fs path) scope_root

def hasPermission (fs : FileSystem) (u : FTPUser) (operation path : Str) : Bool :=
  if u.permissions_ = [] then true
  else u.permissions_.any (entryAllows fs u.home_directory_ operation path)

end FTPUser

end SimpleSftpd
