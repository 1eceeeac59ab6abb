import SimpleSftpd.Core.DataConnection

namespace SimpleSftpd

open Cxx Interaction

variable (env : Service)

namespace Session

variable (s : Session)

def handleUSER (username : Str) : Io Session := do
  s.reply 331 "User name okay, need password"
  return { s with username_ := username, authenticated_ := false }

def storedUser : Option FTPUser :=
  match s.current_virtual_host_.bind (·.user_manager_) with
  | some m => m.getUser s.username_
  | none => env.user_manager_.getUser s.username_

def pamHome (stored : Option FTPUser) (pw_dir : Option Str) : Str :=
  let home := pw_dir.getD []
  if home ≠ [] then home
  else match stored with
  | some u => u.home_directory_
  | none =>
    if env.config_.security.chroot_directory ≠ [] then env.config_.security.chroot_directory
    else "/tmp"

def checkPassword (password : Str) : Io (Option FTPUser × Bool) := do
  let stored := s.storedUser env
  let now : Int ← perform .systemNow
  if stored.any (fun u => u.authenticate env.pbkdf2 now password) then return (stored, true)
  else if env.config_.security.enable_pam && env.havePam then do
    let accepted : Bool ← perform (.pamAuthenticate s.username_ password)
    if accepted then do
      let pw_dir : Option Str ← perform (.getpwnam s.username_)
      let salt : Option (List Byte) ← perform (.randBytes Password.kSaltBytes)
      return (some (FTPUser.make env.pbkdf2 salt s.username_ password (pamHome env stored pw_dir)), true)
    else return (stored, false)
  else return (stored, false)

def hostname : Str := match s.current_virtual_host_ with
  | some h => h.hostname_
  | none => []

def sessionLimit : Io (Option Str) :=
  if env.session_tracker_ then do
    let perUser := env.config_.security.max_sessions_per_user
    let users ← (if perUser > 0 then perform (.getCountForUser s.username_) else pure 0 : Io ℕ)
    if perUser > 0 ∧ perUser ≤ users then return some "Too many sessions for user"
    else match s.current_virtual_host_ with
    | none => return none
    | some h => do
      let sessions ← (if h.max_sessions_ > 0 then perform (.getCountForHost s.hostname) else pure 0 : Io ℕ)
      if h.max_sessions_ > 0 ∧ h.max_sessions_ ≤ sessions then
        return some "Too many sessions for this host"
      else return none
  else return none

def chrootRelative (chroot_dir dir : Str) : Str :=
  if chroot_dir.isPrefixOf dir then
    let rest := dir.drop chroot_dir.length
    if rest.head? = some 47 then rest else 47 :: rest
  else "/"

def applyChroot (dir : Str) : Io Str :=
  let chroot_dir := env.config_.security.chroot_directory
  if env.config_.security.chroot_enabled ∧ chroot_dir ≠ [] then do
    let found ← orThrow (← perform (.status chroot_dir))
    if found = .notFound then return dir
    else do
      let confined : Bool ← perform (.chroot chroot_dir)
      return if confined then chrootRelative chroot_dir dir else dir
  else return dir

def loginDirectory (u : FTPUser) : Io Str :=
  if env.config_.security.chroot_enabled ∧ env.config_.security.chroot_directory ≠ [] then
    applyChroot env u.home_directory_
  else pure u.home_directory_

lemma loginDirectory_eq (u : FTPUser) : loginDirectory env u = applyChroot env u.home_directory_ := by
  unfold loginDirectory
  split
  · rfl
  · rename_i hguard
    rw [applyChroot, if_neg hguard]

def register : Io Bool :=
  if env.session_tracker_ then do
    perform (.registerSession s.username_ s.hostname)
    return true
  else return s.session_registered_

def logIn (u : FTPUser) : Io Session := do
  let directory ← loginDirectory env u
  let registered ← s.register env
  s.reply 230 "User logged in, proceed"
  return { s with
    authenticated_ := true, current_directory_ := directory, session_registered_ := registered }

def finishLogin (login_success : Bool) : Io Session :=
  match s.current_user_, login_success with
  | some u, true => do
    match ← s.sessionLimit env with
    | some refusal => do
      s.reply 530 refusal
      return s
    | none => s.logIn env u
  | _, _ => do
    s.reply 530 "Login incorrect"
    return s

def handlePASS (password : Str) : Io Session :=
  if s.username_ = [] then do
    s.reply 503 "Login with USER first"
    return s
  else do
    let (user, login_success) ← s.checkPassword env password
    { s with current_user_ := user }.finishLogin env login_success

def handleHOST (hostname : Str) : Io Session :=
  if hostname = [] then do
    s.reply 501 "HOST requires hostname"
    return s
  else match env.virtual_host_manager_ with
  | none => do
    s.reply 502 "Virtual hosting not configured"
    return s
  | some hosts =>
    match hosts.getVirtualHost hostname with
    | none => do
      s.reply 550 ("Virtual host not found or disabled: " ++ hostname)
      return s
    | some host =>
      if !host.enabled_ then do
        s.reply 550 ("Virtual host not found or disabled: " ++ hostname)
        return s
      else do
        let s := { s with current_virtual_host_ := some host }
        s.reply 220 ("Virtual host accepted: " ++ hostname)
        return s

def handleQUIT : Io Unit := do
  s.reply 221 "Goodbye"
  perform .deactivate

def unregister : Io Unit :=
  if env.session_tracker_ && s.session_registered_ then
    perform (.unregisterSession s.username_ s.hostname)
  else pure ()

def shutDown : Io Session := do
  perform .deactivate
  let d ← s.data.closeDataSocket
  closeHeld s.socket_
  return { s with
    session_registered_ := if env.session_tracker_ then false else s.session_registered_
    ssl_ := if s.ssl_context_ then false else s.ssl_
    data := d
    socket_ := none }

def stop : Io Session := do
  s.unregister env
  s.shutDown env

end Session

end SimpleSftpd
