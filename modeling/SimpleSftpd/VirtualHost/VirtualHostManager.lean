import SimpleSftpd.User.UserManager

/-! virtual_host_manager.cpp: the hosts of one file, loaded, changed and saved, and the `virtual`
command of production.cpp. -/

namespace SimpleSftpd

open Cxx Interaction Password

def given (present : Bool) (key : Str) (value : Json) : List (Str × Json) := if present then [(key, value)] else []

def checked {α : Type} : Except JsonError α → Storing α
  | .ok a => pure a
  | .error e => Prog.throw (.json e)

variable (pbkdf2 : Pbkdf2)

namespace FTPVirtualHost

variable (h : FTPVirtualHost)

def members : List (Str × Json) :=
  given true "hostname" (.string h.hostname_) ++
  given true "root_directory" (.string h.root_directory_) ++
  given true "enabled" (.bool h.enabled_) ++
  given (h.ssl_cert_file_ ≠ []) "ssl_cert_file" (.string h.ssl_cert_file_) ++
  given (h.ssl_key_file_ ≠ []) "ssl_key_file" (.string h.ssl_key_file_) ++
  given (h.ssl_ca_file_ ≠ []) "ssl_ca_file" (.string h.ssl_ca_file_) ++
  given (h.max_sessions_ > 0) "max_sessions" (.int h.max_sessions_) ++
  given (h.storage_quota_bytes_ > 0) "storage_quota_bytes" (.int h.storage_quota_bytes_) ++
  given (h.bandwidth_quota_bytes_ > 0) "bandwidth_quota_bytes" (.int h.bandwidth_quota_bytes_) ++
  given (h.userFile ≠ []) "user_file" (.string h.userFile)

def toJson : Json := .object h.members

def readAttributes (j : Json) : Except JsonError (Option FTPVirtualHost) := do
  if !(← j.isMember "hostname") || !(← j.isMember "root_directory") then return none
  else do
    let hostname ← (← j.member "hostname").asString
    let root_dir ← (← j.member "root_directory").asString
    let enabled ← j.assign "enabled" Json.asBool true
    let ssl_cert_file ← j.assign "ssl_cert_file" Json.asString []
    let ssl_key_file ← j.assign "ssl_key_file" Json.asString []
    let ssl_ca_file ← j.assign "ssl_ca_file" Json.asString []
    let max_sessions ← j.assign "max_sessions" Json.asInt 0
    let storage_quota ← j.assign "storage_quota_bytes" Json.asUInt64 0
    let bandwidth_quota ← j.assign "bandwidth_quota_bytes" Json.asUInt64 0
    return some ⟨hostname, root_dir, enabled, none, ssl_cert_file, ssl_key_file, ssl_ca_file, max_sessions,
      storage_quota,
      bandwidth_quota, ∅⟩

def readUserFile (j : Json) : Except JsonError Str := j.assign "user_file" Json.asString []

def readCustomErrors (j : Json) : Except JsonError FTPVirtualHost := do
  if (← j.isMember "custom_errors") && (← j.member "custom_errors").isObject then do
    let errors ← j.member "custom_errors"
    errors.getMemberNames.foldlM
      (fun host key => do return host.setCustomError key (← (← errors.member key).asString)) h
  else return h

def read (j : Json) : Storing (Option FTPVirtualHost) := do
  match ← checked (readAttributes j) with
  | none => return none
  | some host => do
    let user_file ← checked (readUserFile j)
    let users ← (if user_file ≠ [] then some <$> FTPUserManager.construct pbkdf2 user_file else pure none :
      Storing (Option FTPUserManager))
    let host ← checked ({ host with user_manager_ := users }.readCustomErrors j)
    return some host

end FTPVirtualHost

structure FTPVirtualHostManager where
  virtual_hosts_ : VirtualHosts
  virtual_hosts_file_ : Str

namespace FTPVirtualHostManager

def readHosts (loaded : VirtualHosts) : List Json → Storing VirtualHosts
  | [] => return loaded
  | j :: js => do
    match ← FTPVirtualHost.read pbkdf2 j with
    | none => readHosts loaded js
    | some host => readHosts (loaded.add host) js

def hostsArray (root : Json) : Except JsonError (List Json) := do
  if (← root.isMember "virtual_hosts") && (← root.member "virtual_hosts").isArray then
    return (← root.member "virtual_hosts").values
  else return []

variable (m : FTPVirtualHostManager)

def loadVirtualHosts (filename : Str) : Storing (Bool × FTPVirtualHostManager) := do
  let file_to_load := if filename = [] then m.virtual_hosts_file_ else filename
  if file_to_load = [] then return (false, m)
  else do
    match ← request (.read file_to_load) with
    | .missing => return (true, m)
    | .unparsable => return (false, m)
    | .json root => do
      let entries ← checked (hostsArray root)
      let loaded ← readHosts pbkdf2 .empty entries
      return (true, { m with virtual_hosts_ := loaded })

def toJson (updated : Int) : Json := .object [
  ("virtual_hosts", .array (m.virtual_hosts_.map.entries.map fun e => e.2.toJson)),
  ("version", .string "1.0"),
  ("updated", .int updated)]

def saveVirtualHosts (filename : Str) : Storing Bool := do
  let file_to_save := if filename = [] then m.virtual_hosts_file_ else filename
  if file_to_save = [] then return false
  else do
    let failure ← (if Path.hasParentPath file_to_save then
      request (.createDirectories (Path.parentPath file_to_save))
      else pure none : Storing (Option Errc))
    if failure.isSome then return false
    else do
      let updated : Int ← request .systemNow
      let opened : Bool ← request (.truncate file_to_save)
      if !opened then return false
      else do
        request (.write file_to_save (m.toJson updated))
        return true

def persistIfConfigured : Storing Bool := if m.virtual_hosts_file_ ≠ [] then m.saveVirtualHosts [] else return true

def construct (virtual_hosts_file : Str) : Storing FTPVirtualHostManager := do
  let m : FTPVirtualHostManager := ⟨.empty, virtual_hosts_file⟩
  if virtual_hosts_file = [] then return m
  else do
    let (_, m) ← m.loadVirtualHosts pbkdf2 []
    return m

def removeVirtualHost (hostname : Str) : Storing (Bool × FTPVirtualHostManager) := do
  if (m.virtual_hosts_.getVirtualHost hostname).isSome then do
    let m := { m with virtual_hosts_ := m.virtual_hosts_.erase hostname }
    return (← m.persistIfConfigured, m)
  else return (false, m)

def addVirtualHost (host : FTPVirtualHost) : Storing (Bool × FTPVirtualHostManager) := do
  if host.hostname_ = [] then return (false, m)
  else if (m.virtual_hosts_.getVirtualHost host.hostname_).isSome then return (false, m)
  else do
    let m := { m with virtual_hosts_ := m.virtual_hosts_.add host }
    if ← m.persistIfConfigured then return (true, m)
    else do
      let (_, m) ← m.removeVirtualHost host.hostname_
      return (false, m)

def saveHost (host : FTPVirtualHost) : Storing Bool :=
  { m with virtual_hosts_ := m.virtual_hosts_.add host }.saveVirtualHosts []

end FTPVirtualHostManager

structure VirtualHostCliOptions where
  hostname : Str := []
  root : Str := []
  cert : Str := []
  key : Str := []
  ca : Str := []
  user_file : Str := []
  enabled : Option Bool := none
  max_sessions : Option Int := none
  storage_quota : Option ℕ := none
  bandwidth_quota : Option ℕ := none

def VirtualHostCliOptions.set (opts : VirtualHostCliOptions) (flag value : Str) : Option VirtualHostCliOptions :=
  if flag = "--hostname" ∨ flag = "-n" then some { opts with hostname := value }
  else if flag = "--root" ∨ flag = "-r" then some { opts with root := value }
  else if flag = "--certificate" ∨ flag = "--cert" then some { opts with cert := value }
  else if flag = "--private-key" ∨ flag = "--key" then some { opts with key := value }
  else if flag = "--ca-certificate" ∨ flag = "--ca" then some { opts with ca := value }
  else if flag = "--user-file" then some { opts with user_file := value }
  else if flag = "--max-sessions" then (stoi value).map fun n => { opts with max_sessions := some n }
  else if flag = "--storage-quota" then (stoull value).map fun n => { opts with storage_quota := some n }
  else if flag = "--bandwidth-quota" then (stoull value).map fun n => { opts with bandwidth_quota := some n }
  else if flag = "--enabled" then
    some { opts with enabled := some (value = "true" ∨ value = "1" ∨ value = "yes") }
  else some opts

def parseVirtualHostOptions (opts : VirtualHostCliOptions) : List Str → Option VirtualHostCliOptions
  | flag :: value :: args => (opts.set flag value).bind fun opts => parseVirtualHostOptions opts args
  | _ => some opts

def VirtualHostCliOptions.configure (opts : VirtualHostCliOptions) (host : FTPVirtualHost) :
    Storing FTPVirtualHost := do
  let host := { host with
    enabled_ := opts.enabled.getD host.enabled_
    ssl_cert_file_ := if opts.cert ≠ [] then opts.cert else host.ssl_cert_file_
    ssl_key_file_ := if opts.key ≠ [] then opts.key else host.ssl_key_file_
    ssl_ca_file_ := if opts.ca ≠ [] then opts.ca else host.ssl_ca_file_
    max_sessions_ := opts.max_sessions.getD host.max_sessions_
    storage_quota_bytes_ := opts.storage_quota.getD host.storage_quota_bytes_
    bandwidth_quota_bytes_ := opts.bandwidth_quota.getD host.bandwidth_quota_bytes_ }
  if opts.user_file ≠ [] then do
    let users ← FTPUserManager.construct pbkdf2 opts.user_file
    return { host with user_manager_ := some users }
  else return host

namespace FTPVirtualHostManager

variable (m : FTPVirtualHostManager) (opts : VirtualHostCliOptions)

def virtualAdd : Storing Bool := do
  if opts.hostname = [] ∨ opts.root = [] then return false
  else do
    let host ← opts.configure pbkdf2 { hostname_ := opts.hostname, root_directory_ := opts.root }
    let (added, _) ← m.addVirtualHost host
    return added

def virtualRemove : Storing Bool := do
  if opts.hostname = [] then return false
  else do
    let (removed, _) ← m.removeVirtualHost opts.hostname
    return removed

def virtualEnable (enabled : Bool) : Storing Bool := do
  if opts.hostname = [] then return false
  else match m.virtual_hosts_.getVirtualHost opts.hostname with
  | none => return false
  | some host => m.saveHost { host with enabled_ := enabled }

def virtualModify : Storing Bool := do
  if opts.hostname = [] then return false
  else match m.virtual_hosts_.getVirtualHost opts.hostname with
  | none => return false
  | some host => do
    let host ← opts.configure pbkdf2 { host with
      root_directory_ := if opts.root ≠ [] then opts.root else host.root_directory_ }
    m.saveHost host

end FTPVirtualHostManager

def handleVirtualCommand (vhost_file : Str) : List Str → Storing Bool
  | [] => return false
  | subcommand :: args => do
    let manager ← FTPVirtualHostManager.construct pbkdf2 vhost_file
    if subcommand = "list" then return true
    else match parseVirtualHostOptions {} args with
    | none => Prog.throw .conversion
    | some opts =>
      if subcommand = "add" then manager.virtualAdd pbkdf2 opts
      else if subcommand = "remove" then manager.virtualRemove opts
      else if subcommand = "enable" ∨ subcommand = "disable" then
        manager.virtualEnable opts (subcommand = "enable")
      else if subcommand = "modify" then manager.virtualModify pbkdf2 opts
      else return false

end SimpleSftpd
