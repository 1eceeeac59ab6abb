import SimpleSftpd.Config.ServerConfig
import SimpleSftpd.Cxx.Json

/-! server_config.cpp: the three loaders and the keys each of them knows. -/

namespace SimpleSftpd

open Cxx

inductive ValueKind
  | text
  | flag
  | number
  | size
  deriving DecidableEq

abbrev ValueKind.type : ValueKind → Type
  | text => Str
  | flag => Bool
  | number => Int
  | size => ℕ

inductive Setting
  | bind_address | bind_port | max_connections | timeout_seconds | passive_mode | passive_port_range_start
  | passive_port_range_end
  | log_file | log_level | log_format | log_to_console | log_to_file
  | max_sessions_per_user | require_ssl | allow_anonymous | ssl_cert_file | ssl_key_file | ssl_ca_file
  | require_client_cert | ssl_client_ca_file | chroot_enabled | chroot_directory | drop_privileges
  | run_as_user | run_as_group | enable_pam | user_file | virtual_hosts_file
  | enabled | max_requests_per_minute | max_connections_per_ip | max_transfer_rate
  | max_transfer_rate_per_user
  | use_sendfile | use_mmap | buffer_size | enable_compression
  deriving DecidableEq

namespace Setting

def kind : Setting → ValueKind
  | .bind_address | .log_file | .log_level | .log_format | .ssl_cert_file | .ssl_key_file | .ssl_ca_file
  | .ssl_client_ca_file | .chroot_directory | .run_as_user | .run_as_group | .user_file
  | .virtual_hosts_file => .text
  | .passive_mode | .log_to_console | .log_to_file | .require_ssl | .allow_anonymous | .require_client_cert
  | .chroot_enabled | .drop_privileges | .enable_pam | .enabled | .use_sendfile | .use_mmap
  | .enable_compression => .flag
  | .buffer_size => .size
  | _ => .number

def read (c : FTPServerConfig) : (s : Setting) → s.kind.type
  | .bind_address => c.connection.bind_address
  | .bind_port => c.connection.bind_port
  | .max_connections => c.connection.max_connections
  | .timeout_seconds => c.connection.timeout_seconds
  | .passive_mode => c.connection.passive_mode
  | .passive_port_range_start => c.connection.passive_port_range_start
  | .passive_port_range_end => c.connection.passive_port_range_end
  | .log_file => c.logging.log_file
  | .log_level => c.logging.log_level
  | .log_format => c.logging.log_format
  | .log_to_console => c.logging.log_to_console
  | .log_to_file => c.logging.log_to_file
  | .max_sessions_per_user => c.security.max_sessions_per_user
  | .require_ssl => c.security.require_ssl
  | .allow_anonymous => c.security.allow_anonymous
  | .ssl_cert_file => c.security.ssl_cert_file
  | .ssl_key_file => c.security.ssl_key_file
  | .ssl_ca_file => c.security.ssl_ca_file
  | .require_client_cert => c.security.require_client_cert
  | .ssl_client_ca_file => c.security.ssl_client_ca_file
  | .chroot_enabled => c.security.chroot_enabled
  | .chroot_directory => c.security.chroot_directory
  | .drop_privileges => c.security.drop_privileges
  | .run_as_user => c.security.run_as_user
  | .run_as_group => c.security.run_as_group
  | .enable_pam => c.security.enable_pam
  | .user_file => c.security.user_file
  | .virtual_hosts_file => c.security.virtual_hosts_file
  | .enabled => c.rate_limit.enabled
  | .max_requests_per_minute => c.rate_limit.max_requests_per_minute
  | .max_connections_per_ip => c.rate_limit.max_connections_per_ip
  | .max_transfer_rate => c.rate_limit.max_transfer_rate
  | .max_transfer_rate_per_user => c.rate_limit.max_transfer_rate_per_user
  | .use_sendfile => c.transfer.use_sendfile
  | .use_mmap => c.transfer.use_mmap
  | .buffer_size => c.transfer.buffer_size
  | .enable_compression => c.transfer.enable_compression

def store (c : FTPServerConfig) : (s : Setting) → s.kind.type → FTPServerConfig
  | .bind_address, v => { c with connection.bind_address := v }
  | .bind_port, v => { c with connection.bind_port := v }
  | .max_connections, v => { c with connection.max_connections := v }
  | .timeout_seconds, v => { c with connection.timeout_seconds := v }
  | .passive_mode, v => { c with connection.passive_mode := v }
  | .passive_port_range_start, v => { c with connection.passive_port_range_start := v }
  | .passive_port_range_end, v => { c with connection.passive_port_range_end := v }
  | .log_file, v => { c with logging.log_file := v }
  | .log_level, v => { c with logging.log_level := v }
  | .log_format, v => { c with logging.log_format := v }
  | .log_to_console, v => { c with logging.log_to_console := v }
  | .log_to_file, v => { c with logging.log_to_file := v }
  | .max_sessions_per_user, v => { c with security.max_sessions_per_user := v }
  | .require_ssl, v => { c with security.require_ssl := v }
  | .allow_anonymous, v => { c with security.allow_anonymous := v }
  | .ssl_cert_file, v => { c with security.ssl_cert_file := v }
  | .ssl_key_file, v => { c with security.ssl_key_file := v }
  | .ssl_ca_file, v => { c with security.ssl_ca_file := v }
  | .require_client_cert, v => { c with security.require_client_cert := v }
  | .ssl_client_ca_file, v => { c with security.ssl_client_ca_file := v }
  | .chroot_enabled, v => { c with security.chroot_enabled := v }
  | .chroot_directory, v => { c with security.chroot_directory := v }
  | .drop_privileges, v => { c with security.drop_privileges := v }
  | .run_as_user, v => { c with security.run_as_user := v }
  | .run_as_group, v => { c with security.run_as_group := v }
  | .enable_pam, v => { c with security.enable_pam := v }
  | .user_file, v => { c with security.user_file := v }
  | .virtual_hosts_file, v => { c with security.virtual_hosts_file := v }
  | .enabled, v => { c with rate_limit.enabled := v }
  | .max_requests_per_minute, v => { c with rate_limit.max_requests_per_minute := v }
  | .max_connections_per_ip, v => { c with rate_limit.max_connections_per_ip := v }
  | .max_transfer_rate, v => { c with rate_limit.max_transfer_rate := v }
  | .max_transfer_rate_per_user, v => { c with rate_limit.max_transfer_rate_per_user := v }
  | .use_sendfile, v => { c with transfer.use_sendfile := v }
  | .use_mmap, v => { c with transfer.use_mmap := v }
  | .buffer_size, v => { c with transfer.buffer_size := v }
  | .enable_compression, v => { c with transfer.enable_compression := v }

end Setting

structure Row where
  section_ : Str
  key : Str
  setting : Setting
  deriving DecidableEq

def rowsOf (section_ : Str) (keys : List (Str × Setting)) : List Row := keys.map fun k => ⟨section_, k.1, k.2⟩

def iniRows : List Row :=
  rowsOf "connection" [
    ("bind_address", .bind_address), ("bind_port", .bind_port), ("max_connections", .max_connections),
    ("timeout_seconds", .timeout_seconds), ("connection_timeout", .timeout_seconds),
    ("enable_compression", .enable_compression)] ++
  rowsOf "logging" [
    ("log_file", .log_file), ("log_level", .log_level), ("log_format", .log_format),
    ("log_to_console", .log_to_console), ("log_to_file", .log_to_file)] ++
  rowsOf "security" [
    ("max_sessions_per_user", .max_sessions_per_user), ("require_ssl", .require_ssl),
    ("allow_anonymous", .allow_anonymous), ("ssl_cert_file", .ssl_cert_file), ("certificate_file", .ssl_cert_file),
    ("ssl_key_file", .ssl_key_file), ("private_key_file", .ssl_key_file), ("chroot_enabled", .chroot_enabled),
    ("chroot_directory", .chroot_directory), ("drop_privileges", .drop_privileges), ("run_as_user", .run_as_user),
    ("run_as_group", .run_as_group), ("ssl_ca_file", .ssl_ca_file), ("ca_certificate_file", .ssl_ca_file),
    ("require_client_cert", .require_client_cert), ("ssl_client_ca_file", .ssl_client_ca_file),
    ("enable_pam", .enable_pam), ("user_file", .user_file), ("virtual_hosts_file", .virtual_hosts_file)] ++
  rowsOf "rate_limit" [
    ("enabled", .enabled), ("max_requests_per_minute", .max_requests_per_minute),
    ("max_connections_per_ip", .max_connections_per_ip), ("max_transfer_rate", .max_transfer_rate),
    ("max_transfer_rate_per_user", .max_transfer_rate_per_user)] ++
  rowsOf "transfer" [
    ("use_sendfile", .use_sendfile), ("use_mmap", .use_mmap), ("buffer_size", .buffer_size),
    ("enable_compression", .enable_compression)]

def jsonRows : List Row :=
  rowsOf "connection" [
    ("bind_address", .bind_address), ("bind_port", .bind_port), ("max_connections", .max_connections),
    ("timeout_seconds", .timeout_seconds), ("passive_mode", .passive_mode),
    ("passive_port_range_start", .passive_port_range_start),
      ("passive_port_range_end", .passive_port_range_end)] ++
  rowsOf "logging" [
    ("log_file", .log_file), ("log_level", .log_level), ("log_format", .log_format),
    ("log_to_console", .log_to_console), ("log_to_file", .log_to_file)] ++
  rowsOf "security" [
    ("max_sessions_per_user", .max_sessions_per_user), ("require_ssl", .require_ssl),
    ("allow_anonymous", .allow_anonymous), ("ssl_cert_file", .ssl_cert_file), ("ssl_key_file", .ssl_key_file),
    ("ssl_ca_file", .ssl_ca_file), ("require_client_cert", .require_client_cert),
    ("ssl_client_ca_file", .ssl_client_ca_file), ("chroot_enabled", .chroot_enabled),
    ("chroot_directory", .chroot_directory), ("drop_privileges", .drop_privileges), ("run_as_user", .run_as_user),
    ("run_as_group", .run_as_group), ("enable_pam", .enable_pam), ("user_file", .user_file),
    ("virtual_hosts_file", .virtual_hosts_file)] ++
  rowsOf "rate_limit" [
    ("enabled", .enabled), ("max_requests_per_minute", .max_requests_per_minute),
    ("max_connections_per_ip", .max_connections_per_ip), ("max_transfer_rate", .max_transfer_rate),
    ("max_transfer_rate_per_user", .max_transfer_rate_per_user)] ++
  rowsOf "transfer" [
    ("use_sendfile", .use_sendfile), ("use_mmap", .use_mmap), ("buffer_size", .buffer_size),
    ("enable_compression", .enable_compression)]

def yamlRows : List Row :=
  rowsOf "connection" [
    ("bind_address", .bind_address), ("bind_port", .bind_port), ("max_connections", .max_connections),
    ("timeout_seconds", .timeout_seconds), ("passive_mode", .passive_mode),
    ("passive_port_range_start", .passive_port_range_start),
      ("passive_port_range_end", .passive_port_range_end)] ++
  rowsOf "logging" [
    ("log_file", .log_file), ("log_level", .log_level), ("log_format", .log_format),
    ("log_to_console", .log_to_console), ("log_to_file", .log_to_file)] ++
  rowsOf "security" [
    ("max_sessions_per_user", .max_sessions_per_user), ("require_ssl", .require_ssl),
    ("allow_anonymous", .allow_anonymous), ("ssl_cert_file", .ssl_cert_file), ("certificate_file", .ssl_cert_file),
    ("ssl_key_file", .ssl_key_file), ("private_key_file", .ssl_key_file), ("ssl_ca_file", .ssl_ca_file),
    ("ca_certificate_file", .ssl_ca_file), ("require_client_cert", .require_client_cert),
    ("ssl_client_ca_file", .ssl_client_ca_file), ("chroot_enabled", .chroot_enabled),
    ("chroot_directory", .chroot_directory), ("drop_privileges", .drop_privileges), ("run_as_user", .run_as_user),
    ("run_as_group", .run_as_group), ("enable_pam", .enable_pam), ("user_file", .user_file),
    ("virtual_hosts_file", .virtual_hosts_file)] ++
  rowsOf "rate_limit" [
    ("enabled", .enabled), ("max_requests_per_minute", .max_requests_per_minute),
    ("max_connections_per_ip", .max_connections_per_ip), ("max_transfer_rate", .max_transfer_rate),
    ("max_transfer_rate_per_user", .max_transfer_rate_per_user)] ++
  rowsOf "transfer" [
    ("use_sendfile", .use_sendfile), ("use_mmap", .use_mmap), ("buffer_size", .buffer_size),
    ("enable_compression", .enable_compression)]

def findSetting (rows : List Row) (section_ key : Str) : Option Setting :=
  (rows.find? fun r => r.section_ = section_ ∧ r.key = key).map (·.setting)

/-- The conversion in the two text formats; `none` where `std::stoi` or `std::stoul` throws. -/
def ValueKind.ofText (value : Str) : (k : ValueKind) → Option k.type
  | text => some value
  | flag => some (value = "true" ∨ value = "1" : Bool)
  | number => stoi value
  | size => stoull value

def ValueKind.ofJson (j : Json) : (k : ValueKind) → Except JsonError k.type
  | text => j.asString
  | flag => j.asBool
  | number => j.asInt
  | size => j.asUInt

def trim (s : Str) : Str := trimRight (trimLeft s)

def unquote (quotes : List Byte) (value : Str) : Str :=
  if value.length ≥ 2 ∧ quotes.any (fun q => value.head? = some q ∧ value.getLast? = some q) then
    value.tail.dropLast
  else value

structure Reading where
  current_section : Str
  config : FTPServerConfig

namespace FTPServerConfig

variable (c : FTPServerConfig)

def setText (rows : List Row) (section_ key value : Str) : Option FTPServerConfig :=
  match findSetting rows section_ key with
  | some s => (s.kind.ofText value).map (s.store c)
  | none => some c

def iniLine (r : Reading) (line : Str) : Option Reading :=
  let line := trim (line.takeWhile (· ≠ '#'))
  if line = [] then some r
  else if line.head? = some '[' ∧ line.getLast? = some ']' then some { r with current_section :=
    line.tail.dropLast }
  else match cut '=' line with
  | none => some r
  | some (key, value) =>
    let section_ := if r.current_section = [] then ascii "connection" else r.current_section
    (r.config.setText iniRows section_ (trim key) (unquote ['"'] (trim value))).map fun c => { r with config := c }

def loadFromINI (content : Str) : Option FTPServerConfig :=
  ((tokens '\n' content).foldlM iniLine ⟨[], c⟩).map (·.config)

def yamlLine (r : Reading) (line : Str) : Option Reading :=
  let line := trimLeft (line.takeWhile (· ≠ '#'))
  if line = [] then some r
  else if line.getLast? = some ':' then some { r with current_section := trim line.dropLast }
  else match cut ':' line with
  | none => some r
  | some (key, value) =>
    (r.config.setText yamlRows r.current_section (trim key) (unquote ['"', '\''] (trim value))).map
      fun c => { r with config := c }

def loadFromYAML (content : Str) : Option FTPServerConfig :=
  ((tokens '\n' content).foldlM yamlLine ⟨[], c⟩).map (·.config)

def jsonKey (root : Json) (c : FTPServerConfig) (r : Row) : Except JsonError FTPServerConfig := do
  if ← root.isMember r.section_ then do
    let members ← root.member r.section_
    if ← members.isMember r.key then do
      let v ← r.setting.kind.ofJson (← members.member r.key)
      return r.setting.store c v
    else return c
  else return c

def loadFromJSON (root : Json) : Except JsonError FTPServerConfig := jsonRows.foldlM (jsonKey root) c

end FTPServerConfig

end SimpleSftpd
