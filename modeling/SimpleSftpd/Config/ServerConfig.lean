import SimpleSftpd.Cxx.Strings

/-! server_config.hpp: the configuration sections and their defaults. -/

namespace SimpleSftpd

structure ConnectionConfig where
  bind_address : Str := "0.0.0.0"
  bind_port : Int := 21
  max_connections : Int := 100
  timeout_seconds : Int := 300
  passive_mode : Bool := true
  passive_port_range_start : Int := 49152
  passive_port_range_end : Int := 65535
  deriving DecidableEq

structure LoggingConfig where
  log_file : Str := "/var/log/simple-sftpd/simple-sftpd.log"
  log_level : Str := "INFO"
  log_format : Str := "STANDARD"
  log_to_console : Bool := true
  log_to_file : Bool := true
  deriving DecidableEq

structure SecurityConfig where
  max_sessions_per_user : Int := 0
  require_ssl : Bool := false
  ssl_cert_file : Str := ""
  ssl_key_file : Str := ""
  ssl_ca_file : Str := ""
  require_client_cert : Bool := false
  ssl_client_ca_file : Str := ""
  allow_anonymous : Bool := false
  anonymous_user : Str := "anonymous"
  anonymous_password : Str := "anonymous@"
  chroot_enabled : Bool := false
  chroot_directory : Str := "/var/ftp"
  drop_privileges : Bool := false
  run_as_user : Str := "ftp"
  run_as_group : Str := "ftp"
  enable_pam : Bool := false
  user_file : Str := ""
  virtual_hosts_file : Str := ""
  deriving DecidableEq

structure RateLimitConfig where
  enabled : Bool := false
  max_requests_per_minute : Int := 60
  max_connections_per_ip : Int := 10
  max_transfer_rate : Int := 0
  max_transfer_rate_per_user : Int := 0
  deriving DecidableEq

structure TransferConfig where
  use_sendfile : Bool := false
  use_mmap : Bool := false
  enable_compression : Bool := false
  buffer_size : ℕ := 32768
  deriving DecidableEq

structure FTPServerConfig where
  connection : ConnectionConfig := {}
  logging : LoggingConfig := {}
  security : SecurityConfig := {}
  rate_limit : RateLimitConfig := {}
  transfer : TransferConfig := {}
  deriving DecidableEq

namespace FTPServerConfig

open Cxx

def validationErrors (config : FTPServerConfig) : List Str :=
  (if config.connection.bind_port < 0 ∨ config.connection.bind_port > 65535 then
    ["Invalid bind port: " ++ decimalInt config.connection.bind_port] else []) ++
  (if config.connection.max_connections ≤ 0 then
    ["Invalid max connections: " ++ decimalInt config.connection.max_connections] else []) ++
  (if config.connection.timeout_seconds ≤ 0 then
    ["Invalid timeout: " ++ decimalInt config.connection.timeout_seconds] else [])

def validate (config : FTPServerConfig) : Bool := config.validationErrors.isEmpty

end FTPServerConfig

end SimpleSftpd
