import SimpleSftpd.Core.Session

namespace SimpleSftpd

open Cxx Interaction

structure OctetScan where
  done : List ℕ := []
  current : Option ℕ := none

def OctetScan.step (c : Byte) (o : OctetScan) : Option OctetScan :=
  if (48 : Byte) ≤ c ∧ c ≤ 57 then
    match o.current with
    | none => if o.done.length = 4 then none else some { o with current := some (c.toNat - 48) }
    | some 0 => none
    | some n =>
      if n * 10 + (c.toNat - 48) > 255 then none
      else some { o with current := some (n * 10 + (c.toNat - 48)) }
  else if c = 46 then
    match o.current with
    | none => none
    | some n => if o.done.length = 3 then none else some ⟨o.done ++ [n], none⟩
  else none

def inetPtonFrom (o : OctetScan) : Str → Option (List ℕ)
  | [] => match o.done, o.current with
    | [a, b, c], some d => some [a, b, c, d]
    | _, _ => none
  | c :: cs => (o.step c).bind fun o' => inetPtonFrom o' cs

def inetPton (s : Str) : Option (List ℕ) := inetPtonFrom {} (s.takeWhile (· ≠ 0))

def closeHeld : Option Fd → Io Unit
  | some fd => perform (.close fd)
  | none => pure ()

namespace DataConnection

def closeDataSocket (d : DataConnection) : Io DataConnection := do
  closeHeld d.data_socket_
  closeHeld d.passive_listen_socket_
  return { d with data_socket_ := none, passive_listen_socket_ := none }

def forgetEndpoint (d : DataConnection) : DataConnection :=
  { d with active_mode_enabled_ := false, active_mode_ip_ := [], active_mode_port_ := 0 }

def connectActiveDataSocket (d : DataConnection) : Io (Option (Fd × Peer) × DataConnection) :=
  if d.active_mode_ip_ = [] ∨ d.active_mode_port_ ≤ 0 then return (none, d)
  else do
    let made : Option Fd ← perform .socket
    match made with
    | none => return (none, { d with data_socket_ := none })
    | some fd =>
      match inetPton d.active_mode_ip_ with
      | none => do
        perform (.close fd)
        return (none, { d.forgetEndpoint with data_socket_ := none })
      | some _ => do
        let peer : Option Peer ← perform (.connect fd d.active_mode_ip_ d.active_mode_port_)
        match peer with
        | none => do
          perform (.close fd)
          return (none, { d.forgetEndpoint with data_socket_ := none })
        | some peer => return (some (fd, peer), { d.forgetEndpoint with data_socket_ := some fd })

def acceptDataConnection (d : DataConnection) : Io (Option (Fd × Peer) × DataConnection) :=
  if d.active_mode_enabled_ then d.connectActiveDataSocket
  else match d.passive_listen_socket_ with
  | none => return (none, d)
  | some listener => do
    let ready : Bool ← perform (.select listener)
    if !ready then return (none, d)
    else do
      let accepted : Option (Fd × Peer) ← perform (.accept listener)
      return (accepted, { d with data_socket_ := accepted.map Prod.fst })

def bindFrom (fd : Fd) (port : Int) : ℕ → Io (Option Int)
  | 0 => return none
  | n + 1 => do
    let bound : Bool ← perform (.bind fd (port % 65536))
    if bound then do
      let listening : Bool ← perform (.listen fd)
      if listening then return some port else bindFrom fd (port + 1) n
    else bindFrom fd (port + 1) n

def createPassiveDataSocket (config : ConnectionConfig) (d : DataConnection) :
    Io (Int × DataConnection) := do
  let d ← d.closeDataSocket
  let made : Option Fd ← perform .socket
  match made with
  | none => return (-1, d)
  | some fd => do
    let first := config.passive_port_range_start
    let found ← bindFrom fd first (config.passive_port_range_end + 1 - first).toNat
    match found with
    | some port => return (port, { d with passive_listen_socket_ := some fd })
    | none => do
      perform (.close fd)
      return (-1, d)

end DataConnection

def formatPassiveResponse (port : Int) : Str :=
  "Entering Passive Mode (127,0,0,1," ++ decimalInt (port.tdiv 256) ++ "," ++
    decimalInt (port.tmod 256) ++ ")"

variable (env : Service)

namespace Session

variable (s : Session)

def handlePASV : Io DataConnection :=
  if s.data.epsv_all_ then do
    s.reply 501 "EPSV ALL is in effect, use EPSV"
    return s.data
  else do
    let d ← { s.data with active_mode_enabled_ := false }.closeDataSocket
    let (port, d) ← d.createPassiveDataSocket env.config_.connection
    if port < 0 then do
      s.reply 425 "Can't open passive connection"
      return d
    else do
      s.reply 227 (formatPassiveResponse port)
      return d

def handleEPSV (argument : Str) : Io DataConnection :=
  let arg := upper argument
  if arg = "ALL" then do
    s.reply 200 "EPSV ALL command successful"
    return { s.data with epsv_all_ := true }
  else if arg ≠ [] ∧ arg ≠ "1" ∧ arg ≠ "2" then do
    s.reply 522 "Network protocol not supported, use (1)"
    return s.data
  else do
    let d ← { s.data with active_mode_enabled_ := false }.closeDataSocket
    let (port, d) ← d.createPassiveDataSocket env.config_.connection
    if port < 0 then do
      s.reply 425 "Can't open passive connection"
      return d
    else do
      s.reply 229 ("Entering Extended Passive Mode (|||" ++ decimalInt port ++ "|)")
      return d

/-- The numbers of a PORT argument; `none` where `std::stoi` throws. -/
def portParts (address_port : Str) : Option (List Int) := (tokens ',' address_port).mapM stoi

def dotted (a b c d : Int) : Str :=
  decimalInt a ++ "." ++ decimalInt b ++ "." ++ decimalInt c ++ "." ++ decimalInt d

def handlePORT (address_port : Str) : Io DataConnection :=
  if s.data.epsv_all_ then do
    s.reply 501 "EPSV ALL is in effect, use EPSV"
    return s.data
  else match portParts address_port with
  | some [a, b, c, d, p1, p2] => do
    let port := wrapInt (wrapInt (p1 * 256) + p2)
    let stored := { s.data with active_mode_ip_ := dotted a b c d, active_mode_port_ := port }
    if port < 1024 ∨ port > 65535 then do
      s.reply 501 "Invalid port number"
      return stored
    else do
      let closed ← stored.closeDataSocket
      s.reply 200 "PORT command successful"
      return { closed with active_mode_enabled_ := true }
  | _ => do
    s.reply 501 "Invalid PORT command format"
    return s.data

def eprtFields (delim : Byte) (token : Str) : Str → List Str
  | [] => []
  | c :: cs => if c = delim then token :: eprtFields delim [] cs else eprtFields delim (token ++ [c]) cs

def handleEPRT (endpoint : Str) : Io DataConnection :=
  if s.data.epsv_all_ then do
    s.reply 501 "EPSV ALL is in effect, use EPSV"
    return s.data
  else if endpoint.length < 7 then do
    s.reply 501 "Invalid EPRT command format"
    return s.data
  else
    let delim := endpoint.headD 0
    if endpoint.getLast? ≠ some delim then do
      s.reply 501 "Invalid EPRT command format"
      return s.data
    else match eprtFields delim [] endpoint.tail with
    | [protocol, address, port] =>
      if protocol ≠ "1" then do
        s.reply 522 "Network protocol not supported, use (1)"
        return s.data
      else match stoi port with
      | none => do
        s.reply 501 "Invalid EPRT port"
        return s.data
      | some port =>
        if port < 1024 ∨ port > 65535 then do
          s.reply 501 "Invalid port number"
          return s.data
        else do
          let closed ← s.data.closeDataSocket
          s.reply 200 "EPRT command successful"
          return { closed with
            active_mode_ip_ := address, active_mode_port_ := port, active_mode_enabled_ := true }
    | _ => do
      s.reply 501 "Invalid EPRT command format"
      return s.data

def handleABOR : Io DataConnection := do
  let d ← s.data.closeDataSocket
  s.reply 226 "ABOR command successful"
  return d

end Session

end SimpleSftpd
