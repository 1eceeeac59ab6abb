import SimpleSftpd.Cxx.Strings

/-! ip_access_control.cpp: the addresses that may connect. -/

namespace SimpleSftpd

open Cxx

/-- `std::stoi` throwing, and an index outside the four octets. -/
inductive MatchError
  | conversion
  | index
  deriving DecidableEq

structure IPAccessControl where
  whitelist_ : List Str := []
  blacklist_ : List Str := []

namespace IPAccessControl

def matchesIP (ip1 ip2 : Str) : Bool := ip1 = ip2

/-- `std::getline(stream, part, '.')`: a stream at its end leaves the part read before. -/
def nextPart (part : Str) : Option Str → Str × Option Str
  | none => (part, none)
  | some s => match cut '.' s with
    | some (p, rest) => (p, some rest)
    | none => (s, none)

def octet (part : Str) : Except MatchError Int :=
  match stoi part with
  | some n => .ok n
  | none => .error .conversion

def octets : ℕ → Str × Option Str → Str × Option Str → Except MatchError (List Int × List Int)
  | 0, _, _ => .ok ([], [])
  | n + 1, ip, net => do
    let ip := nextPart ip.1 ip.2
    let net := nextPart net.1 net.2
    let ip_byte ← octet ip.1
    let net_byte ← octet net.1
    let (ip_bytes, net_bytes) ← octets n ip net
    return (ip_byte :: ip_bytes, net_byte :: net_bytes)

def sameBytes : ℕ → List Int → List Int → Except MatchError Bool
  | 0, _, _ => .ok true
  | n + 1, a :: ip_bytes, b :: net_bytes => if a ≠ b then .ok false else sameBytes n ip_bytes net_bytes
  | _ + 1, _, _ => .error .index

def masked (byte : Int) (mask_bits : ℕ) : BitVec 32 :=
  BitVec.ofInt 32 byte &&& ((255#32 <<< (8 - mask_bits)) &&& 255#32)

def matchesPrefix (prefix_len : Int) (ip_bytes net_bytes : List Int) : Except MatchError Bool := do
  let mask_bytes := prefix_len.tdiv 8
  let mask_bits := prefix_len.tmod 8
  if ! (← sameBytes mask_bytes.toNat ip_bytes net_bytes) then return false
  if mask_bits > 0 ∧ mask_bytes < 4 then
    match ip_bytes[mask_bytes.toNat]?, net_bytes[mask_bytes.toNat]? with
    | some a, some b => return masked a mask_bits.toNat = masked b mask_bits.toNat
    | _, _ => throw .index
  else return true

def matchesCIDR (ip cidr : Str) : Except MatchError Bool :=
  match cut '/' cidr with
  | none => .ok (matchesIP ip cidr)
  | some (network, length) => do
    let prefix_len ← octet length
    let (ip_bytes, net_bytes) ← octets 4 ([], some ip) ([], some network)
    matchesPrefix prefix_len ip_bytes net_bytes

def listed (ip : Str) : List Str → Except MatchError Bool
  | [] => .ok false
  | entry :: entries => do
    if (← matchesCIDR ip entry) || matchesIP ip entry then return true
    listed ip entries

variable (a : IPAccessControl)

def addWhitelist (ip : Str) : IPAccessControl := { a with whitelist_ := a.whitelist_ ++ [ip] }

def addBlacklist (ip : Str) : IPAccessControl := { a with blacklist_ := a.blacklist_ ++ [ip] }

def isAllowed (ip : Str) : Except MatchError Bool := do
  if ← listed ip a.blacklist_ then return false
  if a.whitelist_ = [] then return true
  listed ip a.whitelist_

end IPAccessControl

end SimpleSftpd
