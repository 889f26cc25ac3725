import Socks5d.Users
import Socks5d.Parsers

/-! # Shared state of the process

`config.c`, `metrics.c` and `access_log.c`: what the SOCKS and the management
sessions share besides the user store. -/
namespace Socks5d

/-! ## Configuration -/

structure Config where
  negotiationTimeout : Int
  connectTimeout : Int
  idleTimeout : Int
  maxConnections : Int
  deriving DecidableEq, Repr

/-- The bytes of a string literal of the source. -/
def lit (s : String) : Bytes := s.toList.map fun c => c.toNat.toUInt8

/-- The key names of `config_set_key` and `config_get_key`, in the order both
compare them in. -/
inductive ConfigKey | negotiationTimeout | connectTimeout | idleTimeout | maxConnections
  deriving DecidableEq, Repr

def ConfigKey.name : ConfigKey → Bytes
  | .negotiationTimeout => lit "negotiation-timeout"
  | .connectTimeout => lit "connect-timeout"
  | .idleTimeout => lit "idle-timeout"
  | .maxConnections => lit "max-connections"

def ConfigKey.ofName (key : Bytes) : Option ConfigKey :=
  [.negotiationTimeout, .connectTimeout, .idleTimeout, .maxConnections].find? fun k => k.name = key

def ConfigKey.get (c : Config) : ConfigKey → Int
  | .negotiationTimeout => c.negotiationTimeout
  | .connectTimeout => c.connectTimeout
  | .idleTimeout => c.idleTimeout
  | .maxConnections => c.maxConnections

def ConfigKey.set (c : Config) (value : Int) : ConfigKey → Config
  | .negotiationTimeout => { c with negotiationTimeout := value }
  | .connectTimeout => { c with connectTimeout := value }
  | .idleTimeout => { c with idleTimeout := value }
  | .maxConnections => { c with maxConnections := value }

theorem ConfigKey.get_set (c : Config) (value : Int) (k k' : ConfigKey) :
    k'.get (k.set c value) = if k' = k then value else k'.get c := by
  cases k <;> cases k' <;> rfl

/-- `config_set_key`; `none` is the `false` return, which leaves `c` alone. -/
def configSetKey (c : Config) (key : Bytes) (value : Int) : Option Config :=
  if value < 0 then none else (ConfigKey.ofName key).map fun k => k.set c value

/-! ## Metrics -/

structure Metrics where
  connAccepted : UInt64
  connClosed : UInt64
  connRejected : UInt64
  authFail : UInt64
  originOk : UInt64
  originFail : UInt64
  bytesC2o : UInt64
  bytesO2c : UInt64
  adminSessions : UInt64
  deriving DecidableEq, Repr

def metricsCreate : Metrics := ⟨0, 0, 0, 0, 0, 0, 0, 0, 0⟩

namespace Metrics
def metricsConnAccepted (m : Metrics) : Metrics := { m with connAccepted := m.connAccepted + 1 }
def metricsConnClosed (m : Metrics) : Metrics := { m with connClosed := m.connClosed + 1 }
def metricsConnRejected (m : Metrics) : Metrics := { m with connRejected := m.connRejected + 1 }
def metricsAuthFail (m : Metrics) : Metrics := { m with authFail := m.authFail + 1 }
def metricsOriginOk (m : Metrics) : Metrics := { m with originOk := m.originOk + 1 }
def metricsOriginFail (m : Metrics) : Metrics := { m with originFail := m.originFail + 1 }
def metricsAddBytesC2o (n : UInt64) (m : Metrics) : Metrics := { m with bytesC2o := m.bytesC2o + n }
def metricsAddBytesO2c (n : UInt64) (m : Metrics) : Metrics := { m with bytesO2c := m.bytesO2c + n }
def metricsAdminSessionOpen (m : Metrics) : Metrics :=
  { m with adminSessions := m.adminSessions + 1 }
def metricsAdminSessionClose (m : Metrics) : Metrics :=
  if m.adminSessions > 0 then { m with adminSessions := m.adminSessions - 1 } else m

/-- `conn_active` of the snapshot; the other fields are the counters. -/
def connActive (m : Metrics) : UInt64 := m.connAccepted - m.connClosed
end Metrics

/-! ## Access log -/

/-- What `socks5_set_failure` is called with. -/
inductive FailureReason
  | invalidDestination
  | unsupportedCommand
  | unsupportedAddressType
  | dnsSubmitFailed
  | dnsResolutionFailed
  | invalidRequest
  | connectFailed
  | readError
  | writeError
  | blockError
  | idleTimeout
  | negotiationTimeout
  deriving DecidableEq, Repr

def FailureReason.text : FailureReason → Bytes
  | .invalidDestination => lit "invalid destination"
  | .unsupportedCommand => lit "unsupported command"
  | .unsupportedAddressType => lit "unsupported address type"
  | .dnsSubmitFailed => lit "dns submit failed"
  | .dnsResolutionFailed => lit "dns resolution failed"
  | .invalidRequest => lit "invalid request"
  | .connectFailed => lit "connect failed"
  | .readError => lit "read error"
  | .writeError => lit "write error"
  | .blockError => lit "block error"
  | .idleTimeout => lit "idle timeout"
  | .negotiationTimeout => lit "negotiation timeout"

/-- One record; `user` is `none` where the log prints `-`. -/
inductive LogRecord
  | opened (t : Int) (user : Option Bytes) (dest : Bytes) (port : UInt16)
  | closed (t : Int) (user : Option Bytes) (dest : Bytes) (port : UInt16) (c2o o2c : UInt64)
  | failed (t : Int) (user : Option Bytes) (dest : Bytes) (port : UInt16) (reason : Option FailureReason)
  deriving DecidableEq, Repr

abbrev AccessLog := List LogRecord

/-! ## Decimal and address text -/

def decimal (n : Nat) : Bytes := lit (toString n)

def decimalInt (n : Int) : Bytes := lit (toString n)

/-- `inet_ntop(AF_INET, ..)`: four decimal octets. -/
def inetNtop4 (a : Bytes) : Bytes :=
  [46].intercalate ((List.range 4).map fun i => decimal (a.getD i 0).toNat)

def hexDigits (n : Nat) : Bytes := (Nat.toDigits 16 n).map fun c => c.toNat.toUInt8

/-- The first longest run of at least two zero groups, as start and length. -/
def longestZeros (g : List Nat) : Nat × Nat :=
  let run (i : Nat) : Nat := ((g.drop i).takeWhile (· == 0)).length
  let best := (List.range g.length).foldl
    (fun (b : Nat × Nat) i => if b.2 < run i then (i, run i) else b) (0, 0)
  if best.2 < 2 then (g.length, 0) else best

/-- `inet_ntop(AF_INET6, ..)`: hexadecimal groups with the longest zero run as
`::`, and the last four bytes dotted for the embedded IPv4 forms. -/
def inetNtop6 (a : Bytes) : Bytes :=
  let g := (List.range 8).map fun i => (a.getD (2 * i) 0).toNat * 256 + (a.getD (2 * i + 1) 0).toNat
  let z := longestZeros g
  let mapped := z.1 = 0 ∧ (z.2 = 6 ∨ (z.2 = 5 ∧ g.getD 5 0 = 0xffff))
  let tail := if mapped then 6 else 8
  let part (lo hi : Nat) : List Bytes :=
    ((List.range hi).drop lo).map fun i => hexDigits (g.getD i 0)
  let groups (lo hi : Nat) : List Bytes :=
    if mapped ∧ hi = 8 then part lo tail ++ [inetNtop4 (a.drop 12)] else part lo hi
  if z.2 = 0 then [58].intercalate (groups 0 8)
  else [58].intercalate (groups 0 z.1) ++ [58, 58] ++ [58].intercalate (groups (z.1 + z.2) 8)

end Socks5d
