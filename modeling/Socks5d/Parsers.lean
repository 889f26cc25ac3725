import Socks5d.Buffer
import Socks5d.Lib.CString

/-! # The three message parsers

`hello.c`, `auth.c` and `request.c`: each is a byte-fed state machine driven by
the same loop over a buffer. A `step` function is the body of the loop's
`switch`; the second component of a machine state is the caller's `*error`. -/
namespace Socks5d
open Buffer

/-! ## Protocol constants (`socks5.h`, `auth.h`, `request.h`) -/

def socksVersion : UInt8 := 0x05
def socksRsv : UInt8 := 0x00
def helloNoAuthenticationRequired : UInt8 := 0x00
def helloUsernamePassword : UInt8 := 0x02
def helloNoAcceptableMethods : UInt8 := 0xFF
def socksCmdConnect : UInt8 := 0x01
def socksAtypIpv4 : UInt8 := 0x01
def socksAtypFqdn : UInt8 := 0x03
def socksAtypIpv6 : UInt8 := 0x04
def socksAtypIpv4Len : UInt8 := 4
def socksAtypIpv6Len : UInt8 := 16
def maxFqdnLen : Nat := 255
def authVersion : UInt8 := 0x01

def replySucceeded : UInt8 := 0x00
def replyGeneralFailure : UInt8 := 0x01
def replyNetUnreachable : UInt8 := 0x03
def replyHostUnreachable : UInt8 := 0x04
def replyConnRefused : UInt8 := 0x05
def replyTtlExpired : UInt8 := 0x06
def replyCmdNotSupported : UInt8 := 0x07
def replyAtypNotSupported : UInt8 := 0x08

/-- `x_marshall`: nothing is written unless the whole message fits. -/
def marshall (b : Buffer) (msg : Bytes) : Option Buffer :=
  if bufferWritePtr b < msg.length then none
  else some ((b.store msg).bufferWriteAdv msg.length)

/-! ## HELLO -/

inductive HelloState | version | nmethods | methods | done | error
  deriving DecidableEq, Repr

/-- `data` is what the `on_authentication_method` callback reaches through
`parser->data`. -/
structure HelloParser (δ : Type) where
  data : δ
  state : HelloState
  remaining : UInt8
  deriving DecidableEq, Repr

def helloParserInit {δ : Type} (p : HelloParser δ) : HelloParser δ :=
  { p with state := .version, remaining := 0 }

def helloStep {δ : Type} (onMethod : Option (δ → UInt8 → δ)) (s : HelloParser δ × Bool)
    (byte : UInt8) : HelloParser δ × Bool :=
  let (p, error) := s
  match p.state with
  | .version =>
    if byte ≠ socksVersion then ({ p with state := .error }, true)
    else ({ p with state := .nmethods }, error)
  | .nmethods =>
    if byte = 0 then ({ p with state := .error }, true)
    else ({ p with remaining := byte, state := .methods }, error)
  | .methods =>
    let p := match onMethod with
      | some f => { p with data := f p.data byte }
      | none => p
    let p := { p with remaining := p.remaining - 1 }
    if p.remaining = 0 then ({ p with state := .done }, error) else (p, error)
  | .done | .error => (p, error)

def helloStop {δ : Type} (s : HelloParser δ × Bool) : Bool :=
  s.1.state == .done || s.1.state == .error

def helloConsume {δ : Type} (onMethod : Option (δ → UInt8 → δ)) (b : Buffer)
    (p : HelloParser δ) (error : Bool) : Buffer × HelloParser δ × Bool :=
  consume (helloStep onMethod) helloStop b (p, error)

/-- `hello_is_done(state, NULL)`. -/
def helloIsDone : HelloState → Bool
  | .error | .done => true
  | _ => false

def helloMarshall (b : Buffer) (method : UInt8) : Option Buffer :=
  marshall b [socksVersion, method]

/-! ## AUTH -/

inductive AuthState | ver | ulen | uname | plen | passwd | done | error
  deriving DecidableEq, Repr

structure AuthParser where
  state : AuthState
  remaining : UInt8
  ulen : UInt8
  plen : UInt8
  /-- `char uname[256]` -/
  uname : Bytes
  /-- `char passwd[256]` -/
  passwd : Bytes
  deriving DecidableEq, Repr

def authParserInit (p : AuthParser) : AuthParser :=
  { p with state := .ver, remaining := 0, ulen := 0, plen := 0 }

def authStep (s : AuthParser × Bool) (byte : UInt8) : AuthParser × Bool :=
  let (p, error) := s
  match p.state with
  | .ver =>
    if byte ≠ authVersion then ({ p with state := .error }, true)
    else ({ p with state := .ulen }, error)
  | .ulen =>
    if byte = 0 then ({ p with state := .error }, true)
    else ({ p with ulen := byte, remaining := byte, state := .uname }, error)
  | .uname =>
    let p := { p with uname := p.uname.set (p.ulen.toNat - p.remaining.toNat) byte }
    let p := { p with remaining := p.remaining - 1 }
    if p.remaining = 0 then
      ({ p with uname := p.uname.set p.ulen.toNat 0, state := .plen }, error)
    else (p, error)
  | .plen =>
    if byte = 0 then ({ p with state := .error }, true)
    else ({ p with plen := byte, remaining := byte, state := .passwd }, error)
  | .passwd =>
    let p := { p with passwd := p.passwd.set (p.plen.toNat - p.remaining.toNat) byte }
    let p := { p with remaining := p.remaining - 1 }
    if p.remaining = 0 then
      ({ p with passwd := p.passwd.set p.plen.toNat 0, state := .done }, error)
    else (p, error)
  | .done | .error => (p, error)

def authStop (s : AuthParser × Bool) : Bool := s.1.state == .done || s.1.state == .error

def authConsume (b : Buffer) (p : AuthParser) (error : Bool) : Buffer × AuthParser × Bool :=
  consume authStep authStop b (p, error)

def authIsDone : AuthState → Bool
  | .error | .done => true
  | _ => false

def authMarshall (b : Buffer) (status : UInt8) : Option Buffer :=
  marshall b [authVersion, status]

/-! ## REQUEST -/

inductive RequestState
  | version | cmd | rsv | atyp | dstAddr | dstPort
  | done | error | errorUnsupportedAtyp | errorUnsupportedCmd
  deriving DecidableEq, Repr

/-- `struct socks5_request`. The union of `ipv4`, `ipv6` and `fqdn` is the 256
bytes the three share. -/
structure Socks5Request where
  cmd : UInt8
  type : UInt8
  addr : Bytes
  destPort : UInt16
  deriving DecidableEq, Repr

namespace Socks5Request
def ipv4 (r : Socks5Request) : Bytes := r.addr.take 4
def ipv6 (r : Socks5Request) : Bytes := r.addr.take 16
/-- `fqdn` read as the C string it holds. -/
def fqdn (r : Socks5Request) : Bytes := Lib.CString.cstr r.addr
end Socks5Request

structure RequestParser where
  request : Socks5Request
  state : RequestState
  remaining : UInt8
  read : UInt8
  deriving DecidableEq, Repr

def requestParserInit (p : RequestParser) : RequestParser :=
  { p with state := .version, remaining := 0, read := 0 }

namespace RequestParser
/-- `addr[p->read++] = byte`. -/
def putAddr (p : RequestParser) (byte : UInt8) : RequestParser :=
  { p with
    request := { p.request with addr := p.request.addr.set p.read.toNat byte }
    read := p.read + 1 }

/-- `if (--p->remaining == 0)`: on to the port. -/
def countDown (p : RequestParser) : RequestParser :=
  let p := { p with remaining := p.remaining - 1 }
  if p.remaining = 0 then { p with state := .dstPort, read := 0 } else p
end RequestParser

def requestStep (s : RequestParser × Bool) (byte : UInt8) : RequestParser × Bool :=
  let (p, error) := s
  match p.state with
  | .version =>
    if byte ≠ socksVersion then ({ p with state := .error }, true)
    else ({ p with state := .cmd }, error)
  | .cmd =>
    let p := { p with request := { p.request with cmd := byte } }
    if byte ≠ socksCmdConnect then ({ p with state := .errorUnsupportedCmd }, error)
    else ({ p with state := .rsv }, error)
  | .rsv => ({ p with state := .atyp }, error)
  | .atyp =>
    let p := { p with request := { p.request with type := byte }, read := 0 }
    if byte = socksAtypIpv4 then
      ({ p with remaining := socksAtypIpv4Len, state := .dstAddr }, error)
    else if byte = socksAtypIpv6 then
      ({ p with remaining := socksAtypIpv6Len, state := .dstAddr }, error)
    else if byte = socksAtypFqdn then ({ p with remaining := 0, state := .dstAddr }, error)
    else ({ p with state := .errorUnsupportedAtyp }, error)
  | .dstAddr =>
    if p.request.type = socksAtypFqdn ∧ p.remaining = 0 then
      if byte = 0 then ({ p with state := .error }, true)
      else ({ p with remaining := byte, read := 0 }, error)
    else if p.request.type = socksAtypIpv4 then ((p.putAddr byte).countDown, error)
    else if p.request.type = socksAtypIpv6 then ((p.putAddr byte).countDown, error)
    else if p.read.toNat ≥ maxFqdnLen then ({ p with state := .error }, true)
    else
      let p := p.putAddr byte
      let p := if p.remaining - 1 = 0 then
          { p with request := { p.request with addr := p.request.addr.set p.read.toNat 0 } }
        else p
      (p.countDown, error)
  | .dstPort =>
    if p.read = 0 then
      ({ p with
         request := { p.request with destPort := byte.toUInt16 <<< 8 }, read := p.read + 1 }, error)
    else
      ({ p with
         request := { p.request with destPort := p.request.destPort ||| byte.toUInt16 }
         state := .done, read := 0 }, error)
  | .done | .error | .errorUnsupportedAtyp | .errorUnsupportedCmd => (p, error)

def requestIsDone : RequestState → Bool
  | .done | .error | .errorUnsupportedAtyp | .errorUnsupportedCmd => true
  | _ => false

def requestStop (s : RequestParser × Bool) : Bool := requestIsDone s.1.state

def requestConsume (b : Buffer) (p : RequestParser) (error : Bool) :
    Buffer × RequestParser × Bool :=
  consume requestStep requestStop b (p, error)

def requestMarshall (b : Buffer) (reply : UInt8) : Option Buffer :=
  marshall b [socksVersion, reply, socksRsv, socksAtypIpv4, 0, 0, 0, 0, 0, 0]

end Socks5d
