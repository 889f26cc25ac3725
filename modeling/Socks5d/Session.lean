import Socks5d.Stm

/-! # A SOCKS session: its state and its negotiation

The first half of `socks5.c`: `struct socks5`, and the handlers of HELLO, AUTH
and REQUEST. The `rb` and `wb` pointers of the sub-states always point at the
session's own two buffers, so the buffers are named directly. -/
namespace Socks5d
open Buffer Lib.CString

def bufferSize : Nat := 4096
def destinationMaxLen : Nat := maxFqdnLen + 1

/-- `enum socks_v5state` -/
inductive SocksState
  | helloRead | helloWrite | authRead | authWrite | requestRead | requestResolv
  | connecting | requestWrite | copy | done | error
  deriving DecidableEq, Repr

/-- What `on_hello_method` sets in `struct hello_st`. -/
structure Offers where
  noAuthOffered : Bool
  userPassOffered : Bool
  deriving DecidableEq, Repr

structure HelloSt where
  parser : HelloParser Offers
  method : UInt8
  deriving DecidableEq, Repr

structure AuthSt where
  parser : AuthParser
  status : UInt8
  deriving DecidableEq, Repr

/-- `struct request_st`; its `request` is the one the parser fills. -/
structure RequestSt where
  parser : RequestParser
  reply : UInt8
  deriving DecidableEq, Repr

structure Copy where
  readFd : Option Fd
  writeFd : Option Fd
  eof : Bool
  writeClosed : Bool
  transferred : UInt64
  deriving DecidableEq, Repr

/-- `struct connecting`; `current` is the rest of the address list. -/
structure Connecting where
  current : List SockAddr
  reply : UInt8
  deriving DecidableEq, Repr

/-- The union `client`: the member that was written last. -/
inductive ClientUnion
  | hello (h : HelloSt)
  | auth (a : AuthSt)
  | request (r : RequestSt)
  | copy (c : Copy)
  deriving DecidableEq, Repr

inductive OrigUnion
  | conn (c : Connecting)
  | copy (c : Copy)
  deriving DecidableEq, Repr

/-- The zeroed member, which stands for a member read after another one was
written; the session invariant rules that out. -/
def HelloSt.zero : HelloSt := ⟨⟨⟨false, false⟩, .version, 0⟩, 0⟩
def AuthSt.zero : AuthSt := ⟨⟨.ver, 0, 0, 0, [], []⟩, 0⟩
def RequestSt.zero : RequestSt := ⟨⟨⟨0, 0, [], 0⟩, .version, 0, 0⟩, 0⟩
def Copy.zero : Copy := ⟨none, none, false, false, 0⟩
def Connecting.zero : Connecting := ⟨[], 0⟩

namespace ClientUnion
def asHello : ClientUnion → HelloSt | .hello h => h | _ => .zero
def asAuth : ClientUnion → AuthSt | .auth a => a | _ => .zero
def asRequest : ClientUnion → RequestSt | .request r => r | _ => .zero
def asCopy : ClientUnion → Copy | .copy c => c | _ => .zero
end ClientUnion

namespace OrigUnion
def asConn : OrigUnion → Connecting | .conn c => c | _ => .zero
def asCopy : OrigUnion → Copy | .copy c => c | _ => .zero
end OrigUnion

/-- What one attempt to reach an address came to: a system call failed, the
selector refused the socket, or the connect is under way. -/
inductive Attempt | failed (e : Errno) | unregistered | opened
  deriving DecidableEq, Repr

/-- The limits the sweep enforces; the idle one with the configured value. -/
inductive Limit | negotiation | connect | idle (seconds : Int)
  deriving DecidableEq, Repr

/-- The two directions of the relay: `client.copy` over the read buffer,
`orig.copy` over the write buffer. -/
inductive Dir | c2o | o2c
  deriving DecidableEq, Repr

/-- The history of a session: what its handlers did, oldest first. Proof-only;
no code reads it. -/
inductive Obs
  /-- The machine moved to a state. -/
  | entered (st : SocksState) (t : Int)
  /-- `hello_process`: the store it looked at, the bytes parsed so far, the choice. -/
  | helloProcessed (users : Option Users) (parsed : Bytes) (method : UInt8)
  /-- `auth_process`: the store it looked at, the bytes parsed so far, the status. -/
  | authProcessed (users : Option Users) (parsed : Bytes) (status : UInt8)
  /-- `request_process`: the bytes left in the read buffer. -/
  | requestProcessed (left : Bytes)
  /-- `request_marshall` -/
  | replied (reply : UInt8)
  /-- `dns_worker_submit`: how many jobs came before, or `none` when it failed. -/
  | dnsSubmit (ticket : Option Nat)
  | dnsConsumed (found : List SockAddr)
  | attempted (a : SockAddr) (r : Attempt)
  /-- `SO_ERROR` of the origin, with the condition the socket was in. -/
  | completed (err : Option Errno) (reported : Bool) (conn : Option Conn)
  /-- `copy_init`: the bytes received from and sent to the client so far, and
  the bytes left in the read buffer. -/
  | relayStart (got sent : Nat) (left : Bytes)
  /-- `recv` of `copy_read`: how much it delivered, or an error. -/
  | relayRecv (d : Dir) (got : Option Nat) (t : Int)
  /-- `send` of `copy_write`: how much it took, or an error. -/
  | relaySend (d : Dir) (took : Option Nat)
  /-- `shutdown` of `copy_shutdown_write`, and whether the direction counts as closed. -/
  | relayShut (d : Dir) (closed : Bool)
  /-- An attempt to reach the origin is given up, and counted. -/
  | connectFailed
  /-- A record of the access log. -/
  | logged (r : LogRecord)
  | timedOut (limit : Limit) (now : Int)
  /-- `socks5_destroy` gave the object back. -/
  | released
  deriving DecidableEq, Repr

structure Socks5 where
  clientFd : Fd
  /-- `none` is `-1`. -/
  originFd : Option Fd
  /-- `[]` is `NULL`. -/
  originResolution : List SockAddr
  readBuffer : Buffer
  writeBuffer : Buffer
  /-- `stm.current` -/
  stm : Option SocksState
  client : ClientUnion
  orig : OrigUnion
  references : Nat
  next : Option Ptr
  activePrev : Option Ptr
  activeNext : Option Ptr
  negotiationDeadline : Int
  connectDeadline : Int
  lastActivity : Int
  authenticatedUser : Bytes
  destination : Bytes
  destinationPort : UInt16
  destinationSet : Bool
  tunnelOpened : Bool
  logEmitted : Bool
  failureReason : Option FailureReason
  hist : List Obs
  deriving DecidableEq, Repr

abbrev SCtx := Ctx Socks5

namespace Ctx

def note (o : Obs) (c : SCtx) : SCtx := c.modify fun s => { s with hist := s.hist ++ [o] }

/-- The client's connection. -/
def clientSock (c : SCtx) : Option Sock := c.os.fds c.s.clientFd

/-- What the client has sent, and what it has been sent. -/
def clientRx (c : SCtx) : Bytes := (c.clientSock.map (·.rx)).getD []
def clientTx (c : SCtx) : Bytes := (c.clientSock.map (·.tx)).getD []

/-- The part of the client's stream that the parsers have consumed. -/
def parsed (c : SCtx) : Bytes :=
  c.clientRx.take (c.clientRx.length - c.s.readBuffer.unread.length)

def setClient (u : ClientUnion) (c : SCtx) : SCtx := c.modify fun s => { s with client := u }
def setReadBuffer (b : Buffer) (c : SCtx) : SCtx := c.modify fun s => { s with readBuffer := b }
def setWriteBuffer (b : Buffer) (c : SCtx) : SCtx := c.modify fun s => { s with writeBuffer := b }

end Ctx

open Ctx

def socks5LogUser (s : Socks5) : Option Bytes :=
  if s.authenticatedUser.headD 0 ≠ 0 then some s.authenticatedUser else none

def log (r : LogRecord) (c : SCtx) : SCtx :=
  { c with g := { c.g with accessLog := c.g.accessLog.map (· ++ [r]) } }.note (.logged r)

def socks5LogEvent (c : SCtx) : SCtx :=
  let s := c.s
  if c.g.accessLog.isNone || s.logEmitted || !s.destinationSet then c
  else
    let r :=
      if s.tunnelOpened then
        LogRecord.closed c.os.now (socks5LogUser s) s.destination s.destinationPort
          s.client.asCopy.transferred s.orig.asCopy.transferred
      else
        LogRecord.failed c.os.now (socks5LogUser s) s.destination s.destinationPort s.failureReason
    (log r c).modify fun s => { s with logEmitted := true }

def socks5LogOpen (c : SCtx) : SCtx :=
  let s := c.s
  if c.g.accessLog.isNone || !s.destinationSet || s.tunnelOpened then c
  else
    (log (.opened c.os.now (socks5LogUser s) s.destination s.destinationPort) c).modify
      fun s => { s with tunnelOpened := true }

def socks5SetFailure (reason : FailureReason) (c : SCtx) : SCtx :=
  c.modify fun s => { s with failureReason := s.failureReason.or (some reason) }

def socks5StoreDestination (r : Socks5Request) (c : SCtx) : SCtx × Bool :=
  let stored : Option Bytes :=
    if r.type = socksAtypFqdn then some (r.fqdn.take (destinationMaxLen - 1))
    else if r.type = socksAtypIpv4 then some (inetNtop4 r.ipv4)
    else if r.type = socksAtypIpv6 then some (inetNtop6 r.ipv6)
    else none
  match stored with
  | none => (socks5SetFailure .invalidDestination c, false)
  | some d =>
    (c.modify fun s =>
      { s with destination := d, destinationPort := r.destPort, destinationSet := true }, true)

/-! ## Reading and writing in the negotiation -/

inductive Fill | again | fail | ready
  deriving DecidableEq, Repr

/-- The head of `hello_read`, `auth_read` and `request_read`: receive, unless a
previous message left bytes behind. -/
def fillReadBuffer (fd : Fd) (c : SCtx) : SCtx × Fill :=
  if c.s.readBuffer.bufferCanRead then (c, .ready)
  else
    match c.recv fd c.s.readBuffer.bufferWritePtr with
    | (c, .error e) => (c, if e.again then .again else .fail)
    | (c, .ok []) => (c, .fail)
    | (c, .ok bs) =>
      (c.setReadBuffer ((c.s.readBuffer.store bs).bufferWriteAdv bs.length), .ready)

inductive Flush | fail | pending | drained
  deriving DecidableEq, Repr

/-- The head of `hello_write`, `auth_write` and `request_write`. -/
def flushWriteBuffer (fd : Fd) (c : SCtx) : SCtx × Flush :=
  match c.send fd c.s.writeBuffer.bufferReadPtr with
  | (c, .error e) => (c, if e.again then .pending else .fail)
  | (c, .ok n) =>
    let c := c.setWriteBuffer (c.s.writeBuffer.bufferReadAdv n)
    (c, if c.s.writeBuffer.bufferCanRead then .pending else .drained)

/-! ## HELLO -/

def onHelloMethod (o : Offers) (method : UInt8) : Offers :=
  if method = helloNoAuthenticationRequired then { o with noAuthOffered := true }
  else if method = helloUsernamePassword then { o with userPassOffered := true }
  else o

def helloReadInit (_ : Fd) (c : SCtx) : SCtx :=
  c.setClient (.hello
    { parser := helloParserInit ⟨⟨false, false⟩, .version, 0⟩, method := helloNoAcceptableMethods })

/-- `g_users != NULL && users_count(g_users) > 0` -/
def authRequired (users : Option Users) : Bool :=
  match users with
  | some u => u.usersCount > 0
  | none => false

def helloMethod (users : Option Users) (o : Offers) : UInt8 :=
  if authRequired users && o.userPassOffered then helloUsernamePassword
  else if !authRequired users && o.noAuthOffered then helloNoAuthenticationRequired
  else helloNoAcceptableMethods

def helloProcess (c : SCtx) : SCtx × SocksState :=
  let h := c.s.client.asHello
  let method := helloMethod c.g.users h.parser.data
  let c := c.note (.helloProcessed c.g.users c.parsed method)
  let c := c.setClient (.hello { h with method := method })
  match helloMarshall c.s.writeBuffer method with
  | none => (c, .error)
  | some wb => (c.setWriteBuffer wb, .helloWrite)

/-- `hello_read` once there is something to parse. -/
def helloParse (fd : Fd) (c : SCtx) : SCtx × SocksState :=
  let h := c.s.client.asHello
  let (rb, parser, error) := helloConsume (some onHelloMethod) c.s.readBuffer h.parser false
  let c := (c.setReadBuffer rb).setClient (.hello { h with parser := parser })
  if error then (c, .error)
  else if helloIsDone parser.state then
    match c.selectorSetInterest fd opWrite with
    | (c, .success) => helloProcess c
    | (c, _) => (c, .error)
  else (c, .helloRead)

def helloRead (fd : Fd) (c : SCtx) : SCtx × SocksState :=
  match fillReadBuffer fd c with
  | (c, .again) => (c, .helloRead)
  | (c, .fail) => (c, .error)
  | (c, .ready) => helloParse fd c

/-- `hello_write` once everything has been sent. -/
def helloSent (fd : Fd) (c : SCtx) : SCtx × SocksState :=
  let method := c.s.client.asHello.method
  if method = helloNoAcceptableMethods then (c, .done)
  else
    match c.selectorSetInterest fd opRead with
    | (c, .success) => (c, if method = helloUsernamePassword then .authRead else .requestRead)
    | (c, _) => (c, .error)

def helloWrite (fd : Fd) (c : SCtx) : SCtx × SocksState :=
  match flushWriteBuffer fd c with
  | (c, .fail) => (c, .error)
  | (c, .pending) => (c, .helloWrite)
  | (c, .drained) => helloSent fd c

/-! ## AUTH -/

/-- An array of `n` bytes that still holds what the union held before. -/
def staleArray (n : Nat) (stale : Bytes) : Bytes := (stale ++ List.replicate n 0).take n

def authReadInit (_ : Fd) (c : SCtx) : SCtx :=
  c.setClient (.auth
    { parser := authParserInit
        ⟨.ver, 0, 0, 0, staleArray 256 c.os.stale, staleArray 256 c.os.stale⟩
      status := 0x01 })

/-- `g_users == NULL || users_check(g_users, uname, passwd)` -/
def credentialsAccepted (users : Option Users) (uname passwd : Bytes) : Bool :=
  match users with
  | some u => u.usersCheck uname passwd
  | none => true

def authProcess (c : SCtx) : SCtx × SocksState :=
  let a := c.s.client.asAuth
  let ok := credentialsAccepted c.g.users a.parser.uname a.parser.passwd
  let status : UInt8 := if ok then 0x00 else 0x01
  let c := c.note (.authProcessed c.g.users c.parsed status)
  let c := c.setClient (.auth { a with status := status })
  let c :=
    if ok then c.modify fun s => { s with authenticatedUser := (cstr a.parser.uname).take 255 }
    else c.metrics Metrics.metricsAuthFail
  match authMarshall c.s.writeBuffer status with
  | none => (c, .error)
  | some wb => (c.setWriteBuffer wb, .authWrite)

/-- `auth_read` once there is something to parse. -/
def authParse (fd : Fd) (c : SCtx) : SCtx × SocksState :=
  let a := c.s.client.asAuth
  let (rb, parser, error) := authConsume c.s.readBuffer a.parser false
  let c := (c.setReadBuffer rb).setClient (.auth { a with parser := parser })
  if error then (c, .error)
  else if authIsDone parser.state then
    match c.selectorSetInterest fd opWrite with
    | (c, .success) => authProcess c
    | (c, _) => (c, .error)
  else (c, .authRead)

def authRead (fd : Fd) (c : SCtx) : SCtx × SocksState :=
  match fillReadBuffer fd c with
  | (c, .again) => (c, .authRead)
  | (c, .fail) => (c, .error)
  | (c, .ready) => authParse fd c

/-- `auth_write` once everything has been sent. -/
def authSent (fd : Fd) (c : SCtx) : SCtx × SocksState :=
  match c.selectorSetInterest fd opRead with
  | (c, .success) => (c, if c.s.client.asAuth.status = 0x00 then .requestRead else .done)
  | (c, _) => (c, .error)

def authWrite (fd : Fd) (c : SCtx) : SCtx × SocksState :=
  match flushWriteBuffer fd c with
  | (c, .fail) => (c, .error)
  | (c, .pending) => (c, .authWrite)
  | (c, .drained) => authSent fd c

/-! ## REQUEST -/

def requestReadInit (_ : Fd) (c : SCtx) : SCtx :=
  c.setClient (.request
    { parser := requestParserInit ⟨⟨0, 0, staleArray destinationMaxLen c.os.stale, 0⟩, .version, 0, 0⟩
      reply := replyGeneralFailure })

/-- Set the reply and marshal it. -/
def marshalReply (reply : UInt8) (c : SCtx) : SCtx × Bool :=
  let c := c.setClient (.request { c.s.client.asRequest with reply := reply })
  match requestMarshall c.s.writeBuffer reply with
  | none => (c, false)
  | some wb => ((c.setWriteBuffer wb).note (.replied reply), true)

/-- `request_marshall`, then interest in writing on the descriptor given. -/
def replyAndArm (reply : UInt8) (fd : Fd) (c : SCtx) : SCtx × SocksState :=
  match marshalReply reply c with
  | (c, false) => (c, .error)
  | (c, true) =>
    match c.selectorSetInterest fd opWrite with
    | (c, .success) => (c, .requestWrite)
    | (c, _) => (c, .error)

/-- `dns_worker_submit`; `false` when the job could not be allocated. -/
def dnsWorkerSubmit (w : DnsWorker) (fd : Fd) (host : Bytes) (port : UInt16) (c : SCtx) :
    SCtx × Bool :=
  match c.os.call with
  | (os, .error _) => ({ c with os := os }, false)
  | (os, .ok ()) =>
    let job : DnsJob :=
      { host := cstr (copyBounded maxFqdnLen host), port := decimal port.toNat, fd := fd
        target := c.self }
    ({ c with os := os, g := { c.g with dnsWorker := some (w.enqueue job) } },
      true)

/-- `g_dns_worker == NULL || dns_worker_submit(..) != 0` negated. -/
def submitted (fd : Fd) (r : Socks5Request) (c : SCtx) : SCtx × Bool :=
  match c.g.dnsWorker with
  | none => (c, false)
  | some w => dnsWorkerSubmit w fd r.fqdn r.destPort c

/-- The number of the job that was handed over last. -/
def Ctx.lastTicket (c : SCtx) : Option Nat := c.g.dnsWorker.map fun w => w.submitted.length - 1

def requestProcess (fd : Fd) (c : SCtx) : SCtx × SocksState :=
  let r := c.s.client.asRequest
  let c := c.note (.requestProcessed c.s.readBuffer.unread)
  if r.parser.state = .errorUnsupportedCmd ∨ r.parser.state = .errorUnsupportedAtyp then
    let cmd := r.parser.state = .errorUnsupportedCmd
    let c := socks5SetFailure (if cmd then .unsupportedCommand else .unsupportedAddressType) c
    replyAndArm (if cmd then replyCmdNotSupported else replyAtypNotSupported) fd c
  else
    match socks5StoreDestination r.parser.request c with
    | (c, false) => (c, .error)
    | (c, true) =>
      match c.selectorSetInterest fd opNoop with
      | (c, .success) =>
        if r.parser.request.type = socksAtypFqdn then
          match submitted fd r.parser.request c with
          | (c, false) =>
            replyAndArm replyGeneralFailure fd
              (socks5SetFailure .dnsSubmitFailed (c.note (.dnsSubmit none)))
          | (c, true) =>
            ((c.modify fun s => { s with references := s.references + 1 }).note
              (.dnsSubmit c.lastTicket), .requestResolv)
        else (c, .connecting)
      | (c, _) => (c, .error)

def requestResolvDone (fd : Fd) (c : SCtx) : SCtx × SocksState :=
  let c := (c.modify fun s => { s with references := s.references - 1 }).note
    (.dnsConsumed c.s.originResolution)
  if c.s.originResolution = [] then
    replyAndArm replyHostUnreachable fd (socks5SetFailure .dnsResolutionFailed c)
  else
    (c.modify fun s =>
      { s with orig := .conn { s.orig.asConn with current := s.originResolution } }, .connecting)

/-- `request_read` once there is something to parse. -/
def requestParse (fd : Fd) (c : SCtx) : SCtx × SocksState :=
  let r := c.s.client.asRequest
  let (rb, parser, error) := requestConsume c.s.readBuffer r.parser false
  let c := (c.setReadBuffer rb).setClient (.request { r with parser := parser })
  if error then (socks5SetFailure .invalidRequest c, .error)
  else if requestIsDone parser.state then requestProcess fd c
  else (c, .requestRead)

def requestRead (fd : Fd) (c : SCtx) : SCtx × SocksState :=
  match fillReadBuffer fd c with
  | (c, .again) => (c, .requestRead)
  | (c, .fail) => (c, .error)
  | (c, .ready) => requestParse fd c

/-- `request_write` once everything has been sent. -/
def requestSent (fd : Fd) (c : SCtx) : SCtx × SocksState :=
  if c.s.client.asRequest.reply = replySucceeded then
    match c.selectorSetInterest fd opRead with
    | (c, .success) => (c, .copy)
    | (c, _) => (c, .error)
  else (c, .done)

def requestWrite (fd : Fd) (c : SCtx) : SCtx × SocksState :=
  match flushWriteBuffer fd c with
  | (c, .fail) => (c, .error)
  | (c, .pending) => (c, .requestWrite)
  | (c, .drained) => requestSent fd c

end Socks5d
