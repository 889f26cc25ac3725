import Socks5d.Session

/-! # A SOCKS session: connecting to the origin, and the relay

The second half of the handlers of `socks5.c`: CONNECTING and COPY, then the
table of states, the pump, and what the selector calls. -/
namespace Socks5d
open Buffer Ctx

/-! ## CONNECTING -/

def setConn (f : Connecting → Connecting) (c : SCtx) : SCtx :=
  c.modify fun s => { s with orig := .conn (f s.orig.asConn) }

/-- `socket`, non-blocking mode, `connect`; the error is the `errno` left
behind. The address only reaches the kernel, so it is not needed here. -/
def connectingTryOne (c : SCtx) : SCtx × Except Errno Unit :=
  match c.os.socket with
  | (os, .error e) => ({ c with os := os }, .error e)
  | (os, .ok fd) =>
    match os.selectorFdSetNio with
    | (os, .error e) => ({ c with os := os.close fd }, .error e)
    | (os, .ok ()) =>
      let opened (os : OS) : SCtx :=
        { c with os := os }.modify fun s => { s with originFd := some fd }
      match os.connect fd with
      | (os, .error e) =>
        if e ≠ .EINPROGRESS then ({ c with os := os.close fd }, .error e) else (opened os, .ok ())
      | (os, .ok ()) => (opened os, .ok ())

def connectingRegisterOrigin (c : SCtx) : SCtx × Bool :=
  let drop (c : SCtx) : SCtx := c.modify fun s => { s with references := s.references - 1 }
  match c.s.originFd with
  | none => (drop c, false)
  | some fd =>
    match c.sel.selectorRegister fd .socks5 opWrite c.self with
    | (sel, .success) => ({ c with sel := sel }, true)
    | (sel, _) =>
      (((drop { c with sel := sel }).close fd).modify fun s => { s with originFd := none }, false)

/-- `connecting_try_one`, a reference for the origin, and its registration. -/
def connectingOpen (a : SockAddr) (c : SCtx) : SCtx × Except Errno Bool :=
  match connectingTryOne c with
  | (c, .error e) => (c.note (.attempted a (.failed e)), .error e)
  | (c, .ok ()) =>
    match connectingRegisterOrigin (c.modify fun s => { s with references := s.references + 1 }) with
    | (c, ok) => (c.note (.attempted a (if ok then .opened else .unregistered)), .ok ok)

/-- Wake the client's descriptor, so that `connecting_write` sends the error reply. -/
def connectFailed (c : SCtx) : SCtx :=
  let c := socks5SetFailure .connectFailed c
  (c.selectorSetInterest c.s.clientFd opWrite).1

/-- The loop of `connecting_try_addrinfo` over `orig.conn.current`. -/
def tryAddrinfo : List SockAddr → SCtx → SCtx
  | [], c => connectFailed c
  | ai :: rest, c =>
    match connectingOpen ai (setConn (fun cn => { cn with current := rest }) c) with
    | (c, .ok true) => c
    | (c, .ok false) => connectFailed (setConn (fun cn => { cn with reply := replyGeneralFailure }) c)
    | (c, .error e) => tryAddrinfo rest (setConn (fun cn => { cn with reply := errnoToSocksReply e }) c)

def connectingTryAddrinfo (c : SCtx) : SCtx := tryAddrinfo c.s.orig.asConn.current c

/-- The address of an IPv4 or IPv6 request. -/
def literalAddr (r : Socks5Request) : SockAddr :=
  if r.type = socksAtypIpv4 then ⟨.inet, r.ipv4, r.destPort⟩ else ⟨.inet6, r.ipv6, r.destPort⟩

def connectDeadlineFor (config : Option Config) (now : Int) : Int :=
  match config with
  | some cfg => if cfg.connectTimeout > 0 then now + cfg.connectTimeout else 0
  | none => 0

/-- `connecting_init` once the reply and the deadline are set. -/
def connectingStart (c : SCtx) : SCtx :=
  if c.s.orig.asConn.current ≠ [] then connectingTryAddrinfo c
  else
    match connectingOpen (literalAddr c.s.client.asRequest.parser.request) c with
    | (c, .ok true) => c
    | (c, .ok false) => connectFailed (setConn (fun cn => { cn with reply := replyGeneralFailure }) c)
    | (c, .error e) => connectFailed (setConn (fun cn => { cn with reply := errnoToSocksReply e }) c)

def connectingInit (_ : Fd) (c : SCtx) : SCtx :=
  let c := setConn (fun cn => { cn with reply := replyGeneralFailure }) c
  connectingStart
    (c.modify fun s => { s with connectDeadline := connectDeadlineFor c.g.config c.os.now })

def maxPool : Nat := 50

def socks5Destroy (c : SCtx) : SCtx :=
  if c.s.references = 1 then
    let c := c.note .released
    if c.g.poolSize < maxPool then
      { c with
        s := { c.s with originResolution := [], next := c.g.pool }
        g := { c.g with pool := some c.self, poolSize := c.g.poolSize + 1 } }
    else { c with os := c.os.free c.self }
  else c.modify fun s => { s with references := s.references - 1 }

/-- The close callback of an item, run for the session that unregisters it. The
callback of an item that belongs to another object cannot be followed from
here and counts as a death; the ownership invariant rules it out. -/
def socksClose (item : Item) (c : SCtx) : SCtx :=
  match item.handler with
  | .socks5 => if item.data = c.self then socks5Destroy c else c.die .badClose
  | .mng => c.die .badClose
  | .socksListener | .mngListener => c

/-- `selector_unregister_fd; close; origin_fd = -1`, if there is an origin. -/
def dropOrigin (c : SCtx) : SCtx :=
  match c.s.originFd with
  | none => c
  | some fd =>
    let c := (c.selectorUnregisterFd socksClose fd).1
    (c.close fd).modify fun s => { s with originFd := none }

/-- What `connecting_write` finds on the origin: `none` is a connection. -/
def originError (fd : Fd) (c : SCtx) : SCtx × Option Errno :=
  let sock := c.os.fds fd
  let r := c.os.getsockopt fd
  let err := match r.2 with
    | .error e => some e
    | .ok e => e
  let c : SCtx := { c with os := r.1 }
  (c.note (.completed err ((sock.map Sock.reported).getD false) (sock.map Sock.conn)), err)

/-- `connecting_write` on an origin that is connected. -/
def connectingDone (fd : Fd) (c : SCtx) : SCtx × SocksState :=
  match replyAndArm replySucceeded c.s.clientFd (c.metrics Metrics.metricsOriginOk) with
  | (c, .requestWrite) =>
    match c.selectorSetInterest fd opNoop with
    | (c, .success) => (c, .requestWrite)
    | (c, _) => (c, .error)
  | (c, _) => (c, .error)

/-- `connecting_write` on an origin that failed: the next address, or the reply. -/
def connectingRetry (e : Errno) (c : SCtx) : SCtx × SocksState :=
  let c := dropOrigin (setConn (fun cn => { cn with reply := errnoToSocksReply e }) c)
  if c.s.orig.asConn.current ≠ [] then (connectingTryAddrinfo c, .connecting)
  else
    let c := socks5SetFailure .connectFailed c
    let c := (c.metrics Metrics.metricsOriginFail).note .connectFailed
    replyAndArm c.s.orig.asConn.reply c.s.clientFd c

def connectingWrite (fd : Fd) (c : SCtx) : SCtx × SocksState :=
  if fd = c.s.clientFd then
    let c := socks5SetFailure .connectFailed c
    let c := (c.metrics Metrics.metricsOriginFail).note .connectFailed
    match marshalReply c.s.orig.asConn.reply c with
    | (c, true) => (c, .requestWrite)
    | (c, false) => (c, .error)
  else
    match originError fd c with
    | (c, none) => connectingDone fd c
    | (c, some e) => connectingRetry e c

def connectingTimeout (c : SCtx) : SCtx :=
  let c := setConn (fun _ => { current := [], reply := replyTtlExpired }) (dropOrigin c)
  let c := c.note (.timedOut .connect c.os.now)
  (c.selectorSetInterest c.s.clientFd opWrite).1

/-! ## COPY -/

namespace Socks5
def copyOf (s : Socks5) : Dir → Copy
  | .c2o => s.client.asCopy
  | .o2c => s.orig.asCopy
def setCopy (d : Dir) (k : Copy) (s : Socks5) : Socks5 :=
  match d with
  | .c2o => { s with client := .copy k }
  | .o2c => { s with orig := .copy k }
def bufOf (s : Socks5) : Dir → Buffer
  | .c2o => s.readBuffer
  | .o2c => s.writeBuffer
def setBuf (d : Dir) (b : Buffer) (s : Socks5) : Socks5 :=
  match d with
  | .c2o => { s with readBuffer := b }
  | .o2c => { s with writeBuffer := b }
end Socks5

def copyIsDone (s : Socks5) : Bool := (s.copyOf .c2o).writeClosed && (s.copyOf .o2c).writeClosed

/-- A call on a descriptor field that may hold `-1`. -/
def onFd {α : Type} (fd : Option Fd) (call : OS → Fd → OS × Except Errno α) (c : SCtx) :
    SCtx × Except Errno α :=
  match fd with
  | none => (c, .error .EINVAL)
  | some fd =>
    let r := call c.os fd
    ({ c with os := r.1 }, r.2)

/-- Whether there is nothing more to shut down after `shutdown`. -/
def shutCloses : Except Errno Unit → Bool
  | .ok () => true
  | .error e => e = .ENOTCONN ∨ e = .EPIPE

/-- The `shutdown` of `copy_shutdown_write`, which leaves its outcome in the history. -/
def shutDestination (d : Dir) (c : SCtx) : SCtx × Bool :=
  let r := onFd (c.s.copyOf d).writeFd OS.shutdown c
  (r.1.note (.relayShut d (shutCloses r.2)), shutCloses r.2)

/-- `copy_shutdown_write`; `false` is `-1`. -/
def copyShutdownWrite (d : Dir) (c : SCtx) : SCtx × Bool :=
  let k := c.s.copyOf d
  if k.eof && !(c.s.bufOf d).bufferCanRead && !k.writeClosed then
    match shutDestination d c with
    | (c, false) => (c, false)
    | (c, true) => (c.modify (Socks5.setCopy d { k with writeClosed := true }), true)
  else (c, true)

def copyClientInterest (s : Socks5) : Interest :=
  { read := !(s.copyOf .c2o).eof && (s.bufOf .c2o).bufferCanWrite
    write := !(s.copyOf .o2c).writeClosed && (s.bufOf .o2c).bufferCanRead }

def copyOriginInterest (s : Socks5) : Interest :=
  { read := !(s.copyOf .o2c).eof && (s.bufOf .o2c).bufferCanWrite
    write := !(s.copyOf .c2o).writeClosed && (s.bufOf .c2o).bufferCanRead }

/-- `copy_update_interests`; `false` is `-1`. -/
def copyUpdateInterests (c : SCtx) : SCtx × Bool :=
  match c.selectorSetInterest c.s.clientFd (copyClientInterest c.s) with
  | (c, .success) =>
    match c.s.originFd with
    | none => (c, false)
    | some fd =>
      match c.selectorSetInterest fd (copyOriginInterest c.s) with
      | (c, .success) => (c, true)
      | (c, _) => (c, false)
  | (c, _) => (c, false)

/-- `return copy_update_interests(key) == 0 ? COPY : ERROR;` -/
def copyStay (c : SCtx) : SCtx × SocksState :=
  match copyUpdateInterests c with
  | (c, true) => (c, .copy)
  | (c, false) => (c, .error)

/-- The common end of `copy_read` and `copy_write`. -/
def copyFinish (d : Dir) (c : SCtx) : SCtx × SocksState :=
  match copyShutdownWrite d c with
  | (c, false) => (c, .error)
  | (c, true) => if copyIsDone c.s then (c, .done) else copyStay c

def copyReadState (s : Socks5) (fd : Fd) : Option Dir :=
  if fd = s.clientFd then some .c2o else if some fd = s.originFd then some .o2c else none

def copyWriteState (s : Socks5) (fd : Fd) : Option Dir :=
  if fd = s.clientFd then some .o2c else if some fd = s.originFd then some .c2o else none

def copyInit (_ : Fd) (c : SCtx) : SCtx :=
  let c := c.note (.relayStart c.clientRx.length c.clientTx.length c.s.readBuffer.unread)
  let c := c.modify fun s =>
    { s with
      client := .copy ⟨some s.clientFd, s.originFd, false, false, 0⟩
      orig := .copy ⟨s.originFd, some s.clientFd, false, false, 0⟩ }
  (copyUpdateInterests (socks5LogOpen c)).1

/-- `copy_read` once there is room in the buffer. -/
def copyReceive (d : Dir) (c : SCtx) : SCtx × SocksState :=
  match onFd (c.s.copyOf d).readFd (fun os fd => os.recv fd (c.s.bufOf d).bufferWritePtr) c with
  | (c, .error e) =>
    let c := c.note (.relayRecv d none c.os.now)
    if e.again then copyStay c else (c, .error)
  | (c, .ok []) =>
    let c := c.note (.relayRecv d (some 0) c.os.now)
    copyFinish d (c.modify fun s => s.setCopy d { s.copyOf d with eof := true })
  | (c, .ok bs) =>
    let c := c.note (.relayRecv d (some bs.length) c.os.now)
    let c := c.modify fun s => s.setBuf d (((s.bufOf d).store bs).bufferWriteAdv bs.length)
    copyFinish d (c.modify fun s => { s with lastActivity := c.os.now })

def copyRead (fd : Fd) (c : SCtx) : SCtx × SocksState :=
  match copyReadState c.s fd with
  | none => (c, .error)
  | some d =>
    let c :=
      if !(c.s.bufOf d).bufferCanWrite then c.modify fun s => s.setBuf d (s.bufOf d).bufferCompact
      else c
    if !(c.s.bufOf d).bufferCanWrite then copyStay c else copyReceive d c

/-- `copy_write` once there is something to send. -/
def copySend (d : Dir) (c : SCtx) : SCtx × SocksState :=
  match onFd (c.s.copyOf d).writeFd (fun os fd => os.send fd (c.s.bufOf d).bufferReadPtr) c with
  | (c, .error e) =>
    let c := c.note (.relaySend d none)
    if e.again then copyStay c else (c, .error)
  | (c, .ok 0) => copyStay (c.note (.relaySend d (some 0)))
  | (c, .ok n) =>
    let c := c.note (.relaySend d (some n))
    let c := c.modify fun s => s.setBuf d ((s.bufOf d).bufferReadAdv n)
    let c := c.modify fun s =>
      s.setCopy d { s.copyOf d with transferred := (s.copyOf d).transferred + n.toUInt64 }
    let c := match d with
      | .c2o => c.metrics (Metrics.metricsAddBytesC2o n.toUInt64)
      | .o2c => c.metrics (Metrics.metricsAddBytesO2c n.toUInt64)
    copyFinish d c

def copyWrite (fd : Fd) (c : SCtx) : SCtx × SocksState :=
  match copyWriteState c.s fd with
  | none => (c, .error)
  | some d => if !(c.s.bufOf d).bufferCanRead then copyFinish d c else copySend d c

/-! ## The table of states and the selector's callbacks -/

def clientStatbl : SocksState → StateDefinition SCtx SocksState
  | .helloRead => { onArrival := some helloReadInit, onReadReady := some helloRead }
  | .helloWrite => { onWriteReady := some helloWrite }
  | .authRead => { onArrival := some authReadInit, onReadReady := some authRead }
  | .authWrite => { onWriteReady := some authWrite }
  | .requestRead => { onArrival := some requestReadInit, onReadReady := some requestRead }
  | .requestResolv => { onBlockReady := some requestResolvDone }
  | .connecting => { onArrival := some connectingInit, onWriteReady := some connectingWrite }
  | .requestWrite => { onWriteReady := some requestWrite }
  | .copy => { onArrival := some copyInit, onReadReady := some copyRead, onWriteReady := some copyWrite }
  | .done => {}
  | .error => {}

/-- `s->stm` -/
def sessionStm : StateMachine SCtx SocksState where
  initial := .helloRead
  states := clientStatbl
  current c := c.s.stm
  setCurrent st c := (c.modify fun s => { s with stm := some st }).note (.entered st c.os.now)
  abort c := c.die .abort

def SocksState.isRead : SocksState → Bool
  | .helloRead | .authRead | .requestRead => true
  | _ => false

def SocksState.isWrite : SocksState → Bool
  | .helloWrite | .authWrite | .requestWrite => true
  | _ => false

/-- The `while (1)` of `socksv5_pump`. A turn that does not end the loop moves
the machine forward, except for one last read, so `pumpFuel` turns are enough. -/
def pumpLoop (fd : Fd) : Nat → SCtx → SocksState → SCtx × SocksState
  | 0, c, st => (c.die .diverged, st)
  | n + 1, c, st =>
    if st.isRead && c.s.readBuffer.bufferCanRead then
      let r := sessionStm.stmHandlerRead fd c
      pumpLoop fd n r.1 r.2
    else if st.isWrite then
      let r := sessionStm.stmHandlerWrite c.s.clientFd c
      if r.2 = st then (r.1, st) else pumpLoop fd n r.1 r.2
    else (c, st)

def pumpFuel : Nat := 16

def socksv5Pump (fd : Fd) (c : SCtx) (st : SocksState) : SCtx × SocksState :=
  pumpLoop fd pumpFuel c st

/-- `if (st == ERROR) socks5_set_failure(.., reason);` -/
def noteFailure (reason : FailureReason) (r : SCtx × SocksState) : SCtx × SocksState :=
  (if r.2 = .error then socks5SetFailure reason r.1 else r.1, r.2)

/-- `socksv5_read` up to its call of `socksv5_done`, which a final state asks for. -/
def socksv5Read (fd : Fd) (c : SCtx) : SCtx × SocksState :=
  let r := sessionStm.stmHandlerRead fd c
  noteFailure .readError (socksv5Pump fd r.1 r.2)

def socksv5Write (fd : Fd) (c : SCtx) : SCtx × SocksState :=
  let r := sessionStm.stmHandlerWrite fd c
  noteFailure .writeError (socksv5Pump fd r.1 r.2)

def socksv5Block (fd : Fd) (c : SCtx) : SCtx × SocksState :=
  noteFailure .blockError (sessionStm.stmHandlerBlock fd c)

end Socks5d
