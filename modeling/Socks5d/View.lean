import Socks5d.Server
import Mathlib.Logic.Relation

/-! # A session without its machinery

What a session is about: a conversation with a client over a byte stream, and
later a relay between two streams. A `View` forgets cursors, descriptor tables
and everything of other sessions; a `Move` is one thing that can happen to it.
The handlers refine this machine, so a property of its runs holds of the code. -/
namespace Socks5d
open Lib.Incremental Lib.CString

structure View where
  st : Option SocksState
  client : ClientUnion
  orig : OrigUnion
  /-- Received, not yet consumed. -/
  rb : Bytes
  /-- Queued for the client. -/
  wb : Bytes
  clientFd : Fd
  originFd : Option Fd
  /-- The client's connection and what the selector watches it for. -/
  cl : Sock
  ci : Interest
  og : Sock
  oi : Interest
  /-- What the DNS worker left. -/
  found : List SockAddr
  user : Bytes
  dest : Option (Bytes × UInt16)
  lastActivity : Int
  /-- There is an access log, and it has the record of the tunnel. -/
  logging : Bool
  opened : Bool
  hist : List Obs

namespace View

def enter (st : SocksState) (t : Int) (v : View) : View :=
  { v with st := some st, hist := v.hist ++ [.entered st t] }

def note (o : Obs) (v : View) : View := { v with hist := v.hist ++ [o] }

/-- Everything queued has been sent. -/
def drained (v : View) : View := { v with wb := [], cl := { v.cl with tx := v.cl.tx ++ v.wb } }

/-- What the parsers have consumed when `rest` is left. -/
def consumed (v : View) (rest : Bytes) : Bytes := v.cl.rx.take (v.cl.rx.length - rest.length)

def replyBytes (reply : UInt8) : Bytes :=
  [socksVersion, reply, socksRsv, socksAtypIpv4, 0, 0, 0, 0, 0, 0]

/-- Queue the reply, wait for the client to take it, and go to REQUEST_WRITE. -/
def answer (reply : UInt8) (t : Int) (v : View) : View :=
  ({ v with
     client := .request { v.client.asRequest with reply := reply }
     wb := v.wb ++ replyBytes reply, ci := opWrite }.note (.replied reply)).enter .requestWrite t

/-- The condition under which an attempt to reach `a` is made, with `rest` the
addresses after it: the next one of the list, or the literal of the request. -/
def Attempting (v : View) (a : SockAddr) (rest : List SockAddr) : Prop :=
  v.st = some .connecting ∧ v.originFd = none ∧ v.ci = opNoop ∧
    (v.orig.asConn.current = a :: rest ∨
      v.orig.asConn.current = [] ∧ rest = [] ∧ (∃ t, v.hist.getLast? = some (.entered .connecting t))
        ∧ a = literalAddr v.client.asRequest.parser.request)

/-! ## The relay -/

def copyOf (v : View) : Dir → Copy
  | .c2o => v.client.asCopy
  | .o2c => v.orig.asCopy

def bufOf (v : View) : Dir → Bytes
  | .c2o => v.rb
  | .o2c => v.wb

def setCopy (d : Dir) (k : Copy) (v : View) : View :=
  match d with
  | .c2o => { v with client := .copy k }
  | .o2c => { v with orig := .copy k }

def setBuf (d : Dir) (b : Bytes) (v : View) : View :=
  match d with
  | .c2o => { v with rb := b }
  | .o2c => { v with wb := b }

/-- The connection a direction reads from, and the one it writes to. -/
def source (v : View) : Dir → Sock
  | .c2o => v.cl
  | .o2c => v.og

def sink (v : View) : Dir → Sock
  | .c2o => v.og
  | .o2c => v.cl

def setSource (d : Dir) (k : Sock) (v : View) : View :=
  match d with
  | .c2o => { v with cl := k }
  | .o2c => { v with og := k }

def setSink (d : Dir) (k : Sock) (v : View) : View :=
  match d with
  | .c2o => { v with og := k }
  | .o2c => { v with cl := k }

/-- What the relay watches its two ends for; `room` says whether the cursors
leave room at the end of the buffer that is read into. -/
def interest (d : Dir) (room : Bool) (v : View) : Interest :=
  match d with
  | .c2o => ⟨!(v.copyOf .c2o).eof && room, !(v.copyOf .o2c).writeClosed && v.wb ≠ []⟩
  | .o2c => ⟨!(v.copyOf .o2c).eof && room, !(v.copyOf .c2o).writeClosed && v.rb ≠ []⟩

/-- Watch both connections for what the relay can do next. -/
def synced (r₁ r₂ : Bool) (v : View) : View :=
  { v with ci := v.interest .c2o r₁, oi := v.interest .o2c r₂ }

end View

/-! ## Starts of the three reading states -/

def helloStart : HelloSt :=
  { parser := helloParserInit ⟨⟨false, false⟩, .version, 0⟩, method := helloNoAcceptableMethods }

def authStart (stale : Bytes) : AuthSt :=
  { parser := authParserInit ⟨.ver, 0, 0, 0, staleArray 256 stale, staleArray 256 stale⟩
    status := 0x01 }

def requestStart (stale : Bytes) : RequestSt :=
  { parser := requestParserInit ⟨⟨0, 0, staleArray destinationMaxLen stale, 0⟩, .version, 0, 0⟩
    reply := replyGeneralFailure }

/-- The parsers over a whole piece of input, from a parser without error. -/
def helloRun (p : HelloParser Offers) (bs : Bytes) : (HelloParser Offers × Bool) × Bytes :=
  feed (helloStep (some onHelloMethod)) helloStop (p, false) bs

def authRun (p : AuthParser) (bs : Bytes) : (AuthParser × Bool) × Bytes :=
  feed authStep authStop (p, false) bs

def requestRun (p : RequestParser) (bs : Bytes) : (RequestParser × Bool) × Bytes :=
  feed requestStep requestStop (p, false) bs

/-- The destination `socks5_store_destination` records. -/
def storedDestination (r : Socks5Request) : Option Bytes :=
  if r.type = socksAtypFqdn then some (r.fqdn.take (destinationMaxLen - 1))
  else if r.type = socksAtypIpv4 then some (inetNtop4 r.ipv4)
  else if r.type = socksAtypIpv6 then some (inetNtop6 r.ipv6)
  else none

/-! ## Moves -/

namespace View

/-- What is known when a parser of a reading state has looked at the buffer. -/
def readHello (p : HelloParser Offers) (rest : Bytes) (v : View) : View :=
  { v with client := .hello { v.client.asHello with parser := p }, rb := rest }

def readAuth (p : AuthParser) (rest : Bytes) (v : View) : View :=
  { v with client := .auth { v.client.asAuth with parser := p }, rb := rest }

def readRequest (p : RequestParser) (rest : Bytes) (v : View) : View :=
  { v with client := .request { v.client.asRequest with parser := p }, rb := rest }

def processHello (us : Option Users) (p : HelloParser Offers) (rest : Bytes) (v : View) : View :=
  { v with
    client := .hello ⟨p, helloMethod us p.data⟩, rb := rest
    wb := v.wb ++ [socksVersion, helloMethod us p.data], ci := opWrite }.note
      (.helloProcessed us (v.consumed rest) (helloMethod us p.data))

def authStatus (us : Option Users) (p : AuthParser) : UInt8 :=
  if credentialsAccepted us p.uname p.passwd then 0x00 else 0x01

def processAuth (us : Option Users) (p : AuthParser) (rest : Bytes) (v : View) : View :=
  { v with
    client := .auth ⟨p, authStatus us p⟩, rb := rest
    wb := v.wb ++ [authVersion, authStatus us p], ci := opWrite
    user := if credentialsAccepted us p.uname p.passwd then (cstr p.uname).take 255 else v.user }.note
      (.authProcessed us (v.consumed rest) (authStatus us p))

/-- `request_process` up to the point where it looks at the parser's verdict. -/
def processRequest (p : RequestParser) (rest : Bytes) (v : View) : View :=
  (v.readRequest p rest).note (.requestProcessed rest)

def storeDest (r : Socks5Request) (v : View) : View :=
  { v with dest := (storedDestination r).map fun d => (d, r.destPort) }

def toConnecting (addrs : List SockAddr) (t : Int) (v : View) : View :=
  { v with orig := .conn ⟨addrs, replyGeneralFailure⟩ }.enter .connecting t

def setReply (e : Errno) (addrs : List SockAddr) (v : View) : View :=
  { v with orig := .conn ⟨addrs, errnoToSocksReply e⟩ }

def sawOrigin (err : Option Errno) (v : View) : View :=
  v.note (.completed err v.og.reported (some v.og.conn))

def noOrigin (v : View) : View := { v with originFd := none, og := .none, oi := opNoop }

/-- The user the access log names. -/
def logUser (v : View) : Option Bytes := if v.user.headD 0 ≠ 0 then some v.user else none

/-- The record of `socks5_log_open`, if there is one to write. -/
def openRecord (t : Int) (v : View) : Option LogRecord :=
  if v.logging && !v.opened then v.dest.map fun d => .opened t v.logUser d.1 d.2 else none

def logOpen (t : Int) (v : View) : View :=
  { v with
    opened := v.opened || (v.openRecord t).isSome
    hist := v.hist ++ (v.openRecord t).toList.map .logged }

/-- `copy_init` -/
def startRelay (t : Int) (v : View) : View :=
  ({ v.enter .copy t with
    client := .copy ⟨some v.clientFd, v.originFd, false, false, 0⟩
    orig := .copy ⟨v.originFd, some v.clientFd, false, false, 0⟩
    ci := opRead }.note (.relayStart v.cl.rx.length v.cl.tx.length v.rb)).logOpen t

/-! The state and the history after each of these. -/

@[simp] theorem enter_st (st : SocksState) (t : Int) (v : View) : (v.enter st t).st = some st := rfl
@[simp] theorem enter_hist (st : SocksState) (t : Int) (v : View) :
    (v.enter st t).hist = v.hist ++ [.entered st t] := rfl
@[simp] theorem note_st (o : Obs) (v : View) : (v.note o).st = v.st := rfl
@[simp] theorem note_hist (o : Obs) (v : View) : (v.note o).hist = v.hist ++ [o] := rfl
@[simp] theorem drained_st (v : View) : v.drained.st = v.st := rfl
@[simp] theorem drained_hist (v : View) : v.drained.hist = v.hist := rfl
@[simp] theorem answer_st (r : UInt8) (t : Int) (v : View) :
    (v.answer r t).st = some .requestWrite := rfl
@[simp] theorem answer_hist (r : UInt8) (t : Int) (v : View) :
    (v.answer r t).hist = v.hist ++ [.replied r, .entered .requestWrite t] := by
  simp [answer]
@[simp] theorem readHello_st (p : HelloParser Offers) (rest : Bytes) (v : View) :
    (v.readHello p rest).st = v.st := rfl
@[simp] theorem readHello_hist (p : HelloParser Offers) (rest : Bytes) (v : View) :
    (v.readHello p rest).hist = v.hist := rfl
@[simp] theorem readAuth_st (p : AuthParser) (rest : Bytes) (v : View) :
    (v.readAuth p rest).st = v.st := rfl
@[simp] theorem readAuth_hist (p : AuthParser) (rest : Bytes) (v : View) :
    (v.readAuth p rest).hist = v.hist := rfl
@[simp] theorem readRequest_st (p : RequestParser) (rest : Bytes) (v : View) :
    (v.readRequest p rest).st = v.st := rfl
@[simp] theorem readRequest_hist (p : RequestParser) (rest : Bytes) (v : View) :
    (v.readRequest p rest).hist = v.hist := rfl
@[simp] theorem processHello_hist (us : Option Users) (p : HelloParser Offers) (rest : Bytes)
    (v : View) : (v.processHello us p rest).hist =
      v.hist ++ [.helloProcessed us (v.consumed rest) (helloMethod us p.data)] := rfl
@[simp] theorem processAuth_hist (us : Option Users) (p : AuthParser) (rest : Bytes) (v : View) :
    (v.processAuth us p rest).hist =
      v.hist ++ [.authProcessed us (v.consumed rest) (authStatus us p)] := rfl
@[simp] theorem processRequest_hist (p : RequestParser) (rest : Bytes) (v : View) :
    (v.processRequest p rest).hist = v.hist ++ [.requestProcessed rest] := rfl
@[simp] theorem storeDest_hist (r : Socks5Request) (v : View) : (v.storeDest r).hist = v.hist := rfl
@[simp] theorem toConnecting_st (addrs : List SockAddr) (t : Int) (v : View) :
    (v.toConnecting addrs t).st = some .connecting := rfl
@[simp] theorem toConnecting_hist (addrs : List SockAddr) (t : Int) (v : View) :
    (v.toConnecting addrs t).hist = v.hist ++ [.entered .connecting t] := rfl
@[simp] theorem setReply_st (e : Errno) (addrs : List SockAddr) (v : View) :
    (v.setReply e addrs).st = v.st := rfl
@[simp] theorem setReply_hist (e : Errno) (addrs : List SockAddr) (v : View) :
    (v.setReply e addrs).hist = v.hist := rfl
@[simp] theorem sawOrigin_st (err : Option Errno) (v : View) : (v.sawOrigin err).st = v.st := rfl
@[simp] theorem sawOrigin_hist (err : Option Errno) (v : View) : (v.sawOrigin err).hist =
    v.hist ++ [.completed err v.og.reported (some v.og.conn)] := rfl
@[simp] theorem noOrigin_st (v : View) : v.noOrigin.st = v.st := rfl
@[simp] theorem noOrigin_hist (v : View) : v.noOrigin.hist = v.hist := rfl
@[simp] theorem startRelay_st (t : Int) (v : View) : (v.startRelay t).st = some .copy := rfl
@[simp] theorem logOpen_st (t : Int) (v : View) : (v.logOpen t).st = v.st := rfl
@[simp] theorem startRelay_hist (t : Int) (v : View) : (v.startRelay t).hist =
    v.hist ++ [.entered .copy t, .relayStart v.cl.rx.length v.cl.tx.length v.rb] ++
      (v.openRecord t).toList.map .logged := by
  simp only [startRelay, logOpen, note_hist, enter_hist, List.append_assoc]
  rfl
@[simp] theorem setCopy_st (d : Dir) (k : Copy) (v : View) : (v.setCopy d k).st = v.st := by
  cases d <;> rfl
@[simp] theorem setCopy_hist (d : Dir) (k : Copy) (v : View) : (v.setCopy d k).hist = v.hist := by
  cases d <;> rfl
@[simp] theorem setBuf_st (d : Dir) (b : Bytes) (v : View) : (v.setBuf d b).st = v.st := by
  cases d <;> rfl
@[simp] theorem setBuf_hist (d : Dir) (b : Bytes) (v : View) : (v.setBuf d b).hist = v.hist := by
  cases d <;> rfl
@[simp] theorem setSource_st (d : Dir) (k : Sock) (v : View) : (v.setSource d k).st = v.st := by
  cases d <;> rfl
@[simp] theorem setSource_hist (d : Dir) (k : Sock) (v : View) :
    (v.setSource d k).hist = v.hist := by cases d <;> rfl
@[simp] theorem setSink_st (d : Dir) (k : Sock) (v : View) : (v.setSink d k).st = v.st := by
  cases d <;> rfl
@[simp] theorem setSink_hist (d : Dir) (k : Sock) (v : View) : (v.setSink d k).hist = v.hist := by
  cases d <;> rfl
@[simp] theorem synced_st (r₁ r₂ : Bool) (v : View) : (v.synced r₁ r₂).st = v.st := rfl
@[simp] theorem synced_hist (r₁ r₂ : Bool) (v : View) : (v.synced r₁ r₂).hist = v.hist := rfl

end View

open View in
/-- One thing that happens to a session. `t` is the clock, `us` the user store,
`stale` what uninitialised memory holds. In a `strict` world an origin is only
asked for its outcome after the kernel has reported it. -/
inductive Move (strict : Prop) : View → View → Prop
  | start {v : View} (t : Int) : v.st = none →
      Move strict v { v.enter .helloRead t with client := .hello helloStart }
  -- the streams of the negotiation
  | received {v : View} {st : SocksState} (bs : Bytes) : v.st = some st → st.isRead = true →
      v.rb = [] → bs ≠ [] → bs.length ≤ bufferSize →
      Move strict v { v with rb := bs, cl := { v.cl with rx := v.cl.rx ++ bs } }
  | recvLost {v : View} {st : SocksState} (t : Int) : v.st = some st → st.isRead = true →
      Move strict v ({ v with cl := { v.cl with lost := true } }.enter .error t)
  | sendLost {v : View} {st : SocksState} (t : Int) : v.st = some st → st.isWrite = true →
      Move strict v ({ v with cl := { v.cl with flawless := false, lost := true } }.enter .error t)
  | sent {v : View} {st : SocksState} (n : Nat) : v.st = some st → st.isWrite = true →
      n < v.wb.length →
      Move strict v { v with
        wb := v.wb.drop n, cl := { v.cl with tx := v.cl.tx ++ v.wb.take n, flawless := false } }
  -- HELLO
  | helloMore {v : View} (p : HelloParser Offers) : v.st = some .helloRead →
      helloRun v.client.asHello.parser v.rb = ((p, false), []) → helloIsDone p.state = false →
      Move strict v (v.readHello p [])
  | helloBad {v : View} (p : HelloParser Offers) (rest : Bytes) (t : Int) :
      v.st = some .helloRead → helloRun v.client.asHello.parser v.rb = ((p, true), rest) →
      Move strict v ((v.readHello p rest).enter .error t)
  | helloDone {v : View} (us : Option Users) (p : HelloParser Offers) (rest : Bytes) (t : Int) :
      v.st = some .helloRead → helloRun v.client.asHello.parser v.rb = ((p, false), rest) →
      p.state = .done → Move strict v ((v.processHello us p rest).enter .helloWrite t)
  | helloRefused {v : View} (t : Int) : v.st = some .helloWrite →
      v.client.asHello.method = helloNoAcceptableMethods → Move strict v (v.drained.enter .done t)
  | helloToAuth {v : View} (stale : Bytes) (t : Int) : v.st = some .helloWrite →
      v.client.asHello.method = helloUsernamePassword →
      Move strict v { v.drained.enter .authRead t with ci := opRead, client := .auth (authStart stale) }
  | helloToRequest {v : View} (stale : Bytes) (t : Int) : v.st = some .helloWrite →
      v.client.asHello.method ≠ helloNoAcceptableMethods →
      v.client.asHello.method ≠ helloUsernamePassword →
      Move strict v { v.drained.enter .requestRead t with
        ci := opRead, client := .request (requestStart stale) }
  -- AUTH
  | authMore {v : View} (p : AuthParser) : v.st = some .authRead →
      authRun v.client.asAuth.parser v.rb = ((p, false), []) → authIsDone p.state = false →
      Move strict v (v.readAuth p [])
  | authBad {v : View} (p : AuthParser) (rest : Bytes) (t : Int) :
      v.st = some .authRead → authRun v.client.asAuth.parser v.rb = ((p, true), rest) →
      Move strict v ((v.readAuth p rest).enter .error t)
  | authDone {v : View} (us : Option Users) (p : AuthParser) (rest : Bytes) (t : Int) :
      v.st = some .authRead → authRun v.client.asAuth.parser v.rb = ((p, false), rest) →
      p.state = .done → Move strict v ((v.processAuth us p rest).enter .authWrite t)
  | authRefused {v : View} (t : Int) : v.st = some .authWrite →
      v.client.asAuth.status ≠ 0x00 → Move strict v { v.drained.enter .done t with ci := opRead }
  | authToRequest {v : View} (stale : Bytes) (t : Int) : v.st = some .authWrite →
      v.client.asAuth.status = 0x00 →
      Move strict v { v.drained.enter .requestRead t with
        ci := opRead, client := .request (requestStart stale) }
  -- REQUEST
  | requestMore {v : View} (p : RequestParser) : v.st = some .requestRead →
      requestRun v.client.asRequest.parser v.rb = ((p, false), []) → requestIsDone p.state = false →
      Move strict v (v.readRequest p [])
  | requestBad {v : View} (p : RequestParser) (rest : Bytes) (t : Int) :
      v.st = some .requestRead → requestRun v.client.asRequest.parser v.rb = ((p, true), rest) →
      Move strict v ((v.readRequest p rest).enter .error t)
  | requestRefused {v : View} (p : RequestParser) (rest : Bytes) (reply : UInt8) (t : Int) :
      v.st = some .requestRead → requestRun v.client.asRequest.parser v.rb = ((p, false), rest) →
      (p.state = .errorUnsupportedCmd ∧ reply = replyCmdNotSupported ∨
        p.state = .errorUnsupportedAtyp ∧ reply = replyAtypNotSupported) →
      Move strict v ((v.processRequest p rest).answer reply t)
  | requestUnsubmitted {v : View} (p : RequestParser) (rest : Bytes) (t : Int) :
      v.st = some .requestRead → requestRun v.client.asRequest.parser v.rb = ((p, false), rest) →
      p.state = .done → p.request.type = socksAtypFqdn →
      Move strict v ((((v.processRequest p rest).storeDest p.request).note (.dnsSubmit none)).answer
        replyGeneralFailure t)
  | requestSubmitted {v : View} (p : RequestParser) (rest : Bytes) (k : Nat) (t : Int) :
      v.st = some .requestRead → requestRun v.client.asRequest.parser v.rb = ((p, false), rest) →
      p.state = .done → p.request.type = socksAtypFqdn →
      Move strict v ({ ((v.processRequest p rest).storeDest p.request).note (.dnsSubmit (some k)) with
        ci := opNoop }.enter .requestResolv t)
  | requestLiteral {v : View} (p : RequestParser) (rest : Bytes) (t : Int) :
      v.st = some .requestRead → requestRun v.client.asRequest.parser v.rb = ((p, false), rest) →
      p.state = .done → p.request.type ≠ socksAtypFqdn →
      Move strict v ({ (v.processRequest p rest).storeDest p.request with ci := opNoop }.toConnecting
        [] t)
  -- DNS
  | resolved {v : View} (found : List SockAddr) : v.st = some .requestResolv →
      Move strict v { v with found := found }
  | dnsFailed {v : View} (t : Int) : v.st = some .requestResolv → v.found = [] →
      Move strict v ((v.note (.dnsConsumed [])).answer replyHostUnreachable t)
  | dnsFound {v : View} (t : Int) : v.st = some .requestResolv → v.found ≠ [] →
      Move strict v ((v.note (.dnsConsumed v.found)).toConnecting v.found t)
  -- CONNECTING
  | attemptFailed {v : View} (a : SockAddr) (rest : List SockAddr) (e : Errno) :
      v.Attempting a rest → Move strict v ((v.setReply e rest).note (.attempted a (.failed e)))
  | attemptUnregistered {v : View} (a : SockAddr) (rest : List SockAddr) : v.Attempting a rest →
      Move strict v ({ v with orig := .conn ⟨rest, replyGeneralFailure⟩, ci := opWrite }.note
        (.attempted a .unregistered))
  | attemptOpened {v : View} (a : SockAddr) (rest : List SockAddr) (fd : Fd) (k : Sock) :
      v.Attempting a rest →
      (k = { conn := .inProgress } ∨ k = { conn := .established, reported := true }) →
      Move strict v ({ v with
        orig := .conn { v.orig.asConn with current := rest }
        originFd := some fd, og := k, oi := opWrite }.note (.attempted a .opened))
  | exhausted {v : View} (a : SockAddr) (e : Errno) : v.st = some .connecting →
      v.originFd = none → v.ci = opNoop → v.orig.asConn.current = [] →
      v.hist.getLast? = some (.attempted a (.failed e)) → Move strict v { v with ci := opWrite }
  | gaveUp {v : View} (t : Int) : v.st = some .connecting → v.originFd = none → v.ci = opWrite →
      Move strict v ((v.note .connectFailed).answer v.orig.asConn.reply t)
  | connected {v : View} (fd : Fd) (t : Int) : v.st = some .connecting → v.originFd = some fd →
      v.og.soError = none → (strict → v.og.reported = true) →
      Move strict v ({ v.sawOrigin none with oi := opNoop }.answer replySucceeded t)
  | originFailed {v : View} (fd : Fd) (e : Errno) : v.st = some .connecting →
      v.originFd = some fd → v.orig.asConn.current ≠ [] →
      Move strict v (((v.sawOrigin (some e)).setReply e v.orig.asConn.current).noOrigin)
  | originGaveUp {v : View} (fd : Fd) (e : Errno) (t : Int) : v.st = some .connecting →
      v.originFd = some fd → v.orig.asConn.current = [] →
      Move strict v (((((v.sawOrigin (some e)).setReply e []).noOrigin).note .connectFailed).answer
        (errnoToSocksReply e) t)
  | connectTimedOut {v : View} (t : Int) : v.st = some .connecting →
      Move strict v { ({ v with orig := .conn ⟨[], replyTtlExpired⟩ }.noOrigin).note
        (.timedOut .connect t) with ci := opWrite }
  -- REQUEST_WRITE
  | requestRefusalSent {v : View} (t : Int) : v.st = some .requestWrite →
      v.client.asRequest.reply ≠ replySucceeded → Move strict v (v.drained.enter .done t)
  | relayStarted {v : View} (t : Int) : v.st = some .requestWrite →
      v.client.asRequest.reply = replySucceeded → Move strict v (v.drained.startRelay t)
  -- COPY
  | relayReceived {v : View} (d : Dir) (bs : Bytes) (t : Int) : v.st = some .copy →
      (v.copyOf d).eof = false → bs ≠ [] → (v.bufOf d).length + bs.length ≤ bufferSize →
      Move strict v { ((v.setBuf d (v.bufOf d ++ bs)).setSource d
        { v.source d with rx := (v.source d).rx ++ bs }).note
          (.relayRecv d (some bs.length) t) with lastActivity := t }
  | relayEof {v : View} (d : Dir) (t : Int) : v.st = some .copy → (v.copyOf d).eof = false →
      Move strict v (((v.setCopy d { v.copyOf d with eof := true }).setSource d
        { v.source d with lost := true }).note (.relayRecv d (some 0) t))
  | relayUnread {v : View} (d : Dir) (lost : Bool) (t : Int) : v.st = some .copy →
      (v.copyOf d).eof = false →
      Move strict v ((v.setSource d { v.source d with lost := lost }).note (.relayRecv d none t))
  | relaySent {v : View} (d : Dir) (n : Nat) (flawless : Bool) : v.st = some .copy →
      v.bufOf d ≠ [] → n ≤ (v.bufOf d).length →
      Move strict v ((((v.setBuf d ((v.bufOf d).drop n)).setCopy d
        { v.copyOf d with transferred := (v.copyOf d).transferred + n.toUInt64 }).setSink d
        { v.sink d with tx := (v.sink d).tx ++ (v.bufOf d).take n, flawless := flawless }).note
          (.relaySend d (some n)))
  | relayUnsent {v : View} (d : Dir) (lost flawless : Bool) : v.st = some .copy →
      v.bufOf d ≠ [] →
      Move strict v ((v.setSink d { v.sink d with lost := lost, flawless := flawless }).note
        (.relaySend d none))
  | relayShut {v : View} (d : Dir) (shut : Bool) : v.st = some .copy →
      (v.copyOf d).eof = true → (v.copyOf d).writeClosed = false → v.bufOf d = [] →
      Move strict v (((v.setCopy d { v.copyOf d with writeClosed := true }).setSink d
        { v.sink d with shutWr := shut }).note (.relayShut d true))
  | relayUnshut {v : View} (d : Dir) (t : Int) : v.st = some .copy →
      (v.copyOf d).eof = true → (v.copyOf d).writeClosed = false → v.bufOf d = [] →
      Move strict v ((v.note (.relayShut d false)).enter .error t)
  | relaySynced {v : View} (r₁ r₂ : Bool) : v.st = some .copy → Move strict v (v.synced r₁ r₂)
  | relayDone {v : View} (t : Int) : v.st = some .copy →
      (v.copyOf .c2o).writeClosed = true → (v.copyOf .o2c).writeClosed = true →
      Move strict v (v.enter .done t)
  | relayBroken {v : View} (d : Dir) (t : Int) : v.st = some .copy →
      (v.copyOf d).writeClosed = false → Move strict v (v.enter .error t)
  -- the network
  | reported {v : View} (a b : Bool) : (b = true → v.og.conn ≠ .inProgress) →
      Move strict v { v with
        cl := { v.cl with reported := v.cl.reported || a }
        og := { v.og with reported := v.og.reported || b } }
  | settled {v : View} (conn : Conn) (err : Option Errno) : v.og.conn = .inProgress →
      conn ≠ .inProgress → Move strict v { v with og := { v.og with conn := conn, soError := err } }

abbrev Moves (strict : Prop) : View → View → Prop := Relation.ReflTransGen (Move strict)

end Socks5d
