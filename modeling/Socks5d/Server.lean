import Socks5d.Tunnel
import Socks5d.Mng

/-! # The server

The process as a whole: `main.c`, the selector's rounds, and the parts of
`socks5.c` and `mng.c` that open, close and sweep sessions. One `step` is what
happens between two points where the event loop can be observed; the DNS
worker, signals, the clock and the network move in between. -/
namespace Socks5d
open Buffer

/-- Where the main loop stands. -/
inductive Phase
  /-- Before the signal checks. -/
  | top
  /-- Before `pselect`. -/
  | select
  /-- In `handle_iteration`, at index `i` of `0 .. n`. -/
  | walk (i n : Nat)
  /-- In `handle_block_notifications`. -/
  | notify
  /-- Before `socksv5_check_timeouts`. -/
  | sweep
  | exited
  deriving DecidableEq, Repr

/-- A finished session: its memory after `socksv5_done`, and its connections as
they were when they were closed. -/
structure Ended where
  s : Socks5
  client : Option Sock
  origin : Option Sock
  deriving DecidableEq, Repr

structure World where
  mem : Ptr → Socks5
  mngMem : Ptr → MngSession
  os : OS
  sel : Selector
  g : Globals
  phase : Phase
  socksFd : Option Fd
  mngFd : Option Fd
  signalCount : Nat
  draining : Bool
  /-- Finished sessions, oldest first. Proof-only, as is `mngEnded`. -/
  ended : List Ended
  mngEnded : List MngSession

namespace World

def ctx (w : World) (p : Ptr) : SCtx := ⟨p, w.mem p, w.os, w.sel, w.g⟩

def put (w : World) (c : SCtx) : World :=
  { w with mem := Function.update w.mem c.self c.s, os := c.os, sel := c.sel, g := c.g }

def mngCtx (w : World) (m : Ptr) : MCtx := ⟨m, w.mngMem m, w.os, w.sel, w.g⟩

def mngPut (w : World) (c : MCtx) : World :=
  { w with mngMem := Function.update w.mngMem c.self c.s, os := c.os, sel := c.sel, g := c.g }

def modifyMem (w : World) (p : Ptr) (f : Socks5 → Socks5) : World :=
  { w with mem := Function.update w.mem p (f (w.mem p)) }

def die (w : World) (d : Death) : World := { w with os := w.os.die d }

def metrics (w : World) (f : Metrics → Metrics) : World :=
  { w with g := { w.g with metrics := w.g.metrics.map f } }

def close (w : World) (fd : Fd) : World := { w with os := w.os.close fd }

/-! ## Ending a session -/

/-- Take a session off the active list. -/
def unlink (w : World) (p : Ptr) : World :=
  let s := w.mem p
  let w := match s.activePrev with
    | some q => w.modifyMem q fun t => { t with activeNext := s.activeNext }
    | none => { w with g := { w.g with activeHead := s.activeNext } }
  let w := match s.activeNext with
    | some q => w.modifyMem q fun t => { t with activePrev := s.activePrev }
    | none => w
  w.modifyMem p fun t => { t with activePrev := none, activeNext := none }

/-- One turn of the last loop of `socksv5_done`. -/
def closeFd (w : World) (p : Ptr) (fd : Fd) : World :=
  match (w.ctx p).selectorUnregisterFd socksClose fd with
  | (c, .success) => (w.put c).close fd
  | (c, _) => ((w.put c).die .abort).close fd

def socksv5Done (w : World) (p : Ptr) : World :=
  let w := w.put (socks5LogEvent (w.ctx p))
  let s := w.mem p
  let client := w.os.fds s.clientFd
  let origin := s.originFd.bind w.os.fds
  let w := w.unlink p
  let w := { w with g := { w.g with activeSessions := w.g.activeSessions - 1 } }
  let w := w.metrics Metrics.metricsConnClosed
  let w := w.closeFd p s.clientFd
  let w := match s.originFd with
    | some fd => w.closeFd p fd
    | none => w
  { w with ended := w.ended ++ [⟨w.mem p, client, origin⟩] }

/-! ## Callbacks -/

/-- An `assert` of the buffer code that failed in a handler ends the process. -/
def checkAsserts (c : SCtx) : SCtx :=
  if c.s.readBuffer.asserted && c.s.writeBuffer.asserted then c else c.die .assertion

/-- `socksv5_read`, `socksv5_write` or `socksv5_block` of a session. -/
def runSocks (w : World) (p : Ptr) (callback : SCtx → SCtx × SocksState) : World :=
  let r := callback (w.ctx p)
  let w := w.put (checkAsserts r.1)
  if r.2 = .error ∨ r.2 = .done then w.socksv5Done p else w

/-- `mng_read` or `mng_write` of a session. -/
def runMng (w : World) (m : Ptr) (callback : MCtx → MCtx) : World :=
  let c := callback (w.mngCtx m)
  let w := w.mngPut c
  if c.s.closedWith.isSome then { w with mngEnded := w.mngEnded ++ [c.s] } else w

/-! ## Accepting -/

def freshSocks5 (clientFd : Fd) (now : Int) (config : Option Config) : Socks5 where
  clientFd := clientFd
  originFd := none
  originResolution := []
  readBuffer := bufferInit bufferSize (List.replicate bufferSize 0)
  writeBuffer := bufferInit bufferSize (List.replicate bufferSize 0)
  stm := none
  client := .hello .zero
  orig := .conn .zero
  references := 1
  next := none
  activePrev := none
  activeNext := none
  negotiationDeadline := match config with
    | some cfg => if cfg.negotiationTimeout > 0 then now + cfg.negotiationTimeout else 0
    | none => 0
  connectDeadline := 0
  lastActivity := now
  authenticatedUser := []
  destination := []
  destinationPort := 0
  destinationSet := false
  tunnelOpened := false
  logEmitted := false
  failureReason := none
  hist := []

/-- `socks5_new` -/
def socks5New (w : World) (clientFd : Fd) : World × Option Ptr :=
  match w.g.pool with
  | some p =>
    let w := { w with g := { w.g with pool := (w.mem p).next, poolSize := w.g.poolSize - 1 } }
    (w.modifyMem p fun _ => freshSocks5 clientFd w.os.now w.g.config, some p)
  | none =>
    match w.os.malloc with
    | (os, none) => ({ w with os := os }, none)
    | (os, some p) =>
      ({ w with os := os }.modifyMem p fun _ => freshSocks5 clientFd w.os.now w.g.config, some p)

def activeListAdd (w : World) (p : Ptr) : World :=
  let w := w.modifyMem p fun s => { s with activePrev := none, activeNext := w.g.activeHead }
  let w := match w.g.activeHead with
    | some q => w.modifyMem q fun s => { s with activePrev := some p }
    | none => w
  { w with g := { w.g with activeHead := some p } }

/-- `g_config != NULL && g_config->max_connections > 0
    && g_active_sessions >= (unsigned)g_config->max_connections` -/
def connectionsFull (w : World) : Bool :=
  match w.g.config with
  | some cfg => cfg.maxConnections > 0 && cfg.maxConnections ≤ w.g.activeSessions
  | none => false

def socksv5PassiveAccept (w : World) : World :=
  match w.os.accept with
  | (os, .error _) => { w with os := os }.metrics Metrics.metricsConnRejected
  | (os, .ok client) =>
    let rejected (w : World) : World := (w.close client).metrics Metrics.metricsConnRejected
    match os.selectorFdSetNio with
    | (os, .error _) => rejected { w with os := os }
    | (os, .ok ()) =>
      let w := { w with os := os }
      if w.connectionsFull then rejected w
      else
        match w.socks5New client with
        | (w, none) => rejected w
        | (w, some p) =>
          match w.sel.selectorRegister client .socks5 opRead p with
          | (sel, .success) =>
            let w := { w with sel := sel, g := { w.g with activeSessions := w.g.activeSessions + 1 } }
            (w.activeListAdd p).metrics Metrics.metricsConnAccepted
          | (sel, _) =>
            let w := rejected { w with sel := sel }
            w.put (socks5Destroy (w.ctx p))

def mngPassiveAccept (w : World) : World :=
  match w.os.accept with
  | (os, .error _) => { w with os := os }
  | (os, .ok client) =>
    match os.selectorFdSetNio with
    | (os, .error _) => { w with os := os }.close client
    | (os, .ok ()) =>
      match os.malloc with
      | (os, none) => { w with os := os }.close client
      | (os, some m) =>
        let w := { w with
          os := os
          mngMem := Function.update w.mngMem m { MngSession.zero with fd := client } }
        match w.sel.selectorRegister client .mng opRead m with
        | (sel, .success) =>
          let g := { w.g with mngActiveSessions := w.g.mngActiveSessions + 1 }
          { w with sel := sel, g := g }.metrics Metrics.metricsAdminSessionOpen
        | (sel, _) => { w with sel := sel, os := w.os.free m }.close client

/-! ## The sweep -/

def timeOut (w : World) (p : Ptr) (limit : Limit) (reason : FailureReason) : World :=
  (w.put (socks5SetFailure reason ((w.ctx p).note (.timedOut limit w.os.now)))).socksv5Done p

/-- The body of the loop of `socksv5_check_timeouts`. -/
def sweepOne (w : World) (p : Ptr) : World :=
  let s := w.mem p
  let now := w.os.now
  match s.stm.getD .helloRead with
  | .connecting =>
    if s.connectDeadline ≠ 0 ∧ now ≥ s.connectDeadline then w.put (connectingTimeout (w.ctx p))
    else w
  | .copy =>
    match w.g.config with
    | some cfg =>
      if cfg.idleTimeout > 0 ∧ now - s.lastActivity ≥ cfg.idleTimeout then
        w.timeOut p (.idle cfg.idleTimeout) .idleTimeout
      else w
    | none => w
  | .done | .error | .requestResolv => w
  | .helloRead | .helloWrite | .authRead | .authWrite | .requestRead | .requestWrite =>
    if s.negotiationDeadline ≠ 0 ∧ now ≥ s.negotiationDeadline then
      w.timeOut p .negotiation .negotiationTimeout
    else w

/-- The loop itself. The list holds `active_sessions` objects, which bounds its turns. -/
def sweepFrom : Nat → Option Ptr → World → World
  | _, none, w => w
  | 0, some _, w => w.die .diverged
  | n + 1, some p, w => sweepFrom n (w.mem p).activeNext (w.sweepOne p)

def socksv5CheckTimeouts (w : World) : World := sweepFrom w.g.activeSessions w.g.activeHead w

/-! ## A round of the selector -/

def handleRead (w : World) (item : Item) (fd : Fd) : World :=
  match item.handler with
  | .socksListener => w.socksv5PassiveAccept
  | .mngListener => w.mngPassiveAccept
  | .socks5 => w.runSocks item.data (socksv5Read fd)
  | .mng => w.runMng item.data (Mng.mngRead fd)

def handleWrite (w : World) (item : Item) (fd : Fd) : World :=
  match item.handler with
  | .socksListener | .mngListener => w.die .assertion
  | .socks5 => w.runSocks item.data (socksv5Write fd)
  | .mng => w.runMng item.data (Mng.mngWrite fd)

def handleBlock (w : World) (item : Item) (fd : Fd) : World :=
  match item.handler with
  | .socks5 => w.runSocks item.data (socksv5Block fd)
  | .socksListener | .mngListener | .mng => w.die .nullCall

/-- The body of `handle_iteration`. The key keeps the item's `data` from before
the read handler ran. -/
def dispatch (w : World) (i : Fd) : World :=
  match w.sel.fds i with
  | none => w
  | some item =>
    let w := if w.sel.slaveR i && item.interest.read then w.handleRead item i else w
    match w.sel.fds i with
    | none => w
    | some now =>
      if w.sel.slaveW i && now.interest.write then w.handleWrite { now with data := item.data } i
      else w

/-- A descriptor in a master set that is not open: `pselect` fails with `EBADF`. -/
def badDescriptor (w : World) : Bool :=
  (List.range (w.sel.maxFd + 1)).any fun fd =>
    (w.sel.masterR fd || w.sel.masterW fd) && (w.os.fds fd).isNone

/-- `pselect`: `rd` and `wr` are what the network is ready for. A socket whose
connect is under way is not writable. -/
def pselect (w : World) (rd wr : Fd → Bool) : World :=
  let writable (fd : Fd) : Bool := ((w.os.fds fd).map fun s => s.conn != .inProgress).getD false
  let slaveR (fd : Fd) : Bool := fd ≤ w.sel.maxFd && w.sel.masterR fd && rd fd
  let slaveW (fd : Fd) : Bool := fd ≤ w.sel.maxFd && w.sel.masterW fd && wr fd && writable fd
  { w with
    sel := { w.sel with slaveR := slaveR, slaveW := slaveW }
    os := { w.os with
      fds := fun fd =>
        (w.os.fds fd).map fun s => { s with reported := s.reported || slaveW fd } } }

/-- One turn of the loop of `handle_block_notifications`. -/
def handleBlockNotification (w : World) (fd : Fd) (rest : List Fd) : World :=
  let w := { w with sel := { w.sel with resolutionJobs := rest } }
  match w.sel.fds fd with
  | some item => w.handleBlock item fd
  | none => w

/-! ## The main loop -/

def unregisterListener (w : World) (fd : Option Fd) : World :=
  match fd with
  | none => w
  | some fd =>
    let w := if invalidFd fd || (w.sel.fds fd).isNone then w
      else { w with sel := w.sel.dropItem fd }
    w.close fd

/-- The signal checks at the top of the main loop. -/
def loopTop (w : World) : World :=
  if w.signalCount > 1 then { w with phase := .exited }
  else
    let w :=
      if w.signalCount = 1 ∧ w.draining = false then
        let w := (w.unregisterListener w.socksFd).unregisterListener w.mngFd
        { w with socksFd := none, mngFd := none, draining := true }
      else w
    if w.draining ∧ w.g.activeSessions = 0 ∧ w.g.mngActiveSessions = 0 then
      { w with phase := .exited }
    else { w with phase := .select }

/-! ## The DNS worker -/

def dnsTake (w : World) : World :=
  match w.g.dnsWorker with
  | some ⟨job :: queue, none, submitted, resolved⟩ =>
    { w with g := { w.g with dnsWorker := some ⟨queue, some (job, false), submitted, resolved⟩ } }
  | _ => w

/-- `getaddrinfo`, and its result stored in the session. -/
def dnsResolve (w : World) (found : List SockAddr) : World :=
  match w.g.dnsWorker with
  | some ⟨queue, some (job, false), submitted, resolved⟩ =>
    let worker : DnsWorker := ⟨queue, some (job, true), submitted, resolved ++ [(job, found)]⟩
    { w with g := { w.g with dnsWorker := some worker } }.modifyMem job.target
      fun s => { s with originResolution := found }
  | _ => w

/-- `selector_notify_block`, which can fail to allocate its job. -/
def dnsNotify (w : World) (allocated : Bool) : World :=
  match w.g.dnsWorker with
  | some ⟨queue, some (job, true), submitted, resolved⟩ =>
    let jobs := if allocated then job.fd :: w.sel.resolutionJobs else w.sel.resolutionJobs
    { w with
      g := { w.g with dnsWorker := some ⟨queue, none, submitted, resolved⟩ }
      sel := { w.sel with resolutionJobs := jobs } }
  | _ => w

end World

/-! ## Runs -/

/-- What happens next. `loop` is the next move of the main thread; its
`pselect`, if that is what is due, finds `ready`. -/
inductive Event
  | signal
  | clock (t : Int)
  /-- A connect that was under way is over. -/
  | connected (fd : Fd) (err : Option Errno)
  | dnsTake
  | dnsResolve (found : List SockAddr)
  | dnsNotify (allocated : Bool)
  | loop (rd wr : Fd → Bool)
  /-- `pselect` is interrupted by a signal. -/
  | interrupted
  /-- `pselect` fails. -/
  | failed

/-- An event with the answers the environment gives during it. -/
structure Input where
  event : Event
  answers : Nat → Answer := fun _ => {}
  sendAnswers : Nat → Answer := fun _ => {}
  stale : Bytes := []

namespace World

def load (w : World) (i : Input) : World :=
  { w with
    os := { w.os with
      answers := i.answers, calls := 0, sendAnswers := i.sendAnswers, sends := 0
      stale := i.stale } }

/-- The next move of the main thread. -/
def loop (w : World) (rd wr : Fd → Bool) : World :=
  match w.phase with
  | .top => w.loopTop
  | .select =>
    if w.badDescriptor then { w with phase := .exited }
    else { w.pselect rd wr with phase := .walk 0 w.sel.maxFd }
  | .walk i n => if i ≤ n then { w.dispatch i with phase := .walk (i + 1) n } else { w with phase := .notify }
  | .notify =>
    match w.sel.resolutionJobs with
    | fd :: rest => w.handleBlockNotification fd rest
    | [] => { w with phase := .sweep }
  | .sweep => { w.socksv5CheckTimeouts with phase := .top }
  | .exited => w

def handle (w : World) : Event → World
  | .signal => { w with signalCount := w.signalCount + 1 }
  | .clock t => { w with os := { w.os with now := t } }
  | .connected fd err =>
    match w.os.fds fd with
    | some s =>
      if s.conn = .inProgress then
        let conn := match err with
          | none => Conn.established
          | some _ => Conn.refused
        { w with os := w.os.setFd fd (some { s with conn := conn, soError := err }) }
      else w
    | none => w
  | .dnsTake => w.dnsTake
  | .dnsResolve found => w.dnsResolve found
  | .dnsNotify allocated => if w.phase = .notify then w else w.dnsNotify allocated
  | .loop rd wr => w.loop rd wr
  | .interrupted => if w.phase = .select then { w with phase := .notify } else w
  | .failed => if w.phase = .select then { w with phase := .exited } else w

/-- The process is still running. -/
def Running (w : World) : Prop := w.os.killed = none ∧ w.phase ≠ .exited

instance (w : World) : Decidable w.Running := inferInstanceAs (Decidable (_ ∧ _))

def step (w : World) (i : Input) : World :=
  if w.Running then (w.load i).handle i.event else w

def run (w : World) (is : List Input) : World := is.foldl step w

end World

/-! ## Start -/

/-- How the server was started: its arguments, and what it inherited. -/
structure Boot where
  users : List (Bytes × Bytes)
  adminSecret : Option Bytes
  config : Config
  now : Int
  nofile : Nat
  /-- Open descriptors besides the two listening sockets. -/
  others : Fd → Bool
  socksFd : Fd
  mngFd : Fd
  fds_ne : socksFd ≠ mngFd
  socksFd_free : others socksFd = false
  mngFd_free : others mngFd = false
  socksFd_valid : invalidFd socksFd = false
  mngFd_valid : invalidFd mngFd = false

/-- The signals `main` and `selector_init` install a handler for. -/
inductive Signal | sigterm | sigint | sigalrm | sigpipe
  deriving DecidableEq, Repr

def handledSignals : List Signal := [.sigterm, .sigint, .sigalrm]

def selectorNew : Selector where
  fds := fun _ => none
  maxFd := 0
  masterR := fun _ => false
  masterW := fun _ => false
  slaveR := fun _ => false
  slaveW := fun _ => false
  resolutionJobs := []

/-- `main` up to its loop, when nothing in it fails. -/
def Boot.start (b : Boot) : World where
  mem := fun _ => World.freshSocks5 0 0 none
  mngMem := fun _ => .zero
  os :=
    { fds := fun fd =>
        if fd = b.socksFd ∨ fd = b.mngFd ∨ b.others fd = true then some { conn := .established }
        else none
      nofile := b.nofile
      now := b.now
      answers := fun _ => {}
      sendAnswers := fun _ => {}
      sigpipeHandled := handledSignals.contains .sigpipe
      allocated := fun _ => false }
  sel :=
    ((selectorNew.selectorRegister b.socksFd .socksListener opRead 0).1.selectorRegister
      b.mngFd .mngListener opRead 0).1
  g :=
    { users := some (b.users.foldl (fun u e => (u.usersAdd e.1 e.2).1) usersCreate)
      metrics := some metricsCreate
      accessLog := some []
      config := some b.config
      dnsWorker := some ⟨[], none, [], []⟩
      pool := none
      poolSize := 0
      activeHead := none
      activeSessions := 0
      adminSecret := b.adminSecret
      mngActiveSessions := 0 }
  phase := .top
  socksFd := some b.socksFd
  mngFd := some b.mngFd
  signalCount := 0
  draining := false
  ended := []
  mngEnded := []

end Socks5d
