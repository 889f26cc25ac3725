import Socks5d.Stores

/-! # The system calls

What the server asks of POSIX. Every call consumes one `Answer` of the
environment, so a statement over all answers covers every outcome. The socket
table remembers what went over each connection; no code reads that. -/
namespace Socks5d

abbrev Fd := Nat
abbrev Ptr := Nat

inductive Errno
  | EAGAIN | EWOULDBLOCK | EINTR | EPIPE | ECONNRESET | ENOTCONN | EINPROGRESS
  | ECONNREFUSED | ENETUNREACH | EHOSTUNREACH | ETIMEDOUT | EMFILE | ENOMEM | EINVAL
  deriving DecidableEq, Repr

/-- `errno == EAGAIN || errno == EWOULDBLOCK || errno == EINTR` -/
def Errno.again : Errno → Bool
  | .EAGAIN | .EWOULDBLOCK | .EINTR => true
  | _ => false

/-- `netutils.c` -/
def errnoToSocksReply : Errno → UInt8
  | .ECONNREFUSED => replyConnRefused
  | .ENETUNREACH => replyNetUnreachable
  | .EHOSTUNREACH => replyHostUnreachable
  | .ETIMEDOUT => replyTtlExpired
  | _ => replyGeneralFailure

/-- What the environment answers to one call: an error, or else the bytes that
arrive and the number the call returns, cut to what the call allows. -/
structure Answer where
  err : Option Errno := none
  bytes : Bytes := []
  count : Nat := 0
  deriving DecidableEq, Repr

inductive Conn | inProgress | established | refused
  deriving DecidableEq, Repr

/-- A socket. Beyond `conn` and `soError`, a record of the connection's past. -/
structure Sock where
  conn : Conn
  /-- The pending error `SO_ERROR` reports. -/
  soError : Option Errno := none
  /-- Everything `recv` has delivered. -/
  rx : Bytes := []
  /-- Everything `send` has accepted. -/
  tx : Bytes := []
  shutWr : Bool := false
  /-- `connect` or `pselect` has reported the connection complete. -/
  reported : Bool := false
  /-- Every `send` took all it was given. -/
  flawless : Bool := true
  /-- A `recv` or `send` failed for good, or a `recv` found the end. -/
  lost : Bool := false
  deriving DecidableEq, Repr

/-- What stands for the connection of a descriptor that is not open. -/
def Sock.none : Sock := { conn := .refused }

/-- How the process ends other than by leaving the main loop. -/
inductive Death | abort | assertion | sigpipe | nullCall | badFree | badClose | diverged
  deriving DecidableEq, Repr

structure OS where
  /-- Open descriptors. -/
  fds : Fd → Option Sock
  /-- `RLIMIT_NOFILE` -/
  nofile : Nat
  now : Int
  answers : Nat → Answer
  calls : Nat := 0
  /-- The answers to the calls of `send`. -/
  sendAnswers : Nat → Answer
  sends : Nat := 0
  /-- Bytes that memory nobody initialised holds. -/
  stale : Bytes := []
  /-- `SIGPIPE` is ignored or handled. -/
  sigpipeHandled : Bool
  /-- Blocks handed out by `malloc`. -/
  allocated : Ptr → Bool
  killed : Option Death := none
  /-- `close` was called on a number that was not open. Proof-only. -/
  strayClose : Bool := false

namespace OS

def die (o : OS) (d : Death) : OS := { o with killed := o.killed.or (some d) }

def answer (o : OS) : Answer := o.answers o.calls

def tick (o : OS) : OS := { o with calls := o.calls + 1 }

def sendAnswer (o : OS) : Answer := o.sendAnswers o.sends

def sendTick (o : OS) : OS := { o with sends := o.sends + 1 }

def setFd (o : OS) (fd : Fd) (s : Option Sock) : OS := { o with fds := Function.update o.fds fd s }

def modifySock (o : OS) (fd : Fd) (f : Sock → Sock) : OS := o.setFd fd ((o.fds fd).map f)

/-- `recv(fd, ptr, n, 0)` -/
def recv (o : OS) (fd : Fd) (n : Nat) : OS × Except Errno Bytes :=
  match o.answer.err with
  | some e => (o.tick.modifySock fd fun s => { s with lost := s.lost || !e.again }, .error e)
  | none =>
    let bs := o.answer.bytes.take n
    (o.tick.modifySock fd fun s => { s with rx := s.rx ++ bs, lost := s.lost || bs.isEmpty }, .ok bs)

/-- `send(fd, ptr, n, 0)`: without `MSG_NOSIGNAL`, `EPIPE` comes with a
`SIGPIPE`, which ends a process that neither ignores nor handles it. -/
def send (o : OS) (fd : Fd) (bs : Bytes) : OS × Except Errno Nat :=
  match o.sendAnswer.err with
  | some e =>
    let p := o.sendTick.modifySock fd fun s =>
      { s with flawless := false, lost := s.lost || !e.again }
    (if e = .EPIPE ∧ o.sigpipeHandled = false then p.die .sigpipe else p, .error e)
  | none =>
    let n := min o.sendAnswer.count bs.length
    (o.sendTick.modifySock fd fun s =>
      { s with tx := s.tx ++ bs.take n, flawless := s.flawless && n == bs.length }, .ok n)

/-- `shutdown(fd, SHUT_WR)` -/
def shutdown (o : OS) (fd : Fd) : OS × Except Errno Unit :=
  match o.answer.err with
  | some e => (o.tick, .error e)
  | none => (o.tick.modifySock fd fun s => { s with shutWr := true }, .ok ())

def close (o : OS) (fd : Fd) : OS :=
  { o.setFd fd none with strayClose := o.strayClose || (o.fds fd).isNone }

/-- The descriptor POSIX hands out: the lowest one that is free. -/
def lowestFree (o : OS) : Option Fd := (List.range o.nofile).find? fun fd => (o.fds fd).isNone

/-- A call that returns a new descriptor. -/
def newFd (o : OS) (s : Sock) : OS × Except Errno Fd :=
  match o.answer.err with
  | some e => (o.tick, .error e)
  | none =>
    match o.lowestFree with
    | none => (o.tick, .error .EMFILE)
    | some fd => (o.tick.setFd fd (some s), .ok fd)

def socket (o : OS) : OS × Except Errno Fd := o.newFd { conn := .inProgress }

def accept (o : OS) : OS × Except Errno Fd := o.newFd { conn := .established, reported := true }

/-- `connect`: established at once, under way, or failed. -/
def connect (o : OS) (fd : Fd) : OS × Except Errno Unit :=
  match o.answer.err with
  | none => (o.tick.modifySock fd fun s => { s with conn := .established, reported := true }, .ok ())
  | some e => (o.tick, .error e)

/-- A call that only succeeds or fails: `fcntl`, or `malloc` of a block whose
address nothing compares. -/
def call (o : OS) : OS × Except Errno Unit :=
  match o.answer.err with
  | none => (o.tick, .ok ())
  | some e => (o.tick, .error e)

/-- `getsockopt(fd, SOL_SOCKET, SO_ERROR, ..)`: the pending error, which the
call clears; zero while a connect is under way. -/
def getsockopt (o : OS) (fd : Fd) : OS × Except Errno (Option Errno) :=
  match o.answer.err with
  | some e => (o.tick, .error e)
  | none =>
    (o.tick.modifySock fd fun s => { s with soError := none }, .ok ((o.fds fd).bind (·.soError)))

/-- `malloc` and `calloc`: any block that is not in use. -/
def malloc (o : OS) : OS × Option Ptr :=
  match o.answer.err with
  | some _ => (o.tick, none)
  | none =>
    let p := o.answer.count
    if o.allocated p then (o.tick, none)
    else ({ o.tick with allocated := Function.update o.allocated p true }, some p)

def free (o : OS) (p : Ptr) : OS :=
  if o.allocated p then { o with allocated := Function.update o.allocated p false }
  else o.die .badFree

/-- `selector_fd_set_nio`: `fcntl` with `F_GETFD`, then with `F_SETFL`. -/
def selectorFdSetNio (o : OS) : OS × Except Errno Unit :=
  match o.call with
  | (o, .error e) => (o, .error e)
  | (o, .ok ()) => o.call

end OS
end Socks5d
