import Socks5d.Kernel

/-! # The selector's table

`selector.c`: one item per registered descriptor, the master sets kept in step
with the items' interests, the snapshot of the current round, and the
notifications of finished blocking jobs. -/
namespace Socks5d

structure Interest where
  read : Bool
  write : Bool
  deriving DecidableEq, Repr

def opNoop : Interest := ⟨false, false⟩
def opRead : Interest := ⟨true, false⟩
def opWrite : Interest := ⟨false, true⟩

/-- The `fd_handler` tables that get registered. -/
inductive Handler | socksListener | mngListener | socks5 | mng
  deriving DecidableEq, Repr

structure Item where
  interest : Interest
  handler : Handler
  data : Ptr
  deriving DecidableEq, Repr

inductive SelectorStatus | success | enomem | maxfd | iargs | fdinuse | io
  deriving DecidableEq, Repr

structure Selector where
  /-- `none` is `FD_UNUSED`. -/
  fds : Fd → Option Item
  maxFd : Nat
  masterR : Fd → Bool
  masterW : Fd → Bool
  slaveR : Fd → Bool
  slaveW : Fd → Bool
  /-- Newest first. -/
  resolutionJobs : List Fd

/-- `FD_SETSIZE` -/
def itemsMaxSize : Nat := 1024

def invalidFd (fd : Fd) : Bool := itemsMaxSize ≤ fd

namespace Selector

def itemsMaxFd (s : Selector) : Nat :=
  (List.range (s.maxFd + 1)).foldl (fun m i => if (s.fds i).isSome ∧ i > m then i else m) 0

def itemsUpdateFdsetForFd (s : Selector) (fd : Fd) (i : Interest) : Selector :=
  { s with
    masterR := Function.update s.masterR fd i.read
    masterW := Function.update s.masterW fd i.write }

/-- `selector_register`. The table was made for 1024 descriptors, so a valid
descriptor always has an item and `ensure_capacity` is not reached. -/
def selectorRegister (s : Selector) (fd : Fd) (h : Handler) (i : Interest) (data : Ptr) :
    Selector × SelectorStatus :=
  if invalidFd fd then (s, .iargs)
  else match s.fds fd with
    | some _ => (s, .fdinuse)
    | none =>
      let s := { s with
        fds := Function.update s.fds fd (some ⟨i, h, data⟩)
        maxFd := if fd > s.maxFd then fd else s.maxFd }
      (s.itemsUpdateFdsetForFd fd i, .success)

/-- What `selector_unregister_fd` does to the table after the close callback. -/
def dropItem (s : Selector) (fd : Fd) : Selector :=
  let s := s.itemsUpdateFdsetForFd fd opNoop
  let s := { s with fds := Function.update s.fds fd none }
  { s with maxFd := s.itemsMaxFd }

def selectorSetInterest (s : Selector) (fd : Fd) (i : Interest) : Selector × SelectorStatus :=
  if invalidFd fd then (s, .iargs)
  else match s.fds fd with
    | none => (s, .iargs)
    | some item =>
      let s := { s with fds := Function.update s.fds fd (some { item with interest := i }) }
      (s.itemsUpdateFdsetForFd fd i, .success)

end Selector

/-! ## What a callback can reach -/

inductive Family | inet | inet6
  deriving DecidableEq, Repr

/-- A `struct sockaddr_in` or `sockaddr_in6`. -/
structure SockAddr where
  family : Family
  addr : Bytes
  port : UInt16
  deriving DecidableEq, Repr

/-- A resolution job of `dns_worker.c`; `result_target` is the
`origin_resolution` field of session `target`. -/
structure DnsJob where
  host : Bytes
  port : Bytes
  fd : Fd
  target : Ptr
  deriving DecidableEq, Repr

/-- The worker: its queue, oldest first, and the job its thread has taken, with
whether the result has been written. The last two fields are proof-only. -/
structure DnsWorker where
  queue : List DnsJob
  current : Option (DnsJob × Bool)
  /-- Every job that was handed over. -/
  submitted : List DnsJob := []
  /-- Every job that was resolved, with its result. -/
  resolved : List (DnsJob × List SockAddr) := []
  deriving DecidableEq, Repr

/-- A job at the end of the queue. -/
def DnsWorker.enqueue (job : DnsJob) (w : DnsWorker) : DnsWorker :=
  { w with queue := w.queue ++ [job], submitted := w.submitted ++ [job] }

/-- The static variables of `socks5.c` and `mng.c`. -/
structure Globals where
  users : Option Users
  metrics : Option Metrics
  accessLog : Option AccessLog
  config : Option Config
  dnsWorker : Option DnsWorker
  pool : Option Ptr
  poolSize : Nat
  activeHead : Option Ptr
  activeSessions : Nat
  adminSecret : Option Bytes
  mngActiveSessions : Nat

/-- A callback's view of the process: the object its key points at, and
everything that is shared. -/
structure Ctx (S : Type) where
  self : Ptr
  s : S
  os : OS
  sel : Selector
  g : Globals

namespace Ctx
variable {S : Type}

def die (c : Ctx S) (d : Death) : Ctx S := { c with os := c.os.die d }

def modify (c : Ctx S) (f : S → S) : Ctx S := { c with s := f c.s }

/-- `if (g_metrics != NULL) f(g_metrics);` -/
def metrics (c : Ctx S) (f : Metrics → Metrics) : Ctx S :=
  { c with g := { c.g with metrics := c.g.metrics.map f } }

def selectorSetInterest (c : Ctx S) (fd : Fd) (i : Interest) : Ctx S × SelectorStatus :=
  let r := c.sel.selectorSetInterest fd i
  ({ c with sel := r.1 }, r.2)

/-- `selector_unregister_fd`; `onClose` is the item's `handle_close`. -/
def selectorUnregisterFd (onClose : Item → Ctx S → Ctx S) (c : Ctx S) (fd : Fd) :
    Ctx S × SelectorStatus :=
  if invalidFd fd then (c, .iargs)
  else match c.sel.fds fd with
    | none => (c, .iargs)
    | some item =>
      let c := onClose item c
      ({ c with sel := c.sel.dropItem fd }, .success)

def recv (c : Ctx S) (fd : Fd) (n : Nat) : Ctx S × Except Errno Bytes :=
  let r := c.os.recv fd n
  ({ c with os := r.1 }, r.2)

def send (c : Ctx S) (fd : Fd) (bs : Bytes) : Ctx S × Except Errno Nat :=
  let r := c.os.send fd bs
  ({ c with os := r.1 }, r.2)

def close (c : Ctx S) (fd : Fd) : Ctx S := { c with os := c.os.close fd }

end Ctx
end Socks5d
