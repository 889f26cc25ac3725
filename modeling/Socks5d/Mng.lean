import Socks5d.Session
import Mathlib.Data.List.DropRight

/-! # A management session

`mng.c`: lines are assembled one character at a time, a complete line is run as
a command, and input stops being read while a response waits to be sent. -/
namespace Socks5d
open Lib.CString

def mngLineSize : Nat := 1024
def mngInSize : Nat := 256
def mngWriteSize : Nat := 4096
def mngMaxAuthFailures : Nat := 3
def int32Max : Nat := 2147483647

/-- The history of a session: one entry for each response, oldest first.
Proof-only; no code reads it. -/
inductive MngObs
  /-- `handle_line` answered the line with this content. -/
  | command (content response : Bytes)
  | overflow (response : Bytes)
  deriving DecidableEq, Repr

structure MngSession where
  fd : Fd
  /-- The `line_len` characters assembled so far. -/
  line : Bytes
  /-- `in_buf[0 .. in_len)` -/
  inBuf : Bytes
  inPos : Nat
  /-- `out[0 .. out_len)` -/
  out : Bytes
  outSent : Nat
  authenticated : Bool
  locked : Bool
  closing : Bool
  authFailures : Nat
  hist : List MngObs
  /-- Proof-only: the connection as `mng_close` found it. -/
  closedWith : Option Sock
  deriving DecidableEq, Repr

def MngSession.zero : MngSession := ⟨0, [], [], 0, [], 0, false, false, false, 0, [], none⟩

abbrev MCtx := Ctx MngSession

/-! ## Text -/

/-- `isspace` of the C locale. -/
def isspace (c : UInt8) : Bool := c == 32 || (9 ≤ c && c ≤ 13)

/-- `trim_right` on the string a line holds. -/
def trimRight (s : Bytes) : Bytes := s.rdropWhile isspace

/-- `next_token`: the token and the new cursor. -/
def nextToken (cursor : Bytes) : Option Bytes × Bytes :=
  match cursor.dropWhile isspace with
  | [] => (none, [])
  | c :: cs =>
    let s := c :: cs
    (some (s.takeWhile fun x => !isspace x), (s.dropWhile fun x => !isspace x).tail)

def isdigit (c : UInt8) : Bool := 48 ≤ c && c ≤ 57

def digitsValue (ds : Bytes) : Nat := ds.foldl (fun n d => 10 * n + (d.toNat - 48)) 0

/-- `parse_nonnegative`: what `strtol` makes of the whole string, when that is a
number from zero to `INT32_MAX`. -/
def parseNonnegative (s : Bytes) : Option Int :=
  let body := s.dropWhile isspace
  let negative := body.headD 0 = 45
  let digits := if body.headD 0 = 43 ∨ body.headD 0 = 45 then body.tail else body
  if digits = [] ∨ digits.any (fun c => !isdigit c) then none
  else
    let n := digitsValue digits
    if negative ∧ 0 < n then none else if int32Max < n then none else some n

/-! ## Commands -/

namespace Mng
open Ctx

/-- `queue_response` -/
def queueResponse (fd : Fd) (text : Bytes) (c : MCtx) : MCtx :=
  let text := if text.length ≥ mngWriteSize then lit "-ERR response too large\n" else text
  let c := c.modify fun s => { s with out := text, outSent := 0 }
  (c.selectorSetInterest fd opWrite).1

def requireAuth (fd : Fd) (c : MCtx) : MCtx × Bool :=
  if c.s.locked then (queueResponse fd (lit "-ERR locked\n") c, false)
  else if !c.s.authenticated then (queueResponse fd (lit "-ERR auth required\n") c, false)
  else (c, true)

def handleAuth (fd : Fd) (cursor : Bytes) (c : MCtx) : MCtx :=
  let (secret, cursor) := nextToken cursor
  let (extra, _) := nextToken cursor
  match secret, extra with
  | some secret, none =>
    match c.g.adminSecret with
    | none => queueResponse fd (lit "-ERR auth required\n") c
    | some adminSecret =>
      if adminSecret = [] then queueResponse fd (lit "-ERR auth required\n") c
      else if secret = adminSecret then
        queueResponse fd (lit "+OK authenticated\n")
          (c.modify fun s => { s with authenticated := true, authFailures := 0 })
      else
        let c := c.modify fun s => { s with authFailures := s.authFailures + 1 }
        if c.s.authFailures ≥ mngMaxAuthFailures then
          queueResponse fd (lit "-ERR locked\n")
            (c.modify fun s => { s with locked := true, closing := true })
        else queueResponse fd (lit "-ERR invalid credentials\n") c
  | _, _ => queueResponse fd (lit "-ERR usage AUTH <secret>\n") c

def decimal64 (n : UInt64) : Bytes := decimal n.toNat

def statsText (m : Metrics) : Bytes :=
  lit "+OK conn-accepted=" ++ decimal64 m.connAccepted
    ++ lit " conn-active=" ++ decimal64 m.connActive
    ++ lit " conn-rejected=" ++ decimal64 m.connRejected
    ++ lit " auth-fail=" ++ decimal64 m.authFail
    ++ lit " origin-ok=" ++ decimal64 m.originOk
    ++ lit " origin-fail=" ++ decimal64 m.originFail
    ++ lit " bytes-c2o=" ++ decimal64 m.bytesC2o
    ++ lit " bytes-o2c=" ++ decimal64 m.bytesO2c
    ++ lit " admin-sessions=" ++ decimal64 m.adminSessions ++ lit "\n"

def handleStats (fd : Fd) (c : MCtx) : MCtx :=
  match c.g.metrics with
  | none => queueResponse fd (lit "-ERR metrics unavailable\n") c
  | some m => queueResponse fd (statsText m) c

/-- The names `users_get_name` returns for `0 .. count - 1`. -/
def userNames (u : Users) : List Bytes :=
  (List.range u.usersCount).map fun (i : Nat) => cstr ((u.usersGetName i).getD [])

def usersText (u : Users) : Bytes := lit "+OK users=" ++ [44].intercalate (userNames u)

def handleUsers (fd : Fd) (c : MCtx) : MCtx :=
  match c.g.users with
  | none => queueResponse fd (lit "-ERR users unavailable\n") c
  | some u =>
    if u.usersCount = 0 then queueResponse fd (lit "+OK users=-\n") c
    else if (usersText u).length + 1 ≥ mngWriteSize then
      queueResponse fd (lit "-ERR response too large\n") c
    else
      let c := c.modify fun s => { s with out := usersText u ++ [10], outSent := 0 }
      (c.selectorSetInterest fd opWrite).1

def setUsers (u : Users) (c : MCtx) : MCtx := { c with g := { c.g with users := some u } }

def handleUser (fd : Fd) (cursor : Bytes) (c : MCtx) : MCtx :=
  let (action, cursor) := nextToken cursor
  match c.g.users with
  | none => queueResponse fd (lit "-ERR users unavailable\n") c
  | some u =>
    match action with
    | none => queueResponse fd (lit "-ERR usage USER SET <name> <pass> | USER DELETE <name>\n") c
    | some action =>
      if action = lit "SET" then
        let (name, cursor) := nextToken cursor
        let (pass, cursor) := nextToken cursor
        let (extra, _) := nextToken cursor
        match name, pass, extra with
        | some name, some pass, none =>
          let (u, ok) := u.usersAdd name pass
          queueResponse fd (if ok then lit "+OK user set\n" else lit "-ERR user limit reached\n")
            (setUsers u c)
        | _, _, _ => queueResponse fd (lit "-ERR usage USER SET <name> <pass>\n") c
      else if action = lit "DELETE" then
        let (name, cursor) := nextToken cursor
        let (extra, _) := nextToken cursor
        match name, extra with
        | some name, none =>
          let (u, ok) := u.usersDel name
          queueResponse fd (if ok then lit "+OK user deleted\n" else lit "-ERR user not found\n")
            (setUsers u c)
        | _, _ => queueResponse fd (lit "-ERR usage USER DELETE <name>\n") c
      else queueResponse fd (lit "-ERR unknown USER command\n") c

def configText (cfg : Config) : Bytes :=
  lit "+OK negotiation-timeout=" ++ decimalInt cfg.negotiationTimeout
    ++ lit " connect-timeout=" ++ decimalInt cfg.connectTimeout
    ++ lit " idle-timeout=" ++ decimalInt cfg.idleTimeout
    ++ lit " max-connections=" ++ decimalInt cfg.maxConnections ++ lit "\n"

def handleConfigGet (fd : Fd) (c : MCtx) : MCtx :=
  match c.g.config with
  | none => queueResponse fd (lit "-ERR config unavailable\n") c
  | some cfg => queueResponse fd (configText cfg) c

def handleConfig (fd : Fd) (cursor : Bytes) (c : MCtx) : MCtx :=
  let (action, cursor) := nextToken cursor
  match c.g.config with
  | none => queueResponse fd (lit "-ERR config unavailable\n") c
  | some cfg =>
    match action with
    | none => queueResponse fd (lit "-ERR usage CONFIG GET | CONFIG SET <key> <value>\n") c
    | some action =>
      if action = lit "GET" then
        let (extra, _) := nextToken cursor
        match extra with
        | some _ => queueResponse fd (lit "-ERR usage CONFIG GET\n") c
        | none => handleConfigGet fd c
      else if action = lit "SET" then
        let (keyName, cursor) := nextToken cursor
        let (rawValue, cursor) := nextToken cursor
        let (extra, _) := nextToken cursor
        match keyName, rawValue, extra with
        | some keyName, some rawValue, none =>
          match parseNonnegative rawValue with
          | none => queueResponse fd (lit "-ERR invalid value\n") c
          | some value =>
            match configSetKey cfg keyName value with
            | none => queueResponse fd (lit "-ERR unknown config key\n") c
            | some cfg =>
              queueResponse fd (lit "+OK config set\n") { c with g := { c.g with config := some cfg } }
        | _, _, _ => queueResponse fd (lit "-ERR usage CONFIG SET <key> <value>\n") c
      else queueResponse fd (lit "-ERR unknown CONFIG command\n") c

/-- `handle_line` on the content of `session->line`. -/
def handleLine (fd : Fd) (line : Bytes) (c : MCtx) : MCtx :=
  let (cmd, cursor) := nextToken (trimRight (cstr line))
  match cmd with
  | none => queueResponse fd (lit "-ERR empty command\n") c
  | some cmd =>
    if cmd = lit "AUTH" then handleAuth fd cursor c
    else if cmd = lit "QUIT" then
      let (extra, _) := nextToken cursor
      match extra with
      | some _ => queueResponse fd (lit "-ERR usage QUIT\n") c
      | none => queueResponse fd (lit "+OK bye\n") (c.modify fun s => { s with closing := true })
    else
      match requireAuth fd c with
      | (c, false) => c
      | (c, true) =>
        if cmd = lit "STATS" then handleStats fd c
        else if cmd = lit "USERS" then handleUsers fd c
        else if cmd = lit "USER" then handleUser fd cursor c
        else if cmd = lit "CONFIG" then handleConfig fd cursor c
        else queueResponse fd (lit "-ERR unknown command\n") c

/-! ## Input and output -/

/-- One turn of the loop of `mng_process_input`. -/
def processChar (fd : Fd) (ch : UInt8) (c : MCtx) : MCtx :=
  if ch = 13 then c
  else if ch = 10 then
    let line := c.s.line
    let c := handleLine fd line (c.modify fun s => { s with line := [] })
    c.modify fun s => { s with hist := s.hist ++ [.command line s.out] }
  else if c.s.line.length + 1 ≥ mngLineSize then
    let c := queueResponse fd (lit "-ERR line too long\n") (c.modify fun s => { s with line := [] })
    c.modify fun s => { s with hist := s.hist ++ [.overflow s.out] }
  else c.modify fun s => { s with line := s.line ++ [ch] }

/-- The loop of `mng_process_input`, over the rest of `in_buf`. -/
def processLoop (fd : Fd) : Bytes → MCtx → MCtx
  | [], c => c
  | ch :: rest, c =>
    if c.s.out = [] then
      processLoop fd rest (processChar fd ch (c.modify fun s => { s with inPos := s.inPos + 1 }))
    else c

def mngProcessInput (fd : Fd) (c : MCtx) : MCtx :=
  let c := processLoop fd (c.s.inBuf.drop c.s.inPos) c
  if c.s.inPos ≥ c.s.inBuf.length then c.modify fun s => { s with inPos := 0, inBuf := [] } else c

/-- The close callback; that of an item of another object cannot be followed
from here, which the ownership invariant rules out. -/
def mngClose (item : Item) (c : MCtx) : MCtx :=
  match item.handler with
  | .mng =>
    if item.data = c.self then
      let c := c.modify fun s => { s with closedWith := c.os.fds s.fd }
      let c := c.close c.s.fd
      let c := { c with os := c.os.free c.self }
      let c := { c with g := { c.g with mngActiveSessions := c.g.mngActiveSessions - 1 } }
      c.metrics Metrics.metricsAdminSessionClose
    else c.die .badClose
  | .socks5 => c.die .badClose
  | .socksListener | .mngListener => c

def unregister (fd : Fd) (c : MCtx) : MCtx := (c.selectorUnregisterFd mngClose fd).1

def mngRead (fd : Fd) (c : MCtx) : MCtx :=
  if c.s.inPos ≥ c.s.inBuf.length then
    match c.recv fd mngInSize with
    | (c, .error e) => if e.again then c else unregister fd c
    | (c, .ok []) => unregister fd c
    | (c, .ok bs) => mngProcessInput fd (c.modify fun s => { s with inBuf := bs, inPos := 0 })
  else mngProcessInput fd c

inductive Sent | stopped | failed | finished
  deriving DecidableEq, Repr

/-- The send loop of `mng_write`: every turn but the last sends something, so
what is left to send bounds the turns. -/
def sendLoop (fd : Fd) : Nat → MCtx → MCtx × Sent
  | 0, c => (c, .finished)
  | n + 1, c =>
    if c.s.outSent < c.s.out.length then
      match c.send fd (c.s.out.drop c.s.outSent) with
      | (c, .error e) => (c, if e.again then .stopped else .failed)
      | (c, .ok 0) => (c, .finished)
      | (c, .ok k) => sendLoop fd n (c.modify fun s => { s with outSent := s.outSent + k })
    else (c, .finished)

def mngWrite (fd : Fd) (c : MCtx) : MCtx :=
  match sendLoop fd (c.s.out.length - c.s.outSent) c with
  | (c, .stopped) => c
  | (c, .failed) => unregister fd c
  | (c, .finished) =>
    if c.s.outSent = c.s.out.length then
      let c := c.modify fun s => { s with out := [], outSent := 0 }
      if c.s.closing then unregister fd c
      else
        let c := mngProcessInput fd c
        if c.s.out = [] then (c.selectorSetInterest fd opRead).1 else c
    else c

end Mng
end Socks5d
