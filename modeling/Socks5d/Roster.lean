import Socks5d.Pump
import Socks5d.Framing
import Socks5d.Accounts
import Socks5d.Lib.Links

/-! # The process between two callbacks

Which objects are alive, which descriptors are theirs, which names the DNS
worker still has, and what has become of the sessions that ended. `Inv` puts it
together; the modules that follow show that every step of the main loop keeps
it, and what a step leaves alone. -/
namespace Socks5d
open Ctx Lib.Links

/-! ## What is given and assumed of a run -/

structure Terms where
  /-- Descriptors that were open before the process started. -/
  inherited : Fd → Bool
  /-- An origin is only asked for its outcome after the kernel has reported it. -/
  strict : Prop
  /-- What a session looks like that the sweep closes. -/
  fair : View → Limit → Int → Prop
  /-- No name in the store holds a line feed. -/
  tidy : Prop
  /-- The secret of the management sessions. -/
  secret : Option Bytes
  /-- The notifications of the DNS worker can be allocated. -/
  prompt : Prop

/-! ## Sessions -/

/-- A session as `accept` leaves it. -/
def View.fresh (fd : Fd) (t : Int) : View where
  st := none
  client := .hello .zero
  orig := .conn .zero
  rb := []
  wb := []
  clientFd := fd
  originFd := none
  cl := { conn := .established, reported := true }
  ci := opRead
  og := .none
  oi := opNoop
  found := []
  user := []
  dest := none
  lastActivity := t
  logging := true
  opened := false
  hist := []

def Reached (strict : Prop) (v : View) : Prop := ∃ fd t, Moves strict (.fresh fd t) v

theorem Reached.moves {strict : Prop} {v v' : View} (h : Reached strict v) (hm : Moves strict v v') :
    Reached strict v' := by
  obtain ⟨fd, t, h0⟩ := h
  exact ⟨fd, t, h0.trans hm⟩

theorem fresh_sane (fd : Fd) (t : Int) : (View.fresh fd t).Sane :=
  ⟨⟨rfl, 0, rfl⟩, rfl, rfl, rfl, rfl, rfl, rfl⟩

theorem Reached.sane {strict : Prop} {v : View} (h : Reached strict v) : v.Sane := by
  obtain ⟨fd, t, h0⟩ := h
  exact h0.sane (fresh_sane fd t)

theorem Move.logging {strict : Prop} {v v' : View} (h : Move strict v v') :
    v'.logging = v.logging := by
  cases h with
  | relayReceived d | relayEof d | relayUnread d | relaySent d | relayUnsent d | relayShut d =>
    cases d <;> rfl
  | _ => rfl

theorem Reached.logging {strict : Prop} {v : View} (h : Reached strict v) : v.logging = true := by
  obtain ⟨fd, t, h0⟩ := h
  induction h0 with
  | refl => rfl
  | tail _ hm ih => exact hm.logging.trans ih

theorem Reached.ledger {strict : Prop} {v : View} (h : Reached strict v) : v.Ledger := by
  obtain ⟨fd, t, h0⟩ := h
  exact h0.ledger rfl

/-- A session that owns what it says, and came to it by its own moves. -/
structure Sound (strict : Prop) (c : SCtx) : Prop where
  own : Own c
  reached : Reached strict c.view

/-- Nothing is left for the session's callbacks to do at once. -/
structure Calm (c : SCtx) : Prop where
  rest : Settled c
  notDone : c.s.stm ≠ some .done
  notError : c.s.stm ≠ some .error

theorem Sound.live {strict : Prop} {c : SCtx} (h : Sound strict c) (hc : Calm c) : Live c :=
  ⟨h.own, h.reached.sane, h.reached.ledger, hc.rest, hc.notDone, hc.notError⟩

/-! ## Finished sessions -/

/-- What is kept of a session that ended, as a view. -/
def Ended.view (e : Ended) : View where
  st := e.s.stm
  client := e.s.client
  orig := e.s.orig
  rb := e.s.readBuffer.unread
  wb := e.s.writeBuffer.unread
  clientFd := e.s.clientFd
  originFd := e.s.originFd
  cl := e.client.getD .none
  ci := opNoop
  og := e.origin.getD .none
  oi := opNoop
  found := []
  user := e.s.authenticatedUser
  dest := if e.s.destinationSet then some (e.s.destination, e.s.destinationPort) else none
  lastActivity := e.s.lastActivity
  logging := true
  opened := e.s.tunnelOpened
  hist := e.s.hist

/-- A view without what the selector and the DNS worker knew of it. -/
def View.filed (l : List Obs) (v : View) : View :=
  { v with ci := opNoop, oi := opNoop, found := [], hist := v.hist ++ l }

/-- A session the sweep closes for a limit at time `t`. -/
def View.Expired (v : View) (t : Int) : Limit → Prop
  | .negotiation => v.st ≠ some .requestResolv ∧ v.st ≠ some .connecting ∧ v.st ≠ some .copy ∧
      v.st ≠ some .done ∧ v.st ≠ some .error
  | .connect => False
  | .idle seconds => v.st = some .copy ∧ 0 < seconds ∧ seconds ≤ t - v.lastActivity

/-- Why a session was closed, as its history records it. -/
inductive Ending (fair : View → Limit → Int → Prop) (v : View) : List Obs → Prop
  | finished : v.st = some .done ∨ v.st = some .error → Ending fair v []
  | timedOut (l : Limit) (t : Int) : v.Expired t l → fair v l t → Ending fair v [.timedOut l t]

/-- The record of `socks5_log_event`, if there is one to write. -/
def View.lastRecord (t : Int) (reason : Option FailureReason) (v : View) : Option LogRecord :=
  v.dest.map fun d =>
    if v.opened then
      .closed t v.logUser d.1 d.2 v.client.asCopy.transferred v.orig.asCopy.transferred
    else .failed t v.logUser d.1 d.2 reason

/-- A session that came to an end by the rules, with its last record written. -/
def Closed (τ : Terms) (e : Ended) : Prop :=
  ∃ v why t reason, Reached τ.strict v ∧ Ending τ.fair v why ∧
    e.view = v.filed (why ++ (v.lastRecord t reason).toList.map .logged ++ [.released])

/-! ## Objects -/

/-- The objects in use: sessions on the active list, sessions in the pool, and
management sessions. -/
structure Roster where
  act : List Ptr
  pool : List Ptr
  adm : List Ptr

def Roster.all (ρ : Roster) : List Ptr := ρ.act ++ ρ.pool ++ ρ.adm

structure Books (ρ : Roster) (w : World) : Prop where
  nodup : ρ.all.Nodup
  allocated : ∀ p, w.os.allocated p = true ↔ p ∈ ρ.all
  linked : Linked (fun p => (w.mem p).activeNext) (fun p => (w.mem p).activePrev) none
    w.g.activeHead ρ.act
  active : w.g.activeSessions = ρ.act.length
  chain : Chain (fun p => (w.mem p).next) w.g.pool ρ.pool
  pool : w.g.poolSize = ρ.pool.length
  poolMax : ρ.pool.length ≤ maxPool
  admins : w.g.mngActiveSessions = ρ.adm.length

/-- A listener is watched for clients, and the process knows it as such. -/
structure World.Listens (w : World) (fd : Fd) (it : Item) : Prop where
  interest : it.interest = opRead
  socks : it.handler = .socksListener → w.socksFd = some fd
  mng : it.handler = .mngListener → w.mngFd = some fd

theorem World.Listens.congr {w w' : World} {fd : Fd} {it : Item} (h : w.Listens fd it)
    (hs : w'.socksFd = w.socksFd) (hm : w'.mngFd = w.mngFd) : w'.Listens fd it :=
  ⟨h.interest, fun hh => hs.trans (h.socks hh), fun hh => hm.trans (h.mng hh)⟩

/-- Every item belongs to a live object that has the descriptor. -/
structure Registry (ρ : Roster) (w : World) : Prop where
  table : Table w.os w.sel
  socks5 : ∀ fd it, w.sel.fds fd = some it → it.handler = .socks5 →
    it.data ∈ ρ.act ∧ (fd = (w.mem it.data).clientFd ∨ (w.mem it.data).originFd = some fd)
  mng : ∀ fd it, w.sel.fds fd = some it → it.handler = .mng →
    it.data ∈ ρ.adm ∧ (w.mngMem it.data).fd = fd
  listening : ∀ fd it, w.sel.fds fd = some it →
    it.handler = .socksListener ∨ it.handler = .mngListener → w.Listens fd it
  socksFd : ∀ fd, w.socksFd = some fd → ∃ it, w.sel.fds fd = some it ∧ it.handler = .socksListener
  mngFd : ∀ fd, w.mngFd = some fd → ∃ it, w.sel.fds fd = some it ∧ it.handler = .mngListener

/-- The jobs the DNS worker has. -/
def World.jobs (w : World) : List DnsJob :=
  match w.g.dnsWorker with
  | none => []
  | some d => d.queue ++ (d.current.map Prod.fst).toList

/-- The jobs of a session whose result its handler has not had. -/
def World.pending (w : World) (p : Ptr) : Nat :=
  w.jobs.countP (fun j => j.target = p) + w.sel.resolutionJobs.count (w.mem p).clientFd

structure Jobs (prompt : Prop) (ρ : Roster) (w : World) : Prop where
  jobs : ∀ j ∈ w.jobs, j.target ∈ ρ.act ∧ j.fd = (w.mem j.target).clientFd
  notices : ∀ fd ∈ w.sel.resolutionJobs, ∃ p ∈ ρ.act, (w.mem p).clientFd = fd
  tickets : ∀ p ∈ ρ.act,
    w.pending p + consumptions (w.mem p).hist ≤ submissions (w.mem p).hist
  prompt : prompt → ∀ p ∈ ρ.act,
    submissions (w.mem p).hist ≤ w.pending p + consumptions (w.mem p).hist

/-- The histories of the sessions there are and were. -/
def World.histories (ρ : Roster) (w : World) : List (List Obs) :=
  (ρ.act.map fun p => (w.mem p).hist) ++ w.ended.map fun e => e.s.hist

/-- What the DNS worker knows of the sessions that wait for it. -/
structure Mail (ρ : Roster) (w : World) (d : DnsWorker) : Prop where
  posted : Posted (w.histories ρ) d
  mine : ∀ p ∈ ρ.act, ∀ k ∈ Socks5d.tickets (w.mem p).hist,
    ∃ j, d.submitted[k]? = some j ∧ j.target = p ∧ j.fd = (w.mem p).clientFd
  found : ∀ p ∈ ρ.act, ∀ k ∈ Socks5d.tickets (w.mem p).hist, ∀ r, d.resolved[k]? = some r →
    (w.mem p).originResolution = r.2

/-- The counters and the log. -/
structure Accounts (ρ : Roster) (w : World) (m : Metrics) (log : AccessLog) : Prop where
  tally : Tally (w.histories ρ) m
  accepted : m.connAccepted = m.connClosed + UInt64.ofNat ρ.act.length
  admins : m.adminSessions = UInt64.ofNat ρ.adm.length
  log : Recorded (w.histories ρ) log

structure Ledgers (ρ : Roster) (w : World) : Prop where
  mail : ∃ d, w.g.dnsWorker = some d ∧ Mail ρ w d
  accounts : ∃ m log, w.g.metrics = some m ∧ w.g.accessLog = some log ∧ Accounts ρ w m log

/-- What is open is registered, or was open from the start. -/
structure Held (inherited : Fd → Bool) (w : World) : Prop where
  opened : ∀ fd k, w.os.fds fd = some k → inherited fd = true ∨ ∃ it, w.sel.fds fd = some it
  inherited : ∀ fd, inherited fd = true → (∃ k, w.os.fds fd = some k) ∧ w.sel.fds fd = none
  stray : w.os.strayClose = false
  alive : w.os.Alive

/-- The process in good order, whatever its sessions have been through. -/
structure Core (τ : Terms) (ρ : Roster) (w : World) : Prop where
  books : Books ρ w
  registry : Registry ρ w
  held : Held τ.inherited w
  own : ∀ p ∈ ρ.act, Own (w.ctx p)
  jobs : Jobs τ.prompt ρ w
  ledgers : Ledgers ρ w
  ended : ∀ e ∈ w.ended, Closed τ e
  admins : ∀ m ∈ ρ.adm, Attended τ.tidy τ.secret (w.mngCtx m)
  names : Stocked τ.tidy w.g.users
  secret : w.g.adminSecret = τ.secret
  left : ∀ s ∈ w.mngEnded, Mng.Vetted τ.tidy τ.secret s ∧
    ∃ k, s.closedWith = some k ∧ Framed s k

structure Inv (τ : Terms) (ρ : Roster) (w : World) : Prop extends Core τ ρ w where
  reached : ∀ p ∈ ρ.act, Reached τ.strict (w.ctx p).view

theorem Inv.sound {τ : Terms} {ρ : Roster} {w : World} (h : Inv τ ρ w) {p : Ptr} (hp : p ∈ ρ.act) :
    Sound τ.strict (w.ctx p) := ⟨h.own p hp, h.reached p hp⟩

def AllCalm (ρ : Roster) (w : World) : Prop := ∀ p ∈ ρ.act, Calm (w.ctx p)

/-! ## What a step leaves alone -/

/-- A session without its places in lists. -/
def Socks5.unlinked (s : Socks5) : Socks5 :=
  { s with next := none, activePrev := none, activeNext := none }

/-- A session was left alone, with its descriptors. -/
structure Kept (w w' : World) (p : Ptr) : Prop where
  logging : w'.g.accessLog.isSome = w.g.accessLog.isSome
  mem : (w'.mem p).unlinked = (w.mem p).unlinked
  fds : ∀ fd, fd = (w.mem p).clientFd ∨ (w.mem p).originFd = some fd →
    w'.os.fds fd = w.os.fds fd ∧ w'.sel.fds fd = w.sel.fds fd

structure MngKept (w w' : World) (m : Ptr) : Prop where
  mem : w'.mngMem m = w.mngMem m
  sock : w'.os.fds (w.mngMem m).fd = w.os.fds (w.mngMem m).fd
  item : w'.sel.fds (w.mngMem m).fd = w.sel.fds (w.mngMem m).fd

/-- A step worked on `busy` objects only. -/
structure Beside (busy : Ptr → Prop) (ρ ρ' : Roster) (w w' : World) : Prop where
  sessions : ∀ q ∈ ρ.act, ¬busy q → q ∈ ρ'.act ∧ Kept w w' q
  admins : ∀ m ∈ ρ.adm, ¬busy m → m ∈ ρ'.adm ∧ MngKept w w' m

section Kept
variable {w w' w'' : World} {p : Ptr}

theorem Kept.refl (w : World) (p : Ptr) : Kept w w p := ⟨rfl, rfl, fun _ _ => ⟨rfl, rfl⟩⟩

theorem MngKept.refl (w : World) (m : Ptr) : MngKept w w m := ⟨rfl, rfl, rfl⟩

theorem Kept.clientFd (h : Kept w w' p) : (w'.mem p).clientFd = (w.mem p).clientFd :=
  (congrArg Socks5.clientFd h.mem :)

theorem Kept.originFd (h : Kept w w' p) : (w'.mem p).originFd = (w.mem p).originFd :=
  (congrArg Socks5.originFd h.mem :)

theorem Kept.hist (h : Kept w w' p) : (w'.mem p).hist = (w.mem p).hist :=
  (congrArg Socks5.hist h.mem :)

theorem Kept.trans (h : Kept w w' p) (h' : Kept w' w'' p) : Kept w w'' p := by
  refine ⟨h'.logging.trans h.logging, h'.mem.trans h.mem, fun fd hfd => ?_⟩
  obtain ⟨h1, h2⟩ := h.fds fd hfd
  obtain ⟨h3, h4⟩ := h'.fds fd (by rw [h.clientFd, h.originFd]; exact hfd)
  exact ⟨h3.trans h1, h4.trans h2⟩

theorem MngKept.trans {m : Ptr} (h : MngKept w w' m) (h' : MngKept w' w'' m) : MngKept w w'' m := by
  refine ⟨h'.mem.trans h.mem, ?_, ?_⟩
  · rw [← h.sock, ← h.mem]; exact h'.sock
  · rw [← h.item, ← h.mem]; exact h'.item

/-- The fields a view is made of do not depend on the lists. -/
theorem Kept.view (h : Kept w w' p) : (w'.ctx p).view = (w.ctx p).view := by
  obtain ⟨hc1, hc2⟩ := h.fds (w.mem p).clientFd (Or.inl rfl)
  have ho : (w.mem p).originFd.bind w'.os.fds = (w.mem p).originFd.bind w.os.fds ∧
      (w.mem p).originFd.bind w'.sel.fds = (w.mem p).originFd.bind w.sel.fds := by
    cases hor : (w.mem p).originFd with
    | none => exact ⟨rfl, rfl⟩
    | some fd => exact h.fds fd (Or.inr hor)
  have hview : ∀ s t : Socks5, s.unlinked = t.unlinked → ∀ (os : OS) (sel : Selector) (g : Globals),
      (⟨p, s, os, sel, g⟩ : SCtx).view = (⟨p, t, os, sel, g⟩ : SCtx).view := by
    intro s t hst os sel g
    have h1 : ∀ u : Socks5, (⟨p, u, os, sel, g⟩ : SCtx).view =
      (⟨p, u.unlinked, os, sel, g⟩ : SCtx).view := fun _ => rfl
    rw [h1 s, h1 t, hst]
  have h1 : (w'.ctx p).view = (⟨p, w.mem p, w'.os, w'.sel, w'.g⟩ : SCtx).view :=
    hview _ _ h.mem _ _ _
  rw [h1]
  simp only [Ctx.view, World.ctx, hc1, hc2, ho.1, ho.2, h.logging]
  rfl

theorem Local.of_unlinked {s t : Socks5} (h : Local s) (he : t.unlinked = s.unlinked) : Local t := by
  have h1 : ∀ u : Socks5, Local u ↔ Local u.unlinked := fun u =>
    ⟨fun h => ⟨h.rb, h.rbLimit, h.wb, h.wbLimit, h.refs, h.unlogged, h.origin_ne⟩,
      fun h => ⟨h.rb, h.rbLimit, h.wb, h.wbLimit, h.refs, h.unlogged, h.origin_ne⟩⟩
  rw [h1, he, ← h1]
  exact h

theorem Kept.own (h : Kept w w' p) (ht : Table w'.os w'.sel) (hs : Own (w.ctx p)) :
    Own (w'.ctx p) := by
  refine ⟨?_, fun fd hor => ?_, hs.here.of_unlinked h.mem, ht⟩
  · obtain ⟨h1, h2⟩ := h.fds _ (Or.inl rfl)
    have hc := hs.client
    unfold Owns at hc ⊢
    show (∃ i, w'.sel.fds (w'.mem p).clientFd = some ⟨i, .socks5, p⟩) ∧
      ∃ k, w'.os.fds (w'.mem p).clientFd = some k
    rw [h.clientFd, h1, h2]
    exact hc
  · have hor' : (w.mem p).originFd = some fd := h.originFd ▸ hor
    obtain ⟨h1, h2⟩ := h.fds fd (Or.inr hor')
    have hc := hs.origin fd hor'
    unfold Owns at hc ⊢
    show (∃ i, w'.sel.fds fd = some ⟨i, .socks5, p⟩) ∧ ∃ k, w'.os.fds fd = some k
    rw [h1, h2]
    exact hc

theorem Kept.calm (h : Kept w w' p) (hc : Calm (w.ctx p)) : Calm (w'.ctx p) := by
  have hst : (w'.mem p).stm = (w.mem p).stm := (congrArg Socks5.stm h.mem :)
  refine ⟨hc.rest.congr h.view (congrArg (fun s => (copyClientInterest s, copyOriginInterest s))
    h.mem :), ?_, ?_⟩
  · show (w'.mem p).stm ≠ _
    rw [hst]; exact hc.notDone
  · show (w'.mem p).stm ≠ _
    rw [hst]; exact hc.notError

end Kept

section Beside
variable {busy : Ptr → Prop} {ρ ρ' ρ'' : Roster} {w w' w'' : World}

theorem Beside.refl (busy : Ptr → Prop) (ρ : Roster) (w : World) : Beside busy ρ ρ w w :=
  ⟨fun _ hq _ => ⟨hq, .refl _ _⟩, fun _ hm _ => ⟨hm, .refl _ _⟩⟩

theorem Beside.trans (h : Beside busy ρ ρ' w w') (h' : Beside busy ρ' ρ'' w' w'') :
    Beside busy ρ ρ'' w w'' := by
  refine ⟨fun q hq hb => ?_, fun m hm hb => ?_⟩
  · obtain ⟨h1, h2⟩ := h.sessions q hq hb
    obtain ⟨h3, h4⟩ := h'.sessions q h1 hb
    exact ⟨h3, h2.trans h4⟩
  · obtain ⟨h1, h2⟩ := h.admins m hm hb
    obtain ⟨h3, h4⟩ := h'.admins m h1 hb
    exact ⟨h3, h2.trans h4⟩

end Beside

end Socks5d
