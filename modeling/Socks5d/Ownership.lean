import Socks5d.View
import Mathlib.Algebra.GroupWithZero.Nat

/-! # What a session owns

A callback works on its own session, on the descriptors registered for it, and
on shared counters. `Own` says which descriptors those are and that the
session's fields agree with the tables; `Frame` says what a callback leaves
alone. Both survive every operation the handlers are made of. -/
namespace Socks5d
open Buffer

/-! ## The selector's table -/

/-- The table against the open descriptors. -/
structure Table (os : OS) (sel : Selector) : Prop where
  valid : ∀ fd it, sel.fds fd = some it → invalidFd fd = false
  opened : ∀ fd it, sel.fds fd = some it → ∃ k, os.fds fd = some k
  masterR : ∀ fd, sel.masterR fd = ((sel.fds fd).map (·.interest.read)).getD false
  masterW : ∀ fd, sel.masterW fd = ((sel.fds fd).map (·.interest.write)).getD false

/-- Replacing one item, or adding one, with the master sets kept in step. -/
theorem Table.setItem {os : OS} {sel : Selector} (h : Table os sel) {fd : Fd} (it : Item)
    (hv : invalidFd fd = false) (ho : ∃ k, os.fds fd = some k) (m : Nat) :
    Table os { sel with
      fds := Function.update sel.fds fd (some it), maxFd := m
      masterR := Function.update sel.masterR fd it.interest.read
      masterW := Function.update sel.masterW fd it.interest.write } := by
  refine ⟨fun g jt hg => ?_, fun g jt hg => ?_, fun g => ?_, fun g => ?_⟩
  · by_cases hgf : g = fd
    · rw [hgf]; exact hv
    · exact h.valid g jt (by simpa [Function.update_of_ne hgf] using hg)
  · by_cases hgf : g = fd
    · rw [hgf]; exact ho
    · exact h.opened g jt (by simpa [Function.update_of_ne hgf] using hg)
  · by_cases hgf : g = fd
    · subst hgf; simp
    · simpa [Function.update_of_ne hgf] using h.masterR g
  · by_cases hgf : g = fd
    · subst hgf; simp
    · simpa [Function.update_of_ne hgf] using h.masterW g

@[simp] theorem dropItem_self (sel : Selector) (fd : Fd) : (sel.dropItem fd).fds fd = none := by
  simp [Selector.dropItem]

theorem dropItem_other {sel : Selector} {fd g : Fd} (h : g ≠ fd) :
    (sel.dropItem fd).fds g = sel.fds g := by
  simp [Selector.dropItem, Selector.itemsUpdateFdsetForFd, Function.update_of_ne h]

theorem Table.dropItem {os : OS} {sel : Selector} (h : Table os sel) (fd : Fd) :
    Table os (sel.dropItem fd) := by
  refine ⟨fun g jt hg => ?_, fun g jt hg => ?_, fun g => ?_, fun g => ?_⟩
  · by_cases hgf : g = fd
    · subst hgf; simp [Selector.dropItem] at hg
    · rw [dropItem_other hgf] at hg
      exact h.valid g jt hg
  · by_cases hgf : g = fd
    · subst hgf; simp [Selector.dropItem] at hg
    · rw [dropItem_other hgf] at hg
      exact h.opened g jt hg
  · by_cases hgf : g = fd
    · subst hgf; simp [Selector.dropItem, Selector.itemsUpdateFdsetForFd, opNoop]
    · simpa [Selector.dropItem, Selector.itemsUpdateFdsetForFd, Function.update_of_ne hgf]
        using h.masterR g
  · by_cases hgf : g = fd
    · subst hgf; simp [Selector.dropItem, Selector.itemsUpdateFdsetForFd, opNoop]
    · simpa [Selector.dropItem, Selector.itemsUpdateFdsetForFd, Function.update_of_ne hgf]
        using h.masterW g

/-- A descriptor table in which everything registered stays open. -/
theorem Table.withFds {os os' : OS} {sel : Selector} (h : Table os sel)
    (hk : ∀ fd it, sel.fds fd = some it → (∃ k, os.fds fd = some k) → ∃ k, os'.fds fd = some k) :
    Table os' sel :=
  ⟨h.valid, fun fd it hfd => hk fd it hfd (h.opened fd it hfd), h.masterR, h.masterW⟩

theorem Table.unregistered {os : OS} {sel : Selector} (h : Table os sel) {fd : Fd}
    (hf : os.fds fd = none) : sel.fds fd = none := by
  cases hi : sel.fds fd with
  | none => rfl
  | some it =>
    obtain ⟨k, hk⟩ := h.opened fd it hi
    rw [hf] at hk; cases hk

/-- Only the descriptor table of the kernel matters, and only for what is registered. -/
theorem Table.congr {os os' : OS} {sel : Selector} (h : Table os sel) (hf : os'.fds = os.fds) :
    Table os' sel := h.withFds fun fd _ _ ho => by rw [hf]; exact ho

/-! ## What a history accounts for -/

/-- A DNS job is handed over; one is had back. -/
@[simp] def Obs.submits : Obs → Bool
  | .dnsSubmit (some _) => true
  | _ => false

@[simp] def Obs.consumes : Obs → Bool
  | .dnsConsumed _ => true
  | _ => false

/-- An origin is found connected. -/
@[simp] def Obs.connects : Obs → Bool
  | .completed none _ _ => true
  | _ => false

/-- An origin is given up; credentials are refused. -/
@[simp] def Obs.gives : Obs → Bool
  | .connectFailed => true
  | _ => false

@[simp] def Obs.refuses : Obs → Bool
  | .authProcessed _ _ status => status != 0
  | _ => false

/-- What a `send` of the relay took, in one direction. -/
@[simp] def Obs.took (d : Dir) : Obs → Nat
  | .relaySend e (some n) => if e = d then n else 0
  | _ => 0

@[simp] def Obs.ticket : Obs → Option Nat
  | .dnsSubmit k => k
  | _ => none

@[simp] def Obs.record : Obs → Option LogRecord
  | .logged r => some r
  | _ => none

def submissions (h : List Obs) : Nat := h.countP Obs.submits

def consumptions (h : List Obs) : Nat := h.countP Obs.consumes

def connections (h : List Obs) : Nat := h.countP Obs.connects

def failures (h : List Obs) : Nat := h.countP Obs.gives

def refusals (h : List Obs) : Nat := h.countP Obs.refuses

def relayed (d : Dir) (h : List Obs) : Nat := (h.map (Obs.took d)).sum

def tickets (h : List Obs) : List Nat := h.filterMap Obs.ticket

def records (h : List Obs) : List LogRecord := h.filterMap Obs.record

section Counts
variable (o : Obs) (h l : List Obs) (d : Dir)

@[simp] theorem submissions_nil : submissions [] = 0 := rfl
@[simp] theorem submissions_cons :
    submissions (o :: h) = submissions h + if o.submits = true then 1 else 0 := List.countP_cons
@[simp] theorem submissions_append : submissions (h ++ l) = submissions h + submissions l :=
  List.countP_append

@[simp] theorem consumptions_nil : consumptions [] = 0 := rfl
@[simp] theorem consumptions_cons :
    consumptions (o :: h) = consumptions h + if o.consumes = true then 1 else 0 := List.countP_cons
@[simp] theorem consumptions_append : consumptions (h ++ l) = consumptions h + consumptions l :=
  List.countP_append

@[simp] theorem connections_nil : connections [] = 0 := rfl
@[simp] theorem connections_cons :
    connections (o :: h) = connections h + if o.connects = true then 1 else 0 := List.countP_cons
@[simp] theorem connections_append : connections (h ++ l) = connections h + connections l :=
  List.countP_append

@[simp] theorem failures_nil : failures [] = 0 := rfl
@[simp] theorem failures_cons :
    failures (o :: h) = failures h + if o.gives = true then 1 else 0 := List.countP_cons
@[simp] theorem failures_append : failures (h ++ l) = failures h + failures l :=
  List.countP_append

@[simp] theorem refusals_nil : refusals [] = 0 := rfl
@[simp] theorem refusals_cons :
    refusals (o :: h) = refusals h + if o.refuses = true then 1 else 0 := List.countP_cons
@[simp] theorem refusals_append : refusals (h ++ l) = refusals h + refusals l :=
  List.countP_append

@[simp] theorem relayed_nil : relayed d [] = 0 := rfl
@[simp] theorem relayed_cons : relayed d (o :: h) = o.took d + relayed d h := by simp [relayed]
@[simp] theorem relayed_append : relayed d (h ++ l) = relayed d h + relayed d l := by
  simp [relayed]

@[simp] theorem records_nil : records [] = [] := rfl
@[simp] theorem records_append : records (h ++ l) = records h ++ records l := by simp [records]

@[simp] theorem tickets_nil : tickets [] = [] := rfl
@[simp] theorem tickets_append : tickets (h ++ l) = tickets h ++ tickets l := by simp [tickets]

@[simp] theorem submissions_logged (rs : List LogRecord) : submissions (rs.map .logged) = 0 := by
  simp [submissions, List.countP_eq_zero]
@[simp] theorem consumptions_logged (rs : List LogRecord) : consumptions (rs.map .logged) = 0 := by
  simp [consumptions, List.countP_eq_zero]

end Counts

/-- What an observation adds to the counters. -/
def Obs.charge : Obs → Metrics → Metrics
  | .completed none _ _ => Metrics.metricsOriginOk
  | .connectFailed => Metrics.metricsOriginFail
  | .authProcessed _ _ status => if status = 0 then id else Metrics.metricsAuthFail
  | .relaySend .c2o (some n) => Metrics.metricsAddBytesC2o n.toUInt64
  | .relaySend .o2c (some n) => Metrics.metricsAddBytesO2c n.toUInt64
  | _ => id

def charge (l : List Obs) (m : Metrics) : Metrics := l.foldl (fun m o => o.charge m) m

theorem charge_append (l l' : List Obs) : charge (l ++ l') = charge l' ∘ charge l := by
  funext m
  simp [charge]

@[simp] theorem charge_nil : charge [] = id := rfl

@[simp] theorem charge_singleton (o : Obs) : charge [o] = o.charge := rfl

/-- `1` when the origin descriptor is registered. -/
def originRefs (s : Socks5) : Nat := if s.originFd.isSome then 1 else 0

/-! ## Ownership -/

/-- The invariants of a session's own fields. -/
structure Local (s : Socks5) : Prop where
  rb : WF s.readBuffer
  rbLimit : s.readBuffer.limit = bufferSize
  wb : WF s.writeBuffer
  wbLimit : s.writeBuffer.limit = bufferSize
  refs : s.references + consumptions s.hist = 1 + originRefs s + submissions s.hist
  /-- The record of its end is written when the session ends. -/
  unlogged : s.logEmitted = false
  origin_ne : s.originFd ≠ some s.clientFd

/-- A descriptor that is open and registered for the session. -/
def Owns (c : SCtx) (fd : Fd) : Prop :=
  (∃ i, c.sel.fds fd = some ⟨i, .socks5, c.self⟩) ∧ ∃ k, c.os.fds fd = some k

structure Own (c : SCtx) : Prop where
  client : Owns c c.s.clientFd
  origin : ∀ fd, c.s.originFd = some fd → Owns c fd
  here : Local c.s
  table : Table c.os c.sel

/-- What the session looks like to its abstract machine. -/
def Ctx.view (c : SCtx) : View where
  st := c.s.stm
  client := c.s.client
  orig := c.s.orig
  rb := c.s.readBuffer.unread
  wb := c.s.writeBuffer.unread
  clientFd := c.s.clientFd
  originFd := c.s.originFd
  cl := (c.os.fds c.s.clientFd).getD .none
  ci := ((c.sel.fds c.s.clientFd).map Item.interest).getD opNoop
  og := (c.s.originFd.bind c.os.fds).getD .none
  oi := ((c.s.originFd.bind c.sel.fds).map Item.interest).getD opNoop
  found := c.s.originResolution
  user := c.s.authenticatedUser
  dest := if c.s.destinationSet then some (c.s.destination, c.s.destinationPort) else none
  lastActivity := c.s.lastActivity
  logging := c.g.accessLog.isSome
  opened := c.s.tunnelOpened
  hist := c.s.hist

/-! ## Frames -/

/-- The parts of the kernel that no callback of a session changes, except that a
`send` may have ended the process. -/
def OS.still (o : OS) : OS := { o with fds := fun _ => none, calls := 0, sends := 0, killed := none }

/-- The selector's parts that no callback of a session changes. -/
def Selector.still (s : Selector) : (Fd → Bool) × (Fd → Bool) × List Fd :=
  (s.slaveR, s.slaveW, s.resolutionJobs)

def Globals.still (g : Globals) : Globals :=
  { g with metrics := none, accessLog := none, dnsWorker := none }

/-- The fields of a session that only the accept and close code and the DNS
worker write. -/
def Socks5.still (s : Socks5) :
    Fd × Option Ptr × Option Ptr × Option Ptr × Int × Bool × List SockAddr :=
  (s.clientFd, s.next, s.activePrev, s.activeNext, s.negotiationDeadline, s.logEmitted,
    s.originResolution)

/-- A `send` has been answered `EPIPE` in a process that does not handle it. -/
def OS.Piped (o : OS) : Prop :=
  (∃ k, (o.sendAnswers k).err = some .EPIPE) ∧ o.sigpipeHandled = false

/-- The process goes on, or such a `send` has ended it. -/
def OS.Lives (o o' : OS) : Prop :=
  o'.killed = o.killed ∨ o.Piped ∧ o'.killed = o.killed.or (some .sigpipe)

/-- The history of a session grew by `l`, and with it the counters, the log and
the queue of the DNS worker, by `js`. -/
structure Past (c c' : SCtx) (l : List Obs) (js : List DnsJob) : Prop where
  hist : c'.s.hist = c.s.hist ++ l
  metrics : c'.g.metrics = c.g.metrics.map (charge l)
  log : c'.g.accessLog = c.g.accessLog.map (· ++ records l)
  dns : c'.g.dnsWorker = c.g.dnsWorker.map fun w =>
    { w with queue := w.queue ++ js, submitted := w.submitted ++ js }
  jobs : ∀ j ∈ js, j.target = c.self ∧ j.fd = c.s.clientFd
  submitted : submissions l = js.length
  tickets : ∀ w, c.g.dnsWorker = some w →
    Socks5d.tickets l = List.range' w.submitted.length js.length
  /-- Only the block handler has a job back. -/
  consumed : consumptions l = 0

/-- `c'` comes from `c` by operations of the session `c` is the context of. -/
structure Frame (c c' : SCtx) : Prop where
  self : c'.self = c.self
  still : c'.s.still = c.s.still
  /-- Descriptors of others stay as they are. -/
  foreign : ∀ fd, fd ≠ c.s.clientFd → c.s.originFd ≠ some fd → c'.s.originFd ≠ some fd →
    c'.os.fds fd = c.os.fds fd ∧ c'.sel.fds fd = c.sel.fds fd
  /-- An origin given up is closed and unregistered. -/
  dropped : ∀ fd, c.s.originFd = some fd → c'.s.originFd ≠ some fd →
    c'.os.fds fd = none ∧ c'.sel.fds fd = none
  /-- A new origin has the lowest number that was free. -/
  fresh : ∀ fd, c'.s.originFd = some fd → c.s.originFd = some fd ∨
    c.os.fds fd = none ∧ ∀ g < fd, c.os.fds g ≠ none ∧ c.s.originFd ≠ some g
  os : c'.os.still = c.os.still
  sel : c'.sel.still = c.sel.still
  g : c'.g.still = c.g.still
  lives : c.os.Lives c'.os
  past : ∃ l js, Past c c' l js

theorem Frame.clientFd {c c' : SCtx} (h : Frame c c') : c'.s.clientFd = c.s.clientFd :=
  congrArg Prod.fst h.still

/-- `c'` is still the context of a session in good order. -/
structure Good (c c' : SCtx) : Prop where
  frame : Frame c c'
  own : Own c'

theorem Past.refl (c : SCtx) : Past c c [] [] where
  hist := (List.append_nil _).symm
  metrics := by cases c.g.metrics <;> rfl
  log := by cases c.g.accessLog <;> simp
  dns := by cases c.g.dnsWorker <;> simp
  jobs := by simp
  submitted := rfl
  tickets := fun _ _ => rfl
  consumed := rfl

/-- Nothing happened that anyone keeps count of. -/
theorem past_none {c c' : SCtx} (hh : c'.s.hist = c.s.hist) (hg : c'.g = c.g) :
    ∃ l js, Past c c' l js :=
  ⟨[], [], { Past.refl c with
    hist := by rw [hh, List.append_nil]
    metrics := by rw [hg]; exact (Past.refl c).metrics
    log := by rw [hg]; exact (Past.refl c).log
    dns := by rw [hg]; exact (Past.refl c).dns }⟩

theorem Past.trans {a b c : SCtx} {l₁ l₂ : List Obs} {j₁ j₂ : List DnsJob} (hs : b.self = a.self)
    (hc : b.s.clientFd = a.s.clientFd) (h₁ : Past a b l₁ j₁) (h₂ : Past b c l₂ j₂) :
    Past a c (l₁ ++ l₂) (j₁ ++ j₂) where
  hist := by rw [h₂.hist, h₁.hist, List.append_assoc]
  metrics := by rw [h₂.metrics, h₁.metrics, Option.map_map, charge_append]
  log := by
    rw [h₂.log, h₁.log, Option.map_map, records_append]
    congr 1
    funext L
    simp
  dns := by
    rw [h₂.dns, h₁.dns, Option.map_map]
    congr 1
    funext w
    simp
  jobs j hj := by
    rcases List.mem_append.mp hj with h | h
    · exact h₁.jobs j h
    · rw [← hs, ← hc]; exact h₂.jobs j h
  submitted := by rw [submissions_append, List.length_append, h₁.submitted, h₂.submitted]
  tickets w hw := by
    have hb := h₁.dns
    rw [hw] at hb
    rw [tickets_append, h₁.tickets w hw, h₂.tickets _ hb, List.length_append, List.length_append,
      ← List.range'_append_1]
  consumed := by rw [consumptions_append, h₁.consumed, h₂.consumed]

theorem Frame.refl (c : SCtx) : Frame c c where
  self := rfl
  still := rfl
  foreign _ _ _ _ := ⟨rfl, rfl⟩
  dropped _ h h' := absurd h h'
  fresh _ h := Or.inl h
  os := rfl
  sel := rfl
  g := rfl
  lives := Or.inl rfl
  past := ⟨[], [], .refl c⟩

theorem OS.Piped.congr {o o' : OS} (h : o'.still = o.still) (hp : o'.Piped) : o.Piped := by
  have ha : o'.sendAnswers = o.sendAnswers := (OS.mk.inj h).2.2.2.2.2.1
  have hs : o'.sigpipeHandled = o.sigpipeHandled := (OS.mk.inj h).2.2.2.2.2.2.2.2.1
  obtain ⟨⟨k, hk⟩, hh⟩ := hp
  exact ⟨⟨k, by rw [← ha]; exact hk⟩, by rw [← hs]; exact hh⟩

theorem OS.Lives.trans {a b c : OS} (hs : b.still = a.still) (h₁ : a.Lives b) (h₂ : b.Lives c) :
    a.Lives c := by
  rcases h₂ with h | ⟨hp, h⟩
  · rcases h₁ with h' | ⟨hp', h'⟩
    · exact Or.inl (h.trans h')
    · exact Or.inr ⟨hp', h.trans h'⟩
  · rcases h₁ with h' | ⟨-, h'⟩
    · exact Or.inr ⟨hp.congr hs, by rw [h, h']⟩
    · exact Or.inr ⟨hp.congr hs, by rw [h, h', Option.or_assoc]; rfl⟩

/-- The process is running, or a `send` of the current step has ended it. -/
def OS.Alive (o : OS) : Prop := o.killed = none ∨ o.Piped ∧ o.killed = some .sigpipe

theorem OS.Lives.alive {o o' : OS} (h : o.Lives o') (hs : o'.still = o.still) (ha : o.Alive) :
    o'.Alive := by
  rcases h with h | ⟨hp, h⟩
  · rcases ha with ha | ⟨hp, ha⟩
    · exact Or.inl (h.trans ha)
    · exact Or.inr ⟨hp.congr hs.symm, h.trans ha⟩
  · refine Or.inr ⟨hp.congr hs.symm, ?_⟩
    rw [h]
    rcases ha with ha | ⟨-, ha⟩ <;> rw [ha] <;> rfl

theorem Frame.trans {a b c : SCtx} (ha : Own a) (hb : Own b) (h₁ : Frame a b)
    (h₂ : Frame b c) : Frame a c where
  self := h₂.self.trans h₁.self
  still := h₂.still.trans h₁.still
  foreign fd hc ho ho' := by
    by_cases hbo : b.s.originFd = some fd
    · -- an origin that came and went: it was free before, and is again
      obtain ⟨h1, h2⟩ := h₂.dropped fd hbo ho'
      rcases h₁.fresh fd hbo with h | ⟨hf, _⟩
      · exact absurd h ho
      · exact ⟨h1.trans hf.symm, h2.trans (ha.table.unregistered hf).symm⟩
    · obtain ⟨h1, h2⟩ := h₁.foreign fd hc ho hbo
      obtain ⟨h3, h4⟩ := h₂.foreign fd (by rw [h₁.clientFd]; exact hc) hbo ho'
      exact ⟨h3.trans h1, h4.trans h2⟩
  dropped fd ho ho' := by
    by_cases hbo : b.s.originFd = some fd
    · exact h₂.dropped fd hbo ho'
    · obtain ⟨h1, h2⟩ := h₁.dropped fd ho hbo
      have hc : fd ≠ b.s.clientFd := by
        intro he
        rw [h₁.clientFd] at he
        exact ha.here.origin_ne (he ▸ ho)
      obtain ⟨h3, h4⟩ := h₂.foreign fd hc hbo ho'
      exact ⟨h3.trans h1, h4.trans h2⟩
  fresh fd hc := by
    rcases h₂.fresh fd hc with h | ⟨hfree, hlow⟩
    · exact h₁.fresh fd h
    · by_cases hao : a.s.originFd = some fd
      · exact Or.inl hao
      · have hbo : b.s.originFd ≠ some fd := by
          intro h
          obtain ⟨k, hk⟩ := (hb.origin fd h).2
          rw [hfree] at hk; cases hk
        have hcl : fd ≠ a.s.clientFd := by
          intro h
          obtain ⟨k, hk⟩ := hb.client.2
          rw [h₁.clientFd, ← h, hfree] at hk; cases hk
        refine Or.inr ⟨(h₁.foreign fd hcl hao hbo).1 ▸ hfree, fun g hg => ?_⟩
        obtain ⟨hgo, hgb⟩ := hlow g hg
        have hga : a.s.originFd ≠ some g := fun h => hgo (h₁.dropped g h hgb).1
        refine ⟨fun hn => ?_, hga⟩
        have hgc : g ≠ a.s.clientFd := by
          intro h
          obtain ⟨k, hk⟩ := ha.client.2
          rw [← h, hn] at hk; cases hk
        exact hgo ((h₁.foreign g hgc hga hgb).1.trans hn)
  os := h₂.os.trans h₁.os
  sel := h₂.sel.trans h₁.sel
  g := h₂.g.trans h₁.g
  lives := h₁.lives.trans h₁.os h₂.lives
  past := by
    obtain ⟨l1, j1, hp1⟩ := h₁.past
    obtain ⟨l2, j2, hp2⟩ := h₂.past
    exact ⟨l1 ++ l2, j1 ++ j2, hp1.trans h₁.self h₁.clientFd hp2⟩

theorem Good.refl {c : SCtx} (h : Own c) : Good c c := ⟨Frame.refl c, h⟩

theorem Good.trans {a b c : SCtx} (ha : Own a) (h₁ : Good a b) (h₂ : Good b c) : Good a c :=
  ⟨h₁.frame.trans ha h₁.own h₂.frame, h₂.own⟩

end Socks5d
