import Socks5d.Request

/-! # The callbacks refine the abstract machine

What the selector calls, for a session at rest: the machine takes its event,
the pump carries it as far as it goes, and the session is at rest again. -/
namespace Socks5d
open Buffer Ctx View
variable {strict : Prop}

theorem Moves.ledger {v v' : View} (h : Moves strict v v') (hl : v.Ledger) : v'.Ledger := by
  induction h with
  | refl => exact hl
  | tail _ hm ih => exact hm.ledger ih

/-- A session in state `st`, with all its invariants. -/
structure InState (c : SCtx) (st : SocksState) : Prop where
  own : Own c
  sane : c.view.Sane
  ledger : c.view.Ledger
  st : c.s.stm = some st

theorem Leads.inState {c : SCtx} {st : SocksState} {r : SCtx × SocksState} (h : InState c st)
    (hl : Leads strict c r) : InState r.1 r.2 :=
  ⟨hl.good.own, hl.moves.sane h.sane, hl.moves.ledger h.ledger, hl.st⟩

theorem Leads.trans {c : SCtx} {r r' : SCtx × SocksState} (hc : Own c) (h : Leads strict c r)
    (h' : Leads strict r.1 r') : Leads strict c r' :=
  ⟨h.good.trans hc h'.good, h.moves.trans h'.moves, h'.st, h'.rest⟩

/-- The jump after a handler does not undo its progress. -/
theorem Handled.leads_progress {c : SCtx} {st : SocksState}
    {event : StateDefinition SCtx SocksState → Option (Fd → SCtx → SCtx × SocksState)}
    {h : Fd → SCtx → SCtx × SocksState} {fd : Fd} (hc : Own c) (hst : c.s.stm = some st)
    (hev : event (clientStatbl st) = some h)
    (hh : Handled strict c st (h fd c) ∧ Progress st (h fd c)) :
    Leads strict c (sessionStm.stmHandler event fd c) ∧
      Progress st (sessionStm.stmHandler event fd c) := by
  refine ⟨hh.1.leads hc hst hev, ?_⟩
  rw [stmHandler_eq hst hev, jump_eq hh.1.within]
  rcases hh.2 with ⟨heq, hrb⟩ | hlt
  · rw [if_pos heq]; exact Or.inl ⟨heq, hrb⟩
  · exact Or.inr hlt

/-! ## One event -/

/-- A read event in a reading state. -/
theorem read_leads {c : SCtx} {st : SocksState} (h : InState c st) (hr : st.isRead = true) :
    Leads strict c (sessionStm.stmHandlerRead c.s.clientFd c) ∧
      Progress st (sessionStm.stmHandlerRead c.s.clientFd c) := by
  cases st
  case helloRead => exact Handled.leads_progress h.own h.st rfl (helloRead_handled h.own h.sane h.st)
  case authRead => exact Handled.leads_progress h.own h.st rfl (authRead_handled h.own h.sane h.st)
  case requestRead =>
    exact Handled.leads_progress h.own h.st rfl (requestRead_handled h.own h.sane h.st)
  all_goals cases hr

/-- A write event in a writing state. -/
theorem write_leads {c : SCtx} {st : SocksState} (h : InState c st) (hw : st.isWrite = true) :
    Leads strict c (sessionStm.stmHandlerWrite c.s.clientFd c) ∧
      Progress st (sessionStm.stmHandlerWrite c.s.clientFd c) := by
  cases st
  case helloWrite =>
    exact Handled.leads_progress h.own h.st rfl (helloWrite_handled h.own h.sane h.st)
  case authWrite => exact Handled.leads_progress h.own h.st rfl (authWrite_handled h.own h.sane h.st)
  case requestWrite =>
    exact Handled.leads_progress h.own h.st rfl (requestWrite_handled h.own h.sane h.st)
  all_goals cases hw

/-! ## The pump -/

/-- What the turns still to come can use up. -/
def pumpMeasure (c : SCtx) (st : SocksState) : Nat :=
  2 * st.rank + if c.view.rb = [] then 0 else 1

theorem pumpMeasure_lt {c : SCtx} {st : SocksState} {r : SCtx × SocksState}
    (hp : Progress st r) (hr : st.isRead = true ∧ c.view.rb ≠ [] ∨ r.2 ≠ st) :
    pumpMeasure r.1 r.2 < pumpMeasure c st := by
  have hone : ∀ v : View, (if v.rb = [] then 0 else 1) ≤ 1 := fun v => by split <;> omega
  have h1 := hone r.1.view
  unfold pumpMeasure
  rcases hp with ⟨heq, hrb⟩ | hlt
  · rcases hr with ⟨hread, hne⟩ | hne
    · rw [heq, if_pos (hrb hread), if_neg hne]; omega
    · exact absurd heq hne
  · omega

/-- The `while (1)` of `socksv5_pump`, which has come to its end with `r`. -/
inductive Pumped (fd : Fd) : SCtx → SocksState → SCtx × SocksState → Prop
  | read {c : SCtx} {st : SocksState} {r : SCtx × SocksState} :
      (st.isRead && c.s.readBuffer.bufferCanRead) = true →
      Pumped fd (sessionStm.stmHandlerRead fd c).1 (sessionStm.stmHandlerRead fd c).2 r →
      Pumped fd c st r
  | write {c : SCtx} {st : SocksState} {r : SCtx × SocksState} :
      ¬(st.isRead && c.s.readBuffer.bufferCanRead) = true → st.isWrite = true →
      (sessionStm.stmHandlerWrite c.s.clientFd c).2 ≠ st →
      Pumped fd (sessionStm.stmHandlerWrite c.s.clientFd c).1
        (sessionStm.stmHandlerWrite c.s.clientFd c).2 r → Pumped fd c st r
  | sending {c : SCtx} {st : SocksState} :
      ¬(st.isRead && c.s.readBuffer.bufferCanRead) = true → st.isWrite = true →
      (sessionStm.stmHandlerWrite c.s.clientFd c).2 = st →
      Pumped fd c st ((sessionStm.stmHandlerWrite c.s.clientFd c).1, st)
  | rest {c : SCtx} {st : SocksState} :
      ¬(st.isRead && c.s.readBuffer.bufferCanRead) = true → ¬st.isWrite = true →
      Pumped fd c st (c, st)

/-- What the pump is for: it ends, at a session that waits. -/
structure PumpsTo (strict : Prop) (fd : Fd) (c : SCtx) (st : SocksState) (r : SCtx × SocksState) :
    Prop where
  leads : Leads strict c r
  rest : Settled r.1
  ends : Pumped fd c st r

theorem pumpLoop_leads : ∀ (n : Nat) {c : SCtx} {st : SocksState} (fd : Fd), InState c st →
    (1 < st.rank → fd = c.s.clientFd) → (st.isRead = false → Settled c) →
    pumpMeasure c st < n → PumpsTo strict fd c st (pumpLoop fd n c st)
  | 0, _, _, _, _, _, _, hm => absurd hm (Nat.not_lt_zero _)
  | n + 1, c, st, fd, h, hfd, hrest, hm => by
    have hagain : ∀ r : SCtx × SocksState, Leads strict c r → Progress st r →
        (st.isRead = true ∧ c.view.rb ≠ [] ∨ r.2 ≠ st) →
        (Pumped fd r.1 r.2 (pumpLoop fd n r.1 r.2) → Pumped fd c st (pumpLoop fd n r.1 r.2)) →
        PumpsTo strict fd c st (pumpLoop fd n r.1 r.2) := by
      intro r hl hp hr hturn
      have hlt := pumpMeasure_lt hp hr
      have hrank : r.2.rank ≤ st.rank := by
        rcases hp with ⟨heq, -⟩ | hlt
        · rw [heq]
        · exact Nat.le_of_lt hlt
      have ih := pumpLoop_leads n fd (hl.inState h)
        (fun h1 => by rw [hl.good.frame.clientFd]; exact hfd (Nat.lt_of_lt_of_le h1 hrank))
        hl.rest (by omega)
      exact ⟨hl.trans h.own ih.leads, ih.rest, hturn ih.ends⟩
    have hself : Leads strict c (c, st) := ⟨.refl h.own, .refl, h.st, hrest⟩
    unfold pumpLoop
    split
    · next hc =>
      have hgo := hc
      simp only [Bool.and_eq_true] at hc
      have hrank : 1 < st.rank := by
        have := hc.1
        revert this
        cases st <;> decide
      have hrb : c.view.rb ≠ [] := h.own.here.rb.canRead_iff.mp hc.2
      rw [hfd hrank]
      obtain ⟨hl, hp⟩ := read_leads h hc.1
      rw [← hfd hrank] at hl hp ⊢
      exact hagain _ hl hp (Or.inl ⟨hc.1, hrb⟩) (.read hgo)
    · next hc =>
      split
      · next hw =>
        obtain ⟨hl, hp⟩ := write_leads h hw
        simp only
        split
        · next heq =>
          have hl' : Leads strict c ((sessionStm.stmHandlerWrite c.s.clientFd c).1, st) :=
            ⟨hl.good, hl.moves, by rw [← heq]; exact hl.st, by rw [← heq]; exact hl.rest⟩
          exact ⟨hl', settled_of_isWrite hl'.st hw, .sending hc hw heq⟩
        · next hne => exact hagain _ hl hp (Or.inr hne) (.write hc hw hne)
      · next hw =>
        refine ⟨hself, ?_, .rest hc hw⟩
        cases hr : st.isRead with
        | false => exact hrest hr
        | true =>
          have hrb : c.view.rb = [] := h.own.here.rb.canRead_false.mp (by simpa [hr] using hc)
          have hvst : c.view.st = some st := h.st
          refine .of_rest h.st (fun he => by rw [he] at hr; cases hr) ?_
          unfold View.Rest
          rw [hvst]
          cases st <;> first | exact hrb | cases hr

/-! ## The callbacks -/

/-- A session between two callbacks. -/
structure Live (c : SCtx) : Prop where
  own : Own c
  sane : c.view.Sane
  ledger : c.view.Ledger
  rest : Settled c
  notDone : c.s.stm ≠ some .done
  notError : c.s.stm ≠ some .error

/-- What a callback leads to. -/
structure Served (strict : Prop) (c : SCtx) (r : SCtx × SocksState) : Prop where
  good : Good c r.1
  moves : Moves strict c.view r.1.view
  st : r.1.s.stm = some r.2
  rest : Settled r.1

theorem Live.inState {c : SCtx} {st : SocksState} (h : Live c) (hst : c.s.stm = some st) :
    InState c st := ⟨h.own, h.sane, h.ledger, hst⟩

/-- After its event a session has its invariants, in the state it was sent to. -/
theorem Leads.entered {c : SCtx} {r : SCtx × SocksState} (h : Live c) (hl : Leads strict c r) :
    InState r.1 r.2 := ⟨hl.good.own, hl.moves.sane h.sane, hl.moves.ledger h.ledger, hl.st⟩

/-- What enters the pump: the event of a session has been handled, and what is
left to pump comes from its client. -/
structure Entry (strict : Prop) (c : SCtx) (fd : Fd) (r : SCtx × SocksState) : Prop where
  leads : Leads strict c r
  mine : 1 < r.2.rank → fd = r.1.s.clientFd

theorem Entry.pumpsTo {c : SCtx} {r : SCtx × SocksState} {fd : Fd} (h : Live c)
    (he : Entry strict c fd r) : PumpsTo strict fd r.1 r.2 (socksv5Pump fd r.1 r.2) := by
  have hm : pumpMeasure r.1 r.2 < pumpFuel := by
    have h1 : r.2.rank ≤ 6 := by cases r.2 <;> decide
    have h2 : (if r.1.view.rb = [] then 0 else 1) ≤ 1 := by split <;> omega
    unfold pumpMeasure pumpFuel
    omega
  exact pumpLoop_leads pumpFuel fd (he.leads.entered h) he.mine he.leads.rest hm

/-- The pump after the event that started it. -/
theorem Entry.served {c : SCtx} {r : SCtx × SocksState} {fd : Fd} (h : Live c)
    (he : Entry strict c fd r) : Served strict c (socksv5Pump fd r.1 r.2) := by
  have hp := he.pumpsTo h
  have h3 := he.leads.trans h.own hp.leads
  exact ⟨h3.good, h3.moves, h3.st, hp.rest⟩

theorem Settled.setFailure {c : SCtx} (h : Settled c) (reason : FailureReason) :
    Settled (socks5SetFailure reason c) := ⟨h.rest, h.armed⟩

/-- Only the view and the buffers matter. -/
theorem Settled.congr {c c' : SCtx} (h : Settled c) (hv : c'.view = c.view)
    (hi : (copyClientInterest c'.s, copyOriginInterest c'.s) =
      (copyClientInterest c.s, copyOriginInterest c.s)) : Settled c' := by
  obtain ⟨h1, h2⟩ := Prod.mk.inj hi
  exact ⟨hv ▸ h.rest, fun hst => by rw [hv, h1, h2]; exact h.armed ((congrArg View.st hv).symm.trans hst)⟩

theorem Served.noteFailure {c : SCtx} {r : SCtx × SocksState} (h : Served strict c r) (hc : Own c)
    (reason : FailureReason) : Served strict c (noteFailure reason r) := by
  unfold Socks5d.noteFailure
  split
  · have h1 := h.good.own.setFailure reason
    exact ⟨h.good.trans hc h1, h.moves, h.st, h.rest.setFailure reason⟩
  · exact h

theorem handleFirst_some {c : SCtx} {st : SocksState} (hst : c.s.stm = some st) (fd : Fd) :
    sessionStm.handleFirst fd c = c := by
  have hcur : sessionStm.current c = some st := hst
  unfold StateMachine.handleFirst
  rw [hcur]

/-- The first event of a session: `handle_first`, then the event itself. -/
theorem handleFirst_spec {c : SCtx} (h : Live c) (hst : c.s.stm = none) (fd : Fd) :
    Good c (sessionStm.handleFirst fd c) ∧
    Moves strict c.view (sessionStm.handleFirst fd c).view ∧
    InState (sessionStm.handleFirst fd c) .helloRead ∧
    (∀ event, sessionStm.stmHandler event fd c =
      sessionStm.stmHandler event fd (sessionStm.handleFirst fd c)) := by
  have hcur : sessionStm.current c = none := hst
  have heq : sessionStm.handleFirst fd c =
      ((c.modify fun s => { s with stm := some .helloRead }).note
        (.entered .helloRead c.os.now)).setClient (.hello helloStart) := by
    unfold StateMachine.handleFirst
    rw [hcur]; rfl
  have h1 : Good c (c.modify fun s => { s with stm := some .helloRead }) :=
    h.own.modify ⟨rfl, rfl, rfl, rfl, rfl, rfl⟩
  have h2 := h1.trans h.own (h1.own.note (o := .entered .helloRead c.os.now) rfl)
  have h3 := h2.trans h.own (h2.own.setClient (.hello helloStart))
  have hm : Moves strict c.view (sessionStm.handleFirst fd c).view := by
    rw [heq]; exact .single (.start c.os.now hst)
  have hst' : (sessionStm.handleFirst fd c).s.stm = some .helloRead := by rw [heq]; rfl
  refine ⟨heq ▸ h3, hm, ⟨heq ▸ h3.own, hm.sane h.sane, hm.ledger h.ledger, hst'⟩, fun event => ?_⟩
  unfold StateMachine.stmHandler
  rw [handleFirst_some hst']

theorem Live.relay {c : SCtx} (h : Live c) (hst : c.s.stm = some .copy) : Relay c :=
  ⟨h.own, hst, (sane_copy hst).mp h.sane⟩

theorem Live.flowing {c : SCtx} (h : Live c) (hst : c.s.stm = some .copy) : c.view.Flowing := by
  have hr := h.rest.rest
  have hvst : c.view.st = some .copy := hst
  unfold View.Rest at hr
  rw [hvst] at hr
  exact hr

/-- What the relay watches for reading has not ended. -/
theorem Settled.reading {c : SCtx} (h : Settled c) (hst : c.s.stm = some .copy) :
    (c.view.ci.read = true → (c.view.copyOf .c2o).eof = false) ∧
      (c.view.oi.read = true → (c.view.copyOf .o2c).eof = false) := by
  obtain ⟨hci, hoi⟩ := h.armed hst
  constructor
  · intro hr
    rw [hci, copyClientInterest, copyOf_view] at hr
    simp only [Bool.and_eq_true, Bool.not_eq_true'] at hr
    exact hr.1
  · intro hr
    rw [hoi, copyOriginInterest, copyOf_view] at hr
    simp only [Bool.and_eq_true, Bool.not_eq_true'] at hr
    exact hr.1

/-! What a session is watched for tells its state. -/

section Watched
variable {v : View} {st : SocksState}

theorem client_reading (hs : v.Sane) (hst : v.st = some st) (hd : st ≠ .done) (he : st ≠ .error)
    (hr : v.ci.read = true) : st.isRead = true ∨ st = .copy := by
  have hno : v.ci ≠ opWrite ∧ v.ci ≠ opNoop :=
    ⟨fun h => (by rw [h] at hr; cases hr), fun h => (by rw [h] at hr; cases hr)⟩
  simp only [Sane, hst] at hs
  cases st with
  | helloRead | authRead | requestRead => exact Or.inl rfl
  | copy => exact Or.inr rfl
  | done => exact absurd rfl hd
  | error => exact absurd rfl he
  | helloWrite | authWrite => exact absurd hs.2.2.1 hno.1
  | requestWrite => exact absurd hs.2.1 hno.1
  | requestResolv => exact absurd hs.2.2.1 hno.2
  | connecting =>
    obtain ⟨-, -, -, h1, h2⟩ := hs
    by_cases ho : v.originFd = none
    · rcases h1 ho with h | h
      · exact absurd h hno.2
      · exact absurd h hno.1
    · exact absurd (h2 ho).1 hno.2

theorem client_writing (hs : v.Sane) (hst : v.st = some st) (hd : st ≠ .done) (he : st ≠ .error)
    (hw : v.ci.write = true) : st.isWrite = true ∨ st = .connecting ∨ st = .copy := by
  have hno : v.ci ≠ opRead ∧ v.ci ≠ opNoop :=
    ⟨fun h => (by rw [h] at hw; cases hw), fun h => (by rw [h] at hw; cases hw)⟩
  simp only [Sane, hst] at hs
  cases st with
  | helloWrite | authWrite | requestWrite => exact Or.inl rfl
  | connecting => exact Or.inr (Or.inl rfl)
  | copy => exact Or.inr (Or.inr rfl)
  | done => exact absurd rfl hd
  | error => exact absurd rfl he
  | helloRead | authRead | requestRead => exact absurd hs.2.2.1 hno.1
  | requestResolv => exact absurd hs.2.2.1 hno.2

/-- A session with an origin is connecting, about to say so, or relaying. -/
theorem origin_states (hs : v.Sane) (hst : v.st = some st) (hd : st ≠ .done) (he : st ≠ .error)
    {fd : Fd} (ho : v.originFd = some fd) :
    st = .connecting ∧ v.oi = opWrite ∨ st = .requestWrite ∧ v.oi = opNoop ∨ st = .copy := by
  have hne : v.originFd ≠ none := by rw [ho]; simp
  simp only [Sane, hst] at hs
  cases st with
  | connecting => exact Or.inl ⟨rfl, (hs.2.2.2.2 hne).2⟩
  | requestWrite => exact Or.inr (Or.inl ⟨rfl, hs.2.2.2.2 hne⟩)
  | copy => exact Or.inr (Or.inr rfl)
  | done => exact absurd rfl hd
  | error => exact absurd rfl he
  | helloRead | helloWrite | authRead | authWrite | requestRead | requestResolv =>
    exact absurd hs.1.origin hne

end Watched

/-- The states after the request has been read. -/
def SocksState.asked : SocksState → Bool
  | .requestResolv | .connecting | .requestWrite | .copy | .done | .error => true
  | _ => false

def View.Asked (v : View) : Prop := ∃ st, v.st = some st ∧ st.asked = true

/-- There is no way back to the negotiation. -/
theorem Move.asked {v v' : View} (h : Move strict v v') (hv : v.Asked) : v'.Asked := by
  obtain ⟨s, hs, ha⟩ := hv
  have hsame : v'.st = v.st → v'.Asked := fun he => ⟨s, he.trans hs, ha⟩
  have hno : ∀ st : SocksState, v.st = some st → st.asked = false → v'.Asked := by
    intro st hst hst'
    rw [Option.some.inj (hst.symm.trans hs), ha] at hst'
    cases hst'
  cases h with
  | start t hst => rw [hst] at hs; cases hs
  | helloMore p hst | helloBad p rest t hst | helloDone us p rest t hst | helloRefused t hst
  | helloToAuth stale t hst | helloToRequest stale t hst | authMore p hst | authBad p rest t hst
  | authDone us p rest t hst | authRefused t hst | authToRequest stale t hst | requestMore p hst
  | requestBad p rest t hst | requestRefused p rest r t hst | requestUnsubmitted p rest t hst
  | requestSubmitted p rest k t hst | requestLiteral p rest t hst => exact hno _ hst rfl
  | received | sent | resolved | exhausted | reported | settled | relaySynced => exact hsame rfl
  | relayEof | relayUnread | relaySent | relayUnsent | relayShut => exact hsame (by simp)
  | relayReceived => exact hsame (by simp [View.note])
  | attemptFailed | attemptUnregistered | attemptOpened => exact hsame (by simp)
  | originFailed => exact hsame (by simp)
  | connectTimedOut => exact hsame (by simp [View.note, noOrigin])
  | recvLost | sendLost | requestRefusalSent | relayDone | relayBroken | dnsFailed | dnsFound
  | gaveUp | connected | originGaveUp | relayStarted | relayUnshut => exact ⟨_, rfl, rfl⟩

/-- At most one DNS job is handed over, and only by the request. -/
def View.Once (v : View) : Prop := submissions v.hist = 0 ∨ submissions v.hist = 1 ∧ v.Asked

theorem Move.once {v v' : View} (h : Move strict v v') (hv : v.Once) : v'.Once := by
  have hkeep : submissions v'.hist = submissions v.hist → v'.Once := fun he => by
    unfold View.Once
    rw [he]
    rcases hv with h0 | ⟨h1, ha⟩
    · exact Or.inl h0
    · exact Or.inr ⟨h1, h.asked ha⟩
  cases h with
  | requestSubmitted p rest k t hst =>
    rcases hv with h0 | ⟨-, s, hs, ha⟩
    · refine Or.inr ⟨?_, _, rfl, rfl⟩
      simp [h0]
    · cases Option.some.inj (hst.symm.trans hs)
      cases ha
  | _ => exact hkeep (by simp)

theorem Moves.asked {v v' : View} (h : Moves strict v v') (hv : v.Asked) : v'.Asked := by
  induction h with
  | refl => exact hv
  | tail _ hm ih => exact hm.asked ih

/-- An event of the client. -/
theorem Leads.entry {c : SCtx} {r : SCtx × SocksState} (hl : Leads strict c r) :
    Entry strict c c.s.clientFd r := ⟨hl, fun _ => hl.good.frame.clientFd.symm⟩

/-- An event after the request: what is left to pump does not depend on the
descriptor the event came from. -/
theorem Leads.askedEntry {c : SCtx} {st : SocksState} {r : SCtx × SocksState} {fd : Fd}
    (hst : c.s.stm = some st) (ha : st.asked = true) (hl : Leads strict c r) :
    Entry strict c fd r := by
  refine ⟨hl, fun h1 => ?_⟩
  obtain ⟨s, hs, hs'⟩ := hl.moves.asked ⟨st, hst, ha⟩
  have heq : r.2 = s := Option.some.inj (hl.st.symm.trans hs)
  rw [heq] at h1
  exact absurd h1 (by revert hs'; cases s <;> decide)

/-- A read event on a descriptor the selector watches for reading. -/
theorem stmHandlerRead_entry {c : SCtx} (h : Live c) {fd : Fd}
    (hr : fd = c.s.clientFd ∧ c.view.ci.read = true ∨
      c.s.originFd = some fd ∧ c.view.oi.read = true) :
    Entry strict c fd (sessionStm.stmHandlerRead fd c) := by
  cases hst : c.s.stm with
  | none =>
    have hfd : fd = c.s.clientFd := by
      rcases hr with hr | hr
      · exact hr.1
      · have hs := h.sane
        rw [Sane, show c.view.st = none from hst] at hs
        exact absurd (hs.1.origin.symm.trans hr.1) (by simp)
    obtain ⟨h1, hm1, hi1, heq⟩ := @handleFirst_spec strict _ h hst fd
    have heq' : sessionStm.stmHandlerRead fd c =
        sessionStm.stmHandlerRead fd (sessionStm.handleFirst fd c) := heq _
    have hfd1 : fd = (sessionStm.handleFirst fd c).s.clientFd := hfd.trans h1.frame.clientFd.symm
    have hs := (@read_leads strict _ _ hi1 rfl).1
    rw [← hfd1] at hs
    rw [heq']
    have hl : Leads strict c (sessionStm.stmHandlerRead fd (sessionStm.handleFirst fd c)) :=
      ⟨h1.trans h.own hs.good, hm1.trans hs.moves, hs.st, hs.rest⟩
    have he := hl.entry
    rw [← hfd] at he
    exact he
  | some st =>
    have hi := h.inState hst
    have hd : st ≠ .done := fun he => h.notDone (he ▸ hst)
    have hne : st ≠ .error := fun he => h.notError (he ▸ hst)
    rcases hr with ⟨rfl, hr⟩ | ⟨hor, hr⟩
    · rcases client_reading h.sane hst hd hne hr with hread | rfl
      · exact (read_leads hi hread).1.entry
      · have heof := (h.rest.reading hst).1 hr
        exact Leads.askedEntry hst rfl
          ((copyRead_handled (h.relay hst) (h.flowing hst) (d := .c2o) rfl heof).leads h.own hst rfl)
    · rcases origin_states h.sane hst hd hne hor with ⟨-, ho⟩ | ⟨-, ho⟩ | rfl
      · rw [ho] at hr; cases hr
      · rw [ho] at hr; cases hr
      · have heof := (h.rest.reading hst).2 hr
        exact Leads.askedEntry hst rfl
          ((copyRead_handled (h.relay hst) (h.flowing hst) (d := .o2c) hor heof).leads h.own hst rfl)

/-- A write event on a descriptor the selector watches for writing. -/
theorem stmHandlerWrite_entry {c : SCtx} (h : Live c) {fd : Fd}
    (hw : fd = c.s.clientFd ∧ c.view.ci.write = true ∨
      c.s.originFd = some fd ∧ c.view.oi.write = true)
    (hrep : strict → c.s.originFd = some fd → c.s.stm = some .connecting →
      c.view.og.reported = true) : Entry strict c fd (sessionStm.stmHandlerWrite fd c) := by
  cases hst : c.s.stm with
  | none =>
    have hs := h.sane
    rw [Sane, show c.view.st = none from hst] at hs
    rcases hw with hw | hw
    · rw [hs.2.2.2.1] at hw; cases hw.2
    · exact absurd (hs.1.origin.symm.trans hw.1) (by simp)
  | some st =>
    have hi := h.inState hst
    have hd : st ≠ .done := fun he => h.notDone (he ▸ hst)
    have hne : st ≠ .error := fun he => h.notError (he ▸ hst)
    rcases hw with ⟨rfl, hw⟩ | ⟨hor, hw⟩
    · rcases client_writing h.sane hst hd hne hw with hwrite | rfl | rfl
      · exact (write_leads hi hwrite).1.entry
      · exact ((connectingWrite_client h.own h.sane hst hw).leads h.own hst rfl).entry
      · exact Leads.askedEntry hst rfl
          ((copyWrite_handled (h.relay hst) (h.flowing hst) (d := .o2c) rfl).leads h.own hst rfl)
    · rcases origin_states h.sane hst hd hne hor with ⟨rfl, -⟩ | ⟨-, ho⟩ | rfl
      · exact Leads.askedEntry hst rfl
          ((connectingWrite_origin h.own h.sane h.ledger hst hor
            fun hs => hrep hs hor hst).leads h.own hst rfl)
      · rw [ho] at hw; cases hw
      · exact Leads.askedEntry hst rfl
          ((copyWrite_handled (h.relay hst) (h.flowing hst) (d := .c2o) hor).leads h.own hst rfl)

/-- `socksv5_read` on a descriptor the selector watches for reading. -/
theorem socksv5Read_served {c : SCtx} (h : Live c) {fd : Fd}
    (hr : fd = c.s.clientFd ∧ c.view.ci.read = true ∨
      c.s.originFd = some fd ∧ c.view.oi.read = true) : Served strict c (socksv5Read fd c) :=
  ((stmHandlerRead_entry h hr).served h).noteFailure h.own _

/-- `socksv5_write` on a descriptor the selector watches for writing. -/
theorem socksv5Write_served {c : SCtx} (h : Live c) {fd : Fd}
    (hw : fd = c.s.clientFd ∧ c.view.ci.write = true ∨
      c.s.originFd = some fd ∧ c.view.oi.write = true)
    (hrep : strict → c.s.originFd = some fd → c.s.stm = some .connecting →
      c.view.og.reported = true) : Served strict c (socksv5Write fd c) :=
  ((stmHandlerWrite_entry h hw hrep).served h).noteFailure h.own _

/-- `socksv5_block` when the result of a resolution is in. -/
theorem socksv5Block_served {c : SCtx} (h : Live c) (hst : c.s.stm = some .requestResolv) :
    Good (resolvTaken c) (socksv5Block c.s.clientFd c).1 ∧
      Moves strict c.view (socksv5Block c.s.clientFd c).1.view ∧
      (socksv5Block c.s.clientFd c).1.s.stm = some (socksv5Block c.s.clientFd c).2 ∧
      Settled (socksv5Block c.s.clientFd c).1 := by
  obtain ⟨hg, hwithin, hne, harr⟩ :=
    @requestResolvDone_spec strict c h.own h.sane h.ledger hst
  have h0 := h.own.resolvTaken h.ledger hst
  have heq : sessionStm.stmHandlerBlock c.s.clientFd c =
      (arrive (requestResolvDone c.s.clientFd c).2 c.s.clientFd (requestResolvDone c.s.clientFd c).1,
        (requestResolvDone c.s.clientFd c).2) := by
    show sessionStm.stmHandler _ _ _ = _
    rw [stmHandler_eq (h := requestResolvDone) hst rfl, jump_eq hwithin, if_neg hne]
  obtain ⟨h1, hm, hst1, hr⟩ := harr c.s.clientFd
  have hread : (requestResolvDone c.s.clientFd c).2.isRead = false := by
    obtain ⟨s, hs, hs'⟩ := hm.asked ⟨_, hst, rfl⟩
    have hs1 : (arrive (requestResolvDone c.s.clientFd c).2 c.s.clientFd
        (requestResolvDone c.s.clientFd c).1).view.st = some (requestResolvDone c.s.clientFd c).2 :=
      hst1
    rw [Option.some.inj (hs1.symm.trans hs)]
    revert hs'
    cases s <;> decide
  unfold socksv5Block
  rw [heq]
  unfold noteFailure
  simp only
  split
  · have h2 := h1.own.setFailure .blockError
    exact ⟨hg.trans h0 (h1.trans hg.own h2), hm, hst1, (hr hread).setFailure .blockError⟩
  · exact ⟨hg.trans h0 h1, hm, hst1, hr hread⟩

end Socks5d
