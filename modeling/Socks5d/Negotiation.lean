import Socks5d.Calls

/-! # The negotiation refines its abstract machine

HELLO, AUTH and REQUEST: each event handler, with the jump that follows it,
keeps its session in good order and makes only moves of the abstract machine. -/
namespace Socks5d
open Buffer Ctx View Lib.CString
variable {strict : Prop}

/-! ## The engine -/

/-- `jump` into a new state: no state has a departure hook. -/
def arrive (st : SocksState) (fd : Fd) (c : SCtx) : SCtx :=
  StateMachine.runHook (clientStatbl st).onArrival fd (sessionStm.setCurrent st c)

theorem jump_eq {c : SCtx} {st : SocksState} (hst : c.s.stm = some st) (next : SocksState)
    (fd : Fd) : sessionStm.jump next fd c = if next = st then c else arrive next fd c := by
  have hc : sessionStm.current c = some st := hst
  have hd : ∀ s, (sessionStm.states s).onDeparture = none := by intro s; cases s <;> rfl
  unfold StateMachine.jump
  rw [hc]
  by_cases hn : next = st
  · rw [if_pos (by rw [hn]), if_pos hn]
  · rw [if_neg (fun h => hn (Option.some.inj h).symm), if_neg hn]
    simp only [hd, StateMachine.runHook]
    rfl

theorem stmHandler_eq {c : SCtx} {st : SocksState}
    {event : StateDefinition SCtx SocksState → Option (Fd → SCtx → SCtx × SocksState)}
    {h : Fd → SCtx → SCtx × SocksState} (hst : c.s.stm = some st)
    (hev : event (clientStatbl st) = some h) (fd : Fd) :
    sessionStm.stmHandler event fd c = (sessionStm.jump (h fd c).2 fd (h fd c).1, (h fd c).2) := by
  have hc : sessionStm.current c = some st := hst
  have hev' : event (sessionStm.states st) = some h := hev
  unfold StateMachine.stmHandler StateMachine.handleFirst
  simp only [hc, Option.getD_some, hev']

/-- The order in which the pump passes its states. -/
def SocksState.rank : SocksState → Nat
  | .helloRead => 6
  | .helloWrite => 5
  | .authRead => 4
  | .authWrite => 3
  | .requestRead => 2
  | .requestWrite => 1
  | _ => 0

theorem rank_error_lt {st : SocksState} (h : st.isRead = true ∨ st.isWrite = true) :
    SocksState.error.rank < st.rank := by
  revert h
  cases st <;> decide

theorem not_isRead_of_isWrite {st : SocksState} (h : st.isWrite = true) : st.isRead = false := by
  revert h
  cases st <;> decide

/-- A turn of the pump uses up the input or moves on. -/
def Progress (st : SocksState) (r : SCtx × SocksState) : Prop :=
  r.2 = st ∧ (st.isRead = true → r.1.view.rb = []) ∨ r.2.rank < st.rank

theorem Progress.advance {st next : SocksState} {c : SCtx} (h : next.rank < st.rank) :
    Progress st (c, next) := Or.inr h

/-- What has reached its end and is not closed has something left to deliver. -/
def View.Drains (d : Dir) (v : View) : Prop :=
  (v.copyOf d).eof = true → (v.copyOf d).writeClosed = false → v.bufOf d ≠ []

/-- A relay with something left to do, in either direction. -/
structure View.Flowing (v : View) : Prop where
  drains : ∀ d, v.Drains d
  unfinished : ¬((v.copyOf .c2o).writeClosed = true ∧ (v.copyOf .o2c).writeClosed = true)

/-- A session that waits for the selector: it has parsed what it has, an
attempt is under way or the client's descriptor is to wake it, and the relay
has something to do. -/
def View.Rest (v : View) : Prop :=
  match v.st with
  | some .helloRead | some .authRead | some .requestRead => v.rb = []
  | some .connecting => v.originFd = none → v.ci = opWrite
  | some .copy => v.Flowing
  | _ => True

/-- Such a session, with its relay watched for all it can do. -/
structure Settled (c : SCtx) : Prop where
  rest : c.view.Rest
  armed : c.s.stm = some .copy →
    c.view.ci = copyClientInterest c.s ∧ c.view.oi = copyOriginInterest c.s

theorem Settled.of_rest {c : SCtx} {st : SocksState} (hst : c.s.stm = some st) (hne : st ≠ .copy)
    (hr : c.view.Rest) : Settled c :=
  ⟨hr, fun h => absurd (Option.some.inj (hst.symm.trans h)) hne⟩

/-- What an event of the machine leads to. -/
structure Leads (strict : Prop) (c : SCtx) (r : SCtx × SocksState) : Prop where
  good : Good c r.1
  moves : Moves strict c.view r.1.view
  st : r.1.s.stm = some r.2
  rest : r.2.isRead = false → Settled r.1

/-- The jump to the state a handler returned, with the moves made since `v`. -/
def Arrives (strict : Prop) (v : View) (r : SCtx × SocksState) : Prop :=
  ∀ fd, Good r.1 (arrive r.2 fd r.1) ∧ Moves strict v (arrive r.2 fd r.1).view ∧
    (arrive r.2 fd r.1).s.stm = some r.2 ∧ (r.2.isRead = false → Settled (arrive r.2 fd r.1))

/-- What a handler run in state `st` returns, before the jump. -/
structure Handled (strict : Prop) (c : SCtx) (st : SocksState) (r : SCtx × SocksState) : Prop where
  good : Good c r.1
  within : r.1.s.stm = some st
  stays : r.2 = st → Moves strict c.view r.1.view ∧ (st.isRead = false → Settled r.1)
  arrives : r.2 ≠ st → Arrives strict c.view r

theorem Handled.leads {c : SCtx} {st : SocksState}
    {event : StateDefinition SCtx SocksState → Option (Fd → SCtx → SCtx × SocksState)}
    {h : Fd → SCtx → SCtx × SocksState} {fd : Fd} (hc : Own c) (hst : c.s.stm = some st)
    (hev : event (clientStatbl st) = some h) (hh : Handled strict c st (h fd c)) :
    Leads strict c (sessionStm.stmHandler event fd c) := by
  rw [stmHandler_eq hst hev, jump_eq hh.within]
  by_cases hr : (h fd c).2 = st
  · rw [if_pos hr]
    obtain ⟨h1, h2⟩ := hh.stays hr
    exact ⟨hh.good, h1, by rw [hr]; exact hh.within, by rw [hr]; exact h2⟩
  · rw [if_neg hr]
    obtain ⟨h1, h2, h3, h4⟩ := hh.arrives hr fd
    exact ⟨hh.good.trans hc h1, h2, h3, h4⟩

/-- Entering a state whose arrival does nothing. -/
theorem arrive_plain {c : SCtx} (h : Own c) {st : SocksState}
    (hp : (clientStatbl st).onArrival = none) (fd : Fd) :
    Good c (arrive st fd c) ∧ (arrive st fd c).view = c.view.enter st c.os.now := by
  unfold arrive
  rw [hp]
  have h1 : Good c (c.modify fun s => { s with stm := some st }) :=
    h.modify ⟨rfl, rfl, rfl, rfl, rfl, rfl⟩
  exact ⟨h1.trans h (h1.own.note rfl), rfl⟩

theorem arrive_authRead {c : SCtx} (h : Own c) (fd : Fd) :
    Good c (arrive .authRead fd c) ∧ (arrive .authRead fd c).view =
      { c.view.enter .authRead c.os.now with client := .auth (authStart c.os.stale) } := by
  have h1 : Good c (c.modify fun s => { s with stm := some .authRead }) :=
    h.modify ⟨rfl, rfl, rfl, rfl, rfl, rfl⟩
  have h2 := h1.trans h (h1.own.note (o := .entered .authRead c.os.now) rfl)
  exact ⟨h2.trans h (h2.own.setClient _), rfl⟩

theorem arrive_requestRead {c : SCtx} (h : Own c) (fd : Fd) :
    Good c (arrive .requestRead fd c) ∧ (arrive .requestRead fd c).view =
      { c.view.enter .requestRead c.os.now with client := .request (requestStart c.os.stale) } := by
  have h1 : Good c (c.modify fun s => { s with stm := some .requestRead }) :=
    h.modify ⟨rfl, rfl, rfl, rfl, rfl, rfl⟩
  have h2 := h1.trans h (h1.own.note (o := .entered .requestRead c.os.now) rfl)
  exact ⟨h2.trans h (h2.own.setClient _), rfl⟩

/-- Nothing is asked of a session that waits in a writing state. -/
theorem settled_of_isWrite {c : SCtx} {st : SocksState} (hst : c.s.stm = some st)
    (hw : st.isWrite = true) : Settled c := by
  refine .of_rest hst (fun he => by rw [he] at hw; cases hw) ?_
  have hvst : c.view.st = some st := hst
  unfold View.Rest
  rw [hvst]
  cases st <;> trivial

theorem Handled.stay {c c1 : SCtx} {st : SocksState} (hg : Good c c1) (hst : c1.s.stm = some st)
    (hs : st.isRead = true ∨ st.isWrite = true) (hm : Moves strict c.view c1.view) :
    Handled strict c st (c1, st) :=
  ⟨hg, hst, fun _ => ⟨hm, fun hr => settled_of_isWrite hst (hs.resolve_left (by simp [hr]))⟩,
    fun h => absurd rfl h⟩

/-- A handler that sends its session to another state. -/
theorem Handled.to {c c1 : SCtx} {st next : SocksState} (hg : Good c c1)
    (hst : c1.s.stm = some st) (hne : next ≠ st)
    (ha : Arrives strict c.view (c1, next)) : Handled strict c st (c1, next) :=
  ⟨hg, hst, fun h => absurd h hne, fun _ => ha⟩

theorem Arrives.enter {c1 : SCtx} {v : View} {next : SocksState} (h : Own c1)
    (hp : (clientStatbl next).onArrival = none)
    (hm : ∀ t, Moves strict v (c1.view.enter next t)) : Arrives strict v (c1, next) := by
  intro fd
  obtain ⟨h1, h2⟩ := arrive_plain h hp fd
  have hst : (arrive next fd c1).s.stm = some next := congrArg View.st h2
  have hne : next ≠ .copy := by rintro rfl; cases hp
  refine ⟨h1, h2 ▸ hm _, hst, fun _ => .of_rest hst hne ?_⟩
  rw [h2, View.Rest, enter_st]
  cases next <;> trivial

/-- A handler that sends its session to a state whose arrival does nothing. -/
theorem Handled.enter {c c1 : SCtx} {st next : SocksState} (hg : Good c c1)
    (hst : c1.s.stm = some st) (hp : (clientStatbl next).onArrival = none) (hne : next ≠ st)
    (hm : ∀ t, Moves strict c.view (c1.view.enter next t)) : Handled strict c st (c1, next) :=
  .to hg hst hne (.enter hg.own hp hm)

/-- Moves made before the handler's own part. -/
theorem Handled.after {a c : SCtx} {st : SocksState} {r : SCtx × SocksState} (ha : Own a)
    (hg : Good a c) (hm : Moves strict a.view c.view) (h : Handled strict c st r) : Handled strict a st r where
  good := hg.trans ha h.good
  within := h.within
  stays hr := ⟨hm.trans (h.stays hr).1, (h.stays hr).2⟩
  arrives hr fd := by
    obtain ⟨h1, h2, h3⟩ := h.arrives hr fd
    exact ⟨h1, hm.trans h2, h3⟩

/-! ## The common heads of the handlers -/

section Heads
variable {st : SocksState} {rest : Fd → SCtx → SCtx × SocksState}

/-- `hello_read`, `auth_read` and `request_read`, given what they do with a
buffer that is not empty. -/
theorem read_handled {c : SCtx} (h : Own c) (hs : c.view.Sane) (hst : c.s.stm = some st)
    (hrd : st.isRead = true) {r : SCtx × SocksState}
    (hrest : ∀ c, Own c → c.view.Sane → c.s.stm = some st →
      Handled strict c st (rest c.s.clientFd c) ∧ Progress st (rest c.s.clientFd c))
    (hr : r = match fillReadBuffer c.s.clientFd c with
      | (c', .again) => (c', st)
      | (c', .fail) => (c', .error)
      | (c', .ready) => rest c.s.clientFd c') : Handled strict c st r ∧ Progress st r := by
  have hvst : c.view.st = some st := hst
  rcases fill_cases h with ⟨c1, he, hg, hnil, hv⟩ | ⟨c1, he, hg, hv⟩ | ⟨c1, he, hg, hne, hv⟩
  · rw [he] at hr
    subst hr
    have hst1 : c1.s.stm = some st := (congrArg View.st hv).trans hvst
    exact ⟨.stay hg hst1 (Or.inl hrd) (hv ▸ .refl), Or.inl ⟨rfl, fun _ => by rw [hv]; exact hnil⟩⟩
  · rw [he] at hr
    subst hr
    have hst1 : c1.s.stm = some st := (congrArg View.st hv).trans hvst
    have hne : SocksState.error ≠ st := by rintro rfl; cases hrd
    refine ⟨.enter hg hst1 rfl hne fun t => ?_, .advance (rank_error_lt (Or.inl hrd))⟩
    rw [hv]; exact .single (.recvLost t hvst hrd)
  · rw [he] at hr
    subst hr
    have hm : Moves strict c.view c1.view := by
      rcases hv with hv | ⟨bs, hrb, hbs, hlen, hv⟩
      · rw [hv]
      · rw [hv]; exact .single (.received bs hvst hrd hrb hbs hlen)
    have hst1 : c1.s.stm = some st := by
      rcases hv with hv | ⟨bs, -, -, -, hv⟩ <;> exact (congrArg View.st hv).trans hvst
    obtain ⟨h1, h2⟩ := hrest c1 hg.own (hm.sane hs) hst1
    rw [hg.frame.clientFd] at h1 h2
    exact ⟨h1.after h hg hm, h2⟩

/-- `hello_write`, `auth_write` and `request_write`, given what they do once
everything has been sent. -/
theorem write_handled {c : SCtx} (h : Own c) (hs : c.view.Sane) (hst : c.s.stm = some st)
    (hwr : st.isWrite = true) {r : SCtx × SocksState}
    (hrest : ∀ c1, Good c c1 → c1.view = c.view.drained →
      Handled strict c st (rest c1.s.clientFd c1) ∧ Progress st (rest c1.s.clientFd c1))
    (hr : r = match flushWriteBuffer c.s.clientFd c with
      | (c', .fail) => (c', .error)
      | (c', .pending) => (c', st)
      | (c', .drained) => rest c.s.clientFd c') : Handled strict c st r ∧ Progress st r := by
  have hvst : c.view.st = some st := hst
  have hwb : c.view.wb ≠ [] := by
    simp only [Sane, hvst] at hs
    cases st
    case helloWrite => exact hs.2.1
    case authWrite => exact hs.2.1
    case requestWrite => exact hs.1
    all_goals cases hwr
  rcases flush_cases h hwb with ⟨c1, he, hg, hv⟩ | ⟨c1, n, he, hg, hn, hv⟩ | ⟨c1, he, hg, hv⟩
  · rw [he] at hr
    subst hr
    have hst1 : c1.s.stm = some st := (congrArg View.st hv).trans hvst
    have hne : SocksState.error ≠ st := by rintro rfl; cases hwr
    refine ⟨.enter hg hst1 rfl hne fun t => ?_, .advance (rank_error_lt (Or.inr hwr))⟩
    rw [hv]; exact .single (.sendLost t hvst hwr)
  · rw [he] at hr
    subst hr
    have hst1 : c1.s.stm = some st := (congrArg View.st hv).trans hvst
    refine ⟨.stay hg hst1 (Or.inr hwr) ?_, Or.inl ⟨rfl, fun hrd => ?_⟩⟩
    · rw [hv]; exact .single (.sent n hvst hwr hn)
    · rw [not_isRead_of_isWrite hwr] at hrd; cases hrd
  · rw [he] at hr
    subst hr
    obtain ⟨h1, h2⟩ := hrest c1 hg hv
    rw [hg.frame.clientFd] at h1 h2
    exact ⟨h1, h2⟩

end Heads

/-! ## HELLO -/

theorem helloProcess_spec {c : SCtx} (h : Own c) (hw : c.view.wb = []) {hs : HelloSt}
    (hcl : c.s.client = .hello hs) :
    ∃ c1, helloProcess c = (c1, .helloWrite) ∧ Good c c1 ∧
      c1.view = { c.view with
        client := .hello ⟨hs.parser, helloMethod c.g.users hs.parser.data⟩
        wb := [socksVersion, helloMethod c.g.users hs.parser.data] }.note
          (.helloProcessed c.g.users (c.view.consumed c.view.rb)
            (helloMethod c.g.users hs.parser.data)) := by
  obtain ⟨wb, hm, hwf, hlim, hu⟩ := marshall_empty h.here.wb hw
    (m := [socksVersion, helloMethod c.g.users hs.parser.data]) (by simp)
    (by rw [h.here.wbLimit]; exact Nat.le_of_ble_eq_true rfl)
  have h1 := h.note (o := .helloProcessed c.g.users c.parsed
    (helloMethod c.g.users hs.parser.data)) rfl
  have h2 := h1.trans h (h1.own.setClient (.hello { hs with
    method := helloMethod c.g.users hs.parser.data }))
  have h3 := h2.trans h (h2.own.setWriteBuffer hwf (by rw [hlim]; exact h.here.wbLimit))
  have hp : c.parsed = c.view.consumed c.view.rb := by
    simp only [Ctx.parsed, Ctx.clientRx, Ctx.clientSock, h.client_sock]; rfl
  refine ⟨_, ?_, h3, ?_⟩
  · have hh : c.s.client.asHello = hs := by rw [hcl]; rfl
    simp only [helloProcess, hh]
    simp only [Ctx.setClient, Ctx.note, Ctx.modify, helloMarshall, hm]
  · rw [view_setWriteBuffer, view_setClient, view_note, hu, hp]; rfl

theorem helloParse_handled {c : SCtx} (h : Own c) (hs : c.view.Sane)
    (hst : c.s.stm = some .helloRead) : Handled strict c .helloRead (helloParse c.s.clientFd c) ∧
      Progress .helloRead (helloParse c.s.clientFd c) := by
  have hvst : c.view.st = some .helloRead := hst
  simp only [Sane, hvst] at hs
  obtain ⟨-, hw, -, hp, hcl, hrun⟩ := hs
  have hh : c.s.client.asHello = hp := by rw [show c.s.client = .hello hp from hcl]; rfl
  have hh' : c.view.client.asHello = hp := hh
  obtain ⟨hwf, hlim, hrest, hres⟩ := consume_spec
    h.here.rb (hp.parser, false)
  unfold helloParse helloConsume
  simp only [hh]
  generalize consume (helloStep (some onHelloMethod)) helloStop c.s.readBuffer (hp.parser, false)
    = out at hwf hlim hrest hres ⊢
  obtain ⟨rb, p, e⟩ := out
  simp only at hwf hlim hrest hres ⊢
  -- the buffer and the parser are updated in every case
  have h1 := h.setReadBuffer hwf (hlim.trans h.here.rbLimit)
  have h2 := h1.trans h (h1.own.setClient (.hello { hp with parser := p }))
  have hrun' : helloRun hp.parser c.view.rb = ((p, e), rb.unread) :=
    Prod.ext hres.symm hrest.symm
  have hv : ((c.setReadBuffer rb).setClient (.hello { hp with parser := p })).view =
      c.view.readHello p rb.unread := by
    rw [view_setClient, view_setReadBuffer, readHello, hh']
  generalize hc2 : (c.setReadBuffer rb).setClient (.hello { hp with parser := p }) = c2 at h2 hv ⊢
  have hfd : c.s.clientFd = c2.s.clientFd := h2.frame.clientFd.symm
  have hst2 : c2.s.stm = some .helloRead := (congrArg View.st hv).trans hvst
  rcases helloRun_cases hrun c.view.rb with ⟨q, hq, hd, -⟩ | ⟨q, rest, hq⟩ | ⟨q, rest, hq, hd⟩
  · have heq := hrun'.symm.trans hq
    simp only [Prod.mk.injEq] at heq
    obtain ⟨⟨rfl, rfl⟩, hnil⟩ := heq
    simp only [Bool.false_eq_true, if_false, hd]
    rw [hnil] at hv
    refine ⟨.stay h2 hst2 (Or.inl rfl) ?_, Or.inl ⟨rfl, fun _ => by rw [hv]; rfl⟩⟩
    rw [hv]
    exact .single (.helloMore p hvst (by rw [hh']; exact hq) hd)
  · have heq := hrun'.symm.trans hq
    simp only [Prod.mk.injEq] at heq
    obtain ⟨⟨rfl, rfl⟩, hr⟩ := heq
    simp only [if_true]
    refine ⟨.enter h2 hst2 rfl (by decide) fun t => ?_, .advance (by decide)⟩
    rw [hv, hr]
    exact .single (.helloBad p rest t hvst (by rw [hh']; exact hq))
  · have heq := hrun'.symm.trans hq
    simp only [Prod.mk.injEq] at heq
    obtain ⟨⟨rfl, rfl⟩, hr⟩ := heq
    have hdone : helloIsDone p.state = true := by rw [hd]; rfl
    simp only [Bool.false_eq_true, if_false, hdone, if_true]
    obtain ⟨c3, he3, h3, hv3, hs3, hg3, ho3⟩ := h2.own.setClientInterest opWrite
    have h3' := h2.trans h h3
    have hcl3 : c3.s.client = .hello { hp with parser := p } := by
      rw [hs3]; exact (congrArg View.client hv).trans (by rw [readHello, hh'])
    have hw3 : c3.view.wb = [] := by rw [hv3, hv]; exact hw
    obtain ⟨c4, he4, h4, hv4⟩ := helloProcess_spec h3.own hw3 hcl3
    rw [hfd, he3]
    simp only [he4]
    have h4' := h3'.trans h h4
    have hst4 : c4.s.stm = some .helloRead := by
      have : c4.view.st = c2.view.st := by rw [hv4, hv3]; rfl
      exact this.trans hst2
    refine ⟨.enter h4' hst4 rfl (by decide) fun t => ?_, .advance (by decide)⟩
    refine .single ?_
    have hm : Move strict _ _ := .helloDone c3.g.users p rest t hvst (by rw [hh']; exact hq) hd
    have heq : c4.view = c.view.processHello c3.g.users p rest := by
      rw [hv4, hv3, hv, ← hr, processHello, hw]; rfl
    rw [heq]
    exact hm

theorem helloRead_handled {c : SCtx} (h : Own c) (hs : c.view.Sane)
    (hst : c.s.stm = some .helloRead) : Handled strict c .helloRead (helloRead c.s.clientFd c) ∧
      Progress .helloRead (helloRead c.s.clientFd c) := by
  refine read_handled h hs hst rfl (fun c h hs hst => helloParse_handled h hs hst) rfl

theorem helloSent_handled {c c1 : SCtx} (h : Own c) (hst : c.s.stm = some .helloWrite)
    (hg : Good c c1) (hv : c1.view = c.view.drained) :
    Handled strict c .helloWrite (helloSent c1.s.clientFd c1) ∧
      Progress .helloWrite (helloSent c1.s.clientFd c1) := by
  have hvst : c.view.st = some .helloWrite := hst
  have hst1 : c1.s.stm = some .helloWrite := (congrArg View.st hv).trans hst
  have hcl : c1.s.client = c.view.client := congrArg View.client hv
  unfold helloSent
  rw [hcl]
  by_cases h0 : c.view.client.asHello.method = helloNoAcceptableMethods
  · simp only [h0, if_true]
    refine ⟨.enter hg hst1 rfl (by decide) fun t => ?_, .advance (by decide)⟩
    rw [hv]; exact .single (.helloRefused t hvst h0)
  · simp only [h0, if_false]
    obtain ⟨c2, he, h2, hv2, hs2, -, -⟩ := hg.own.setClientInterest opRead
    rw [he]
    simp only
    have hg2 := hg.trans h h2
    have hst2 : c2.s.stm = some .helloWrite := by rw [hs2]; exact hst1
    by_cases h1 : c.view.client.asHello.method = helloUsernamePassword
    · rw [if_pos h1]
      refine ⟨.to hg2 hst2 (by decide) fun fd => ?_, .advance (by decide)⟩
      obtain ⟨h3, hv3⟩ := arrive_authRead h2.own fd
      refine ⟨h3, ?_, congrArg View.st hv3, fun hr => Bool.noConfusion hr⟩
      rw [hv3, hv2, hv]
      exact .single (.helloToAuth c2.os.stale c2.os.now hvst h1)
    · rw [if_neg h1]
      refine ⟨.to hg2 hst2 (by decide) fun fd => ?_, .advance (by decide)⟩
      obtain ⟨h3, hv3⟩ := arrive_requestRead h2.own fd
      refine ⟨h3, ?_, congrArg View.st hv3, fun hr => Bool.noConfusion hr⟩
      rw [hv3, hv2, hv]
      exact .single (.helloToRequest c2.os.stale c2.os.now hvst h0 h1)

theorem helloWrite_handled {c : SCtx} (h : Own c) (hs : c.view.Sane)
    (hst : c.s.stm = some .helloWrite) : Handled strict c .helloWrite (helloWrite c.s.clientFd c) ∧
      Progress .helloWrite (helloWrite c.s.clientFd c) :=
  write_handled h hs hst rfl (fun _ hg hv => helloSent_handled h hst hg hv) rfl

/-! ## AUTH -/

theorem authProcess_spec {c : SCtx} (h : Own c) (hw : c.view.wb = []) {a : AuthSt}
    (hcl : c.s.client = .auth a) :
    ∃ c1, authProcess c = (c1, .authWrite) ∧ Good c c1 ∧
      c1.view = { c.view with
        client := .auth ⟨a.parser, authStatus c.g.users a.parser⟩
        wb := [authVersion, authStatus c.g.users a.parser]
        user := if credentialsAccepted c.g.users a.parser.uname a.parser.passwd then
          (cstr a.parser.uname).take 255 else c.view.user }.note
          (.authProcessed c.g.users (c.view.consumed c.view.rb)
            (authStatus c.g.users a.parser)) := by
  obtain ⟨wb, hm, hwf, hlim, hu⟩ := marshall_empty h.here.wb hw
    (m := [authVersion, authStatus c.g.users a.parser]) (by simp)
    (by rw [h.here.wbLimit]; exact Nat.le_of_ble_eq_true rfl)
  have hp : c.parsed = c.view.consumed c.view.rb := by
    simp only [Ctx.parsed, Ctx.clientRx, Ctx.clientSock, h.client_sock]; rfl
  have ha : c.s.client.asAuth = a := by rw [hcl]; rfl
  have h1 := h.noteCounted (o := .authProcessed c.g.users c.parsed (authStatus c.g.users a.parser))
    rfl rfl rfl
  have h2 := h1.trans h (h1.own.setClient (.auth { a with
    status := authStatus c.g.users a.parser }))
  unfold authProcess
  simp only [ha]
  by_cases hok : credentialsAccepted c.g.users a.parser.uname a.parser.passwd = true
  · have hstat : authStatus c.g.users a.parser = 0 := by rw [authStatus, if_pos hok]
    have h3 := h2.trans h (h2.own.modify (f := fun s =>
      { s with authenticatedUser := (cstr a.parser.uname).take 255 })
      ⟨rfl, rfl, rfl, rfl, rfl, rfl⟩)
    have h4 := h3.trans h (h3.own.setWriteBuffer hwf (by rw [hlim]; exact h.here.wbLimit))
    refine ⟨_, ?_, h4, ?_⟩
    · rw [hstat] at hm ⊢
      have hm0 : c.g.metrics.map (Obs.authProcessed c.g.users c.parsed 0).charge = c.g.metrics := by
        cases c.g.metrics <;> rfl
      simp only [hok, if_true]
      simp only [Ctx.setClient, Ctx.note, Ctx.modify, Ctx.metrics, authMarshall, hm, hm0]
    · rw [view_setWriteBuffer, hu, hp, if_pos hok]; rfl
  · have hstat : authStatus c.g.users a.parser = 1 := by rw [authStatus, if_neg hok]
    have h4 := h2.trans h (h2.own.setWriteBuffer hwf (by rw [hlim]; exact h.here.wbLimit))
    refine ⟨_, ?_, h4, ?_⟩
    · rw [hstat] at hm ⊢
      simp only [Bool.not_eq_true] at hok
      simp only [hok, Bool.false_eq_true, if_false]
      have hc : (Obs.authProcessed c.g.users c.parsed 1).charge = Metrics.metricsAuthFail := rfl
      simp only [Ctx.setClient, Ctx.note, Ctx.modify, Ctx.metrics, authMarshall, hm, hc]
    · rw [view_setWriteBuffer, hu, hp, if_neg hok]; rfl

theorem authParse_handled {c : SCtx} (h : Own c) (hs : c.view.Sane)
    (hst : c.s.stm = some .authRead) : Handled strict c .authRead (authParse c.s.clientFd c) ∧
      Progress .authRead (authParse c.s.clientFd c) := by
  have hvst : c.view.st = some .authRead := hst
  simp only [Sane, hvst] at hs
  obtain ⟨-, hw, -, a, hcl, hrun⟩ := hs
  have hh : c.s.client.asAuth = a := by rw [show c.s.client = .auth a from hcl]; rfl
  have hh' : c.view.client.asAuth = a := hh
  obtain ⟨hwf, hlim, hrest, hres⟩ := consume_spec
    h.here.rb (a.parser, false)
  unfold authParse authConsume
  simp only [hh]
  generalize consume authStep authStop c.s.readBuffer (a.parser, false)
    = out at hwf hlim hrest hres ⊢
  obtain ⟨rb, p, e⟩ := out
  simp only at hwf hlim hrest hres ⊢
  have h1 := h.setReadBuffer hwf (hlim.trans h.here.rbLimit)
  have h2 := h1.trans h (h1.own.setClient (.auth { a with parser := p }))
  have hrun' : authRun a.parser c.view.rb = ((p, e), rb.unread) :=
    Prod.ext hres.symm hrest.symm
  have hv : ((c.setReadBuffer rb).setClient (.auth { a with parser := p })).view =
      c.view.readAuth p rb.unread := by
    rw [view_setClient, view_setReadBuffer, readAuth, hh']
  generalize hc2 : (c.setReadBuffer rb).setClient (.auth { a with parser := p }) = c2 at h2 hv ⊢
  have hfd : c.s.clientFd = c2.s.clientFd := h2.frame.clientFd.symm
  have hst2 : c2.s.stm = some .authRead := (congrArg View.st hv).trans hvst
  rcases authRun_cases hrun c.view.rb with ⟨q, hq, hd, -⟩ | ⟨q, rest, hq⟩ | ⟨q, rest, hq, hd⟩
  · have heq := hrun'.symm.trans hq
    simp only [Prod.mk.injEq] at heq
    obtain ⟨⟨rfl, rfl⟩, hnil⟩ := heq
    simp only [Bool.false_eq_true, if_false, hd]
    rw [hnil] at hv
    refine ⟨.stay h2 hst2 (Or.inl rfl) ?_, Or.inl ⟨rfl, fun _ => by rw [hv]; rfl⟩⟩
    rw [hv]
    exact .single (.authMore p hvst (by rw [hh']; exact hq) hd)
  · have heq := hrun'.symm.trans hq
    simp only [Prod.mk.injEq] at heq
    obtain ⟨⟨rfl, rfl⟩, hr⟩ := heq
    simp only [if_true]
    refine ⟨.enter h2 hst2 rfl (by decide) fun t => ?_, .advance (by decide)⟩
    rw [hv, hr]
    exact .single (.authBad p rest t hvst (by rw [hh']; exact hq))
  · have heq := hrun'.symm.trans hq
    simp only [Prod.mk.injEq] at heq
    obtain ⟨⟨rfl, rfl⟩, hr⟩ := heq
    have hdone : authIsDone p.state = true := by rw [hd]; rfl
    simp only [Bool.false_eq_true, if_false, hdone, if_true]
    obtain ⟨c3, he3, h3, hv3, hs3, -, -⟩ := h2.own.setClientInterest opWrite
    have h3' := h2.trans h h3
    have hcl3 : c3.s.client = .auth { a with parser := p } := by
      rw [hs3]; exact (congrArg View.client hv).trans (by rw [readAuth, hh'])
    have hw3 : c3.view.wb = [] := by rw [hv3, hv]; exact hw
    obtain ⟨c4, he4, h4, hv4⟩ := authProcess_spec h3.own hw3 hcl3
    rw [hfd, he3]
    simp only [he4]
    have h4' := h3'.trans h h4
    have hst4 : c4.s.stm = some .authRead := by
      have : c4.view.st = c2.view.st := by rw [hv4, hv3]; rfl
      exact this.trans hst2
    refine ⟨.enter h4' hst4 rfl (by decide) fun t => ?_, .advance (by decide)⟩
    have heq : c4.view = c.view.processAuth c3.g.users p rest := by
      rw [hv4, hv3, hv, ← hr, processAuth, hw]; rfl
    rw [heq]
    exact .single (.authDone c3.g.users p rest t hvst (by rw [hh']; exact hq) hd)

theorem authRead_handled {c : SCtx} (h : Own c) (hs : c.view.Sane)
    (hst : c.s.stm = some .authRead) : Handled strict c .authRead (authRead c.s.clientFd c) ∧
      Progress .authRead (authRead c.s.clientFd c) :=
  read_handled h hs hst rfl (fun _ h hs hst => authParse_handled h hs hst) rfl

theorem authSent_handled {c c1 : SCtx} (h : Own c) (hst : c.s.stm = some .authWrite)
    (hg : Good c c1) (hv : c1.view = c.view.drained) :
    Handled strict c .authWrite (authSent c1.s.clientFd c1) ∧
      Progress .authWrite (authSent c1.s.clientFd c1) := by
  have hvst : c.view.st = some .authWrite := hst
  have hst1 : c1.s.stm = some .authWrite := (congrArg View.st hv).trans hst
  have hcl : c1.s.client = c.view.client := congrArg View.client hv
  unfold authSent
  obtain ⟨c2, he, h2, hv2, hs2, -, -⟩ := hg.own.setClientInterest opRead
  rw [he]
  simp only
  have hg2 := hg.trans h h2
  have hst2 : c2.s.stm = some .authWrite := by rw [hs2]; exact hst1
  rw [hs2, hcl]
  by_cases h0 : c.view.client.asAuth.status = 0x00
  · rw [if_pos h0]
    refine ⟨.to hg2 hst2 (by decide) fun fd => ?_, .advance (by decide)⟩
    obtain ⟨h3, hv3⟩ := arrive_requestRead h2.own fd
    refine ⟨h3, ?_, congrArg View.st hv3, fun hr => Bool.noConfusion hr⟩
    rw [hv3, hv2, hv]
    exact .single (.authToRequest c2.os.stale c2.os.now hvst h0)
  · rw [if_neg h0]
    refine ⟨.enter hg2 hst2 rfl (by decide) fun t => ?_, .advance (by decide)⟩
    rw [hv2, hv]
    exact .single (.authRefused t hvst h0)

theorem authWrite_handled {c : SCtx} (h : Own c) (hs : c.view.Sane)
    (hst : c.s.stm = some .authWrite) : Handled strict c .authWrite (authWrite c.s.clientFd c) ∧
      Progress .authWrite (authWrite c.s.clientFd c) :=
  write_handled h hs hst rfl (fun _ hg hv => authSent_handled h hst hg hv) rfl

/-! ## REQUEST -/

theorem marshalReply_spec {c : SCtx} (h : Own c) (hw : c.view.wb = []) (reply : UInt8) :
    ∃ c1, marshalReply reply c = (c1, true) ∧ Good c c1 ∧
      c1.view = { c.view with
        client := .request { c.view.client.asRequest with reply := reply }
        wb := replyBytes reply }.note (.replied reply) := by
  obtain ⟨wb, hm, hwf, hlim, hu⟩ := marshall_empty h.here.wb hw
    (m := replyBytes reply) (by simp [replyBytes])
    (by rw [h.here.wbLimit]; exact Nat.le_of_ble_eq_true rfl)
  have h1 := h.setClient (.request { c.s.client.asRequest with reply := reply })
  have h2 := h1.trans h (h1.own.setWriteBuffer hwf (by rw [hlim]; exact h.here.wbLimit))
  have h3 := h2.trans h (h2.own.note (o := .replied reply) rfl)
  refine ⟨_, ?_, h3, ?_⟩
  · have hm' : requestMarshall c.s.writeBuffer reply = some wb := hm
    simp only [marshalReply, Ctx.setClient, Ctx.modify, hm']
  · rw [view_note, view_setWriteBuffer, hu]; rfl

theorem replyAndArm_spec {c : SCtx} (h : Own c) (hw : c.view.wb = []) (reply : UInt8) :
    ∃ c1, replyAndArm reply c.s.clientFd c = (c1, .requestWrite) ∧ Good c c1 ∧
      c1.s.stm = c.s.stm ∧ ∀ t, c1.view.enter .requestWrite t = c.view.answer reply t := by
  obtain ⟨c1, he1, h1, hv1⟩ := marshalReply_spec h hw reply
  obtain ⟨c2, he2, h2, hv2, hs2, -, -⟩ := h1.own.setClientInterest opWrite
  rw [h1.frame.clientFd] at he2
  refine ⟨c2, ?_, h1.trans h h2, ?_, fun t => ?_⟩
  · simp only [replyAndArm, he1, he2]
  · have : c2.view.st = c.view.st := by rw [hv2, hv1]; rfl
    exact this
  · rw [hv2, hv1, View.answer, hw]; rfl

end Socks5d
