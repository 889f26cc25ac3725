import Socks5d.Pumping

/-! # Room to receive into

Where a handler of a session runs, its buffers are in order, and what it lets
`recv` fill has room. A `recv` that delivers nothing has found the end. -/
namespace Socks5d
open Buffer Ctx View

/-- The turns of the `while (1)` of `socksv5_pump` that call a handler. -/
inductive Turn (fd : Fd) : SCtx → SocksState → SCtx → Prop
  | read {c : SCtx} {st : SocksState} :
      (st.isRead && c.s.readBuffer.bufferCanRead) = true → Turn fd c st c
  | write {c : SCtx} {st : SocksState} :
      ¬(st.isRead && c.s.readBuffer.bufferCanRead) = true → st.isWrite = true → Turn fd c st c
  | afterRead {c c' : SCtx} {st : SocksState} :
      (st.isRead && c.s.readBuffer.bufferCanRead) = true →
      Turn fd (sessionStm.stmHandlerRead fd c).1 (sessionStm.stmHandlerRead fd c).2 c' →
      Turn fd c st c'
  | afterWrite {c c' : SCtx} {st : SocksState} :
      ¬(st.isRead && c.s.readBuffer.bufferCanRead) = true → st.isWrite = true →
      (sessionStm.stmHandlerWrite c.s.clientFd c).2 ≠ st →
      Turn fd (sessionStm.stmHandlerWrite c.s.clientFd c).1
        (sessionStm.stmHandlerWrite c.s.clientFd c).2 c' → Turn fd c st c'

/-- Where the handlers of the session at descriptor `i` run: on the session as the
last step left it, as the read handler of the same event did, or at a turn of the pump. -/
inductive World.Enters (w : World) (i : Fd) : SCtx → Prop
  | event {it : Item} : w.sel.fds i = some it → it.handler = .socks5 → Enters w i (w.ctx it.data)
  | between {it now : Item} {w' : World} : w.sel.fds i = some it →
      (if w.sel.slaveR i && it.interest.read then w.handleRead it i else w) = w' →
      w'.sel.fds i = some now → now.handler = .socks5 → now.interest.write = true →
      Enters w i (w'.ctx it.data)
  | turn {c c' : SCtx} {st : SocksState} : w.Pumps i c st → Turn i c st c' → Enters w i c'

/-- The buffer of `copy_read` once it has made room, unless there is none. -/
def copyRoom (d : Dir) (c : SCtx) : Option Buffer :=
  let b := if !(c.s.bufOf d).bufferCanWrite then (c.s.bufOf d).bufferCompact else c.s.bufOf d
  if !b.bufferCanWrite then none else some b

/-- The buffer that the read handler lets `recv` fill, if it calls it. -/
def recvInto (fd : Fd) (c : SCtx) : Option Buffer :=
  match sessionStm.stmState c with
  | .helloRead | .authRead | .requestRead =>
    if c.s.readBuffer.bufferCanRead then none else some c.s.readBuffer
  | .copy => (copyReadState c.s fd).bind fun d => copyRoom d c
  | _ => none

/-- The head of the three readers when they let `recv` fill this buffer. -/
def fillInto (into : Option Buffer) (fd : Fd) (c : SCtx) : SCtx × Fill :=
  match into with
  | none => (c, .ready)
  | some b =>
    match c.recv fd b.bufferWritePtr with
    | (c, .error e) => (c, if e.again then .again else .fail)
    | (c, .ok []) => (c, .fail)
    | (c, .ok bs) => (c.setReadBuffer ((b.store bs).bufferWriteAdv bs.length), .ready)

/-- `copy_read` when it lets `recv` fill this buffer. -/
def copyInto (d : Dir) (into : Option Buffer) (c : SCtx) : SCtx × SocksState :=
  match into with
  | none => copyStay (if !(c.s.bufOf d).bufferCanWrite then
      c.modify fun s => s.setBuf d (s.bufOf d).bufferCompact else c)
  | some b => copyReceive d (c.modify fun s => s.setBuf d b)

section Reads
variable {τ : Terms} {ρ : Roster} {w : World} {i : Fd} {c c' : SCtx} {st : SocksState} {b : Buffer}

/-! ## Where handlers run -/

theorem Progress.rank_le {r : SCtx × SocksState} (h : Progress st r) : r.2.rank ≤ st.rank := by
  rcases h with ⟨heq, -⟩ | hlt
  · rw [heq]
  · exact Nat.le_of_lt hlt

/-- At every turn of the pump the session has its invariants. -/
theorem Turn.inState (ht : Turn i c st c') (h : InState c st)
    (hi : 1 < st.rank → i = c.s.clientFd) : ∃ st', InState c' st' := by
  induction ht with
  | read => exact ⟨_, h⟩
  | write => exact ⟨_, h⟩
  | @afterRead c _ st hgo _ ih =>
    obtain ⟨hread, -⟩ := Bool.and_eq_true_iff.mp hgo
    have hrank : 1 < st.rank := by
      revert hread
      cases st <;> decide
    obtain ⟨hl, hp⟩ := @read_leads False _ _ h hread
    rw [← hi hrank] at hl hp
    exact ih (hl.inState h) fun _ => by rw [hl.good.frame.clientFd]; exact hi hrank
  | afterWrite _ hw _ _ ih =>
    obtain ⟨hl, hp⟩ := @write_leads False _ _ h hw
    refine ih (hl.inState h) fun hr => ?_
    rw [hl.good.frame.clientFd]
    exact hi (Nat.lt_of_lt_of_le hr hp.rank_le)

theorem Inv.enters (h : Inv τ ρ w) (hc : AllCalm ρ w) (hs : ¬τ.strict) (he : w.Enters i c) :
    Own c := by
  cases he with
  | event hit hh => exact h.own _ (h.registry.socks5 i _ hit hh).1
  | @between it now w' hit hw' hnow hh hi =>
    obtain ⟨ρ', h', -, hdata⟩ := h.between hc hit hw' hnow hi hs
    rw [← hdata]
    exact h'.own _ (h'.registry.socks5 i now hnow hh).1
  | turn hp ht =>
    obtain ⟨c₀, hl, he⟩ := h.pumps hc hp hs
    obtain ⟨_, h'⟩ := ht.inState (he.leads.entered hl) he.mine
    exact h'.own

/-! ## What they receive into -/

/-- The head of the three readers lets `recv` fill that buffer and no other. -/
theorem fillReadBuffer_into (hst : (sessionStm.stmState c).isRead = true) (fd : Fd) :
    fillReadBuffer fd c = fillInto (recvInto fd c) fd c := by
  have hinto : recvInto fd c =
      if c.s.readBuffer.bufferCanRead then none else some c.s.readBuffer := by
    unfold recvInto
    revert hst
    cases sessionStm.stmState c with
    | helloRead | authRead | requestRead => intro _; rfl
    | _ => intro h; cases h
  unfold fillReadBuffer fillInto
  rw [hinto]
  cases hr : c.s.readBuffer.bufferCanRead with
  | true => rfl
  | false =>
    simp only [Bool.false_eq_true, if_false]
    cases hrecv : c.recv fd c.s.readBuffer.bufferWritePtr with
    | mk c1 r =>
      have hbuf : c1.s.readBuffer = c.s.readBuffer := by
        have h1 : c1 = (c.recv fd c.s.readBuffer.bufferWritePtr).1 := by rw [hrecv]
        rw [h1]
        rfl
      rcases r with e | _ | ⟨x, xs⟩
      · rfl
      · rfl
      · simp only [hbuf]

/-- So does `copy_read`. -/
theorem copyRead_into (hst : sessionStm.stmState c = .copy) {fd : Fd} {d : Dir}
    (hd : copyReadState c.s fd = some d) : copyRead fd c = copyInto d (recvInto fd c) c := by
  have hset : ∀ b : Buffer, ((c.modify fun s => s.setBuf d b).s.bufOf d) = b := fun b => by
    cases d <;> rfl
  have hself : (c.modify fun s => s.setBuf d (c.s.bufOf d)) = c := by cases d <;> rfl
  unfold copyRead copyInto recvInto copyRoom
  simp only [hst, hd, Option.bind_some]
  cases hw : (c.s.bufOf d).bufferCanWrite with
  | true =>
    simp only [Bool.not_true, Bool.false_eq_true, if_false, hw, hself]
  | false =>
    simp only [Bool.not_false, if_true]
    rw [show (c.modify fun s => s.setBuf d (s.bufOf d).bufferCompact) =
      c.modify fun s => s.setBuf d (c.s.bufOf d).bufferCompact from rfl, hset]
    cases hw' : (c.s.bufOf d).bufferCompact.bufferCanWrite with
    | true => simp only [Bool.not_true, Bool.false_eq_true, if_false]
    | false => simp only [Bool.not_false, if_true]

/-- It is in order and has room. -/
theorem Own.into (h : Own c) {fd : Fd} (hb : recvInto fd c = some b) :
    WF b ∧ 0 < b.bufferWritePtr := by
  unfold recvInto at hb
  have hread : (if c.s.readBuffer.bufferCanRead then none else some c.s.readBuffer) = some b →
      WF b ∧ 0 < b.bufferWritePtr := by
    intro hb
    split at hb
    · cases hb
    · next hno =>
      cases hb
      -- an empty buffer starts at the start
      have hw := h.here.rb
      have hwrite : ¬c.s.readBuffer.read < c.s.readBuffer.write := by simpa [bufferCanRead] using hno
      have hmeet : c.s.readBuffer.read = c.s.readBuffer.write :=
        Nat.le_antisymm hw.readLe (Nat.le_of_not_lt hwrite)
      refine ⟨hw, ?_⟩
      unfold bufferWritePtr
      rw [← hmeet, hw.rest hmeet, h.here.rbLimit]
      decide
  cases hst : sessionStm.stmState c with
  | helloRead | authRead | requestRead => rw [hst] at hb; exact hread hb
  | copy =>
    rw [hst] at hb
    obtain ⟨d, -, hb⟩ := Option.bind_eq_some_iff.mp hb
    have hw := (h.bufOf_wf d).1
    have hroom : WF (if !(c.s.bufOf d).bufferCanWrite then (c.s.bufOf d).bufferCompact
        else c.s.bufOf d) := by
      split
      · exact hw.compact
      · exact hw
    unfold copyRoom at hb
    dsimp only at hb
    generalize (if (!(c.s.bufOf d).bufferCanWrite) = true then (c.s.bufOf d).bufferCompact
      else c.s.bufOf d) = b' at hb hroom
    split at hb
    · cases hb
    · next hcan =>
      cases hb
      have hlt : b.write < b.limit := by simpa [bufferCanWrite] using hcan
      exact ⟨hroom, Nat.sub_pos_of_lt hlt⟩
  | _ => rw [hst] at hb; cases hb

/-- With room, a `recv` delivers nothing only when nothing comes. -/
theorem recv_nothing {o : OS} {fd : Fd} {n : Nat} (hn : 0 < n) (hr : (o.recv fd n).2 = .ok []) :
    o.answer.err = none ∧ o.answer.bytes = [] := by
  unfold OS.recv at hr
  split at hr
  · cases hr
  · next herr =>
    refine ⟨herr, ?_⟩
    have htake : o.answer.bytes.take n = [] := Except.ok.inj hr
    rcases List.take_eq_nil_iff.mp htake with h0 | h0
    · omega
    · exact h0

end Reads

/-- The read handlers let `recv` fill one buffer, and offer it no empty space, so
that it finds no end that is not there; and wherever a handler runs the cursors
are in order and stay so, whatever `recv` delivers of what it was offered and
`send` takes of what is pending. -/
theorem recv_has_room (b : Boot) (is : List Input) :
    (∀ (x : Input) (i : Fd) (c : SCtx), (b.start.run is).Running →
      ((b.start.run is).load x).Enters i c →
      ((sessionStm.stmState c).isRead = true →
        fillReadBuffer i c = fillInto (recvInto i c) i c) ∧
      (sessionStm.stmState c = .copy → ∀ d, copyReadState c.s i = some d →
        copyRead i c = copyInto d (recvInto i c) c) ∧
      (∀ d, WF (c.s.bufOf d) ∧ (c.s.bufOf d).limit = bufferSize ∧
        ∀ n ≤ (c.s.bufOf d).bufferReadPtr.length, WF ((c.s.bufOf d).bufferReadAdv n)) ∧
      ∀ into, recvInto i c = some into → WF into ∧ 0 < into.bufferWritePtr ∧
        (∀ bs, bs ≠ [] → bs.length ≤ into.bufferWritePtr →
          WF ((into.store bs).bufferWriteAdv bs.length)) ∧
        ∀ fd, (c.os.recv fd into.bufferWritePtr).2 = .ok [] →
          c.os.answer.err = none ∧ c.os.answer.bytes = []) ∧
    (b.start.run is).os.killed ≠ some .assertion := by
  obtain ⟨ρ, h⟩ := b.orderly is
  refine ⟨fun x i c hrun he => ?_, fun hk => ?_⟩
  · obtain ⟨h1, hc1⟩ := h.inv.load h.calm hrun.1 x
    have ho := h1.enters hc1 id he
    refine ⟨fun hst => fillReadBuffer_into hst i, fun hst d hd => copyRead_into hst hd,
      fun d => ?_, fun into hinto => ?_⟩
    · obtain ⟨hw, hl⟩ := ho.bufOf_wf d
      exact ⟨hw, hl, fun n hn => hw.readAdv hn⟩
    · obtain ⟨hw, hroom⟩ := ho.into hinto
      exact ⟨hw, hroom, fun bs hne hlen => hw.fill hlen hne, fun fd hr => recv_nothing hroom hr⟩
  · rcases h.inv.held.alive with ha | ⟨-, ha⟩ <;> rw [hk] at ha <;> cases ha

theorem recv_has_room_sample :
    let w := (Boot.open.start.run Input.greeting).load (.turn [] [5, 1, 0, 5] 1)
    ∃ into, recvInto 2 (w.ctx 0) = some into ∧ WF into ∧ 0 < into.bufferWritePtr := by
  intro w
  have hrun : (Boot.open.start.run Input.greeting).Running := ⟨by decide +kernel, by decide +kernel⟩
  have hit : w.sel.fds 2 = some ⟨opRead, .socks5, 0⟩ := by decide +kernel
  have hst : sessionStm.stmState (w.ctx 0) = .helloRead := by decide +kernel
  have hempty : (w.ctx 0).s.readBuffer.bufferCanRead = false := by decide +kernel
  have hinto : recvInto 2 (w.ctx 0) = some (w.ctx 0).s.readBuffer := by
    unfold recvInto
    rw [hst, hempty]
    simp only [Bool.false_eq_true, if_false]
  obtain ⟨-, -, -, h⟩ := (recv_has_room Boot.open Input.greeting).1 _ 2 (w.ctx 0) hrun (.event hit rfl)
  obtain ⟨hw, hroom, -⟩ := h _ hinto
  exact ⟨_, hinto, hw, hroom⟩

end Socks5d
