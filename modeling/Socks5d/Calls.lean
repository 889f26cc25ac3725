import Socks5d.Operations
import Socks5d.Shape

/-! # What the system calls answer

One lemma for each call: the possible answers, and what each does to the
session's sockets. -/
namespace Socks5d
open Buffer Ctx

/-! ## The kernel -/

@[simp] theorem modifySock_fds {o : OS} {fd : Fd} {k : Sock} (hk : o.fds fd = some k)
    (f : Sock → Sock) : (o.modifySock fd f).fds = Function.update o.fds fd (some (f k)) := by
  simp [OS.modifySock, OS.setFd, hk]

/-- A call that changed one socket and nothing else that lasts. -/
structure Touched (o o' : OS) (fd : Fd) (k : Sock) : Prop where
  fds : o'.fds = Function.update o.fds fd (some k)
  still : o'.still = o.still
  lives : o.Lives o'

/-- A call that changed nothing that lasts. -/
structure Called (o o' : OS) : Prop where
  fds : o'.fds = o.fds
  still : o'.still = o.still
  killed : o'.killed = o.killed

theorem recv_cases {o : OS} {fd : Fd} {k : Sock} (hk : o.fds fd = some k) (n : Nat) :
    (∃ o' e, o.recv fd n = (o', .error e) ∧
      Touched o o' fd { k with lost := k.lost || !e.again }) ∨
    (∃ o' bs, o.recv fd n = (o', .ok bs) ∧ bs.length ≤ n ∧
      Touched o o' fd { k with rx := k.rx ++ bs, lost := k.lost || bs.isEmpty }) := by
  unfold OS.recv
  have ht : o.tick.fds fd = some k := hk
  cases o.answer.err with
  | some e => exact Or.inl ⟨_, e, rfl, by rw [modifySock_fds ht]; rfl, rfl, Or.inl rfl⟩
  | none =>
    exact Or.inr ⟨_, _, rfl, List.length_take_le _ _, by rw [modifySock_fds ht]; rfl, rfl,
      Or.inl rfl⟩

theorem send_cases {o : OS} {fd : Fd} {k : Sock} (hk : o.fds fd = some k) (bs : Bytes) :
    (∃ o' e, o.send fd bs = (o', .error e) ∧
      Touched o o' fd { k with flawless := false, lost := k.lost || !e.again }) ∨
    (∃ o' n, o.send fd bs = (o', .ok n) ∧ n ≤ bs.length ∧
      Touched o o' fd
        { k with tx := k.tx ++ bs.take n, flawless := k.flawless && n == bs.length }) := by
  unfold OS.send
  have ht : o.sendTick.fds fd = some k := hk
  cases he : o.sendAnswer.err with
  | none =>
    exact Or.inr ⟨_, _, rfl, Nat.min_le_right _ _, by rw [modifySock_fds ht]; rfl, rfl, Or.inl rfl⟩
  | some e =>
    refine Or.inl ⟨_, e, rfl, ?_⟩
    by_cases hp : e = .EPIPE ∧ o.sigpipeHandled = false
    · refine ⟨?_, ?_, Or.inr ⟨⟨⟨o.sends, by rw [← hp.1]; exact he⟩, hp.2⟩, ?_⟩⟩
      · simp only [if_pos hp]
        show (o.sendTick.modifySock fd _).fds = _
        rw [modifySock_fds ht]; rfl
      · simp only [if_pos hp]; rfl
      · simp only [if_pos hp]; rfl
    · refine ⟨?_, ?_, Or.inl ?_⟩
      · simp only [if_neg hp]; rw [modifySock_fds ht]; rfl
      · simp only [if_neg hp]; rfl
      · simp only [if_neg hp]; rfl

theorem shutdown_cases {o : OS} {fd : Fd} {k : Sock} (hk : o.fds fd = some k) :
    (∃ o' e, o.shutdown fd = (o', .error e) ∧ Called o o') ∨
    (∃ o', o.shutdown fd = (o', .ok ()) ∧ Touched o o' fd { k with shutWr := true }) := by
  unfold OS.shutdown
  have ht : o.tick.fds fd = some k := hk
  cases o.answer.err with
  | some e => exact Or.inl ⟨_, e, rfl, rfl, rfl, rfl⟩
  | none => exact Or.inr ⟨_, rfl, by rw [modifySock_fds ht]; rfl, rfl, Or.inl rfl⟩

theorem getsockopt_cases {o : OS} {fd : Fd} {k : Sock} (hk : o.fds fd = some k) :
    (∃ o' e, o.getsockopt fd = (o', .error e) ∧ Called o o') ∨
    (∃ o', o.getsockopt fd = (o', .ok k.soError) ∧
      Touched o o' fd { k with soError := none }) := by
  unfold OS.getsockopt
  have ht : o.tick.fds fd = some k := hk
  cases o.answer.err with
  | some e => exact Or.inl ⟨_, e, rfl, rfl, rfl, rfl⟩
  | none =>
    have hb : ((o.fds fd).bind fun s => s.soError) = k.soError := by rw [hk]; rfl
    refine Or.inr ⟨_, Prod.ext rfl (congrArg Except.ok hb), ?_, rfl, Or.inl rfl⟩
    show (o.tick.modifySock fd _).fds = _
    rw [modifySock_fds ht]; rfl

theorem call_cases (o : OS) :
    (∃ o' e, o.call = (o', .error e) ∧ Called o o') ∨ (∃ o', o.call = (o', .ok ()) ∧ Called o o') := by
  unfold OS.call
  cases o.answer.err with
  | some e => exact Or.inl ⟨_, e, rfl, rfl, rfl, rfl⟩
  | none => exact Or.inr ⟨_, rfl, rfl, rfl, rfl⟩

theorem Called.trans {a b c : OS} (h₁ : Called a b) (h₂ : Called b c) : Called a c :=
  ⟨h₂.fds.trans h₁.fds, h₂.still.trans h₁.still, h₂.killed.trans h₁.killed⟩

theorem nio_cases (o : OS) :
    (∃ o' e, o.selectorFdSetNio = (o', .error e) ∧ Called o o') ∨
      (∃ o', o.selectorFdSetNio = (o', .ok ()) ∧ Called o o') := by
  unfold OS.selectorFdSetNio
  rcases call_cases o with ⟨o1, e, h1, c1⟩ | ⟨o1, h1, c1⟩
  · rw [h1]; exact Or.inl ⟨o1, e, rfl, c1⟩
  · rw [h1]
    rcases call_cases o1 with ⟨o2, e, h2, c2⟩ | ⟨o2, h2, c2⟩
    · exact Or.inl ⟨o2, e, h2, c1.trans c2⟩
    · exact Or.inr ⟨o2, h2, c1.trans c2⟩

/-! ## On the session's own sockets -/

theorem Own.touchClient {c : SCtx} (h : Own c) {os' : OS} {k : Sock}
    (ht : Touched c.os os' c.s.clientFd k) :
    Good c { c with os := os' } ∧ ({ c with os := os' } : SCtx).view = { c.view with cl := k } :=
  ⟨h.onSock (Or.inl rfl) ht.fds ht.still ht.lives, view_onClient h ht.fds⟩

theorem Own.touchOrigin {c : SCtx} (h : Own c) {os' : OS} {k : Sock} {fd : Fd}
    (hor : c.s.originFd = some fd) (ht : Touched c.os os' fd k) :
    Good c { c with os := os' } ∧ ({ c with os := os' } : SCtx).view = { c.view with og := k } :=
  ⟨h.onSock (Or.inr hor) ht.fds ht.still ht.lives, view_onOrigin h hor ht.fds⟩

theorem Own.called {c : SCtx} (h : Own c) {os' : OS} (hc : Called c.os os') :
    Good c { c with os := os' } ∧ ({ c with os := os' } : SCtx).view = c.view :=
  ⟨h.onCalls hc.fds hc.still hc.killed, view_onCalls hc.fds⟩

/-! ## Filling the read buffer, emptying the write buffer -/

theorem fill_cases {c : SCtx} (h : Own c) :
    (∃ c', fillReadBuffer c.s.clientFd c = (c', .again) ∧ Good c c' ∧ c.view.rb = [] ∧
      c'.view = c.view) ∨
    (∃ c', fillReadBuffer c.s.clientFd c = (c', .fail) ∧ Good c c' ∧
      c'.view = { c.view with cl := { c.view.cl with lost := true } }) ∨
    (∃ c', fillReadBuffer c.s.clientFd c = (c', .ready) ∧ Good c c' ∧ c'.view.rb ≠ [] ∧
      (c'.view = c.view ∨ ∃ bs, c.view.rb = [] ∧ bs ≠ [] ∧ bs.length ≤ bufferSize ∧
        c'.view = { c.view with rb := bs, cl := { c.view.cl with rx := c.view.cl.rx ++ bs } })) := by
  unfold fillReadBuffer
  by_cases hb : c.s.readBuffer.bufferCanRead = true
  · rw [if_pos hb]
    exact Or.inr (Or.inr ⟨c, rfl, .refl h, h.here.rb.canRead_iff.mp hb, Or.inl rfl⟩)
  · rw [if_neg hb]
    have hempty : c.s.readBuffer.unread = [] := h.here.rb.canRead_false.mp (by simpa using hb)
    unfold Ctx.recv
    rcases recv_cases h.client_sock c.s.readBuffer.bufferWritePtr with
      ⟨os', e, hr, ht⟩ | ⟨os', bs, hr, hlen, ht⟩
    · obtain ⟨hg, hv⟩ := h.touchClient ht
      rw [hr]
      cases ha : e.again with
      | true =>
        refine Or.inl ⟨_, by simp [ha], hg, hempty, hv.trans ?_⟩
        simp [ha]
      | false =>
        refine Or.inr (Or.inl ⟨_, by simp [ha], hg, hv.trans ?_⟩)
        simp [ha]
    · obtain ⟨hg, hv⟩ := h.touchClient ht
      rw [hr]
      cases bs with
      | nil =>
        refine Or.inr (Or.inl ⟨_, rfl, hg, hv.trans ?_⟩)
        simp
      | cons b bs =>
        have hne : b :: bs ≠ [] := by simp
        have hwf := h.here.rb.fill hlen hne
        have hu := h.here.rb.fill_unread (b :: bs)
        rw [hempty, List.nil_append] at hu
        have hg' := hg.trans h (hg.own.setReadBuffer hwf (by simp [h.here.rbLimit]))
        refine Or.inr (Or.inr ⟨_, rfl, hg', ?_, Or.inr ⟨b :: bs, hempty, hne, ?_, ?_⟩⟩)
        · rw [view_setReadBuffer, hu]; exact hne
        · refine hlen.trans ?_
          rw [bufferWritePtr, h.here.rbLimit]; exact Nat.sub_le _ _
        · rw [view_setReadBuffer, hu, hv]; simp

theorem flush_cases {c : SCtx} (h : Own c) (hne : c.view.wb ≠ []) :
    (∃ c', flushWriteBuffer c.s.clientFd c = (c', .fail) ∧ Good c c' ∧
      c'.view = { c.view with cl := { c.view.cl with flawless := false, lost := true } }) ∨
    (∃ c' n, flushWriteBuffer c.s.clientFd c = (c', .pending) ∧ Good c c' ∧
      n < c.view.wb.length ∧ c'.view = { c.view with
        wb := c.view.wb.drop n
        cl := { c.view.cl with tx := c.view.cl.tx ++ c.view.wb.take n, flawless := false } }) ∨
    (∃ c', flushWriteBuffer c.s.clientFd c = (c', .drained) ∧ Good c c' ∧
      c'.view = c.view.drained) := by
  unfold flushWriteBuffer Ctx.send
  have hpos : 0 < c.view.wb.length := List.length_pos_iff.mpr hne
  rcases send_cases h.client_sock c.s.writeBuffer.bufferReadPtr with
    ⟨os', e, hr, ht⟩ | ⟨os', n, hr, hlen, ht⟩
  · obtain ⟨hg, hv⟩ := h.touchClient ht
    rw [hr]
    cases ha : e.again with
    | true =>
      refine Or.inr (Or.inl ⟨_, 0, by simp [ha], hg, hpos, hv.trans ?_⟩)
      simp [ha]
    | false =>
      refine Or.inl ⟨_, by simp [ha], hg, hv.trans ?_⟩
      simp [ha]
  · obtain ⟨hg, hv⟩ := h.touchClient ht
    rw [hr]
    have hwf := h.here.wb.readAdv hlen
    have hu := h.here.wb.readAdv_unread n
    have hg' := hg.trans h (hg.own.setWriteBuffer hwf (by simp [h.here.wbLimit]))
    by_cases hall : n = c.s.writeBuffer.unread.length
    · refine Or.inr (Or.inr ⟨_, ?_, hg', ?_⟩)
      · have hempty : (c.s.writeBuffer.bufferReadAdv n).bufferCanRead = false :=
          hwf.canRead_false.mpr (by rw [hu, hall, List.drop_length])
        simp only [Ctx.setWriteBuffer, Ctx.modify, hempty]; rfl
      · rw [view_setWriteBuffer, hu, hv, hall, List.drop_length]
        simp [View.drained, Ctx.view]
    · have hlt : n < c.s.writeBuffer.unread.length := Nat.lt_of_le_of_ne hlen hall
      refine Or.inr (Or.inl ⟨_, n, ?_, hg', hlt, ?_⟩)
      · have hmore : (c.s.writeBuffer.bufferReadAdv n).bufferCanRead = true :=
          hwf.canRead_iff.mpr (by rw [hu]; simp [List.drop_eq_nil_iff]; omega)
        simp only [Ctx.setWriteBuffer, Ctx.modify, hmore]; rfl
      · rw [view_setWriteBuffer, hu, hv]
        simp [Ctx.view, hall]

/-! ## Queueing a message -/

/-- A message marshalled into an empty write buffer. -/
theorem marshall_empty {b : Buffer} (h : WF b) (he : b.unread = []) {m : Bytes} (hne : m ≠ [])
    (hl : m.length ≤ b.limit) :
    ∃ b', marshall b m = some b' ∧ WF b' ∧ b'.limit = b.limit ∧ b'.unread = m := by
  have hw : b.write = 0 := by
    have hlen := h.unread_length
    rw [he] at hlen
    have hr := h.readLe
    have heq : b.read = b.write := by simp at hlen; omega
    rw [← heq]; exact h.rest heq
  have hfit : m.length ≤ b.bufferWritePtr := by rw [bufferWritePtr, hw]; exact hl
  refine ⟨_, by rw [marshall, if_neg (Nat.not_lt.mpr hfit)], h.fill hfit hne, by simp, ?_⟩
  rw [h.fill_unread, he, List.nil_append]

end Socks5d
