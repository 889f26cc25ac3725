import Socks5d.Ownership

/-! # The operations the handlers are made of

Each system call, selector call and field update, as a step that keeps a
session in good order and moves its view in a known way. -/
namespace Socks5d
open Buffer Ctx

/-! ## Updates of the session's own fields -/

/-- An update that leaves descriptors, references, buffers and the history alone. -/
structure Untouched (s s' : Socks5) : Prop where
  still : s'.still = s.still
  origin : s'.originFd = s.originFd
  refs : s'.references = s.references
  rb : s'.readBuffer = s.readBuffer
  wb : s'.writeBuffer = s.writeBuffer
  hist : s'.hist = s.hist

theorem Socks5.still_clientFd {s s' : Socks5} (h : s'.still = s.still) :
    s'.clientFd = s.clientFd := congrArg Prod.fst h

theorem Socks5.still_logEmitted {s s' : Socks5} (h : s'.still = s.still) :
    s'.logEmitted = s.logEmitted := congrArg (fun t => t.2.2.2.2.2.1) h

theorem Socks5.still_resolution {s s' : Socks5} (h : s'.still = s.still) :
    s'.originResolution = s.originResolution := congrArg (fun t => t.2.2.2.2.2.2) h

theorem Local.of_untouched {s s' : Socks5} (h : Local s) (hu : Untouched s s') : Local s' where
  rb := by rw [hu.rb]; exact h.rb
  rbLimit := by rw [hu.rb]; exact h.rbLimit
  wb := by rw [hu.wb]; exact h.wb
  wbLimit := by rw [hu.wb]; exact h.wbLimit
  refs := by
    have := h.refs
    simp only [originRefs] at this ⊢
    rw [hu.refs, hu.hist, hu.origin]; exact this
  unlogged := (Socks5.still_logEmitted hu.still).trans h.unlogged
  origin_ne := by rw [hu.origin, Socks5.still_clientFd hu.still]; exact h.origin_ne

/-- Changing the session's memory only. -/
theorem Own.onSelf {c : SCtx} (h : Own c) {s' : Socks5} (hl : Local s')
    (hs : s'.still = c.s.still) (ho : s'.originFd = c.s.originFd)
    (hh : s'.hist = c.s.hist) : Good c { c with s := s' } where
  frame :=
    { Frame.refl c with
      still := hs
      foreign := fun _ _ _ _ => ⟨rfl, rfl⟩
      dropped := fun fd h1 h2 => absurd (ho.trans h1) h2
      fresh := fun fd h1 => Or.inl (ho ▸ h1)
      past := ⟨[], [], { Past.refl c with hist := by simpa using hh }⟩ }
  own :=
    { client := by
        have := h.client
        rw [← Socks5.still_clientFd hs] at this
        exact this
      origin := fun fd hf => h.origin fd (ho ▸ hf)
      here := hl
      table := h.table }

theorem Own.modify {c : SCtx} (h : Own c) {f : Socks5 → Socks5} (hu : Untouched c.s (f c.s)) :
    Good c (c.modify f) := h.onSelf (h.here.of_untouched hu) hu.still hu.origin hu.hist

theorem Own.setReadBuffer {c : SCtx} (h : Own c) {b : Buffer} (hb : WF b)
    (hl : b.limit = bufferSize) : Good c (c.setReadBuffer b) :=
  h.onSelf { h.here with rb := hb, rbLimit := hl } rfl rfl rfl

theorem Own.setWriteBuffer {c : SCtx} (h : Own c) {b : Buffer} (hb : WF b)
    (hl : b.limit = bufferSize) : Good c (c.setWriteBuffer b) :=
  h.onSelf { h.here with wb := hb, wbLimit := hl } rfl rfl rfl

theorem Own.setClient {c : SCtx} (h : Own c) (u : ClientUnion) : Good c (c.setClient u) :=
  h.modify ⟨rfl, rfl, rfl, rfl, rfl, rfl⟩

/-- An observation, with what it does to the shared counters and the log. -/
theorem Own.noted {c : SCtx} (h : Own c) {o : Obs} (hs : o.submits = false)
    (hc : o.consumes = false) {k : Globals} (hg : k.still = c.g.still)
    (hm : k.metrics = c.g.metrics.map o.charge)
    (hl : k.accessLog = c.g.accessLog.map (· ++ o.record.toList))
    (hd : k.dnsWorker = c.g.dnsWorker) : Good c { c.note o with g := k } where
  frame :=
    { Frame.refl c with
      foreign := fun _ _ _ _ => ⟨rfl, rfl⟩
      dropped := fun _ h1 h2 => absurd h1 h2
      fresh := fun _ h1 => Or.inl h1
      g := hg
      past := ⟨[o], [], { Past.refl c with
        hist := rfl
        metrics := hm
        log := by
          have : records [o] = o.record.toList := by
            cases hr : o.record <;> simp [records, hr, -Obs.record]
          rw [this]; exact hl
        dns := hd.trans (by cases c.g.dnsWorker <;> simp)
        submitted := by simp [hs, -Obs.submits]
        tickets := fun _ _ => by
          have : o.ticket = none := by
            cases o with
            | dnsSubmit k => cases k <;> simp_all
            | _ => rfl
          simp [Socks5d.tickets, this, -Obs.ticket]
        consumed := by simp [hc, -Obs.consumes] }⟩ }
  own :=
    { client := h.client, origin := h.origin, table := h.table
      here := { h.here with
        refs := by
          show c.s.references + consumptions (c.s.hist ++ [o]) =
            1 + originRefs c.s + submissions (c.s.hist ++ [o])
          simpa [hs, hc, -Obs.submits, -Obs.consumes] using h.here.refs } }

/-- Observations that no counter follows. -/
def Obs.plain : Obs → Bool
  | .completed none _ _ | .connectFailed | .relaySend _ (some _) | .logged _ => false
  | .dnsSubmit k => k.isNone
  | .dnsConsumed _ => false
  | .authProcessed _ _ status => status == 0
  | _ => true

theorem Obs.plain_spec {o : Obs} (h : o.plain = true) :
    o.submits = false ∧ o.consumes = false ∧ o.charge = id ∧ o.record = none := by
  unfold Obs.plain at h
  cases o with
  | completed e r k => cases e <;> simp_all [Obs.charge]
  | relaySend d n => cases n <;> simp_all [Obs.charge]
  | dnsSubmit k => cases k <;> simp_all [Obs.charge]
  | authProcessed us p status => simp_all [Obs.charge]
  | _ => simp_all [Obs.charge]

theorem Own.note {c : SCtx} (h : Own c) {o : Obs} (ho : o.plain = true) : Good c (c.note o) := by
  obtain ⟨hs, hc, hm, hl⟩ := Obs.plain_spec ho
  refine h.noted hs hc rfl ?_ ?_ rfl
  · rw [hm]; cases c.g.metrics <;> rfl
  · rw [hl]; cases c.g.accessLog <;> simp

/-- An observation that is counted. -/
theorem Own.noteCounted {c : SCtx} (h : Own c) {o : Obs} (hs : o.submits = false)
    (hc : o.consumes = false) (hr : o.record = none) :
    Good c ((c.note o).metrics o.charge) := by
  refine h.noted hs hc (k := { c.g with metrics := c.g.metrics.map o.charge }) rfl rfl ?_ rfl
  rw [hr]
  cases c.g.accessLog <;> simp

/-- A record written to the log. -/
theorem Own.log {c : SCtx} (h : Own c) (r : LogRecord) : Good c (log r c) := by
  refine h.noted (o := .logged r) rfl rfl
    (k := { c.g with accessLog := c.g.accessLog.map (· ++ [r]) }) rfl ?_ rfl rfl
  cases c.g.metrics <;> rfl

/-! ## Shared counters -/

@[simp] theorem view_metrics (c : SCtx) (f : Metrics → Metrics) : (c.metrics f).view = c.view := rfl

theorem Own.setFailure {c : SCtx} (h : Own c) (r : FailureReason) : Good c (socks5SetFailure r c) :=
  h.modify ⟨rfl, rfl, rfl, rfl, rfl, rfl⟩

@[simp] theorem view_setFailure (c : SCtx) (r : FailureReason) : (socks5SetFailure r c).view = c.view := rfl

@[simp] theorem view_note (c : SCtx) (o : Obs) : (c.note o).view = c.view.note o := rfl

@[simp] theorem view_setClient (c : SCtx) (u : ClientUnion) :
    (c.setClient u).view = { c.view with client := u } := rfl

@[simp] theorem view_setReadBuffer (c : SCtx) (b : Buffer) :
    (c.setReadBuffer b).view = { c.view with rb := b.unread } := rfl

@[simp] theorem view_setWriteBuffer (c : SCtx) (b : Buffer) :
    (c.setWriteBuffer b).view = { c.view with wb := b.unread } := rfl

/-! ## System calls on the session's own descriptors -/

/-- A descriptor the session owns. -/
def Mine (c : SCtx) (fd : Fd) : Prop := fd = c.s.clientFd ∨ c.s.originFd = some fd

theorem Own.owns {c : SCtx} (h : Own c) {fd : Fd} (hm : Mine c fd) : Owns c fd := by
  rcases hm with rfl | ho
  · exact h.client
  · exact h.origin fd ho

/-- A call that may change one of the session's sockets, keeping it open. -/
theorem Own.onSock {c : SCtx} (h : Own c) {os' : OS} {fd : Fd} (hm : Mine c fd) {k : Sock}
    (hf : os'.fds = Function.update c.os.fds fd (some k)) (hs : os'.still = c.os.still)
    (hk : c.os.Lives os') : Good c { c with os := os' } := by
  have hother : ∀ g, g ≠ fd → os'.fds g = c.os.fds g := fun g hg => by
    rw [hf, Function.update_of_ne hg]
  have hopen : ∀ g, (∃ k, c.os.fds g = some k) → ∃ k, os'.fds g = some k := fun g hg => by
    by_cases hgf : g = fd
    · exact ⟨k, by rw [hgf, hf, Function.update_self]⟩
    · rw [hother g hgf]; exact hg
  refine ⟨{ Frame.refl c with
    foreign := fun g h1 h2 _ => ⟨hother g fun he => ?_, rfl⟩
    dropped := fun _ h1 h2 => absurd h1 h2
    fresh := fun _ h1 => Or.inl h1
    os := hs, lives := hk, past := past_none rfl rfl }, ?_⟩
  · subst he
    rcases hm with h3 | h3
    · exact h1 h3
    · exact h2 h3
  · exact {
      client := ⟨h.client.1, hopen _ h.client.2⟩
      origin := fun g hg => ⟨(h.origin g hg).1, hopen g (h.origin g hg).2⟩
      here := h.here
      table := h.table.withFds fun g _ _ hg => hopen g hg }

/-- A call that touches no descriptor. -/
theorem Own.onCalls {c : SCtx} (h : Own c) {os' : OS} (hf : os'.fds = c.os.fds)
    (hs : os'.still = c.os.still) (hk : os'.killed = c.os.killed) : Good c { c with os := os' } :=
  ⟨{ Frame.refl c with
     foreign := fun _ _ _ _ => ⟨congrFun hf _, rfl⟩
     dropped := fun _ h1 h2 => absurd h1 h2
     fresh := fun _ h1 => Or.inl h1
     os := hs, lives := Or.inl hk, past := past_none rfl rfl },
   { client := ⟨h.client.1, by simpa only [hf] using h.client.2⟩
     origin := fun g hg => ⟨(h.origin g hg).1, by simpa only [hf] using (h.origin g hg).2⟩
     here := h.here
     table := h.table.congr hf }⟩

/-- The view after a call that changed the client's socket. -/
theorem view_onClient {c : SCtx} (h : Own c) {os' : OS} {k : Sock}
    (hf : os'.fds = Function.update c.os.fds c.s.clientFd (some k)) :
    ({ c with os := os' } : SCtx).view = { c.view with cl := k } := by
  have ho : c.s.originFd.bind os'.fds = c.s.originFd.bind c.os.fds := by
    cases hor : c.s.originFd with
    | none => rfl
    | some g =>
      have hg : g ≠ c.s.clientFd := fun he => h.here.origin_ne (by rw [hor, he])
      simp only [Option.bind_some, hf, Function.update_of_ne hg]
  simp only [Ctx.view, ho]
  simp only [hf, Function.update_self, Option.getD_some]

theorem view_onOrigin {c : SCtx} (h : Own c) {os' : OS} {k : Sock} {fd : Fd}
    (hor : c.s.originFd = some fd) (hf : os'.fds = Function.update c.os.fds fd (some k)) :
    ({ c with os := os' } : SCtx).view = { c.view with og := k } := by
  have hc : c.s.clientFd ≠ fd := fun he => h.here.origin_ne (by rw [hor, he])
  simp only [Ctx.view, hor, Option.bind_some, hf, Function.update_self, Function.update_of_ne hc,
    Option.getD_some]

theorem view_onCalls {c : SCtx} {os' : OS} (hf : os'.fds = c.os.fds) :
    ({ c with os := os' } : SCtx).view = c.view := by
  simp only [Ctx.view, hf]

theorem Own.client_sock {c : SCtx} (h : Own c) : c.os.fds c.s.clientFd = some c.view.cl := by
  obtain ⟨k, hk⟩ := h.client.2
  simp only [Ctx.view, hk, Option.getD_some]

theorem Own.origin_sock {c : SCtx} (h : Own c) {fd : Fd} (hor : c.s.originFd = some fd) :
    c.os.fds fd = some c.view.og := by
  obtain ⟨k, hk⟩ := (h.origin fd hor).2
  simp only [Ctx.view, hor, Option.bind_some, hk, Option.getD_some]

theorem Own.client_item {c : SCtx} (h : Own c) :
    c.sel.fds c.s.clientFd = some ⟨c.view.ci, .socks5, c.self⟩ := by
  obtain ⟨i, hi⟩ := h.client.1
  simp only [Ctx.view, hi, Option.map_some, Option.getD_some]

theorem Own.origin_item {c : SCtx} (h : Own c) {fd : Fd} (hor : c.s.originFd = some fd) :
    c.sel.fds fd = some ⟨c.view.oi, .socks5, c.self⟩ := by
  obtain ⟨i, hi⟩ := (h.origin fd hor).1
  simp only [Ctx.view, hor, Option.bind_some, hi, Option.map_some, Option.getD_some]

/-! ## The selector -/

theorem Own.setInterest {c : SCtx} (h : Own c) {fd : Fd} (hm : Mine c fd) (i : Interest) :
    ∃ sel', c.selectorSetInterest fd i = ({ c with sel := sel' }, .success) ∧
      Good c { c with sel := sel' } ∧
      sel'.fds = Function.update c.sel.fds fd (some ⟨i, .socks5, c.self⟩) := by
  obtain ⟨⟨j, hj⟩, hk⟩ := h.owns hm
  have hv := h.table.valid fd _ hj
  let sel' : Selector := { c.sel with
    fds := Function.update c.sel.fds fd (some ⟨i, .socks5, c.self⟩)
    masterR := Function.update c.sel.masterR fd i.read
    masterW := Function.update c.sel.masterW fd i.write }
  have hother : ∀ g, g ≠ fd → sel'.fds g = c.sel.fds g := fun g hg => Function.update_of_ne hg _ _
  have hreg : ∀ g, Owns c g → Owns { c with sel := sel' } g := fun g hg => by
    by_cases hgf : g = fd
    · subst hgf; exact ⟨⟨i, Function.update_self _ _ _⟩, hg.2⟩
    · exact ⟨by simpa only [hother g hgf] using hg.1, hg.2⟩
  refine ⟨sel', ?_, ⟨{ Frame.refl c with
    foreign := fun g h1 h2 _ => ⟨rfl, hother g fun he => ?_⟩
    dropped := fun _ h1 h2 => absurd h1 h2
    fresh := fun _ h1 => Or.inl h1
    sel := rfl, past := past_none rfl rfl }, ?_⟩, rfl⟩
  · simp [Ctx.selectorSetInterest, Selector.selectorSetInterest, hv, hj,
      Selector.itemsUpdateFdsetForFd, sel']
  · subst he
    rcases hm with h3 | h3
    · exact h1 h3
    · exact h2 h3
  · exact {
      client := hreg _ h.client
      origin := fun g hg => hreg g (h.origin g hg)
      here := h.here
      table := h.table.setItem ⟨i, .socks5, c.self⟩ hv hk c.sel.maxFd }

/-- `selector_set_interest` on the client's descriptor. -/
theorem Own.setClientInterest {c : SCtx} (h : Own c) (i : Interest) :
    ∃ c', c.selectorSetInterest c.s.clientFd i = (c', .success) ∧ Good c c' ∧
      c'.view = { c.view with ci := i } ∧ c'.s = c.s ∧ c'.g = c.g ∧ c'.os = c.os := by
  obtain ⟨sel', heq, hg, hf⟩ := h.setInterest (Or.inl rfl) i
  refine ⟨_, heq, hg, ?_, rfl, rfl, rfl⟩
  have ho : c.s.originFd.bind sel'.fds = c.s.originFd.bind c.sel.fds := by
    cases hor : c.s.originFd with
    | none => rfl
    | some g =>
      have hne : g ≠ c.s.clientFd := fun he => h.here.origin_ne (by rw [hor, he])
      simp only [Option.bind_some, hf, Function.update_of_ne hne]
  simp only [Ctx.view, ho]
  simp only [hf, Function.update_self, Option.map_some, Option.getD_some]

/-- `selector_set_interest` on the origin's descriptor. -/
theorem Own.setOriginInterest {c : SCtx} (h : Own c) {fd : Fd} (hor : c.s.originFd = some fd)
    (i : Interest) :
    ∃ c', c.selectorSetInterest fd i = (c', .success) ∧ Good c c' ∧
      c'.view = { c.view with oi := i } ∧ c'.s = c.s ∧ c'.g = c.g ∧ c'.os = c.os := by
  obtain ⟨sel', heq, hg, hf⟩ := h.setInterest (Or.inr hor) i
  refine ⟨_, heq, hg, ?_, rfl, rfl, rfl⟩
  have hc : c.s.clientFd ≠ fd := fun he => h.here.origin_ne (by rw [hor, he])
  simp only [Ctx.view, hor, Option.bind_some, hf, Function.update_self, Function.update_of_ne hc,
    Option.map_some, Option.getD_some]

end Socks5d
