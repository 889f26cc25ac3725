import Socks5d.Sessions

/-! # What the pump leaves

Every call of `socksv5_pump` in a run: it comes to an end, and the session it
leaves waits for something that is still to happen. -/
namespace Socks5d
open Buffer Ctx View

/-- The calls of `socksv5_pump` at descriptor `i`: the session, as the event
left it, and the state it is in. The write handler runs after the read handler. -/
inductive World.Pumps (w : World) (i : Fd) : SCtx → SocksState → Prop
  | read {it : Item} : w.sel.fds i = some it → it.handler = .socks5 → it.interest.read = true →
      w.sel.slaveR i = true →
      Pumps w i (sessionStm.stmHandlerRead i (w.ctx it.data)).1
        (sessionStm.stmHandlerRead i (w.ctx it.data)).2
  | write {it now : Item} {w' : World} : w.sel.fds i = some it →
      (if w.sel.slaveR i && it.interest.read then w.handleRead it i else w) = w' →
      w'.sel.fds i = some now → now.handler = .socks5 → now.interest.write = true →
      w'.sel.slaveW i = true →
      Pumps w i (sessionStm.stmHandlerWrite i (w'.ctx it.data)).1
        (sessionStm.stmHandlerWrite i (w'.ctx it.data)).2

/-- What the selector watches the client's descriptor for. -/
def Ctx.clientInterest (c : SCtx) : Option Interest := (c.sel.fds c.s.clientFd).map Item.interest

def Ctx.originInterest (c : SCtx) : Option Interest :=
  (c.s.originFd.bind c.sel.fds).map Item.interest

/-- Nothing that has been received waits for more to be received: the parsers
have taken all there is, an answer that is not sent or bytes that are not relayed
are watched for, or the session waits for its name, its origin or its end. -/
def Unstranded (c : SCtx) : SocksState → Prop
  | .helloRead | .authRead | .requestRead =>
    c.s.readBuffer.unread = [] ∧ c.clientInterest = some opRead
  | .helloWrite | .authWrite | .requestWrite =>
    c.s.writeBuffer.unread ≠ [] ∧ c.clientInterest = some opWrite
  | .copy =>
    (c.s.readBuffer.unread ≠ [] → ∃ i, c.originInterest = some i ∧ i.write = true) ∧
      (c.s.writeBuffer.unread ≠ [] → ∃ i, c.clientInterest = some i ∧ i.write = true)
  | .requestResolv | .connecting | .done | .error => True

section Pumping
variable {τ : Terms} {ρ : Roster} {w : World} {i : Fd} {c : SCtx} {st : SocksState}

theorem Own.clientInterest {c : SCtx} (h : Own c) : c.clientInterest = some c.view.ci := by
  unfold Ctx.clientInterest
  rw [h.client_item]
  rfl

theorem Own.originInterest {c : SCtx} (h : Own c) {fd : Fd} (hor : c.s.originFd = some fd) :
    c.originInterest = some c.view.oi := by
  unfold Ctx.originInterest
  rw [hor, Option.bind_some, h.origin_item hor]
  rfl

/-- A session in good order that waits is not stranded. -/
theorem InState.unstranded (h : InState c st) (hr : Settled c) : Unstranded c st := by
  have hvst : c.view.st = some st := h.st
  have hs := h.sane
  have hrest := hr.rest
  have hci := h.own.clientInterest
  unfold View.Rest at hrest
  simp only [Sane, hvst] at hs hrest
  cases st with
  | helloRead | authRead | requestRead => exact ⟨hrest, by rw [hci, hs.2.2.1]⟩
  | helloWrite | authWrite => exact ⟨hs.2.1, by rw [hci, hs.2.2.1]⟩
  | requestWrite => exact ⟨hs.1, by rw [hci, hs.2.1]⟩
  | requestResolv | connecting | done | error => trivial
  | copy =>
    obtain ⟨hc, ho⟩ := hr.armed h.st
    obtain ⟨fd, hfd⟩ := Option.isSome_iff_exists.mp hs.origin
    -- what is not empty is not closed
    have hopen : ∀ d, c.view.bufOf d ≠ [] → (c.s.copyOf d).writeClosed = false := by
      intro d hne
      rw [copyOf_view]
      cases hcl : (c.view.copyOf d).writeClosed with
      | false => rfl
      | true => exact absurd (hs.closed d hcl).2 hne
    have hfull : ∀ d, c.view.bufOf d ≠ [] → (c.s.bufOf d).bufferCanRead = true := fun d hne =>
      (h.own.bufOf_wf d).1.canRead_iff.mpr (by rw [bufOf_view]; exact hne)
    refine ⟨fun hne => ⟨_, h.own.originInterest hfd, ?_⟩, fun hne => ⟨_, hci, ?_⟩⟩
    · rw [ho]
      simp only [copyOriginInterest, hopen .c2o hne, hfull .c2o hne, Bool.not_false, Bool.and_self]
    · rw [hc]
      simp only [copyClientInterest, hopen .o2c hne, hfull .o2c hne, Bool.not_false, Bool.and_self]

/-- A session whose descriptor is due for writing once its read handler has run. -/
theorem Inv.between (h : Inv τ ρ w) (hc : AllCalm ρ w) {it now : Item} {w' : World}
    (hit : w.sel.fds i = some it)
    (hw' : (if w.sel.slaveR i && it.interest.read then w.handleRead it i else w) = w')
    (hnow : w'.sel.fds i = some now) (hi : now.interest.write = true) (hs : ¬τ.strict) :
    ∃ ρ', Inv τ ρ' w' ∧ AllCalm ρ' w' ∧ now.data = it.data := by
  split at hw'
  · next hgo =>
    -- the read handler of the same object has run
    obtain ⟨-, hread⟩ := Bool.and_eq_true_iff.mp hgo
    have hlistener : it.interest = opRead → w'.sel.fds i = some it → False := fun h1 h2 => by
      rw [Option.some.inj (hnow.symm.trans h2), h1] at hi
      cases hi
    have hafter : ∀ {ρ' : Roster}, Stepped τ (· = it.data) 0 ρ ρ' w w' →
        (it.handler = .socks5 ∨ it.handler = .mng) →
        ∃ ρ', Inv τ ρ' w' ∧ AllCalm ρ' w' ∧ now.data = it.data := by
      intro ρ' h1 hk
      have hown := h1.owner h.toCore hit hk hnow hi
      exact ⟨ρ', h1.inv, h1.calm, hown.2⟩
    cases hk : it.handler with
    | socks5 =>
      obtain ⟨ρ', h1, -, -⟩ := h.socksRead hc hit hk hread (fun hst => absurd hst hs)
        fun hst => absurd hst hs
      exact hafter (hw' ▸ h1) (Or.inl hk)
    | mng =>
      obtain ⟨hm', hfd⟩ := h.registry.mng i it hit hk
      have hrun : w.handleRead it i = w.runMng it.data (Mng.mngRead i) := by
        unfold World.handleRead
        rw [hk]
      obtain ⟨ρ', h1, -⟩ := h.mngCallback hc hit hk
        (Mng.mngRead_served (h.toCore.conversing hm') hfd.symm (h.admins _ hm').waiting)
        fun hst => absurd hst hs
      rw [hrun] at hw'
      exact hafter (hw' ▸ h1) (Or.inr hk)
    | socksListener =>
      obtain ⟨ρ', n, -, -, ha⟩ := h.passiveAccept hc
      have he : w.handleRead it i = w.socksv5PassiveAccept := by
        unfold World.handleRead
        rw [hk]
      rw [he] at hw'
      exact (hlistener (h.registry.listening i it hit (Or.inl hk)).interest
        (hw' ▸ ha.items i it hit)).elim
    | mngListener =>
      obtain ⟨ρ', -, -, ha⟩ := h.mngPassiveAccept hc
      have he : w.handleRead it i = w.mngPassiveAccept := by
        unfold World.handleRead
        rw [hk]
      rw [he] at hw'
      exact (hlistener (h.registry.listening i it hit (Or.inr hk)).interest
        (hw' ▸ ha.items i it hit)).elim
  · subst hw'
    exact ⟨ρ, h, hc, congrArg Item.data (Option.some.inj (hnow.symm.trans hit))⟩

/-- The pump is entered by a session that the server serves, after an event it was
watched for. -/
theorem Inv.pumps (h : Inv τ ρ w) (hc : AllCalm ρ w) (hp : w.Pumps i c st) (hs : ¬τ.strict) :
    ∃ c₀, Live c₀ ∧ Entry τ.strict c₀ i (c, st) := by
  cases hp with
  | @read it hit hh hi hm =>
    have hp := (h.registry.socks5 i it hit hh).1
    have hl := (h.sound hp).live (hc _ hp)
    refine ⟨w.ctx it.data, hl, stmHandlerRead_entry hl ?_⟩
    exact (item_watched h.registry hit hh).imp (fun he => ⟨he.1, by rw [he.2]; exact hi⟩)
      fun he => ⟨he.1, by rw [he.2]; exact hi⟩
  | @write it now w' hit hw' hnow hh hi hm =>
    obtain ⟨ρ', h', hc', hdata⟩ := h.between hc hit hw' hnow hi hs
    rw [← hdata]
    have hp := (h'.registry.socks5 i now hnow hh).1
    have hl := (h'.sound hp).live (hc' _ hp)
    refine ⟨w'.ctx now.data, hl, stmHandlerWrite_entry hl ?_ fun hst => absurd hst hs⟩
    exact (item_watched h'.registry hnow hh).imp (fun he => ⟨he.1, by rw [he.2]; exact hi⟩)
      fun he => ⟨he.1, by rw [he.2]; exact hi⟩

end Pumping

/-- The pump ends, whatever the network does, and strands nothing. -/
theorem pump_settles (b : Boot) (is : List Input) (x : Input) (i : Fd) (c : SCtx) (st : SocksState)
    (hrun : (b.start.run is).Running) (hp : ((b.start.run is).load x).Pumps i c st) :
    Pumped i c st (socksv5Pump i c st) ∧
      (socksv5Pump i c st).1.s.stm = some (socksv5Pump i c st).2 ∧
      Unstranded (socksv5Pump i c st).1 (socksv5Pump i c st).2 := by
  obtain ⟨ρ, h⟩ := b.orderly is
  obtain ⟨h1, hc1⟩ := h.inv.load h.calm hrun.1 x
  obtain ⟨c₀, hl, he⟩ := h1.pumps hc1 hp id
  have hpump := he.pumpsTo hl
  exact ⟨hpump.ends, hpump.leads.st,
    (hpump.leads.inState (he.leads.entered hl)).unstranded hpump.rest⟩

/-- A client that has been accepted and has something to say. -/
def Input.greeting : List Input :=
  Input.round 1 0 [] ++ [.turn [] [] 0, .turn [2] [] 0] ++ List.replicate 2 (.turn [] [] 0)

theorem pump_settles_sample :
    let w := (Boot.open.start.run Input.greeting).load (.turn [] [5, 1, 0, 5] 1)
    let r := sessionStm.stmHandlerRead 2 (w.ctx 0)
    Pumped 2 r.1 r.2 (socksv5Pump 2 r.1 r.2) ∧
      (socksv5Pump 2 r.1 r.2).1.s.stm = some (socksv5Pump 2 r.1 r.2).2 ∧
      Unstranded (socksv5Pump 2 r.1 r.2).1 (socksv5Pump 2 r.1 r.2).2 :=
  pump_settles Boot.open Input.greeting (.turn [] [5, 1, 0, 5] 1) 2 _ _
    ⟨by decide +kernel, by decide +kernel⟩
    (@World.Pumps.read _ _ ⟨opRead, .socks5, 0⟩ (by decide +kernel) rfl rfl (by decide +kernel))

end Socks5d
