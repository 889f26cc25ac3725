import Socks5d.Outcomes

/-! # Who is counted at the door

Every connection that `accept` returns on the SOCKS listener is admitted or
turned away, and counted as what it was; so is every call that returns none. -/
namespace Socks5d
open Ctx

/-! ## The two counters -/

/-- The counters of `socksv5_passive_accept`. -/
def World.gate (w : World) : Option (UInt64 × UInt64) :=
  w.g.metrics.map fun m => (m.connAccepted, m.connRejected)

theorem gate_congr {w w' : World} (h : w'.g.metrics = w.g.metrics) : w'.gate = w.gate := by
  unfold World.gate
  rw [h]

section Gate
variable {τ : Terms} {ρ ρ' : Roster} {w w' : World} {p : Ptr}

theorem charge_gate (l : List Obs) (o : Option Metrics) :
    (o.map (charge l)).map (fun m => (m.connAccepted, m.connRejected)) =
      o.map fun m => (m.connAccepted, m.connRejected) := by
  cases o with
  | none => rfl
  | some m =>
    have h := charged l m
    simp only [Option.map_some, h.accepted, h.rejected]

/-- No callback of a session touches them. -/
theorem put_gate {c c' : SCtx} {taken : List Obs} {notices : List Fd}
    (hb : Base w p c taken notices) (hg : Good c c') : (w.put c').gate = w.gate := by
  obtain ⟨l, js, hp⟩ := hg.frame.past
  have hm : (w.put c').g.metrics = w.g.metrics.map (charge l) := by
    rw [← hb.g]
    exact hp.metrics
  unfold World.gate
  rw [hm, charge_gate]

theorem destroy_metrics (c : SCtx) : (socks5Destroy c).g.metrics = c.g.metrics := by
  unfold socks5Destroy
  split
  · dsimp only
    split <;> rfl
  · rfl

theorem closeFd_metrics (w : World) (p : Ptr) (fd : Fd) :
    (w.closeFd p fd).g.metrics = w.g.metrics := by
  have hclose : ∀ it : Item, (socksClose it (w.ctx p)).g.metrics = w.g.metrics := by
    intro it
    unfold socksClose
    cases it.handler with
    | socks5 =>
      dsimp only
      split
      · exact destroy_metrics _
      · rfl
    | mng | socksListener | mngListener => rfl
  unfold World.closeFd Ctx.selectorUnregisterFd
  split
  · next c he =>
    split at he
    · cases he
    · split at he
      · cases he
      · cases he
        exact hclose _
  · next c st hne he =>
    split at he
    · cases he
      rfl
    · split at he
      · cases he
        rfl
      · cases he
        exact absurd rfl hne

theorem socksv5Done_metrics (w : World) (p : Ptr) :
    (w.socksv5Done p).g.metrics = w.g.metrics.map Metrics.metricsConnClosed := by
  have hlog : (w.put (socks5LogEvent (w.ctx p))).g.metrics = w.g.metrics := by
    show (socks5LogEvent (w.ctx p)).g.metrics = _
    unfold socks5LogEvent
    dsimp only
    split <;> rfl
  have hunlink : ((w.put (socks5LogEvent (w.ctx p))).unlink p).g.metrics = w.g.metrics := by
    rw [(unlink_rest _ p).2.2.2]
    exact hlog
  unfold World.socksv5Done
  dsimp only
  split
  · rw [closeFd_metrics, closeFd_metrics]
    exact congrArg (Option.map Metrics.metricsConnClosed) hunlink
  · rw [closeFd_metrics]
    exact congrArg (Option.map Metrics.metricsConnClosed) hunlink

theorem socksv5Done_gate (w : World) (p : Ptr) : (w.socksv5Done p).gate = w.gate := by
  unfold World.gate
  rw [socksv5Done_metrics]
  cases w.g.metrics <;> rfl

/-- A callback of a session, and the end of the session if it asks for it. -/
theorem callback_gate {c : SCtx} {taken : List Obs} {notices : List Fd} {r : SCtx × SocksState}
    (hb : Base w p c taken notices) (hg : Good c r.1) :
    (if r.2 = .error ∨ r.2 = .done then (w.put (World.checkAsserts r.1)).socksv5Done p
      else w.put (World.checkAsserts r.1)).gate = w.gate := by
  rw [checkAsserts_eq hg.own]
  split
  · exact (socksv5Done_gate _ _).trans (put_gate hb hg)
  · exact put_gate hb hg

theorem runSocks_gate {callback : SCtx → SCtx × SocksState}
    (hs : Served τ.strict (w.ctx p) (callback (w.ctx p))) :
    (w.runSocks p callback).gate = w.gate := callback_gate (.refl w p) hs.good

theorem runMng_gate {m : Ptr} {callback : MCtx → MCtx}
    (hs : Mng.Served τ.tidy τ.secret (w.mngCtx m) (callback (w.mngCtx m))) :
    (w.runMng m callback).gate = w.gate := by
  have hrun : (w.runMng m callback).g.metrics = (callback (w.mngCtx m)).g.metrics := by
    unfold World.runMng
    dsimp only
    split <;> rfl
  obtain ⟨c1, h1, hcase⟩ := hs
  have hm : c1.g.metrics = w.g.metrics := (congrArg Globals.metrics h1.good.frame.g :)
  unfold World.gate
  rw [hrun]
  rcases hcase with ⟨he, -⟩ | he
  · rw [he, hm]
  · obtain ⟨k, hk⟩ := h1.good.own.sock
    rw [he, Mng.unregister_eq h1.good.own hk]
    dsimp only
    rw [hm]
    cases w.g.metrics with
    | none => rfl
    | some m =>
      simp only [Option.map_some, Metrics.metricsAdminSessionClose]
      split <;> rfl

/-! ## The sweep and the notifications -/

theorem sweepOne_gate (h : Inv τ ρ w) (hp : p ∈ ρ.act) : (w.sweepOne p).gate = w.gate := by
  have hb := Base.refl w p
  have ho := h.own p hp
  rcases sweepOne_cases w p with ⟨he, -⟩ | ⟨he, hst⟩ | ⟨l, reason, -, he⟩
  · rw [he]
  · rw [he]
    exact put_gate hb (@connectingTimeout_spec τ.strict _ ho (h.reached p hp).ledger hst).1
  · rw [he]
    have h1 := ho.note (o := .timedOut l w.os.now) rfl
    exact (socksv5Done_gate _ _).trans (put_gate hb (h1.trans ho (h1.own.setFailure reason)))

theorem Sweep.gate {rest : List Ptr} (h : Sweep τ ρ w rest ρ' w') : w'.gate = w.gate := by
  induction h with
  | finished => rfl
  | turn h hp _ _ _ _ _ _ ih => exact ih.trans (sweepOne_gate h hp)

theorem blockNotification_gate {fd : Fd} {rest : List Fd} (h : Inv τ ρ w) (hc : AllCalm ρ w)
    (hn : w.sel.resolutionJobs = fd :: rest) :
    (w.handleBlockNotification fd rest).gate = w.gate := by
  obtain ⟨p, hp, -, c, taken, notices, r, hb, -, hg, -, -, -, he⟩ := h.notification hc hn
  rw [he]
  exact callback_gate hb hg

end Gate

/-! ## One descriptor -/

/-- What `handle_iteration` runs for an object that is not a listener. -/
inductive Worked (τ : Terms) (w : World) : World → Prop
  | idle : Worked τ w w
  | socks {p : Ptr} (callback : SCtx → SCtx × SocksState) :
      Served τ.strict (w.ctx p) (callback (w.ctx p)) → Worked τ w (w.runSocks p callback)
  | mng {m : Ptr} (callback : MCtx → MCtx) :
      Mng.Served τ.tidy τ.secret (w.mngCtx m) (callback (w.mngCtx m)) →
      Worked τ w (w.runMng m callback)

section Dispatch
variable {τ : Terms} {ρ : Roster} {w w' : World} {i : Fd}

theorem Worked.gate (h : Worked τ w w') : w'.gate = w.gate := by
  cases h with
  | idle => rfl
  | socks callback hs => exact runSocks_gate hs
  | mng callback hs => exact runMng_gate hs

/-- What the read handler of an object does. -/
theorem Inv.handleRead_worked (h : Inv τ ρ w) (hc : AllCalm ρ w) {it : Item}
    (hit : w.sel.fds i = some it) (hh : it.handler = .socks5 ∨ it.handler = .mng)
    (hr : it.interest.read = true) (hs : ¬τ.strict) :
    Worked τ w (w.handleRead it i) ∧
      ∃ ρ', Stepped τ (· = it.data) 0 ρ ρ' w (w.handleRead it i) := by
  rcases hh with hh | hh
  · have hp := (h.registry.socks5 i it hit hh).1
    have hrun : w.handleRead it i = w.runSocks it.data (socksv5Read i) := by
      unfold World.handleRead
      rw [hh]
    have hserved : Served τ.strict (w.ctx it.data) (socksv5Read i (w.ctx it.data)) :=
      socksv5Read_served ((h.sound hp).live (hc _ hp))
        ((item_watched h.registry hit hh).imp (fun he => ⟨he.1, by rw [he.2]; exact hr⟩)
          fun he => ⟨he.1, by rw [he.2]; exact hr⟩)
    obtain ⟨ρ', h1, -, -⟩ := h.socksRead hc hit hh hr (fun hst => absurd hst hs)
      fun hst => absurd hst hs
    exact ⟨hrun ▸ .socks _ hserved, ρ', h1⟩
  · obtain ⟨hm, hfd⟩ := h.registry.mng i it hit hh
    have hrun : w.handleRead it i = w.runMng it.data (Mng.mngRead i) := by
      unfold World.handleRead
      rw [hh]
    have hserved :=
      Mng.mngRead_served (h.toCore.conversing hm) hfd.symm (h.admins _ hm).waiting
    obtain ⟨ρ', h1, -⟩ := h.mngCallback hc hit hh hserved fun hst => absurd hst hs
    rw [hrun]
    exact ⟨.mng _ hserved, ρ', h1⟩

/-- What the write handler does, when the item is still the object's. -/
theorem Inv.writeTurn_worked (h : Inv τ ρ w) (hc : AllCalm ρ w) {it : Item}
    (hnow : ∀ now, w.sel.fds i = some now → now.interest.write = true →
      now.handler = it.handler ∧ now.data = it.data)
    (hh : it.handler = .socks5 ∨ it.handler = .mng) (hs : ¬τ.strict) :
    Worked τ w (w.writeTurn it i) := by
  unfold World.writeTurn
  cases hit : w.sel.fds i with
  | none => exact .idle
  | some now =>
    dsimp only
    split
    · next hgo =>
      have hw := (Bool.and_eq_true_iff.mp hgo).2
      obtain ⟨h1, h2⟩ := hnow now hit hw
      have he : ({ now with data := it.data } : Item) = now := by rw [← h2]
      rw [he]
      rcases hh with hh | hh
      · have hp := (h.registry.socks5 i now hit (h1.trans hh)).1
        have hrun : w.handleWrite now i = w.runSocks now.data (socksv5Write i) := by
          unfold World.handleWrite
          rw [h1, hh]
        rw [hrun]
        refine .socks _ (socksv5Write_served ((h.sound hp).live (hc _ hp)) ?_
          fun hst => absurd hst hs)
        exact (item_watched h.registry hit (h1.trans hh)).imp
          (fun he => ⟨he.1, by rw [he.2]; exact hw⟩) fun he => ⟨he.1, by rw [he.2]; exact hw⟩
      · obtain ⟨hm, hfd⟩ := h.registry.mng i now hit (h1.trans hh)
        have hrun : w.handleWrite now i = w.runMng now.data (Mng.mngWrite i) := by
          unfold World.handleWrite
          rw [h1, hh]
        rw [hrun]
        exact .mng _ (Mng.mngWrite_served (h.toCore.conversing hm) hfd.symm
          (h.admins _ hm).waiting)
    · exact .idle

/-- `handle_iteration` at the descriptor of a session: one handler, then another. -/
theorem Inv.dispatch_worked (h : Inv τ ρ w) (hc : AllCalm ρ w) {it : Item}
    (hit : w.sel.fds i = some it) (hh : it.handler = .socks5 ∨ it.handler = .mng)
    (hs : ¬τ.strict) : ∃ w1, Worked τ w w1 ∧ Worked τ w1 (w.dispatch i) := by
  rw [dispatch_eq hit]
  split
  · next hgo =>
    obtain ⟨h1, ρ', h2⟩ := h.handleRead_worked hc hit hh (Bool.and_eq_true_iff.mp hgo).2 hs
    exact ⟨_, h1, h2.inv.writeTurn_worked h2.calm
      (fun now hnow hw => h2.owner h.toCore hit hh hnow hw) hh hs⟩
  · refine ⟨w, .idle, h.writeTurn_worked hc (fun now hnow _ => ?_) hh hs⟩
    rw [Option.some.inj (hit.symm.trans hnow)]
    exact ⟨rfl, rfl⟩

end Dispatch

/-! ## The listener -/

/-- The connection `fd` was counted once: it is a session's now, or it was
closed and is nobody's. -/
inductive Counted (w w' : World) (fd : Fd) : Prop
  | accepted (p : Ptr) : w'.gate = w.gate.map (fun n => (n.1 + 1, n.2)) → ¬w.Serves p →
      w'.sel.fds fd = some ⟨opRead, .socks5, p⟩ → Counted w w' fd
  | rejected : w'.gate = w.gate.map (fun n => (n.1, n.2 + 1)) → w'.os.fds fd = none →
      w'.sel = w.sel → Counted w w' fd

section Listener
variable {τ : Terms} {ρ : Roster} {w w' : World} {fd : Fd}

theorem accepted_gate {m : Option Metrics} (hm : w'.g.metrics = m.map Metrics.metricsConnAccepted)
    (hw : w.g.metrics = m) : w'.gate = w.gate.map fun n => (n.1 + 1, n.2) := by
  unfold World.gate
  rw [hm, hw]
  cases m <;> rfl

theorem rejected_gate {m : Option Metrics} (hm : w'.g.metrics = m.map Metrics.metricsConnRejected)
    (hw : w.g.metrics = m) : w'.gate = w.gate.map fun n => (n.1, n.2 + 1) := by
  unfold World.gate
  rw [hm, hw]
  cases m <;> rfl

/-- `socksv5_passive_accept` counts what `accept` returned, and a failure as
something that was rejected. -/
theorem Inv.passiveAccept_counted (h : Inv τ ρ w) :
    (∃ e, w.os.accept.2 = .error e ∧
      w.socksv5PassiveAccept.gate = w.gate.map fun n => (n.1, n.2 + 1)) ∨
    ∃ fd, w.os.accept.2 = .ok fd ∧ Counted w w.socksv5PassiveAccept fd := by
  unfold World.socksv5PassiveAccept
  rw [show w.os.accept = w.os.newFd { conn := .established, reported := true } from rfl]
  rcases newFd_cases w.os { conn := .established, reported := true } with
    ⟨o1, e, h1, hc1⟩ | ⟨o1, fd, h1, hfree, -, ht, hk1⟩
  · rw [h1]
    exact Or.inl ⟨e, rfl, rejected_gate rfl rfl⟩
  rw [h1]
  refine Or.inr ⟨fd, rfl, ?_⟩
  simp only
  -- the ways out that only close the connection
  have hclosed : ∀ o : OS, Counted w
      ((World.close { w with os := o } fd).metrics Metrics.metricsConnRejected) fd := fun o =>
    .rejected (rejected_gate rfl rfl) (Function.update_self _ _ _) rfl
  rcases nio_cases o1 with ⟨o2, e, h2, -⟩ | ⟨o2, h2, hc2⟩
  · rw [h2]
    exact hclosed o2
  rw [h2]
  simp only
  have ht2 := ht.called hc2
  cases hfull : ({ w with os := o2 } : World).connectionsFull with
  | true => exact hclosed o2
  | false =>
    have hb : Books ρ { w with os := o2 } :=
      h.books.congr (fun _ => rfl) (congrArg OS.allocated ht2.still :) rfl
    simp only [Bool.false_eq_true, if_false]
    rcases socks5New_cases hb fd with ⟨o3, h3, -⟩ | ⟨w', p, h3, ho⟩
    · rw [h3]
      exact hclosed o3
    rw [h3]
    simp only
    have hmetrics : w'.g.metrics = w.g.metrics := (congrArg Globals.metrics ho.g :)
    have hreg : w'.sel.fds fd = none := by
      rw [ho.sel]
      exact h.registry.table.unregistered hfree
    cases hv : invalidFd fd with
    | true =>
      have hr : w'.sel.selectorRegister fd .socks5 opRead p = (w'.sel, .iargs) := by
        unfold Selector.selectorRegister
        rw [hv]
        rfl
      rw [hr]
      obtain ⟨h4, h5⟩ :=
        destroy_marks ((World.metrics (w'.close fd) Metrics.metricsConnRejected).ctx p)
      refine .rejected (rejected_gate (m := w.g.metrics) ?_ rfl) ?_ (h5.trans ho.sel)
      · refine (destroy_metrics _).trans ?_
        rw [← hmetrics]
        rfl
      · refine (congrFun h4 fd).trans ?_
        exact Function.update_self _ _ _
    | false =>
      obtain ⟨m, hr⟩ := register_new hv hreg .socks5 opRead p
      rw [hr]
      have ha := obtained_admitted hfree ht2 (hc2.killed.trans hk1) ho hv (m := m) rfl
      refine .accepted p (accepted_gate (m := w.g.metrics) ?_ rfl) (fun hp => ?_)
        (admitted_here ha).1
      · exact (obtained_joined ht2 ho h.books rfl).metrics
      · exact (List.nodup_cons.mp ho.nodup).1 (rest_act (h.serves_iff.mp hp))

end Listener

/-! ## A step -/

/-- The next thing that happens is that `accept` is called on the SOCKS listener. -/
def World.knocks (w : World) : Event → Bool
  | .loop _ _ =>
    match w.phase with
    | .walk i n =>
      i ≤ n && match w.sel.fds i with
        | some it => it.handler == .socksListener && (w.sel.slaveR i && it.interest.read)
        | none => false
    | _ => false
  | _ => false

/-- What that call returns, if the step makes it. -/
def World.accepts (w : World) (i : Input) : Option (Except Errno Fd) :=
  if w.Running ∧ w.knocks i.event = true then some (w.load i).os.accept.2 else none

section Step
variable {b : Boot} {ρ : Roster} {w : World}

theorem mngPassiveAccept_gate (w : World) : w.mngPassiveAccept.gate = w.gate := by
  have hopen : ∀ o : Option Metrics, (o.map Metrics.metricsAdminSessionOpen).map
      (fun m => (m.connAccepted, m.connRejected)) =
        o.map fun m => (m.connAccepted, m.connRejected) := by
    intro o
    cases o <;> rfl
  unfold World.mngPassiveAccept
  split
  · rfl
  · split
    · rfl
    · split
      · rfl
      · dsimp only
        split
        · exact hopen _
        · rfl

theorem dispatch_gate (h : Inv b.plain ρ w) (hc : AllCalm ρ w) {i : Fd}
    (hk : ∀ it, w.sel.fds i = some it → it.handler = .socksListener →
      (w.sel.slaveR i && it.interest.read) = false) : (w.dispatch i).gate = w.gate := by
  cases hit : w.sel.fds i with
  | none =>
    unfold World.dispatch
    rw [hit]
  | some it =>
    cases hh : it.handler with
    | socks5 =>
      obtain ⟨w1, h1, h2⟩ := h.dispatch_worked hc hit (Or.inl hh) id
      exact h2.gate.trans h1.gate
    | mng =>
      obtain ⟨w1, h1, h2⟩ := h.dispatch_worked hc hit (Or.inr hh) id
      exact h2.gate.trans h1.gate
    | socksListener =>
      have hi := (h.registry.listening i it hit (Or.inl hh)).interest
      rw [dispatch_eq hit, hk it hit hh, if_neg (by simp), listener_turn hit hi]
    | mngListener =>
      have hi := (h.registry.listening i it hit (Or.inr hh)).interest
      obtain ⟨-, -, -, ha⟩ := h.mngPassiveAccept hc
      have he : w.handleRead it i = w.mngPassiveAccept := by
        unfold World.handleRead
        rw [hh]
      rw [dispatch_eq hit, he]
      split
      · rw [listener_turn (ha.items i it hit) hi, mngPassiveAccept_gate]
      · rw [listener_turn hit hi]

/-- A step that does not knock counts nobody. -/
theorem handle_gate (h : Inv b.plain ρ w) (hc : AllCalm ρ w) {e : Event}
    (hk : w.knocks e = false) : (w.handle e).gate = w.gate := by
  cases e with
  | signal | clock => rfl
  | connected fd err =>
    unfold World.handle
    dsimp only
    split
    · split <;> rfl
    · rfl
  | dnsTake =>
    refine gate_congr ?_
    show w.dnsTake.g.metrics = _
    unfold World.dnsTake
    split <;> rfl
  | dnsResolve found =>
    refine gate_congr ?_
    show (w.dnsResolve found).g.metrics = _
    unfold World.dnsResolve
    split <;> rfl
  | dnsNotify allocated =>
    refine gate_congr ?_
    unfold World.handle World.dnsNotify
    dsimp only
    split
    · rfl
    · split <;> rfl
  | interrupted | failed =>
    unfold World.handle
    dsimp only
    split <;> rfl
  | loop rd wr =>
    show (w.loop rd wr).gate = _
    unfold World.loop
    unfold World.knocks at hk
    cases hph : w.phase with
    | top => exact gate_congr (congrArg Globals.metrics (h.loopTop hc).2.1)
    | select =>
      dsimp only
      split <;> rfl
    | walk i n =>
      rw [hph] at hk
      dsimp only at hk ⊢
      split
      · next hle =>
        refine dispatch_gate h hc fun it hit hh => ?_
        rw [hit] at hk
        simpa [hle, hh] using hk
      · rfl
    | notify =>
      dsimp only
      cases hn : w.sel.resolutionJobs with
      | nil => rfl
      | cons fd rest => exact blockNotification_gate h hc hn
    | sweep =>
      obtain ⟨ρ', h1⟩ := h.checkTimeouts hc fun p hp l _ => (hc p hp).rest.rest
      exact h1.gate
    | exited => rfl

theorem step_gate (h : Orderly b.plain ρ w) {i : Input} (hk : w.accepts i = none) :
    (w.step i).gate = w.gate := by
  unfold World.step
  split
  · next hr =>
    obtain ⟨h1, hc1⟩ := h.inv.load h.calm hr.1 i
    have hno : (w.load i).knocks i.event = false := by
      cases hkn : w.knocks i.event with
      | false => exact hkn
      | true =>
        unfold World.accepts at hk
        rw [if_pos ⟨hr, hkn⟩] at hk
        cases hk
    exact (handle_gate h1 hc1 hno).trans (gate_congr rfl)
  · rfl

theorem Counted.rephased {w w' : World} {fd : Fd} {i : Input} (h : Counted (w.load i) w' fd)
    (ph : Phase) : Counted w { w' with phase := ph } fd := by
  cases h with
  | accepted p h1 h2 h3 => exact .accepted p h1 h2 h3
  | rejected h1 h2 h3 => exact .rejected h1 h2 h3

/-- A step that knocks runs the accept, and nothing else. -/
theorem step_accepts (h : Orderly b.plain ρ w) {i : Input} (hr : w.Running)
    (hk : w.knocks i.event = true) :
    ∃ ph, w.step i = { (w.load i).socksv5PassiveAccept with phase := ph } := by
  obtain ⟨h1, hc1⟩ := h.inv.load h.calm hr.1 i
  have hstep : w.step i = (w.load i).handle i.event := if_pos hr
  rw [hstep]
  cases hev : i.event with
  | loop rd wr =>
    rw [hev] at hk
    unfold World.knocks at hk
    cases hph : w.phase with
    | walk j n =>
      rw [hph] at hk
      obtain ⟨hle, hk⟩ := Bool.and_eq_true_iff.mp hk
      have hle : j ≤ n := of_decide_eq_true hle
      cases hit : w.sel.fds j with
      | none => rw [hit] at hk; cases hk
      | some it =>
        rw [hit] at hk
        obtain ⟨hh, hgo⟩ := Bool.and_eq_true_iff.mp hk
        have hgo : ((w.load i).sel.slaveR j && it.interest.read) = true := hgo
        have hh : it.handler = .socksListener := eq_of_beq hh
        have hit : (w.load i).sel.fds j = some it := hit
        have hi := (h1.registry.listening j it hit (Or.inl hh)).interest
        obtain ⟨-, -, -, -, ha⟩ := h1.passiveAccept hc1
        have he : (w.load i).handleRead it j = (w.load i).socksv5PassiveAccept := by
          unfold World.handleRead
          rw [hh]
        have hd : (w.load i).dispatch j = (w.load i).socksv5PassiveAccept := by
          rw [dispatch_eq hit, he, if_pos hgo, listener_turn (ha.items j it hit) hi]
        refine ⟨.walk (j + 1) n, ?_⟩
        show (w.load i).loop rd wr = _
        unfold World.loop
        rw [show (w.load i).phase = .walk j n from hph]
        dsimp only
        rw [if_pos hle, hd]
    | top | select | notify | sweep | exited => rw [hph] at hk; cases hk
  | _ => rw [hev] at hk; cases hk

/-- A step that knocks counts one. -/
theorem step_counted (h : Orderly b.plain ρ w) {i : Input} {r : Except Errno Fd}
    (hk : w.accepts i = some r) :
    (∃ e, r = .error e ∧ (w.step i).gate = w.gate.map fun n => (n.1, n.2 + 1)) ∨
    ∃ fd, r = .ok fd ∧ Counted w (w.step i) fd := by
  unfold World.accepts at hk
  split at hk
  · next hgo =>
    obtain ⟨ph, hstep⟩ := step_accepts h hgo.1 hgo.2
    obtain ⟨h1, -⟩ := h.inv.load h.calm hgo.1.1 i
    rw [hstep, ← Option.some.inj hk]
    rcases h1.passiveAccept_counted with ⟨e, he, hg⟩ | ⟨fd, he, hcount⟩
    · exact Or.inl ⟨e, he, hg⟩
    · exact Or.inr ⟨fd, he, hcount.rephased ph⟩
  · cases hk

end Step

/-! ## Runs -/

/-- How many connections `accept` returns on the SOCKS listener. -/
def World.arrived (w : World) (i : Input) : Nat :=
  match w.accepts i with
  | some (.ok _) => 1
  | _ => 0

def World.arrivals : World → List Input → Nat
  | _, [] => 0
  | w, i :: is => w.arrived i + (w.step i).arrivals is

/-- `accept` does not fail on the SOCKS listener. -/
def World.Welcomes (w : World) (i : Input) : Prop := ∀ e, w.accepts i ≠ some (.error e)

/-- What `accept` returns is counted once. -/
def World.Counts (w : World) (i : Input) : Prop :=
  ∀ fd, w.accepts i = some (.ok fd) → Counted w (w.step i) fd

/-- The two counters add up to the connections there were. -/
def World.Tallies (w : World) (is : List Input) : Prop :=
  ∃ m, (w.run is).g.metrics = some m ∧
    m.connAccepted + m.connRejected = UInt64.ofNat (w.arrivals is)

/-- All that were counted. -/
def World.counted (w : World) : Option UInt64 := w.gate.map fun n => n.1 + n.2

section Run
variable {b : Boot} {ρ : Roster} {w : World}

theorem step_counts (h : Orderly b.plain ρ w) (i : Input) : w.Counts i := by
  intro fd hk
  rcases step_counted h hk with ⟨e, he, -⟩ | ⟨fd', he, hc⟩
  · cases he
  · cases he
    exact hc

theorem Counted.counted {w' : World} {fd : Fd} (h : Counted w w' fd) :
    w'.counted = w.counted.map (· + 1) := by
  have hright : ∀ a r : UInt64, a + (r + 1) = a + r + 1 := fun a r => (UInt64.add_assoc a r 1).symm
  have hleft : ∀ a r : UInt64, a + 1 + r = a + r + 1 := fun a r => by
    rw [UInt64.add_assoc, UInt64.add_comm 1 r, ← UInt64.add_assoc]
  unfold World.counted
  cases h with
  | accepted p hg _ _ =>
    rw [hg]
    cases w.gate with
    | none => rfl
    | some n => exact congrArg some (hleft _ _)
  | rejected hg _ _ =>
    rw [hg]
    cases w.gate with
    | none => rfl
    | some n => exact congrArg some (hright _ _)

/-- One step counts the call of `accept` it makes, whatever came of it. -/
theorem step_sum (h : Orderly b.plain ρ w) (i : Input) :
    (w.step i).counted = w.counted.map (· + if (w.accepts i).isSome then 1 else 0) := by
  cases hk : w.accepts i with
  | none =>
    have hg := step_gate h hk
    unfold World.counted
    rw [hg]
    cases w.gate with
    | none => rfl
    | some n => exact congrArg some (UInt64.add_zero _).symm
  | some r =>
    rcases step_counted h hk with ⟨e, -, hg⟩ | ⟨fd, -, hc⟩
    · unfold World.counted
      rw [hg]
      cases w.gate with
      | none => rfl
      | some n => exact congrArg some (UInt64.add_assoc _ _ _).symm
    · exact hc.counted

theorem Orderly.counted (h : Orderly b.plain ρ w) : ∃ n, w.counted = some n := by
  obtain ⟨m, -, hm, -, -⟩ := h.inv.ledgers.accounts
  refine ⟨m.connAccepted + m.connRejected, ?_⟩
  unfold World.counted World.gate
  rw [hm]
  rfl

/-- A step counts what arrives if and only if `accept` does not fail in it. -/
theorem step_welcomes (h : Orderly b.plain ρ w) (i : Input) :
    (w.step i).counted = w.counted.map (· + UInt64.ofNat (w.arrived i)) ↔ w.Welcomes i := by
  obtain ⟨n, hn⟩ := h.counted
  rw [step_sum h i, hn]
  unfold World.arrived World.Welcomes
  cases hk : w.accepts i with
  | none => simp
  | some r =>
    cases r with
    | ok fd => simp
    | error e => simp

/-- The run counts what arrives, all the way, if and only if no `accept` fails. -/
theorem run_welcomes : ∀ (is : List Input) {ρ : Roster} {w : World}, Orderly b.plain ρ w →
    ((∀ js, js <+: is → (w.run js).counted = w.counted.map (· + UInt64.ofNat (w.arrivals js))) ↔
      w.Along World.Welcomes is)
  | [], ρ, w, h => by
    refine ⟨fun _ => trivial, fun _ js hjs => ?_⟩
    rw [List.prefix_nil.mp hjs]
    cases hw : w.counted with
    | none => exact hw
    | some n => exact hw.trans (congrArg some (UInt64.add_zero n).symm)
  | i :: is, ρ, w, h => by
    obtain ⟨ρ', h1⟩ := h.step (h.granted_plain i)
    have ih := run_welcomes is h1.orderly
    have hfirst := step_welcomes h i
    obtain ⟨n, hn⟩ := h.counted
    have hsplit : ∀ (v : World) (js : List Input),
        (v.counted = w.counted.map (· + UInt64.ofNat (w.arrivals (i :: js))) ↔
          v.counted = (w.counted.map (· + UInt64.ofNat (w.arrived i))).map
            (· + UInt64.ofNat ((w.step i).arrivals js))) := by
      intro v js
      have hsum : w.arrivals (i :: js) = w.arrived i + (w.step i).arrivals js := rfl
      rw [hn, hsum, UInt64.ofNat_add]
      simp only [Option.map_some, UInt64.add_assoc]
    constructor
    · intro hall
      have h0 : w.Welcomes i := by
        refine hfirst.mp ?_
        have h2 := hall [i] ⟨is, rfl⟩
        rw [hsplit, hn] at h2
        rw [hn]
        exact h2.trans (congrArg some (UInt64.add_zero _))
      refine ⟨h0, ih.mp fun js hjs => ?_⟩
      have h2 := hall (i :: js) (List.cons_prefix_cons.mpr ⟨rfl, hjs⟩)
      rw [hsplit, ← hfirst.mpr h0] at h2
      exact h2
    · intro hall js hjs
      cases js with
      | nil => exact hn.trans ((congrArg some (UInt64.add_zero n).symm).trans (by rw [hn]; rfl))
      | cons j js =>
        obtain ⟨rfl, htl⟩ := List.cons_prefix_cons.mp hjs
        rw [hsplit, ← hfirst.mpr hall.1]
        exact ih.mpr hall.2 js htl

end Run

theorem start_counted (b : Boot) : b.start.counted = some 0 := rfl

theorem tallies_iff {w : World} {is : List Input} : w.Tallies is ↔
    (w.run is).counted = some (UInt64.ofNat (w.arrivals is)) := by
  unfold World.Tallies World.counted World.gate
  cases hm : (w.run is).g.metrics with
  | none =>
    refine ⟨fun h => ?_, fun h => ?_⟩
    · obtain ⟨m, h, -⟩ := h
      cases h
    · cases h
  | some m =>
    refine ⟨fun h => ?_, fun h => ⟨m, rfl, Option.some.inj h⟩⟩
    obtain ⟨m', h, hsum⟩ := h
    cases h
    exact congrArg some hsum

theorem run_counts : ∀ (is : List Input) {b : Boot} {ρ : Roster} {w : World},
    Orderly b.plain ρ w → w.Along World.Counts is
  | [], _, _, _, _ => trivial
  | i :: is, _, _, _, h => by
    obtain ⟨_, h1⟩ := h.step (h.granted_plain i)
    exact ⟨step_counts h i, run_counts is h1.orderly⟩

/-- All the way through a run, the two counters add up to the connections that
`accept` returned, each admitted and counted as such or closed and counted as
rejected, if and only if `accept` does not fail: a call that returns no
connection is counted as a rejection too. -/
theorem arrivals_exact (b : Boot) (is : List Input) :
    ((∀ js, js <+: is → b.start.Tallies js) ∧ b.start.Along World.Counts is) ↔
      b.start.Along World.Welcomes is := by
  obtain ⟨ρ, h0⟩ := b.orderly []
  have h : Orderly b.plain ρ b.start := h0
  have hrun := run_welcomes is h
  have hcounts := run_counts is h
  constructor
  · intro hall
    refine hrun.mp fun js hjs => ?_
    have h1 := tallies_iff.mp (hall.1 js hjs)
    rw [start_counted]
    exact h1.trans (congrArg some (UInt64.zero_add _).symm)
  · intro hgo
    refine ⟨fun js hjs => tallies_iff.mpr ?_, hcounts⟩
    have h1 := hrun.mpr hgo js hjs
    rw [start_counted] at h1
    exact h1.trans (congrArg some (UInt64.zero_add _))

/-- The listener is reported ready, but the client has gone when the server gets
to it. -/
def Input.spurious : List Input :=
  [.turn [] [] 0, .turn [0] [] 0,
    { event := .loop (fun _ => false) (fun _ => false)
      answers := fun _ => { err := some .EAGAIN } }]

/-- Nobody came, and one was rejected. -/
theorem spurious_rejected : Boot.open.start.arrivals Input.spurious = 0 ∧
    ¬Boot.open.start.Tallies Input.spurious := by
  have hnone : Boot.open.start.arrivals Input.spurious = 0 := by decide +kernel
  refine ⟨hnone, fun h => ?_⟩
  have hcounted := tallies_iff.mp h
  have hone : (Boot.open.start.run Input.spurious).counted = some 1 := by decide +kernel
  rw [hnone, hone] at hcounted
  cases hcounted

end Socks5d
