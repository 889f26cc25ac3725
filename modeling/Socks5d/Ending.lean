import Socks5d.Serving

/-! # The end of a session

`socksv5_done` writes the last record, takes the session off the active list,
closes its descriptors and gives its object back. What is left of the process
is in good order without it. -/
namespace Socks5d
open Ctx Lib.Links

/-! ## The last record -/

theorem logEvent_eq {c : SCtx} {log : AccessLog} (hl : c.g.accessLog = some log)
    (hu : c.s.logEmitted = false) :
    ∃ b, socks5LogEvent c = { c with
      s := { c.s with
        logEmitted := b
        hist := c.s.hist ++ (c.view.lastRecord c.os.now c.s.failureReason).toList.map .logged }
      g := { c.g with
        accessLog := some (log ++ (c.view.lastRecord c.os.now c.s.failureReason).toList) } } := by
  have hg : c.g = { c.g with accessLog := some log } := by rw [← hl]
  unfold socks5LogEvent
  by_cases hd : c.s.destinationSet = true
  · have hyes : c.view.lastRecord c.os.now c.s.failureReason = some (if c.s.tunnelOpened then
        LogRecord.closed c.os.now (socks5LogUser c.s) c.s.destination c.s.destinationPort
          c.s.client.asCopy.transferred c.s.orig.asCopy.transferred
      else LogRecord.failed c.os.now (socks5LogUser c.s) c.s.destination c.s.destinationPort
        c.s.failureReason) := by
      simp only [View.lastRecord, Ctx.view, hd, if_true, Option.map_some]
      rfl
    refine ⟨true, ?_⟩
    simp only
    rw [if_neg (by simp [hl, hu, hd]), hyes]
    simp only [Socks5d.log, hl, Ctx.note, Ctx.modify]
    rfl
  · have hno : c.view.lastRecord c.os.now c.s.failureReason = none := by
      simp [View.lastRecord, Ctx.view, hd]
    refine ⟨c.s.logEmitted, ?_⟩
    simp only
    rw [if_pos (by simp [hd]), hno]
    simp only [Option.toList_none, List.map_nil, List.append_nil]
    rw [← hg]

/-! ## The object is given back -/

/-- What no operation on sessions changes. -/
def World.outer (w : World) : (Ptr → MngSession) × Phase × Option Fd × Option Fd × Nat × Bool ×
    List Ended × List MngSession :=
  (w.mngMem, w.phase, w.socksFd, w.mngFd, w.signalCount, w.draining, w.ended, w.mngEnded)

/-- What the management sessions work on. -/
def World.settings (w : World) : (Ptr → MngSession) × Option Users × Option Config :=
  (w.mngMem, w.g.users, w.g.config)

/-- The descriptors of session `p` that `P` names are closed, and its object is
in the pool or freed. -/
structure Released (w w' : World) (p : Ptr) (P : Fd → Prop) : Prop where
  others : ∀ q, q ≠ p → w'.mem q = w.mem q
  self : ∃ found next, w'.mem p = { w.mem p with
      references := 1, originResolution := found, next := next
      hist := (w.mem p).hist ++ [.released] } ∧
    (w.g.poolSize < maxPool ∧ next = w.g.pool ∧ w'.os.allocated = w.os.allocated ∧
        w'.g = { w.g with pool := some p, poolSize := w.g.poolSize + 1 } ∨
      maxPool ≤ w.g.poolSize ∧ next = (w.mem p).next ∧
        w'.os.allocated = Function.update w.os.allocated p false ∧ w'.g = w.g)
  closed : ∀ fd, P fd → w'.os.fds fd = none ∧ w'.sel.fds fd = none
  kept : ∀ fd, ¬P fd → w'.os.fds fd = w.os.fds fd ∧ w'.sel.fds fd = w.sel.fds fd
  os : ({ w'.os with allocated := w.os.allocated } : OS).still = w.os.still
  killed : w'.os.killed = w.os.killed
  sel : w'.sel.still = w.sel.still
  table : Table w'.os w'.sel
  outer : w'.outer = w.outer

theorem Table.close {os : OS} {sel : Selector} (h : Table os sel) (fd : Fd) :
    Table (os.close fd) (sel.dropItem fd) :=
  (h.dropItem fd).withFds fun g it hi ho => by
    have hg : g ≠ fd := by rintro rfl; rw [dropItem_self] at hi; cases hi
    show ∃ k, Function.update os.fds fd none g = some k
    rw [Function.update_of_ne hg]
    exact ho

theorem destroy_frame (c : SCtx) :
    (socks5Destroy c).self = c.self ∧ (socks5Destroy c).sel = c.sel := by
  unfold socks5Destroy
  by_cases hr : c.s.references = 1
  · by_cases hp : c.g.poolSize < maxPool
    · have hp' : (c.note .released).g.poolSize < maxPool := hp
      simp only [hr, hp', if_true]
      exact ⟨rfl, rfl⟩
    · have hp' : ¬(c.note .released).g.poolSize < maxPool := hp
      simp only [hr, hp', if_true, if_false]
      exact ⟨rfl, rfl⟩
  · rw [if_neg hr]
    exact ⟨rfl, rfl⟩

theorem closeFd_eq {w : World} {p : Ptr} {fd : Fd} {i : Interest} (ht : Table w.os w.sel)
    (hi : w.sel.fds fd = some ⟨i, .socks5, p⟩) :
    w.closeFd p fd = { w.put (socks5Destroy (w.ctx p)) with
      os := (socks5Destroy (w.ctx p)).os.close fd, sel := w.sel.dropItem fd } := by
  have hv := ht.valid fd _ hi
  obtain ⟨hself, hsel⟩ := destroy_frame (w.ctx p)
  have hself : (socks5Destroy (w.ctx p)).self = p := hself
  have hsel : (socks5Destroy (w.ctx p)).sel = w.sel := hsel
  have hi' : (w.ctx p).sel.fds fd = some ⟨i, .socks5, p⟩ := hi
  simp only [World.closeFd, Ctx.selectorUnregisterFd, hv, hi', socksClose, World.close,
    Bool.false_eq_true, if_false]
  rw [if_pos (show p = (w.ctx p).self from rfl)]
  simp only [World.put, hself, hsel]

/-- A descriptor of a session that keeps another one. -/
theorem closeFd_keep {w : World} {p : Ptr} {fd : Fd} {i : Interest} (ht : Table w.os w.sel)
    (hi : w.sel.fds fd = some ⟨i, .socks5, p⟩) (hr : (w.mem p).references ≠ 1) :
    w.closeFd p fd = { w with
      mem := Function.update w.mem p { w.mem p with references := (w.mem p).references - 1 }
      os := w.os.close fd, sel := w.sel.dropItem fd } := by
  have hd : socks5Destroy (w.ctx p) =
      (w.ctx p).modify fun s => { s with references := s.references - 1 } := by
    unfold socks5Destroy
    exact if_neg hr
  rw [closeFd_eq ht hi, hd]
  rfl

theorem still_free {o : OS} {p : Ptr} (h : o.allocated p = true) :
    (o.free p).fds = o.fds ∧ (o.free p).killed = o.killed ∧
      (o.free p).allocated = Function.update o.allocated p false ∧
      ({ o.free p with allocated := o.allocated } : OS).still = o.still := by
  unfold OS.free
  rw [if_pos h]
  exact ⟨rfl, rfl, rfl, rfl⟩

/-- The last descriptor of a session. -/
theorem closeFd_last {w : World} {p : Ptr} {fd : Fd} {i : Interest} (ht : Table w.os w.sel)
    (hi : w.sel.fds fd = some ⟨i, .socks5, p⟩) (hr : (w.mem p).references = 1)
    (ha : w.os.allocated p = true) : Released w (w.closeFd p fd) p (· = fd) := by
  obtain ⟨k, hk⟩ := ht.opened fd _ hi
  have hclose := ht.close fd
  have hself : ({ w.mem p with hist := (w.mem p).hist ++ [.released] } : Socks5) =
      { w.mem p with references := 1, hist := (w.mem p).hist ++ [.released] } := by rw [← hr]
  by_cases hpool : w.g.poolSize < maxPool
  · have hd : socks5Destroy (w.ctx p) = { w.ctx p with
        s := { w.mem p with
          originResolution := [], next := w.g.pool, hist := (w.mem p).hist ++ [.released] }
        g := { w.g with pool := some p, poolSize := w.g.poolSize + 1 } } := by
      unfold socks5Destroy
      rw [if_pos (show (w.ctx p).s.references = 1 from hr)]
      exact if_pos hpool
    rw [closeFd_eq ht hi, hd]
    refine {
      others := fun q hq => Function.update_of_ne hq _ _
      self := ⟨[], w.g.pool, ?_, Or.inl ⟨hpool, rfl, rfl, rfl⟩⟩
      closed := fun g hg => by subst hg; exact ⟨Function.update_self _ _ _, dropItem_self _ _⟩
      kept := fun g hg => ⟨Function.update_of_ne hg _ _, dropItem_other hg⟩
      os := still_close hk
      killed := rfl
      sel := rfl
      table := hclose
      outer := rfl }
    show Function.update w.mem p _ p = _
    rw [Function.update_self, ← hr]
  · have hd : socks5Destroy (w.ctx p) = { w.ctx p with
        s := { w.mem p with hist := (w.mem p).hist ++ [.released] }
        os := w.os.free p } := by
      unfold socks5Destroy
      rw [if_pos (show (w.ctx p).s.references = 1 from hr)]
      exact if_neg hpool
    obtain ⟨hf, hkill, halloc, hstill⟩ := still_free ha
    rw [closeFd_eq ht hi, hd]
    refine {
      others := fun q hq => Function.update_of_ne hq _ _
      self := ⟨(w.mem p).originResolution, (w.mem p).next, ?_,
        Or.inr ⟨Nat.le_of_not_lt hpool, rfl, halloc, rfl⟩⟩
      closed := fun g hg => by subst hg; exact ⟨Function.update_self _ _ _, dropItem_self _ _⟩
      kept := fun g hg => ⟨?_, dropItem_other hg⟩
      os := ?_
      killed := hkill
      sel := rfl
      table := hclose.congr ?_
      outer := rfl }
    · show Function.update w.mem p _ p = _
      rw [Function.update_self, ← hr]
    · show Function.update (w.os.free p).fds fd none g = _
      rw [hf, Function.update_of_ne hg]
    · have hk' : ({ w.os.free p with allocated := w.os.allocated } : OS).fds fd = some k := by
        show (w.os.free p).fds fd = _
        rw [hf]; exact hk
      exact (still_close hk').trans hstill
    · show Function.update (w.os.free p).fds fd none = Function.update w.os.fds fd none
      rw [hf]

/-- Both descriptors, or the only one. -/
theorem closeAll {w : World} {p : Ptr} {i : Interest} (ht : Table w.os w.sel)
    (hc : w.sel.fds (w.mem p).clientFd = some ⟨i, .socks5, p⟩)
    (ho : ∀ fd, (w.mem p).originFd = some fd → fd ≠ (w.mem p).clientFd ∧
      ∃ j, w.sel.fds fd = some ⟨j, .socks5, p⟩)
    (hr : (w.mem p).references = 1 + originRefs (w.mem p)) (ha : w.os.allocated p = true) :
    Released w (match (w.mem p).originFd with
      | some fd => (w.closeFd p (w.mem p).clientFd).closeFd p fd
      | none => w.closeFd p (w.mem p).clientFd) p
      fun fd => fd = (w.mem p).clientFd ∨ (w.mem p).originFd = some fd := by
  cases hor : (w.mem p).originFd with
  | none =>
    have h1 := closeFd_last ht hc (by simpa [originRefs, hor] using hr) ha
    exact { h1 with
      closed := fun fd hfd => h1.closed fd (hfd.resolve_right (by simp))
      kept := fun fd hfd => h1.kept fd fun he => hfd (Or.inl he) }
  | some fo =>
    obtain ⟨hne, j, hj⟩ := ho fo hor
    have hr2 : (w.mem p).references = 2 := by simpa [originRefs, hor] using hr
    obtain ⟨k, hk⟩ := ht.opened _ _ hc
    have h1 := closeFd_keep ht hc (by rw [hr2]; decide)
    simp only
    rw [h1]
    -- the world in which only the origin is left
    let w1 : World := { w with
      mem := Function.update w.mem p { w.mem p with references := (w.mem p).references - 1 }
      os := w.os.close (w.mem p).clientFd, sel := w.sel.dropItem (w.mem p).clientFd }
    have hm1 : w1.mem p = { w.mem p with references := (w.mem p).references - 1 } :=
      Function.update_self _ _ _
    have hj1 : w1.sel.fds fo = some ⟨j, .socks5, p⟩ := (dropItem_other hne).trans hj
    have h2 : Released w1 (w1.closeFd p fo) p (· = fo) :=
      closeFd_last (ht.close _) hj1 (by rw [hm1, hr2]) ha
    obtain ⟨found, next, hself, hpool⟩ := h2.self
    refine {
      others := fun q hq => (h2.others q hq).trans (Function.update_of_ne hq _ _)
      self := ⟨found, next, by rw [hself, hm1], ?_⟩
      closed := fun fd hfd => ?_
      kept := fun fd hfd => ?_
      os := ?_
      killed := h2.killed
      sel := h2.sel
      table := h2.table
      outer := h2.outer }
    · rw [hm1] at hpool
      exact hpool
    · rcases hfd with rfl | hfd
      · obtain ⟨h3, h4⟩ := h2.kept _ (Ne.symm hne)
        exact ⟨h3.trans (Function.update_self _ _ _), h4.trans (dropItem_self _ _)⟩
      · cases Option.some.inj hfd
        exact h2.closed _ rfl
    · have hc' : fd ≠ (w.mem p).clientFd := fun he => hfd (Or.inl he)
      have ho' : fd ≠ fo := fun he => hfd (Or.inr (by rw [he]))
      obtain ⟨h3, h4⟩ := h2.kept fd ho'
      exact ⟨h3.trans (Function.update_of_ne hc' _ _), h4.trans (dropItem_other hc')⟩
    · exact h2.os.trans (still_close hk)

/-! ## Off the active list -/

theorem modifyMem_mem (w : World) (q r : Ptr) (f : Socks5 → Socks5) :
    (w.modifyMem q f).mem r = if r = q then f (w.mem r) else w.mem r := by
  unfold World.modifyMem
  by_cases hr : r = q
  · rw [if_pos hr, hr]; exact Function.update_self _ _ _
  · rw [if_neg hr]; exact Function.update_of_ne hr _ _

theorem unlink_mem (w : World) (p q : Ptr) : (w.unlink p).mem q = { w.mem q with
    activeNext := if q = p then none
      else if (w.mem p).activePrev = some q then (w.mem p).activeNext else (w.mem q).activeNext
    activePrev := if q = p then none
      else if (w.mem p).activeNext = some q then (w.mem p).activePrev
      else (w.mem q).activePrev } := by
  unfold World.unlink
  dsimp only
  generalize (w.mem p).activePrev = a
  generalize (w.mem p).activeNext = b
  simp only [modifyMem_mem]
  cases a <;> cases b <;>
    simp only [modifyMem_mem, Option.some.injEq, reduceCtorEq, if_false, eq_comm (b := q)] <;>
    split_ifs <;> rfl

theorem unlink_rest (w : World) (p : Ptr) : (w.unlink p).os = w.os ∧ (w.unlink p).sel = w.sel ∧
    (w.unlink p).outer = w.outer ∧ (w.unlink p).g = { w.g with
      activeHead := if (w.mem p).activePrev = none then (w.mem p).activeNext
        else w.g.activeHead } := by
  unfold World.unlink
  dsimp only
  generalize (w.mem p).activePrev = a
  generalize (w.mem p).activeNext = b
  cases a <;> cases b <;> exact ⟨rfl, rfl, rfl, rfl⟩

/-! ## The whole of it -/

/-- What `socksv5_done` does to the process; `log` is the access log before it,
`r` the session's last record. -/
structure Finished (w w' : World) (p : Ptr) (log : AccessLog) (r : Option LogRecord) : Prop where
  others : ∀ q, q ≠ p → w'.mem q = { w.mem q with
    activeNext := if (w.mem p).activePrev = some q then (w.mem p).activeNext
      else (w.mem q).activeNext
    activePrev := if (w.mem p).activeNext = some q then (w.mem p).activePrev
      else (w.mem q).activePrev }
  object : ∃ found next b, w'.mem p = { w.mem p with
      references := 1, originResolution := found, next := next, activePrev := none
      activeNext := none, logEmitted := b
      hist := (w.mem p).hist ++ r.toList.map .logged ++ [.released] } ∧
    (w.g.poolSize < maxPool ∧ next = w.g.pool ∧ w'.os.allocated = w.os.allocated ∧
        w'.g.pool = some p ∧ w'.g.poolSize = w.g.poolSize + 1 ∨
      maxPool ≤ w.g.poolSize ∧ next = (w.mem p).next ∧
        w'.os.allocated = Function.update w.os.allocated p false ∧ w'.g.pool = w.g.pool ∧
        w'.g.poolSize = w.g.poolSize)
  closed : ∀ fd, Mine (w.ctx p) fd → w'.os.fds fd = none ∧ w'.sel.fds fd = none
  kept : ∀ fd, ¬Mine (w.ctx p) fd → w'.os.fds fd = w.os.fds fd ∧ w'.sel.fds fd = w.sel.fds fd
  os : ({ w'.os with allocated := w.os.allocated } : OS).still = w.os.still
  killed : w'.os.killed = w.os.killed
  sel : w'.sel.still = w.sel.still
  table : Table w'.os w'.sel
  g : { w'.g with pool := w.g.pool, poolSize := w.g.poolSize } = { w.g with
    accessLog := some (log ++ r.toList)
    metrics := w.g.metrics.map Metrics.metricsConnClosed
    activeHead := if (w.mem p).activePrev = none then (w.mem p).activeNext else w.g.activeHead
    activeSessions := w.g.activeSessions - 1 }
  ended : w'.ended = w.ended ++
    [⟨w'.mem p, w.os.fds (w.mem p).clientFd, (w.mem p).originFd.bind w.os.fds⟩]
  outer : ({ w' with ended := w.ended } : World).outer = w.outer

theorem socksv5Done_finished {w : World} {p : Ptr} {log : AccessLog} (ho : Own (w.ctx p))
    (hlog : w.g.accessLog = some log) (ha : w.os.allocated p = true)
    (hn : consumptions (w.mem p).hist = submissions (w.mem p).hist) :
    Finished w (w.socksv5Done p) p log
      ((w.ctx p).view.lastRecord w.os.now (w.mem p).failureReason) := by
  generalize hr : (w.ctx p).view.lastRecord w.os.now (w.mem p).failureReason = r
  obtain ⟨b, hev⟩ := logEvent_eq (c := w.ctx p) hlog ho.here.unlogged
  have hr' : (w.ctx p).view.lastRecord (w.ctx p).os.now (w.ctx p).s.failureReason = r := hr
  rw [hr'] at hev
  -- the record is written, and the session is off the list
  let w1 : World := w.put (socks5LogEvent (w.ctx p))
  have hw1 : w1 = { w with
      mem := Function.update w.mem p { w.mem p with
        logEmitted := b, hist := (w.mem p).hist ++ r.toList.map .logged }
      g := { w.g with accessLog := some (log ++ r.toList) } } := by
    show w.put (socks5LogEvent (w.ctx p)) = _
    rw [hev]
    rfl
  have hm1 : w1.mem p = { w.mem p with
      logEmitted := b, hist := (w.mem p).hist ++ r.toList.map .logged } := by
    rw [hw1]; exact Function.update_self _ _ _
  have hm1' : ∀ q, q ≠ p → w1.mem q = w.mem q := fun q hq => by
    rw [hw1]; exact Function.update_of_ne hq _ _
  obtain ⟨hos, hsel, hout, hg⟩ := unlink_rest w1 p
  have hmem := unlink_mem w1 p
  -- its counters are set
  let w3 : World := World.metrics { w1.unlink p with
    g := { (w1.unlink p).g with activeSessions := (w1.unlink p).g.activeSessions - 1 } }
      Metrics.metricsConnClosed
  have hm3 : w3.mem p = { w.mem p with
      logEmitted := b, hist := (w.mem p).hist ++ r.toList.map .logged
      activeNext := none, activePrev := none } := by
    refine (hmem p).trans ?_
    rw [hm1]
    simp
  have hos3 : w3.os = w.os := by
    show (w1.unlink p).os = _
    rw [hos, hw1]
  have hsel3 : w3.sel = w.sel := by
    show (w1.unlink p).sel = _
    rw [hsel, hw1]
  have hclient := ho.client.1
  have hreleased := closeAll (w := w3) (p := p) (i := hclient.choose)
    (by rw [hos3, hsel3]; exact ho.table)
    (by rw [hsel3, hm3]; exact hclient.choose_spec)
    (fun fd hor => by
      rw [hm3] at hor ⊢
      rw [hsel3]
      refine ⟨fun he => ho.here.origin_ne (he ▸ hor), (ho.origin fd hor).1⟩)
    (by
      have hrefs := ho.here.refs
      have hrefs : (w.mem p).references + consumptions (w.mem p).hist =
        1 + originRefs (w.mem p) + submissions (w.mem p).hist := hrefs
      rw [hm3]
      show (w.mem p).references = 1 + originRefs (w.mem p)
      omega)
    (by rw [hos3]; exact ha)
  have hc3 : (w3.mem p).clientFd = (w.mem p).clientFd := by rw [hm3]
  have ho3 : (w3.mem p).originFd = (w.mem p).originFd := by rw [hm3]
  rw [hc3, ho3] at hreleased
  let W : World := match (w.mem p).originFd with
    | some fd => (w3.closeFd p (w.mem p).clientFd).closeFd p fd
    | none => w3.closeFd p (w.mem p).clientFd
  have hdone : w.socksv5Done p = { W with ended := W.ended ++
      [⟨W.mem p, w.os.fds (w.mem p).clientFd, (w.mem p).originFd.bind w.os.fds⟩] } := by
    have h1 : (w1.mem p).clientFd = (w.mem p).clientFd := by rw [hm1]
    have h2 : (w1.mem p).originFd = (w.mem p).originFd := by rw [hm1]
    have h3 : w1.os = w.os := by rw [hw1]
    have hlog : w.put (socks5LogEvent (w.ctx p)) = w1 := rfl
    simp only [World.socksv5Done, hlog, h1, h2, h3]
    rfl
  have hreleased : Released w3 W p
      fun fd => fd = (w.mem p).clientFd ∨ (w.mem p).originFd = some fd := hreleased
  obtain ⟨found, next, hself, hpool⟩ := hreleased.self
  have hg3 : w3.g = { w.g with
      accessLog := some (log ++ r.toList)
      metrics := w.g.metrics.map Metrics.metricsConnClosed
      activeHead := if (w.mem p).activePrev = none then (w.mem p).activeNext else w.g.activeHead
      activeSessions := w.g.activeSessions - 1 } := by
    show { (w1.unlink p).g with
      activeSessions := (w1.unlink p).g.activeSessions - 1
      metrics := (w1.unlink p).g.metrics.map Metrics.metricsConnClosed } = _
    rw [hg, hm1, hw1]
  have hout3 : w3.outer = w.outer := by
    show (w1.unlink p).outer = _
    rw [hout, hw1]
    rfl
  rw [hdone]
  refine {
    others := fun q hq => ?_
    object := ⟨found, next, b, ?_, ?_⟩
    closed := hreleased.closed
    kept := fun fd hfd => ?_
    os := ?_
    killed := ?_
    sel := ?_
    table := hreleased.table
    g := ?_
    ended := ?_
    outer := ?_ }
  · refine (hreleased.others q hq).trans ((hmem q).trans ?_)
    rw [hm1, hm1' q hq]
    simp only [if_neg hq]
  · refine hself.trans ?_
    rw [hm3]
  · rw [hm3, hg3] at hpool
    rw [hos3] at hpool
    rcases hpool with ⟨h1, h2, h3, h4⟩ | ⟨h1, h2, h3, h4⟩
    · exact Or.inl ⟨h1, h2, h3, (congrArg Globals.pool h4 :), (congrArg Globals.poolSize h4 :)⟩
    · exact Or.inr ⟨h1, h2, h3, (congrArg Globals.pool h4 :), (congrArg Globals.poolSize h4 :)⟩
  · obtain ⟨h1, h2⟩ := hreleased.kept fd hfd
    exact ⟨h1.trans (by rw [hos3]), h2.trans (by rw [hsel3])⟩
  · have h1 := hreleased.os
    rw [hos3] at h1
    exact h1
  · exact hreleased.killed.trans (by rw [hos3])
  · exact hreleased.sel.trans (by rw [hsel3])
  · rw [hg3] at hpool
    show { W.g with pool := w.g.pool, poolSize := w.g.poolSize } = _
    rcases hpool with ⟨-, -, -, h4⟩ | ⟨-, -, -, h4⟩ <;> rw [h4]
  · have h1 : W.ended = w.ended :=
      (congrArg (fun t => t.2.2.2.2.2.2.1) (hreleased.outer.trans hout3) :)
    show W.ended ++ _ = _
    rw [h1]
  · have h1 := hreleased.outer.trans hout3
    have h2 : W.ended = w.ended := (congrArg (fun t => t.2.2.2.2.2.2.1) h1 :)
    rw [← h1]
    show ({ W with ended := w.ended } : World).outer = _
    rw [← h2]

/-! ## The process without the session -/

/-- The objects after session `p` has ended. -/
def Roster.without (ρ : Roster) (p : Ptr) : Roster :=
  { ρ with
    act := ρ.act.erase p
    pool := if ρ.pool.length < maxPool then p :: ρ.pool else ρ.pool }

theorem without_pooled {ρ : Roster} {p : Ptr} (hp : p ∈ ρ.act) (h : ρ.pool.length < maxPool) :
    (ρ.without p).all.Perm ρ.all := by
  unfold Roster.all Roster.without
  rw [if_pos h]
  refine List.Perm.append_right _ ?_
  exact List.perm_middle.trans ((List.perm_cons_erase hp).symm.append_right _)

theorem without_freed {ρ : Roster} {p : Ptr} (hp : p ∈ ρ.act) (h : ¬ρ.pool.length < maxPool) :
    ρ.all.Perm (p :: (ρ.without p).all) := by
  unfold Roster.all Roster.without
  rw [if_neg h]
  exact ((List.perm_cons_erase hp).append_right _).append_right _

section Finish
variable {τ : Terms} {ρ : Roster} {w w' : World} {p : Ptr} {log : AccessLog} {r : Option LogRecord}
  (h : Core τ ρ w) (hp : p ∈ ρ.act) (hf : Finished w w' p log r)

include h hp in
/-- What is registered for another object is not the session's. -/
theorem not_mine {fd : Fd} {it : Item} (hi : w.sel.fds fd = some it)
    (hne : it.handler = .socks5 → it.data ≠ p) : ¬Mine (w.ctx p) fd := by
  intro hm
  obtain ⟨⟨i, hi'⟩, -⟩ := (h.own p hp).owns hm
  cases Option.some.inj (hi.symm.trans hi')
  exact hne rfl rfl

include h hp hf in
theorem finished_leaves {fd : Fd} {it : Item} (hi : w.sel.fds fd = some it)
    (hne : it.handler = .socks5 → it.data ≠ p) :
    w'.os.fds fd = w.os.fds fd ∧ w'.sel.fds fd = w.sel.fds fd :=
  hf.kept fd (not_mine h hp hi hne)

include hf in
theorem finished_logging (hl : w.g.accessLog = some log) :
    w'.g.accessLog.isSome = w.g.accessLog.isSome := by
  have h1 : w'.g.accessLog = some (log ++ r.toList) := (congrArg Globals.accessLog hf.g :)
  rw [h1, hl]
  rfl

include hf in
theorem finished_clientFd (q : Ptr) : (w'.mem q).clientFd = (w.mem q).clientFd := by
  by_cases hq : q = p
  · obtain ⟨found, next, b, hm, -⟩ := hf.object
    rw [hq, hm]
  · rw [hf.others q hq]

include h hp hf in
theorem finished_kept (hl : w.g.accessLog = some log) {q : Ptr} (hq : q ∈ ρ.act) (hne : q ≠ p) :
    Kept w w' q := by
  refine ⟨finished_logging hf hl, by rw [hf.others q hne]; rfl, fun fd hfd => ?_⟩
  obtain ⟨⟨i, hi⟩, -⟩ := (h.own q hq).owns hfd
  exact finished_leaves h hp hf hi fun _ he => hne he

include h hp hf in
theorem finished_mngKept {m : Ptr} (hm : m ∈ ρ.adm) : MngKept w w' m := by
  obtain ⟨i, hi⟩ := (h.admins m hm).own.item
  obtain ⟨h1, h2⟩ := finished_leaves h hp hf hi fun he => by cases he
  exact ⟨congrFun (congrArg Prod.fst hf.outer) m, h1, h2⟩

include h hp hf in
theorem finished_books : Books (ρ.without p) w' := by
  have hb := h.books
  have hhead0 : w'.g.activeHead = if (w.mem p).activePrev = none then (w.mem p).activeNext
      else w.g.activeHead := (congrArg Globals.activeHead hf.g :)
  have hactive : w'.g.activeSessions = w.g.activeSessions - 1 :=
    (congrArg Globals.activeSessions hf.g :)
  have hadmins : w'.g.mngActiveSessions = w.g.mngActiveSessions :=
    (congrArg Globals.mngActiveSessions hf.g :)
  obtain ⟨found, next, b, hself, hpool⟩ := hf.object
  have hall := hb.nodup
  have hact := hb.actNodup
  have hdisj : ∀ q ∈ ρ.pool, q ≠ p := fun q hq he =>
    (List.nodup_append.mp (List.nodup_append.mp hall).1).2.2 p hp q hq he.symm
  have hpold : p ∈ ρ.all := List.mem_append_left _ (List.mem_append_left _ hp)
  constructor
  · by_cases hl : ρ.pool.length < maxPool
    · exact (without_pooled hp hl).nodup_iff.mpr hall
    · exact (List.nodup_cons.mp ((without_freed hp hl).nodup_iff.mp hall)).2
  · intro q
    rcases hpool with ⟨hl, -, ha, -⟩ | ⟨hl, -, ha, -⟩
    · rw [hb.pool] at hl
      rw [ha, (without_pooled hp hl).mem_iff]
      exact hb.allocated q
    · rw [hb.pool] at hl
      have hperm := without_freed hp (Nat.not_lt.mpr hl)
      have hnot := (List.nodup_cons.mp (hperm.nodup_iff.mp hall)).1
      rw [ha]
      by_cases hq : q = p
      · subst hq
        rw [Function.update_self]
        exact ⟨fun he => (by cases he), fun he => absurd he hnot⟩
      · rw [Function.update_of_ne hq, hb.allocated q, hperm.mem_iff, List.mem_cons]
        exact ⟨fun he => he.resolve_left hq, Or.inr⟩
  · have hhead : w'.g.activeHead = if w.g.activeHead = some p then (w.mem p).activeNext
        else w.g.activeHead := by
      rw [hhead0]
      by_cases hh : w.g.activeHead = some p
      · rw [if_pos hh]
        exact if_pos ((hb.linked.prev_none hp).mpr hh)
      · rw [if_neg hh]
        exact if_neg fun he => hh ((hb.linked.prev_none hp).mp he)
    rw [hhead]
    exact hb.linked.remove hact (fun _ he => by cases he) hp
      (fun q _ hq => by rw [hf.others q hq]) fun q _ hq => by rw [hf.others q hq]
  · rw [hactive, hb.active]
    exact (List.length_erase_of_mem hp).symm
  · rcases hpool with ⟨hl, hnext, -, hp', -⟩ | ⟨hl, -, -, hp', -⟩
    · rw [hb.pool] at hl
      rw [hp', Roster.without, if_pos hl]
      exact hb.chain.push (by rw [hself]; exact hnext) fun q hq => by rw [hf.others q (hdisj q hq)]
    · rw [hb.pool] at hl
      rw [hp', Roster.without, if_neg (Nat.not_lt.mpr hl)]
      exact hb.chain.congr fun q hq => by rw [hf.others q (hdisj q hq)]
  · rcases hpool with ⟨hl, -, -, -, hs⟩ | ⟨hl, -, -, -, hs⟩
    · rw [hb.pool] at hl
      rw [hs, hb.pool, Roster.without, if_pos hl]
      rfl
    · rw [hb.pool] at hl
      rw [hs, hb.pool, Roster.without, if_neg (Nat.not_lt.mpr hl)]
  · unfold Roster.without
    split
    · next hl => exact hl
    · exact hb.poolMax
  · rw [hadmins]
    exact hb.admins

include h hf in
/-- What is still registered belongs to another object. -/
theorem finished_item {fd : Fd} {it : Item} (hi : w'.sel.fds fd = some it) :
    w.sel.fds fd = some it ∧ (it.handler = .socks5 → it.data ≠ p) := by
  have hm : ¬Mine (w.ctx p) fd := fun hm => by
    rw [(hf.closed fd hm).2] at hi
    cases hi
  rw [(hf.kept fd hm).2] at hi
  refine ⟨hi, fun hh hd => hm ?_⟩
  rcases (h.registry.socks5 fd it hi hh).2 with he | he <;> rw [hd] at he
  · exact Or.inl he
  · exact Or.inr he

include h hp hf in
theorem finished_registry : Registry (ρ.without p) w' := by
  have hleft : ∀ fd it, w.sel.fds fd = some it → it.handler ≠ .socks5 →
      w'.sel.fds fd = some it := fun fd it hi hh => by
    rw [← hi]
    exact (finished_leaves h hp hf hi fun he => absurd he hh).2
  have hout := hf.outer
  refine ⟨hf.table, fun fd it hi hh => ?_, fun fd it hi hh => ?_, fun fd it hi hh => ?_,
    fun fd hfd => ?_, fun fd hfd => ?_⟩
  · obtain ⟨hi', hd⟩ := finished_item h hf hi
    obtain ⟨h1, h2⟩ := h.registry.socks5 fd it hi' hh
    refine ⟨(List.mem_erase_of_ne (hd hh)).mpr h1, ?_⟩
    rw [hf.others _ (hd hh)]
    exact h2
  · obtain ⟨hi', -⟩ := finished_item h hf hi
    have hm : w'.mngMem = w.mngMem := congrArg Prod.fst hout
    rw [hm]
    exact h.registry.mng fd it hi' hh
  · obtain ⟨hi', -⟩ := finished_item h hf hi
    exact (h.registry.listening fd it hi' hh).congr (congrArg (fun t => t.2.2.1) hout :)
      (congrArg (fun t => t.2.2.2.1) hout :)
  · have hs : w'.socksFd = w.socksFd := (congrArg (fun t => t.2.2.1) hout :)
    obtain ⟨it, hi, hh⟩ := h.registry.socksFd fd (hs ▸ hfd)
    exact ⟨it, hleft fd it hi (by rw [hh]; decide), hh⟩
  · have hs : w'.mngFd = w.mngFd := (congrArg (fun t => t.2.2.2.1) hout :)
    obtain ⟨it, hi, hh⟩ := h.registry.mngFd fd (hs ▸ hfd)
    exact ⟨it, hleft fd it hi (by rw [hh]; decide), hh⟩

include h hp hf in
theorem finished_held : Held τ.inherited w' := by
  refine ⟨fun fd k hk => ?_, fun fd hin => ?_, ?_, ?_⟩
  · have hm : ¬Mine (w.ctx p) fd := fun hm => by
      rw [(hf.closed fd hm).1] at hk
      cases hk
    obtain ⟨h1, h2⟩ := hf.kept fd hm
    rw [h2]
    exact h.held.opened fd k (h1 ▸ hk)
  · obtain ⟨hk, hu⟩ := h.held.inherited fd hin
    have hm : ¬Mine (w.ctx p) fd := fun hm => by
      obtain ⟨⟨i, hi⟩, -⟩ := (h.own p hp).owns hm
      have hi : w.sel.fds fd = some ⟨i, .socks5, p⟩ := hi
      rw [hu] at hi
      cases hi
    obtain ⟨h1, h2⟩ := hf.kept fd hm
    rw [h1, h2]
    exact ⟨hk, hu⟩
  · have h1 : w'.os.strayClose = w.os.strayClose := (congrArg OS.strayClose hf.os :)
    exact h1.trans h.held.stray
  · have ha : w'.os.sendAnswers = w.os.sendAnswers := (congrArg OS.sendAnswers hf.os :)
    have hs : w'.os.sigpipeHandled = w.os.sigpipeHandled := (congrArg OS.sigpipeHandled hf.os :)
    have := h.held.alive
    unfold OS.Alive OS.Piped at this ⊢
    rw [hf.killed, ha, hs]
    exact this

include hf in
theorem finished_pending (q : Ptr) : w'.jobs = w.jobs ∧ w'.pending q = w.pending q := by
  have hd : w'.g.dnsWorker = w.g.dnsWorker := (congrArg Globals.dnsWorker hf.g :)
  have hj : w'.jobs = w.jobs := by unfold World.jobs; rw [hd]
  have hn : w'.sel.resolutionJobs = w.sel.resolutionJobs := congrArg (fun t => t.2.2) hf.sel
  refine ⟨hj, ?_⟩
  unfold World.pending
  rw [hj, hn, finished_clientFd hf]

include h hp hf in
theorem finished_jobs (hn : consumptions (w.mem p).hist = submissions (w.mem p).hist) :
    Jobs τ.prompt (ρ.without p) w' := by
  have hnone : w.pending p = 0 := by
    have := h.jobs.tickets p hp
    omega
  have hact : ∀ {q}, q ∈ (ρ.without p).act → q ∈ ρ.act ∧ q ≠ p := fun {q} hq =>
    ⟨List.mem_of_mem_erase hq, fun he => h.books.actNodup.not_mem_erase (he ▸ hq)⟩
  have hsel : w'.sel.resolutionJobs = w.sel.resolutionJobs := congrArg (fun t => t.2.2) hf.sel
  refine ⟨fun j hj => ?_, fun fd hfd => ?_, fun q hq => ?_, fun hτ q hq => ?_⟩
  · rw [(finished_pending hf p).1] at hj
    obtain ⟨h1, h2⟩ := h.jobs.jobs j hj
    have hne : j.target ≠ p := fun he => by
      have : 0 < w.jobs.countP (fun j => j.target = p) :=
        List.countP_pos_iff.mpr ⟨j, hj, by simpa using he⟩
      unfold World.pending at hnone
      omega
    rw [finished_clientFd hf]
    exact ⟨(List.mem_erase_of_ne hne).mpr h1, h2⟩
  · rw [hsel] at hfd
    obtain ⟨q, hq, he⟩ := h.jobs.notices fd hfd
    have hne : q ≠ p := fun hqp => by
      have : 0 < w.sel.resolutionJobs.count (w.mem p).clientFd := by
        rw [← hqp, he]
        exact List.count_pos_iff.mpr hfd
      unfold World.pending at hnone
      omega
    exact ⟨q, (List.mem_erase_of_ne hne).mpr hq, by rw [finished_clientFd hf]; exact he⟩
  · obtain ⟨hq, hne⟩ := hact hq
    rw [(finished_pending hf q).2, hf.others q hne]
    exact h.jobs.tickets q hq
  · obtain ⟨hq, hne⟩ := hact hq
    rw [(finished_pending hf q).2, hf.others q hne]
    exact h.jobs.prompt hτ q hq

include h hp hf in
/-- The session's history moves to the finished ones, with its last entries. -/
theorem finished_grown : Grown (w.mem p).hist (w.histories ρ) (w'.histories (ρ.without p))
    (r.toList.map .logged ++ [.released]) := by
  obtain ⟨found, next, b, hself, -⟩ := hf.object
  have hperm := List.perm_cons_erase hp
  have hothers : ((ρ.act.erase p).map fun q => (w'.mem q).hist) =
      (ρ.act.erase p).map fun q => (w.mem q).hist :=
    List.map_congr_left fun q hm => by
      rw [hf.others q fun he => h.books.actNodup.not_mem_erase (he ▸ hm)]
  refine ⟨((ρ.act.erase p).map fun q => (w.mem q).hist) ++ w.ended.map fun e => e.s.hist, ?_, ?_⟩
  · exact (hperm.map _).append_right _
  · have hlast : (w'.mem p).hist = (w.mem p).hist ++ (r.toList.map .logged ++ [.released]) := by
      rw [hself, ← List.append_assoc]
    unfold World.histories
    show (((ρ.act.erase p).map fun q => (w'.mem q).hist) ++ w'.ended.map fun e => e.s.hist).Perm _
    rw [hothers, hf.ended, List.map_append, List.map_singleton, hlast, ← List.append_assoc]
    exact List.perm_append_singleton _ _

theorem charge_last (r : Option LogRecord) :
    charge (r.toList.map .logged ++ [.released]) = id := by
  cases r <;> rfl

theorem tickets_last (r : Option LogRecord) : tickets (r.toList.map .logged ++ [.released]) = [] := by
  cases r <;> rfl

theorem records_last (r : Option LogRecord) :
    records (r.toList.map .logged ++ [.released]) = r.toList := by
  cases r <;> rfl

theorem consumed_last (r : Option LogRecord) (found : List SockAddr) :
    Obs.dnsConsumed found ∉ r.toList.map .logged ++ [.released] := by
  cases r <;> simp

include h hp hf in
theorem finished_ledgers (hl : w.g.accessLog = some log) : Ledgers (ρ.without p) w' := by
  have hgrown := finished_grown h hp hf
  have hact : ∀ {q}, q ∈ (ρ.without p).act → q ∈ ρ.act ∧ q ≠ p := fun {q} hq =>
    ⟨List.mem_of_mem_erase hq, fun he => h.books.actNodup.not_mem_erase (he ▸ hq)⟩
  obtain ⟨d, hd, hmail⟩ := h.ledgers.mail
  obtain ⟨m, log', hm, hlog', hacc⟩ := h.ledgers.accounts
  cases Option.some.inj (hl.symm.trans hlog')
  constructor
  · have hd' : w'.g.dnsWorker = some d := (congrArg Globals.dnsWorker hf.g :).trans hd
    have hposted := hmail.posted.grow (j := []) hgrown (tickets_last r)
      fun found hc => absurd hc (consumed_last r found)
    simp only [List.append_nil] at hposted
    refine ⟨d, hd', hposted, fun q hq k hk => ?_, fun q hq k hk x hx => ?_⟩
    · obtain ⟨hq, hne⟩ := hact hq
      rw [hf.others q hne] at hk ⊢
      exact hmail.mine q hq k hk
    · obtain ⟨hq, hne⟩ := hact hq
      rw [hf.others q hne] at hk ⊢
      exact hmail.found q hq k hk x hx
  · have hm' : w'.g.metrics = some m.metricsConnClosed := by
      have h1 : w'.g.metrics = w.g.metrics.map Metrics.metricsConnClosed :=
        (congrArg Globals.metrics hf.g :)
      rw [h1, hm]
      rfl
    have hlog : w'.g.accessLog = some (log ++ r.toList) := (congrArg Globals.accessLog hf.g :)
    have hch : Charged m m (r.toList.map .logged ++ [.released]) := by
      have h1 := charged (r.toList.map .logged ++ [.released]) m
      rwa [charge_last] at h1
    have htally := hacc.tally.grow hgrown hch
    refine ⟨_, _, hm', hlog, ⟨htally.1, htally.2, htally.3, htally.4, htally.5⟩, ?_, hacc.admins, ?_⟩
    · have hpos : 0 < ρ.act.length := List.length_pos_of_mem hp
      have hlen : UInt64.ofNat ρ.act.length = 1 + UInt64.ofNat (ρ.without p).act.length := by
        have h1 : ρ.act.length = 1 + (ρ.without p).act.length := by
          show _ = 1 + (ρ.act.erase p).length
          rw [List.length_erase_of_mem hp]
          omega
        rw [h1, UInt64.ofNat_add]
        rfl
      show m.connAccepted = (m.connClosed + 1) + _
      rw [hacc.accepted, hlen, UInt64.add_assoc]
    · have hr := hacc.log.grow hgrown
      rwa [records_last] at hr

include hf in
/-- What is kept of the session is what it was, with its last entries. -/
theorem finished_view (hl : w.g.accessLog = some log) :
    Ended.view ⟨w'.mem p, w.os.fds (w.mem p).clientFd, (w.mem p).originFd.bind w.os.fds⟩ =
      (w.ctx p).view.filed (r.toList.map .logged ++ [.released]) := by
  obtain ⟨found, next, b, hself, -⟩ := hf.object
  have hlog : (w.ctx p).view.logging = true := by
    show w.g.accessLog.isSome = true
    rw [hl]; rfl
  unfold Ended.view View.filed
  rw [hself, hlog]
  simp only [List.append_assoc]
  rfl

include hf in
/-- The entry of the finished session. -/
theorem finished_closed {v : View} {why : List Obs} (hl : w.g.accessLog = some log)
    (hr : r = (w.ctx p).view.lastRecord w.os.now (w.mem p).failureReason)
    (hv : Reached τ.strict v) (hw : Ending τ.fair v why)
    (he : (w.ctx p).view = { v with hist := v.hist ++ why }) :
    Closed τ ⟨w'.mem p, w.os.fds (w.mem p).clientFd, (w.mem p).originFd.bind w.os.fds⟩ := by
  have hrec : r = v.lastRecord w.os.now (w.mem p).failureReason := by rw [hr, he]; rfl
  refine ⟨v, why, w.os.now, (w.mem p).failureReason, hv, hw, ?_⟩
  rw [finished_view hf hl, he, ← hrec]
  simp only [View.filed, List.append_assoc]

include h hp hf in
theorem Core.finish {v : View} {why : List Obs} (hl : w.g.accessLog = some log)
    (hr : r = (w.ctx p).view.lastRecord w.os.now (w.mem p).failureReason)
    (hv : Reached τ.strict v) (hw : Ending τ.fair v why)
    (he : (w.ctx p).view = { v with hist := v.hist ++ why })
    (hn : consumptions (w.mem p).hist = submissions (w.mem p).hist) :
    Core τ (ρ.without p) w' ∧ Beside (· = p) ρ (ρ.without p) w w' := by
  have hk : ∀ q ∈ ρ.act, q ≠ p → Kept w w' q := fun q hq hne => finished_kept h hp hf hl hq hne
  have hmk : ∀ m ∈ ρ.adm, MngKept w w' m := fun m hm => finished_mngKept h hp hf hm
  refine ⟨⟨finished_books h hp hf, finished_registry h hp hf, finished_held h hp hf, fun q hq => ?_,
    finished_jobs h hp hf hn, finished_ledgers h hp hf hl, fun e hm => ?_, fun m hm => ?_,
    ?_, ?_, ?_⟩, fun q hq hne => ⟨(List.mem_erase_of_ne hne).mpr hq, hk q hq hne⟩,
    fun m hm _ => ⟨hm, hmk m hm⟩⟩
  · have hne : q ≠ p := fun heq => h.books.actNodup.not_mem_erase (heq ▸ hq)
    have hq : q ∈ ρ.act := List.mem_of_mem_erase hq
    exact (hk q hq hne).own hf.table (h.own q hq)
  · rw [hf.ended] at hm
    rcases List.mem_append.mp hm with hm | hm
    · exact h.ended e hm
    · rw [List.mem_singleton.mp hm]
      exact finished_closed hf hl hr hv hw he
  · exact (hmk m hm).admin hf.table (h.admins m hm)
  · have hu : w'.g.users = w.g.users := (congrArg Globals.users hf.g :)
    rw [hu]
    exact h.names
  · have hkey : w'.g.adminSecret = w.g.adminSecret := (congrArg Globals.adminSecret hf.g :)
    exact hkey.trans h.secret
  · have hu : w'.mngEnded = w.mngEnded := (congrArg (fun t => t.2.2.2.2.2.2.2) hf.outer :)
    rw [hu]
    exact h.left

end Finish

/-- Nothing is outstanding at the DNS worker for a session that ends. -/
theorem Ending.settled {strict : Prop} {fair : View → Limit → Int → Prop} {v : View}
    {why : List Obs} (hw : Ending fair v why) (hv : Reached strict v) :
    consumptions (v.hist ++ why) = submissions (v.hist ++ why) := by
  have hl := hv.ledger
  unfold View.Ledger at hl
  have hst : v.st ≠ some .requestResolv := by
    cases hw with
    | finished h => rcases h with h | h <;> rw [h] <;> simp
    | timedOut l t hx =>
      cases l with
      | negotiation => exact hx.1
      | connect => exact hx.elim
      | idle n => rw [hx.1]; simp
  rw [if_neg hst] at hl
  have hnone : consumptions why = 0 ∧ submissions why = 0 := by cases hw <;> exact ⟨rfl, rfl⟩
  rw [consumptions_append, submissions_append]
  omega

/-- The process after a session has ended. -/
theorem Core.done {τ : Terms} {ρ : Roster} {w : World} {p : Ptr} {v : View} {why : List Obs}
    (h : Core τ ρ w) (hp : p ∈ ρ.act) (hv : Reached τ.strict v) (hw : Ending τ.fair v why)
    (he : (w.ctx p).view = { v with hist := v.hist ++ why }) :
    Core τ (ρ.without p) (w.socksv5Done p) ∧
      Beside (· = p) ρ (ρ.without p) w (w.socksv5Done p) ∧
      (w.socksv5Done p).settings = w.settings := by
  obtain ⟨m, log, -, hl, -⟩ := h.ledgers.accounts
  have hn : consumptions (w.mem p).hist = submissions (w.mem p).hist := by
    have h1 : (w.mem p).hist = v.hist ++ why := congrArg View.hist he
    rw [h1]
    exact hw.settled hv
  have ha : w.os.allocated p = true :=
    (h.books.allocated p).mpr (List.mem_append_left _ (List.mem_append_left _ hp))
  have hf := socksv5Done_finished (h.own p hp) hl ha hn
  obtain ⟨h1, h2⟩ := h.finish hp hf hl rfl hv hw he hn
  have hmng : (w.socksv5Done p).mngMem = w.mngMem := congrArg Prod.fst hf.outer
  refine ⟨h1, h2, ?_⟩
  unfold World.settings
  rw [hmng, show (w.socksv5Done p).g.users = w.g.users from (congrArg Globals.users hf.g :),
    show (w.socksv5Done p).g.config = w.g.config from (congrArg Globals.config hf.g :)]

/-- The same, when the other sessions have come to where they are by their own moves. -/
theorem Inv.done {τ : Terms} {ρ : Roster} {w : World} {p : Ptr} {v : View} {why : List Obs}
    (h : Core τ ρ w) (ho : ∀ q ∈ ρ.act, q ≠ p → Reached τ.strict (w.ctx q).view) (hp : p ∈ ρ.act)
    (hv : Reached τ.strict v) (hw : Ending τ.fair v why)
    (he : (w.ctx p).view = { v with hist := v.hist ++ why }) :
    Inv τ (ρ.without p) (w.socksv5Done p) ∧
      Beside (· = p) ρ (ρ.without p) w (w.socksv5Done p) ∧
      (w.socksv5Done p).settings = w.settings := by
  obtain ⟨h1, h2, h3⟩ := h.done hp hv hw he
  refine ⟨⟨h1, fun q hq => ?_⟩, h2, h3⟩
  have hne : q ≠ p := fun heq => h.books.actNodup.not_mem_erase (heq ▸ hq)
  have hq : q ∈ ρ.act := List.mem_of_mem_erase hq
  rw [(h2.sessions q hq hne).2.view]
  exact ho q hq hne

/-! ## What ends a session opens no socket, and leaves the snapshot alone -/

theorem free_fds (o : OS) (p : Ptr) : (o.free p).fds = o.fds := by
  unfold OS.free
  split <;> rfl

theorem destroy_marks (c : SCtx) :
    (socks5Destroy c).os.fds = c.os.fds ∧ (socks5Destroy c).sel = c.sel := by
  unfold socks5Destroy
  split
  · dsimp only
    split
    · exact ⟨rfl, rfl⟩
    · exact ⟨free_fds _ _, rfl⟩
  · exact ⟨rfl, rfl⟩

theorem socksClose_marks (it : Item) (c : SCtx) :
    (socksClose it c).os.fds = c.os.fds ∧ (socksClose it c).sel = c.sel := by
  unfold socksClose
  cases it.handler with
  | socks5 =>
    dsimp only
    split
    · exact destroy_marks c
    · exact ⟨rfl, rfl⟩
  | mng | socksListener | mngListener => exact ⟨rfl, rfl⟩

theorem closeFd_marks (w : World) (p : Ptr) (fd : Fd) :
    (w.closeFd p fd).os.fds = Function.update w.os.fds fd none ∧
      (w.closeFd p fd).sel.slaveW = w.sel.slaveW := by
  unfold World.closeFd Ctx.selectorUnregisterFd
  split
  · next c he =>
    split at he
    · cases he
    · split at he
      · cases he
      · next it hi =>
        cases he
        obtain ⟨h1, h2⟩ := socksClose_marks it (w.ctx p)
        refine ⟨?_, ?_⟩
        · show Function.update (socksClose it (w.ctx p)).os.fds fd none = _
          rw [h1]
          rfl
        · show (socksClose it (w.ctx p)).sel.slaveW = _
          rw [h2]
          rfl
  · next c st hne he =>
    split at he
    · cases he
      exact ⟨rfl, rfl⟩
    · split at he
      · cases he
        exact ⟨rfl, rfl⟩
      · cases he
        exact absurd rfl hne

theorem socks5LogEvent_marks (c : SCtx) :
    (socks5LogEvent c).os = c.os ∧ (socks5LogEvent c).sel = c.sel := by
  unfold socks5LogEvent
  dsimp only
  split <;> exact ⟨rfl, rfl⟩

theorem socksv5Done_marks (w : World) (p : Ptr) :
    (∀ fd k, (w.socksv5Done p).os.fds fd = some k → w.os.fds fd = some k) ∧
      (w.socksv5Done p).sel.slaveW = w.sel.slaveW := by
  unfold World.socksv5Done
  dsimp only
  generalize hw1 : w.put (socks5LogEvent (w.ctx p)) = w1
  obtain ⟨ho, hs⟩ := socks5LogEvent_marks (w.ctx p)
  have ho1 : w1.os = w.os := by rw [← hw1]; exact ho
  have hs1 : w1.sel = w.sel := by rw [← hw1]; exact hs
  obtain ⟨ho2, hs2, -⟩ := unlink_rest w1 p
  -- the world when the descriptors are closed
  generalize hw2 : World.metrics { w1.unlink p with
    g := { (w1.unlink p).g with activeSessions := (w1.unlink p).g.activeSessions - 1 } }
      Metrics.metricsConnClosed = w2
  have ho3 : w2.os = w.os := by rw [← hw2]; exact ho2.trans ho1
  have hs3 : w2.sel = w.sel := by rw [← hw2]; exact hs2.trans hs1
  have hclosed : ∀ (w' : World) (fd fd' : Fd) (k : Sock),
      (w'.closeFd p fd).os.fds fd' = some k → w'.os.fds fd' = some k := by
    intro w' fd fd' k hk
    rw [(closeFd_marks w' p fd).1] at hk
    by_cases he : fd' = fd
    · rw [he, Function.update_self] at hk
      cases hk
    · rwa [Function.update_of_ne he] at hk
  refine ⟨fun fd k hk => ?_, ?_⟩
  · rw [← ho3]
    cases hor : (w1.mem p).originFd with
    | none =>
      rw [hor] at hk
      exact hclosed _ _ _ _ hk
    | some fo =>
      rw [hor] at hk
      exact hclosed _ _ _ _ (hclosed _ _ _ _ hk)
  · rw [← hs3]
    cases (w1.mem p).originFd with
    | none => exact (closeFd_marks _ _ _).2
    | some fo => exact (closeFd_marks _ _ _).2.trans (closeFd_marks _ _ _).2

end Socks5d
