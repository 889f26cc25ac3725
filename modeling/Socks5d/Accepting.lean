import Socks5d.Admitting

/-! # Accepting a SOCKS client

The connection gets an object, of the pool or new, and becomes the first
session of the list, or the object goes back and nothing is left of it. -/
namespace Socks5d
open Ctx Lib.Links Buffer

variable {τ : Terms} {ρ : Roster} {w : World}

/-! ## An object for the session -/

/-- The objects once one of the pool, if there is one, has been taken out. -/
def Roster.rest (ρ : Roster) : List Ptr := ρ.act ++ ρ.pool.tail ++ ρ.adm

/-- Object `p` is in no one's hands, and holds `s`. -/
structure Obtained (ρ : Roster) (w w' : World) (p : Ptr) (s : Socks5) : Prop where
  nodup : (p :: ρ.rest).Nodup
  allocated : ∀ q, w'.os.allocated q = true ↔ q = p ∨ q ∈ ρ.rest
  mem : w'.mem = Function.update w.mem p s
  os : { w'.os with allocated := w.os.allocated, calls := 0 } = { w.os with calls := 0 }
  pool : Chain (fun q => (w.mem q).next) w'.g.pool ρ.pool.tail
  poolSize : w'.g.poolSize = ρ.pool.tail.length
  g : { w'.g with pool := w.g.pool, poolSize := w.g.poolSize } = w.g
  sel : w'.sel = w.sel
  outer : w'.outer = w.outer

theorem socks5New_cases (h : Books ρ w) (fd : Fd) :
    (∃ os', w.socks5New fd = ({ w with os := os' }, none) ∧ Called w.os os') ∨
    (∃ w' p, w.socks5New fd = (w', some p) ∧
      Obtained ρ w w' p (World.freshSocks5 fd w.os.now w.g.config)) := by
  unfold World.socks5New
  have hnodup := h.nodup
  have hchain := h.chain
  have hsize := h.pool
  have halloc := h.allocated
  cases hp : w.g.pool with
  | some p =>
    right
    rw [hp] at hchain
    cases hpool : ρ.pool with
    | nil => rw [hpool] at hchain; cases hchain
    | cons q rest =>
      rw [hpool] at hchain hsize
      obtain ⟨h1, h2⟩ := hchain
      cases h1
      have hperm : ρ.all.Perm (p :: ρ.rest) := by
        unfold Roster.all Roster.rest
        rw [hpool, List.tail_cons]
        exact (List.perm_middle.append_right _)
      refine ⟨_, p, rfl, ?_⟩
      refine {
        nodup := hperm.nodup_iff.mp hnodup
        allocated := fun q => ?_
        mem := rfl
        os := rfl
        pool := by rw [hpool]; exact h2
        poolSize := ?_
        g := rfl
        sel := rfl
        outer := rfl }
      · show w.os.allocated q = true ↔ _
        rw [halloc, hperm.mem_iff, List.mem_cons]
      · show w.g.poolSize - 1 = _
        rw [hsize, hpool]
        rfl
  | none =>
    simp only
    have hpool : ρ.pool = [] := by
      rw [hp] at hchain
      cases hl : ρ.pool with
      | nil => rfl
      | cons q rest => rw [hl] at hchain; cases hchain.1
    rcases malloc_cases w.os with ⟨os', hm, hc⟩ | ⟨p, hm, ha⟩
    · rw [hm]
      exact Or.inl ⟨os', rfl, hc⟩
    · rw [hm]
      have hall : ρ.all = ρ.rest := by
        unfold Roster.all Roster.rest
        rw [hpool]
        rfl
      have hnew : p ∉ ρ.rest := fun hm => by
        rw [← hall, ← halloc, ha] at hm
        cases hm
      refine Or.inr ⟨_, p, rfl, ?_⟩
      refine {
        nodup := List.nodup_cons.mpr ⟨hnew, hall ▸ hnodup⟩
        allocated := fun q => ?_
        mem := rfl
        os := rfl
        pool := ?_
        poolSize := ?_
        g := rfl
        sel := rfl
        outer := rfl }
      · show Function.update w.os.allocated p true q = true ↔ _
        by_cases hq : q = p
        · rw [hq, Function.update_self]
          simp
        · rw [Function.update_of_ne hq, halloc, hall]
          simp [hq]
      · show Chain _ w.g.pool ρ.pool.tail
        rw [hpool, hp]
        rfl
      · show w.g.poolSize = ρ.pool.tail.length
        rw [hsize, hpool]
        rfl

section Obtained
variable {w' : World} {p : Ptr} {s : Socks5} (ho : Obtained ρ w w' p s)

include ho in
theorem obtained_mem : w'.mem p = s := by rw [ho.mem]; exact Function.update_self _ _ _

include ho in
theorem obtained_other {q : Ptr} (hq : q ∈ ρ.rest) : w'.mem q = w.mem q := by
  have hne : q ≠ p := fun he => (List.nodup_cons.mp ho.nodup).1 (he ▸ hq)
  rw [ho.mem]
  exact Function.update_of_ne hne _ _

include ho in
theorem obtained_room (hb : ρ.pool.length ≤ maxPool) : w'.g.poolSize < maxPool := by
  rw [ho.poolSize, List.length_tail]
  unfold maxPool at hb ⊢
  omega

theorem rest_act {q : Ptr} (hq : q ∈ ρ.act) : q ∈ ρ.rest :=
  List.mem_append_left _ (List.mem_append_left _ hq)

theorem rest_pool {q : Ptr} (hq : q ∈ ρ.pool.tail) : q ∈ ρ.rest :=
  List.mem_append_left _ (List.mem_append_right _ hq)

end Obtained

/-- The object of a connection that could not be registered goes to the pool. -/
theorem Inv.returned (h : Inv τ ρ w) (hc : AllCalm ρ w) {os' : OS} {fd : Fd} {k : Sock}
    (hfree : w.os.fds fd = none) (ht : Touched w.os os' fd k) (hk : os'.killed = w.os.killed)
    {w' : World} {p : Ptr} {s : Socks5} (ho : Obtained ρ { w with os := os' } w' p s)
    (hs : s.references = 1) :
    ∃ ρ', Stepped τ (fun _ => False) 0 ρ ρ' w
      ((World.metrics (w'.close fd) Metrics.metricsConnRejected).put
        (socks5Destroy
          ((World.metrics (w'.close fd) Metrics.metricsConnRejected).ctx p))) := by
  have hroom := obtained_room ho h.books.poolMax
  have hmem : w'.mem p = s := obtained_mem ho
  -- the object is pushed on the pool again
  have hd : socks5Destroy ((World.metrics (w'.close fd) Metrics.metricsConnRejected).ctx p) =
      { (World.metrics (w'.close fd) Metrics.metricsConnRejected).ctx p with
        s := { s with originResolution := [], next := w'.g.pool, hist := s.hist ++ [.released] }
        g := { (World.metrics (w'.close fd) Metrics.metricsConnRejected).g with
          pool := some p, poolSize := w'.g.poolSize + 1 } } := by
    have hs' : ((World.metrics (w'.close fd) Metrics.metricsConnRejected).ctx p).s = s := hmem
    unfold socks5Destroy
    rw [hs', if_pos hs]
    refine (if_pos hroom).trans ?_
    rw [Ctx.note, Ctx.modify, hs']
    rfl
  rw [hd]
  have hos : w'.os.fds = os'.fds := (congrArg OS.fds ho.os :)
  have hopen : w'.os.fds fd = some k := by rw [hos, ht.fds]; exact Function.update_self _ _ _
  have hout := ho.outer
  have hmng : w'.mngMem = w.mngMem := congrArg Prod.fst hout
  refine ⟨{ ρ with pool := p :: ρ.pool.tail }, h.quiet hc ?_ ?_ rfl rfl ?_ ?_ fun q hq => ?_⟩
  · refine {
      mem := fun q hq => ?_
      mngMem := hmng
      fds := fun g => ?_
      streams := fun _ _ => ⟨rfl, rfl⟩
      stray := ?_
      alive := fun ha => ?_
      items := (congrArg Selector.fds ho.sel :)
      masterR := (congrArg Selector.masterR ho.sel :)
      masterW := (congrArg Selector.masterW ho.sel :)
      g := (congrArg Globals.core ho.g :)
      metrics := ?_
      socksFd := (congrArg (fun t => t.2.2.1) hout :)
      mngFd := (congrArg (fun t => t.2.2.2.1) hout :)
      ended := (congrArg (fun t => t.2.2.2.2.2.2.1) hout :)
      mngEnded := (congrArg (fun t => t.2.2.2.2.2.2.2) hout :) }
    · have hne : q ≠ p := fun he => (List.nodup_cons.mp ho.nodup).1 (he ▸ rest_act hq)
      show (Function.update w'.mem p _ q).unresolved = _
      rw [Function.update_of_ne hne, obtained_other ho (rest_act hq)]
    · show Function.update w'.os.fds fd none g = _
      rw [Option.map_id']
      by_cases hg : g = fd
      · rw [hg, Function.update_self, hfree]
      · rw [Function.update_of_ne hg, hos, ht.fds, Function.update_of_ne hg]
    · show (w'.os.strayClose || (w'.os.fds fd).isNone) = _
      have h1 : w'.os.strayClose = os'.strayClose := (congrArg OS.strayClose ho.os :)
      have h2 : os'.strayClose = w.os.strayClose := (congrArg OS.strayClose ht.still :)
      rw [hopen, h1, h2]
      exact Bool.or_false _
    · have h1 : ({ w'.os.close fd with allocated := os'.allocated } : OS).still = w.os.still := by
        have h2 := congrArg OS.still ho.os
        have h3 : ({ w'.os with allocated := os'.allocated } : OS).still = os'.still := h2
        have h4 : ({ w'.os.close fd with allocated := os'.allocated } : OS).still =
            ({ w'.os with allocated := os'.allocated } : OS).still :=
          congrArg (fun o : OS => { o with allocated := os'.allocated }) (still_close hopen)
        exact h4.trans (h3.trans ht.still)
      have h5 : w'.os.killed = os'.killed := (congrArg OS.killed ho.os :)
      exact @OS.Lives.alive _ { w'.os.close fd with allocated := os'.allocated }
        (Or.inl (h5.trans hk)) h1 ha
    · have h1 : w'.g.metrics = w.g.metrics := (congrArg Globals.metrics ho.g :)
      show (w'.g.metrics.map _).map _ = _
      rw [h1, Option.map_map]
      rfl
  · have hperm : ∀ q, q ∈ Roster.all { ρ with pool := p :: ρ.pool.tail } ↔ q = p ∨ q ∈ ρ.rest := by
      intro q
      unfold Roster.all Roster.rest
      simp only [List.mem_append, List.mem_cons]
      tauto
    refine {
      nodup := ?_
      allocated := fun q => (ho.allocated q).trans (hperm q).symm
      linked := ?_
      active := ?_
      chain := ?_
      pool := ?_
      poolMax := ?_
      admins := ?_ }
    · have h1 : (Roster.all { ρ with pool := p :: ρ.pool.tail }).Perm (p :: ρ.rest) :=
        List.perm_middle.append_right _
      exact h1.nodup_iff.mpr ho.nodup
    · have h1 : w'.g.activeHead = w.g.activeHead := (congrArg Globals.activeHead ho.g :)
      show Linked _ _ none w'.g.activeHead ρ.act
      rw [h1]
      refine h.books.linked.congr fun q hq => ?_
      have hne : q ≠ p := fun he => (List.nodup_cons.mp ho.nodup).1 (he ▸ rest_act hq)
      have h2 : Function.update w'.mem p { s with
          originResolution := [], next := w'.g.pool, hist := s.hist ++ [.released] } q = w.mem q := by
        rw [Function.update_of_ne hne, obtained_other ho (rest_act hq)]
      exact ⟨congrArg Socks5.activeNext h2, congrArg Socks5.activePrev h2⟩
    · have h1 : w'.g.activeSessions = w.g.activeSessions := (congrArg Globals.activeSessions ho.g :)
      exact h1.trans h.books.active
    · have h1 : Function.update w'.mem p { s with
          originResolution := [], next := w'.g.pool, hist := s.hist ++ [.released] } p = _ :=
        Function.update_self _ _ _
      refine ho.pool.push (congrArg Socks5.next h1) fun q hq => ?_
      have hne : q ≠ p := fun he => (List.nodup_cons.mp ho.nodup).1 (he ▸ rest_pool hq)
      have h2 : Function.update w'.mem p { s with
          originResolution := [], next := w'.g.pool, hist := s.hist ++ [.released] } q = w.mem q := by
        rw [Function.update_of_ne hne, obtained_other ho (rest_pool hq)]
      exact congrArg Socks5.next h2
    · show w'.g.poolSize + 1 = ρ.pool.tail.length + 1
      rw [ho.poolSize]
    · rw [ho.poolSize] at hroom
      exact hroom
    · have h1 : w'.g.mngActiveSessions = w.g.mngActiveSessions :=
        (congrArg Globals.mngActiveSessions ho.g :)
      exact h1.trans h.books.admins
  · exact (congrArg Globals.dnsWorker ho.g :)
  · exact (congrArg Selector.resolutionJobs ho.sel :)
  · have hne : q ≠ p := fun he => (List.nodup_cons.mp ho.nodup).1 (he ▸ rest_act hq)
    show Function.update w'.mem p _ q = _
    rw [Function.update_of_ne hne, obtained_other ho (rest_act hq)]

/-! ## A session of its own -/

/-- The objects after `p` became a session. -/
def Roster.join (ρ : Roster) (p : Ptr) : Roster := { ρ with act := p :: ρ.act, pool := ρ.pool.tail }

/-- The new session is at the head of the list, and nothing else has changed. -/
structure Joined (ρ : Roster) (w w' : World) (p : Ptr) (fd : Fd) : Prop where
  nodup : (p :: ρ.rest).Nodup
  allocated : ∀ q, w'.os.allocated q = true ↔ q = p ∨ q ∈ ρ.rest
  self : w'.mem p = { World.freshSocks5 fd w.os.now w.g.config with activeNext := w.g.activeHead }
  others : ∀ q ∈ ρ.act, w'.mem q =
    if w.g.activeHead = some q then { w.mem q with activePrev := some p } else w.mem q
  pooled : ∀ q ∈ ρ.pool.tail, (w'.mem q).next = (w.mem q).next
  mngMem : w'.mngMem = w.mngMem
  head : w'.g.activeHead = some p
  active : w'.g.activeSessions = w.g.activeSessions + 1
  pool : Chain (fun q => (w.mem q).next) w'.g.pool ρ.pool.tail
  poolSize : w'.g.poolSize = ρ.pool.tail.length
  admins : w'.g.mngActiveSessions = w.g.mngActiveSessions
  metrics : w'.g.metrics = w.g.metrics.map Metrics.metricsConnAccepted

section Joined
variable {w' : World} {p : Ptr} {fd : Fd} (h : Inv τ ρ w)
  (ha : Admitted w w' fd ⟨opRead, .socks5, p⟩ { conn := .established, reported := true })
  (hj : Joined ρ w w' p fd)

include hj in
theorem joined_notMem : p ∉ ρ.act := fun hp => (List.nodup_cons.mp hj.nodup).1 (rest_act hp)

include hj in
theorem joined_unlinked {q : Ptr} (hq : q ∈ ρ.act) : (w'.mem q).unlinked = (w.mem q).unlinked := by
  rw [hj.others q hq]
  split <;> rfl

include h ha hj in
theorem joined_kept {q : Ptr} (hq : q ∈ ρ.act) : Kept w w' q :=
  admitted_kept h.toCore ha hq (joined_unlinked hj hq)

include h hj in
theorem joined_books : Books (ρ.join p) w' where
  nodup := hj.nodup
  allocated q := by
    rw [hj.allocated, ← List.mem_cons]
    rfl
  linked := by
    rw [hj.head]
    refine h.books.linked.push h.books.actNodup (congrArg Socks5.activeNext hj.self)
      (congrArg Socks5.activePrev hj.self) (fun q hq => ?_) fun q hq => ?_
    · rw [hj.others q hq]
      split <;> rfl
    · rw [hj.others q hq]
      split <;> rfl
  active := by rw [hj.active, h.books.active]; rfl
  chain := hj.pool.congr hj.pooled
  pool := hj.poolSize
  poolMax := by
    have := h.books.poolMax
    show ρ.pool.tail.length ≤ maxPool
    rw [List.length_tail]
    omega
  admins := hj.admins.trans h.books.admins

include h ha in
/-- Nothing waits for a descriptor that was not open. -/
theorem joined_unnoticed : w.sel.resolutionJobs.count fd = 0 := by
  refine List.count_eq_zero.mpr fun hn => ?_
  obtain ⟨q, hq, hfd⟩ := h.jobs.notices fd hn
  obtain ⟨-, k, hk⟩ := (h.own q hq).client
  have hk : w.os.fds (w.mem q).clientFd = some k := hk
  rw [hfd, ha.free] at hk
  cases hk

include h ha hj in
theorem joined_jobs : Jobs τ.prompt (ρ.join p) w' := by
  have hjobs : w'.jobs = w.jobs := by unfold World.jobs; rw [ha.dns]
  have hpend : ∀ q ∈ ρ.act, w'.pending q = w.pending q := fun q hq => by
    unfold World.pending
    rw [hjobs, ha.notices, (joined_kept h ha hj hq).clientFd]
  -- the new session has handed over nothing, and is owed nothing
  have hself : w'.pending p = 0 := by
    unfold World.pending
    have hfd : (w'.mem p).clientFd = fd := congrArg Socks5.clientFd hj.self
    rw [hjobs, ha.notices, hfd, joined_unnoticed h ha, Nat.add_zero]
    refine List.countP_eq_zero.mpr fun j hjm ht => joined_notMem hj ?_
    have he : j.target = p := of_decide_eq_true ht
    exact he ▸ (h.jobs.jobs j hjm).1
  have hhist : (w'.mem p).hist = [] := congrArg Socks5.hist hj.self
  refine ⟨?_, ?_, fun q hq => ?_, fun hτ q hq => ?_⟩
  · rw [hjobs]
    intro j hjm
    obtain ⟨h1, h2⟩ := h.jobs.jobs j hjm
    exact ⟨List.mem_cons_of_mem _ h1, by rw [(joined_kept h ha hj h1).clientFd]; exact h2⟩
  · rw [ha.notices]
    intro g hg
    obtain ⟨q, hq, he⟩ := h.jobs.notices g hg
    exact ⟨q, List.mem_cons_of_mem _ hq, by rw [(joined_kept h ha hj hq).clientFd]; exact he⟩
  · rcases List.mem_cons.mp hq with rfl | hq
    · rw [hself, hhist]
      exact Nat.le_refl _
    · rw [hpend q hq, (joined_kept h ha hj hq).hist]
      exact h.jobs.tickets q hq
  · rcases List.mem_cons.mp hq with rfl | hq
    · rw [hself, hhist]
      exact Nat.le_refl _
    · rw [hpend q hq, (joined_kept h ha hj hq).hist]
      exact h.jobs.prompt hτ q hq

include h ha hj in
theorem joined_histories : w'.histories (ρ.join p) = [] :: w.histories ρ := by
  have hhist : (w'.mem p).hist = [] := congrArg Socks5.hist hj.self
  unfold World.histories Roster.join
  rw [List.map_cons, hhist, ha.ended, List.map_congr_left fun q hq => (joined_kept h ha hj hq).hist]
  rfl

include h ha hj in
theorem joined_ledgers : Ledgers (ρ.join p) w' := by
  have hhist : (w'.mem p).hist = [] := congrArg Socks5.hist hj.self
  obtain ⟨d, hd, hmail⟩ := h.ledgers.mail
  obtain ⟨m, log, hm, hlog, hacc⟩ := h.ledgers.accounts
  refine ⟨⟨d, ha.dns.trans hd, ?_, fun q hq => ?_, fun q hq => ?_⟩,
    m.metricsConnAccepted, log, by rw [hj.metrics, hm]; rfl, ha.log.trans hlog, ?_, ?_, ?_, ?_⟩
  · rw [joined_histories h ha hj]
    exact hmail.posted.fresh
  · rcases List.mem_cons.mp hq with rfl | hq
    · rw [hhist]; exact fun k hk => by cases hk
    · rw [(joined_kept h ha hj hq).hist, (joined_kept h ha hj hq).clientFd]
      exact hmail.mine q hq
  · rcases List.mem_cons.mp hq with rfl | hq
    · rw [hhist]; exact fun k hk => by cases hk
    · have hr : (w'.mem q).originResolution = (w.mem q).originResolution :=
        (congrArg Socks5.originResolution (joined_unlinked hj hq) :)
      rw [(joined_kept h ha hj hq).hist, hr]
      exact hmail.found q hq
  · rw [joined_histories h ha hj]
    have ht := hacc.tally.fresh
    exact ⟨ht.originOk, ht.originFail, ht.authFail, ht.bytesC2o, ht.bytesO2c⟩
  · show m.connAccepted + 1 = m.connClosed + UInt64.ofNat (ρ.act.length + 1)
    rw [hacc.accepted, UInt64.ofNat_add, UInt64.add_assoc]
    rfl
  · exact hacc.admins
  · rw [joined_histories h ha hj]
    exact hacc.log.fresh

include ha in
theorem joined_owns : Owns (w'.ctx p) fd :=
  ⟨⟨opRead, (admitted_here ha).1⟩, _, (admitted_here ha).2⟩

include h ha hj in
theorem joined_own : Own (w'.ctx p) := by
  have hs : (w'.ctx p).s =
    { World.freshSocks5 fd w.os.now w.g.config with activeNext := w.g.activeHead } := hj.self
  refine ⟨?_, fun g hg => ?_, ?_, admitted_table h.toCore ha⟩
  · rw [hs]; exact joined_owns ha
  · rw [hs] at hg; cases hg
  · rw [hs]
    exact ⟨bufferInit_wf List.length_replicate, rfl, bufferInit_wf List.length_replicate, rfl, rfl,
      rfl, by intro he; cases he⟩

include h ha hj in
theorem joined_view : (w'.ctx p).view = .fresh fd w.os.now := by
  have hs : (w'.ctx p).s =
    { World.freshSocks5 fd w.os.now w.g.config with activeNext := w.g.activeHead } := hj.self
  obtain ⟨hi, hk⟩ := admitted_here ha
  have hi : (w'.ctx p).sel.fds fd = some ⟨opRead, .socks5, p⟩ := hi
  have hk : (w'.ctx p).os.fds fd = some { conn := .established, reported := true } := hk
  have hl : (w'.ctx p).g.accessLog.isSome = true := by
    obtain ⟨-, log, -, hlog, -⟩ := h.ledgers.accounts
    show w'.g.accessLog.isSome = true
    rw [ha.log, hlog]
    rfl
  unfold Ctx.view
  rw [hs, hl]
  simp only [World.freshSocks5, hi, hk, bufferInit_unread]
  rfl

include h ha hj in
/-- The process with the new session in it. -/
theorem Inv.joined (hc : AllCalm ρ w) :
    Stepped τ (fun _ => False) 1 ρ (ρ.join p) w w' := by
  have hkept : ∀ q ∈ ρ.act, Kept w w' q := fun q hq => joined_kept h ha hj hq
  have htable := admitted_table h.toCore ha
  have hmk : ∀ m ∈ ρ.adm, MngKept w w' m := fun m hm =>
    admitted_mngKept h.toCore ha hm (by rw [hj.mngMem])
  have hself : (w'.mem p).clientFd = fd := congrArg Socks5.clientFd hj.self
  have hcore : Core τ (ρ.join p) w' := {
    books := joined_books h hj
    registry := admitted_registry h.toCore ha (fun q hq => List.mem_cons_of_mem _ hq)
      (fun m hm => hm) (fun q hq => ⟨(hkept q hq).clientFd, (hkept q hq).originFd⟩)
      (fun m _ => by rw [hj.mngMem]) (Or.inl ⟨rfl, List.mem_cons_self, hself⟩)
    held := admitted_held h.toCore ha
    own := fun q hq => by
      rcases List.mem_cons.mp hq with rfl | hq
      · exact joined_own h ha hj
      · exact (hkept q hq).own htable (h.own q hq)
    jobs := joined_jobs h ha hj
    ledgers := joined_ledgers h ha hj
    ended := by rw [ha.ended]; exact h.ended
    admins := fun m hm => (hmk m hm).admin htable (h.admins m hm)
    names := by rw [ha.users]; exact h.names
    secret := ha.secret.trans h.secret
    left := by rw [ha.mngEnded]; exact h.left }
  refine {
    inv := ⟨hcore, fun q hq => ?_⟩
    calm := fun q hq => ?_
    beside := ⟨fun q hq _ => ⟨List.mem_cons_of_mem _ hq, hkept q hq⟩, fun m hm _ => ⟨hm, hmk m hm⟩⟩
    size := Nat.le_refl _
    kin := fun hn => absurd hn (by decide)
    talk := fun hn => absurd hn (by decide)
    settings := Or.inl ⟨ha.users, ha.config⟩ }
  · rcases List.mem_cons.mp hq with rfl | hq
    · rw [joined_view h ha hj]
      exact ⟨fd, w.os.now, .refl⟩
    · rw [(hkept q hq).view]
      exact h.reached q hq
  · rcases List.mem_cons.mp hq with rfl | hq
    · have hst : (w'.ctx q).s.stm = none := congrArg Socks5.stm hj.self
      refine ⟨⟨?_, fun he => ?_⟩, by rw [hst]; decide, by rw [hst]; decide⟩
      · rw [joined_view h ha hj]
        trivial
      · rw [hst] at he
        cases he
    · exact (hkept q hq).calm (hc q hq)

end Joined

theorem activeListAdd_rest (w : World) (p : Ptr) :
    w.activeListAdd p = { w with
      mem := (w.activeListAdd p).mem, g := { w.g with activeHead := some p } } := by
  cases hh : w.g.activeHead with
  | none => simp only [World.activeListAdd, World.modifyMem, hh]
  | some q => simp only [World.activeListAdd, World.modifyMem, hh]

theorem activeListAdd_self {w : World} {p : Ptr} (hp : w.g.activeHead ≠ some p) :
    (w.activeListAdd p).mem p =
      { w.mem p with activePrev := none, activeNext := w.g.activeHead } := by
  cases hh : w.g.activeHead with
  | none =>
    simp only [World.activeListAdd, World.modifyMem, hh]
    exact Function.update_self _ _ _
  | some q =>
    have hne : p ≠ q := fun he => hp (he ▸ hh)
    simp only [World.activeListAdd, World.modifyMem, hh]
    rw [Function.update_of_ne hne]
    exact Function.update_self _ _ _

theorem activeListAdd_other {w : World} {p q : Ptr} (hq : q ≠ p) :
    (w.activeListAdd p).mem q =
      if w.g.activeHead = some q then { w.mem q with activePrev := some p } else w.mem q := by
  cases hh : w.g.activeHead with
  | none =>
    simp only [World.activeListAdd, World.modifyMem, hh]
    rw [if_neg (by intro he; cases he)]
    exact Function.update_of_ne hq _ _
  | some r =>
    simp only [World.activeListAdd, World.modifyMem, hh]
    by_cases hqr : q = r
    · subst hqr
      rw [if_pos rfl, Function.update_self, Function.update_of_ne hq]
    · rw [if_neg fun he => hqr (Option.some.inj he).symm, Function.update_of_ne hqr,
        Function.update_of_ne hq]

/-- The world with a registered session that is on the list. -/
def World.joined (w : World) (sel : Selector) (p : Ptr) : World :=
  (World.activeListAdd { w with
    sel := sel, g := { w.g with activeSessions := w.g.activeSessions + 1 } } p).metrics
      Metrics.metricsConnAccepted

section Registered
variable {os' : OS} {fd : Fd} {k : Sock} {w' : World} {p : Ptr} {s : Socks5} {sel : Selector}
  (hfree : w.os.fds fd = none) (ht : Touched w.os os' fd k) (hk : os'.killed = w.os.killed)
  (ho : Obtained ρ { w with os := os' } w' p s)

include ho in
theorem obtained_outer : w'.mngMem = w.mngMem ∧ w'.socksFd = w.socksFd ∧ w'.mngFd = w.mngFd ∧
    w'.ended = w.ended ∧ w'.mngEnded = w.mngEnded := by
  have h1 := ho.outer
  exact ⟨congrArg (fun t => t.1) h1, congrArg (fun t => t.2.2.1) h1,
    congrArg (fun t => t.2.2.2.1) h1, congrArg (fun t => t.2.2.2.2.2.2.1) h1,
    congrArg (fun t => t.2.2.2.2.2.2.2) h1⟩

include hfree ht hk ho in
theorem obtained_admitted (hv : invalidFd fd = false) {m : Nat}
    (hsel : sel = { w'.sel with
      fds := Function.update w'.sel.fds fd (some ⟨opRead, .socks5, p⟩), maxFd := m
      masterR := Function.update w'.sel.masterR fd opRead.read
      masterW := Function.update w'.sel.masterW fd opRead.write }) :
    Admitted w (w'.joined sel p) fd ⟨opRead, .socks5, p⟩ k := by
  obtain ⟨-, h2, h3, h4, h5⟩ := obtained_outer ho
  have hw : w'.sel = w.sel := ho.sel
  rw [hw] at hsel
  subst hsel
  unfold World.joined
  rw [activeListAdd_rest]
  refine {
    free := hfree
    valid := hv
    fds := (congrArg OS.fds ho.os :).trans ht.fds
    os := ?_
    killed := (congrArg OS.killed ho.os :).trans hk
    items := rfl
    masterR := rfl
    masterW := rfl
    notices := rfl
    marks := rfl
    log := (congrArg Globals.accessLog ho.g :)
    dns := (congrArg Globals.dnsWorker ho.g :)
    users := (congrArg Globals.users ho.g :)
    config := (congrArg Globals.config ho.g :)
    secret := (congrArg Globals.adminSecret ho.g :)
    socksFd := h2
    mngFd := h3
    ended := h4
    mngEnded := h5 }
  have h6 : ({ w'.os with allocated := os'.allocated } : OS).still = os'.still :=
    (congrArg OS.still ho.os :)
  have h7 : os'.allocated = w.os.allocated := (congrArg OS.allocated ht.still :)
  rw [h7, ht.still] at h6
  exact h6

include ht ho in
theorem obtained_joined (hb : Books ρ w) (hs : s = World.freshSocks5 fd os'.now w.g.config) :
    Joined ρ w (w'.joined sel p) p fd := by
  obtain ⟨h1, -⟩ := obtained_outer ho
  have hnow : os'.now = w.os.now := (congrArg OS.now ht.still :)
  have hhead : w'.g.activeHead = w.g.activeHead := (congrArg Globals.activeHead ho.g :)
  have hfresh : w.g.activeHead ≠ some p := fun he => by
    have hmem : p ∈ ρ.act := List.mem_of_mem_head? (hb.linked.chain.head_eq ▸ he)
    exact (List.nodup_cons.mp ho.nodup).1 (rest_act hmem)
  have hne : ∀ q ∈ ρ.rest, q ≠ p := fun q hq he => (List.nodup_cons.mp ho.nodup).1 (he ▸ hq)
  have hother : ∀ q ∈ ρ.rest, (w'.joined sel p).mem q =
      if w.g.activeHead = some q then { w.mem q with activePrev := some p } else w.mem q := by
    intro q hq
    have h2 := obtained_other ho hq
    refine (activeListAdd_other (hne q hq)).trans ?_
    show (if w'.g.activeHead = some q then { w'.mem q with activePrev := some p } else w'.mem q) = _
    rw [hhead, h2]
  refine {
    nodup := ho.nodup
    allocated := fun q => ?_
    self := ?_
    others := fun q hq => hother q (rest_act hq)
    pooled := fun q hq => ?_
    mngMem := ?_
    head := ?_
    active := ?_
    pool := ?_
    poolSize := ?_
    admins := ?_
    metrics := ?_ }
  · rw [← ho.allocated q]
    unfold World.joined
    rw [activeListAdd_rest]
    rfl
  · refine (activeListAdd_self ?_).trans ?_
    · exact fun he => hfresh (hhead.symm.trans he)
    · show ({ w'.mem p with activePrev := none, activeNext := w'.g.activeHead } : Socks5) = _
      rw [obtained_mem ho, hs, hnow, hhead]
      rfl
  · rw [hother q (rest_pool hq)]
    split <;> rfl
  all_goals unfold World.joined; rw [activeListAdd_rest]
  · exact h1
  · rfl
  · show w'.g.activeSessions + 1 = _
    have h2 : w'.g.activeSessions = w.g.activeSessions := (congrArg Globals.activeSessions ho.g :)
    rw [h2]
  · exact ho.pool
  · exact ho.poolSize
  · exact (congrArg Globals.mngActiveSessions ho.g :)
  · show w'.g.metrics.map _ = _
    have h2 : w'.g.metrics = w.g.metrics := (congrArg Globals.metrics ho.g :)
    rw [h2]

end Registered

/-- `socksv5_passive_accept`: one more session, or none. -/
theorem Inv.passiveAccept (h : Inv τ ρ w) (hc : AllCalm ρ w) :
    ∃ ρ' n, Stepped τ (fun _ => False) n ρ ρ' w w.socksv5PassiveAccept ∧
      (n = 0 ∨ n = 1 ∧ w.connectionsFull = false) ∧ Admits w w.socksv5PassiveAccept := by
  unfold World.socksv5PassiveAccept
  rw [show w.os.accept = w.os.newFd { conn := .established, reported := true } from rfl]
  rcases newFd_cases w.os { conn := .established, reported := true } with
    ⟨o1, e, h1, hc1⟩ | ⟨o1, fd, h1, hfree, -, ht, hk1⟩
  · rw [h1]
    exact ⟨ρ, 0, h.called hc hc1 _ fun _ => rfl, Or.inl rfl, .same hc1.fds rfl⟩
  rw [h1]
  simp only
  rcases nio_cases o1 with ⟨o2, e, h2, hc2⟩ | ⟨o2, h2, hc2⟩
  · rw [h2]
    have hclose := (ht.called hc2).close hfree (hc2.killed.trans hk1)
    exact ⟨ρ, 0, h.called hc hclose _ fun _ => rfl, Or.inl rfl, .same hclose.fds rfl⟩
  rw [h2]
  simp only
  have ht2 := ht.called hc2
  have hk2 : o2.killed = w.os.killed := hc2.killed.trans hk1
  cases hfull : ({ w with os := o2 } : World).connectionsFull with
  | true =>
    have hclose := ht2.close hfree hk2
    exact ⟨ρ, 0, h.called hc hclose _ fun _ => rfl, Or.inl rfl, .same hclose.fds rfl⟩
  | false =>
    have hb : Books ρ { w with os := o2 } :=
      h.books.congr (fun _ => rfl) (congrArg OS.allocated ht2.still :) rfl
    simp only [Bool.false_eq_true, if_false]
    rcases socks5New_cases hb fd with ⟨o3, h3, hc3⟩ | ⟨w', p, h3, ho⟩
    · rw [h3]
      have hclose := (ht2.called hc3).close hfree (hc3.killed.trans hk2)
      exact ⟨ρ, 0, h.called hc hclose _ fun _ => rfl, Or.inl rfl, .same hclose.fds rfl⟩
    rw [h3]
    simp only
    have hreg : w'.sel.fds fd = none := by
      rw [ho.sel]
      exact h.registry.table.unregistered hfree
    cases hv : invalidFd fd with
    | true =>
      have hr : w'.sel.selectorRegister fd .socks5 opRead p = (w'.sel, .iargs) := by
        unfold Selector.selectorRegister
        rw [hv]
        rfl
      rw [hr]
      obtain ⟨ρ', hs⟩ := h.returned hc hfree ht2 hk2 ho rfl
      obtain ⟨h4, h5⟩ :=
        destroy_marks ((World.metrics (w'.close fd) Metrics.metricsConnRejected).ctx p)
      refine ⟨ρ', 0, hs, Or.inl rfl, .same (h4.trans ?_) (h5.trans ho.sel)⟩
      show Function.update w'.os.fds fd none = _
      rw [(congrArg OS.fds ho.os :), ← (ht2.close hfree hk2).fds]
      rfl
    | false =>
      obtain ⟨m, hr⟩ := register_new hv hreg .socks5 opRead p
      rw [hr]
      have ha := obtained_admitted hfree ht2 hk2 ho hv (m := m) rfl
      exact ⟨ρ.join p, 1, h.joined ha (obtained_joined ht2 ho h.books rfl) hc, Or.inr ⟨rfl, hfull⟩,
        admitted_admits h.toCore ha rfl⟩

end Socks5d
