import Socks5d.Surroundings

/-! # A connection is accepted

It gets a descriptor that was free and an item for it, or nothing is left of
it. Management sessions are opened here; `socksv5_passive_accept` has a module
of its own. -/
namespace Socks5d
open Ctx Lib.Links

variable {τ : Terms} {ρ : Roster} {w : World}

/-! ## Nothing is left of it -/

/-- Calls that changed nothing that lasts, and the counter of refused connections. -/
theorem Alike.called {os' : OS} (hc : Called w.os os') (f : Metrics → Metrics)
    (hf : ∀ m, (f m).unrejected = m.unrejected) :
    Alike ρ (fun _ k => k) w (World.metrics { w with os := os' } f) where
  mem _ _ := rfl
  mngMem := rfl
  fds fd := by
    show os'.fds fd = _
    rw [hc.fds]
    exact Option.map_id'.symm
  streams _ _ := ⟨rfl, rfl⟩
  stray := (congrArg OS.strayClose hc.still :)
  alive h := OS.Lives.alive (Or.inl hc.killed) hc.still h
  items := rfl
  masterR := rfl
  masterW := rfl
  g := rfl
  metrics := by
    show (w.g.metrics.map f).map Metrics.unrejected = _
    rw [Option.map_map]
    exact congrArg (fun F => w.g.metrics.map F) (funext hf)
  socksFd := rfl
  mngFd := rfl
  ended := rfl
  mngEnded := rfl

theorem Inv.called (h : Inv τ ρ w) (hc : AllCalm ρ w) {os' : OS} (ho : Called w.os os')
    (f : Metrics → Metrics) (hf : ∀ m, (f m).unrejected = m.unrejected) :
    Stepped τ (fun _ => False) 0 ρ ρ w (World.metrics { w with os := os' } f) :=
  h.still hc (.called ho f hf) rfl (congrArg OS.allocated ho.still :) rfl rfl rfl

/-- A new block was not in use before. -/
theorem malloc_cases (o : OS) :
    (∃ o', o.malloc = (o', none) ∧ Called o o') ∨
    (∃ p, o.malloc = ({ o.tick with allocated := Function.update o.allocated p true }, some p) ∧
      o.allocated p = false) := by
  unfold OS.malloc
  cases o.answer.err with
  | some e => exact Or.inl ⟨_, rfl, rfl, rfl, rfl⟩
  | none =>
    cases ha : o.allocated o.answer.count with
    | true => exact Or.inl ⟨o.tick, by simp only [ha, if_true], rfl, rfl, rfl⟩
    | false => exact Or.inr ⟨_, by simp only [ha, Bool.false_eq_true, if_false], ha⟩

/-- What an accept leaves of the tables: they grow, by a socket that needs no report. -/
structure Admits (w w' : World) : Prop where
  items : ∀ fd it, w.sel.fds fd = some it → w'.sel.fds fd = some it
  fds : ∀ fd k, w'.os.fds fd = some k → w.os.fds fd = some k ∨ k.reported = true
  marks : w'.sel.slaveW = w.sel.slaveW

theorem Admits.same {w' : World} (hf : w'.os.fds = w.os.fds) (hs : w'.sel = w.sel) : Admits w w' where
  items _ _ hi := by rw [hs]; exact hi
  fds _ _ hk := Or.inl (by rw [← hf]; exact hk)
  marks := by rw [hs]

/-! ## It is registered -/

/-- A connection was accepted and got an item; the rest of the tables is as it was. -/
structure Admitted (w w' : World) (fd : Fd) (it : Item) (k : Sock) : Prop where
  free : w.os.fds fd = none
  valid : invalidFd fd = false
  fds : w'.os.fds = Function.update w.os.fds fd (some k)
  os : ({ w'.os with allocated := w.os.allocated } : OS).still = w.os.still
  killed : w'.os.killed = w.os.killed
  items : w'.sel.fds = Function.update w.sel.fds fd (some it)
  masterR : w'.sel.masterR = Function.update w.sel.masterR fd it.interest.read
  masterW : w'.sel.masterW = Function.update w.sel.masterW fd it.interest.write
  notices : w'.sel.resolutionJobs = w.sel.resolutionJobs
  marks : w'.sel.slaveW = w.sel.slaveW
  log : w'.g.accessLog = w.g.accessLog
  dns : w'.g.dnsWorker = w.g.dnsWorker
  users : w'.g.users = w.g.users
  config : w'.g.config = w.g.config
  secret : w'.g.adminSecret = w.g.adminSecret
  socksFd : w'.socksFd = w.socksFd
  mngFd : w'.mngFd = w.mngFd
  ended : w'.ended = w.ended
  mngEnded : w'.mngEnded = w.mngEnded

/-- The item a registration adds. -/
theorem register_new {s : Selector} {fd : Fd} (hv : invalidFd fd = false) (hu : s.fds fd = none)
    (hd : Handler) (i : Interest) (p : Ptr) :
    ∃ m, s.selectorRegister fd hd i p = ({ s with
      fds := Function.update s.fds fd (some ⟨i, hd, p⟩), maxFd := m
      masterR := Function.update s.masterR fd i.read
      masterW := Function.update s.masterW fd i.write }, .success) := by
  unfold Selector.selectorRegister
  rw [hv, hu]
  exact ⟨_, rfl⟩

section Admitted
variable {w' : World} {fd : Fd} {it : Item} {k : Sock} (h : Core τ ρ w) (ha : Admitted w w' fd it k)

include ha in
theorem admitted_here : w'.sel.fds fd = some it ∧ w'.os.fds fd = some k := by
  rw [ha.items, ha.fds]
  exact ⟨Function.update_self _ _ _, Function.update_self _ _ _⟩

include ha in
theorem admitted_other {g : Fd} (hg : g ≠ fd) :
    w'.os.fds g = w.os.fds g ∧ w'.sel.fds g = w.sel.fds g := by
  rw [ha.items, ha.fds]
  exact ⟨Function.update_of_ne hg _ _, Function.update_of_ne hg _ _⟩

include h ha in
theorem admitted_table : Table w'.os w'.sel := by
  have h1 : Table w'.os w.sel := h.registry.table.withFds fun g i hi ho => by
    have hg : g ≠ fd := fun he => by
      obtain ⟨k', hk'⟩ := ho
      rw [he, ha.free] at hk'
      cases hk'
    rw [(admitted_other ha hg).1]
    exact ho
  have h2 := h1.setItem it ha.valid ⟨k, (admitted_here ha).2⟩ 0
  have h3 : ∀ s s' : Selector, s.fds = s'.fds → s.masterR = s'.masterR → s.masterW = s'.masterW →
      Table w'.os s → Table w'.os s' := fun s s' e1 e2 e3 ht =>
    ⟨e1 ▸ ht.valid, e1 ▸ ht.opened, e1 ▸ e2 ▸ ht.masterR, e1 ▸ e3 ▸ ht.masterW⟩
  exact h3 _ _ ha.items.symm ha.masterR.symm ha.masterW.symm h2

include h ha in
/-- The new descriptor was no one's. -/
theorem admitted_ne {g : Fd} {jt : Item} (hi : w.sel.fds g = some jt) : g ≠ fd := by
  rintro rfl
  obtain ⟨k', hk'⟩ := h.registry.table.opened g jt hi
  rw [ha.free] at hk'
  cases hk'

include h ha in
theorem admitted_admits (hk : k.reported = true) : Admits w w' where
  items g jt hi := by
    rw [(admitted_other ha (admitted_ne h ha hi)).2]
    exact hi
  fds g k' hk' := by
    by_cases hg : g = fd
    · rw [hg, (admitted_here ha).2] at hk'
      cases hk'
      exact Or.inr hk
    · exact Or.inl ((admitted_other ha hg).1 ▸ hk')
  marks := ha.marks

include h ha in
theorem admitted_kept {q : Ptr} (hq : q ∈ ρ.act) (hm : (w'.mem q).unlinked = (w.mem q).unlinked) :
    Kept w w' q := by
  refine ⟨by rw [ha.log], hm, fun g hg => ?_⟩
  obtain ⟨⟨i, hi⟩, -⟩ := (h.own q hq).owns hg
  exact admitted_other ha (admitted_ne h ha hi)

include h ha in
theorem admitted_mngKept {m : Ptr} (hm : m ∈ ρ.adm) (hmem : w'.mngMem m = w.mngMem m) :
    MngKept w w' m := by
  obtain ⟨i, hi⟩ := (h.admins m hm).own.item
  obtain ⟨h1, h2⟩ := admitted_other ha (admitted_ne h ha hi)
  exact ⟨hmem, h1, h2⟩

include h ha in
theorem admitted_held : Held τ.inherited w' := by
  refine ⟨fun g k' hk' => ?_, fun g hin => ?_, ?_, ?_⟩
  · by_cases hg : g = fd
    · exact Or.inr ⟨it, hg ▸ (admitted_here ha).1⟩
    · obtain ⟨h1, h2⟩ := admitted_other ha hg
      rw [h2]
      exact h.held.opened g k' (h1 ▸ hk')
  · obtain ⟨hk, hu⟩ := h.held.inherited g hin
    have hg : g ≠ fd := fun he => by
      obtain ⟨k', hk'⟩ := hk
      rw [he, ha.free] at hk'
      cases hk'
    obtain ⟨h1, h2⟩ := admitted_other ha hg
    rw [h1, h2]
    exact ⟨hk, hu⟩
  · have h1 : w'.os.strayClose = w.os.strayClose := (congrArg OS.strayClose ha.os :)
    exact h1.trans h.held.stray
  · have hl : w.os.Lives { w'.os with allocated := w.os.allocated } := Or.inl ha.killed
    exact hl.alive ha.os h.held.alive

include h ha in
/-- The registry, given that the new item is in order. -/
theorem admitted_registry {ρ' : Roster} (hact : ∀ q ∈ ρ.act, q ∈ ρ'.act)
    (hadm : ∀ m ∈ ρ.adm, m ∈ ρ'.adm)
    (hfds : ∀ q ∈ ρ.act, (w'.mem q).clientFd = (w.mem q).clientFd ∧
      (w'.mem q).originFd = (w.mem q).originFd)
    (hmng : ∀ m ∈ ρ.adm, w'.mngMem m = w.mngMem m)
    (hself : it.handler = .socks5 ∧ it.data ∈ ρ'.act ∧ (w'.mem it.data).clientFd = fd ∨
      it.handler = .mng ∧ it.data ∈ ρ'.adm ∧ (w'.mngMem it.data).fd = fd) : Registry ρ' w' := by
  have hitem : ∀ g jt, w'.sel.fds g = some jt → g = fd ∧ jt = it ∨ w.sel.fds g = some jt := by
    intro g jt hg
    by_cases hgf : g = fd
    · subst hgf
      exact Or.inl ⟨rfl, Option.some.inj (hg.symm.trans (admitted_here ha).1)⟩
    · exact Or.inr ((admitted_other ha hgf).2 ▸ hg)
  have hleft : ∀ g jt, w.sel.fds g = some jt → w'.sel.fds g = some jt := fun g jt hg => by
    rw [(admitted_other ha (admitted_ne h ha hg)).2]
    exact hg
  refine ⟨admitted_table h ha, fun g jt hg hh => ?_, fun g jt hg hh => ?_, fun g jt hg hh => ?_,
    fun g hg => ?_, fun g hg => ?_⟩
  · rcases hitem g jt hg with ⟨rfl, rfl⟩ | hg
    · rcases hself with ⟨-, h2, h3⟩ | ⟨h1, -⟩
      · exact ⟨h2, Or.inl h3.symm⟩
      · rw [hh] at h1; cases h1
    · obtain ⟨h1, h2⟩ := h.registry.socks5 g jt hg hh
      obtain ⟨h3, h4⟩ := hfds _ h1
      rw [h3, h4]
      exact ⟨hact _ h1, h2⟩
  · rcases hitem g jt hg with ⟨rfl, rfl⟩ | hg
    · rcases hself with ⟨h1, -⟩ | ⟨-, h2, h3⟩
      · rw [hh] at h1; cases h1
      · exact ⟨h2, h3⟩
    · obtain ⟨h1, h2⟩ := h.registry.mng g jt hg hh
      rw [hmng _ h1]
      exact ⟨hadm _ h1, h2⟩
  · rcases hitem g jt hg with ⟨rfl, rfl⟩ | hg
    · rcases hself with ⟨h1, -⟩ | ⟨h1, -⟩ <;> rw [h1] at hh <;> rcases hh with hh | hh <;> cases hh
    · exact (h.registry.listening g jt hg hh).congr ha.socksFd ha.mngFd
  · rw [ha.socksFd] at hg
    obtain ⟨jt, hj, hh⟩ := h.registry.socksFd g hg
    exact ⟨jt, hleft g jt hj, hh⟩
  · rw [ha.mngFd] at hg
    obtain ⟨jt, hj, hh⟩ := h.registry.mngFd g hg
    exact ⟨jt, hleft g jt hj, hh⟩

end Admitted

/-! ## A management session -/

/-- The objects after `m` became a management session. -/
def Roster.seat (ρ : Roster) (m : Ptr) : Roster := { ρ with adm := m :: ρ.adm }

theorem metrics_id (w : World) : w.metrics id = w := by
  unfold World.metrics
  rw [Option.map_id]
  rfl

/-- What a block that is no management session holds does not matter. -/
theorem Inv.mngForget (h : Inv τ ρ w) (hc : AllCalm ρ w) {m : Ptr} (hm : m ∉ ρ.adm)
    (s : MngSession) : Stepped τ (fun _ => False) 1 ρ ρ w
      { w with mngMem := Function.update w.mngMem m s } := by
  have hne : ∀ q ∈ ρ.adm, q ≠ m := fun q hq he => hm (he ▸ hq)
  have hmk : ∀ q ∈ ρ.adm, MngKept w { w with mngMem := Function.update w.mngMem m s } q :=
    fun q hq => ⟨Function.update_of_ne (hne q hq) _ _, rfl, rfl⟩
  have hr := h.registry
  have hcore : Core τ ρ { w with mngMem := Function.update w.mngMem m s } := {
    books := h.books.congr (fun _ => rfl) rfl rfl
    registry := by
      refine ⟨hr.table, hr.socks5, fun fd it hi hh => ?_,
        fun fd it hi hh => (hr.listening fd it hi hh).congr rfl rfl, hr.socksFd, hr.mngFd⟩
      obtain ⟨h1, h2⟩ := hr.mng fd it hi hh
      refine ⟨h1, ?_⟩
      show (Function.update w.mngMem m s it.data).fd = fd
      rw [Function.update_of_ne (hne _ h1)]
      exact h2
    held := ⟨h.held.opened, h.held.inherited, h.held.stray, h.held.alive⟩
    own := h.own
    jobs := ⟨h.jobs.jobs, h.jobs.notices, h.jobs.tickets, h.jobs.prompt⟩
    ledgers := by
      obtain ⟨d, hd, hmail⟩ := h.ledgers.mail
      obtain ⟨mm, log, hmet, hlog, hacc⟩ := h.ledgers.accounts
      exact ⟨⟨d, hd, hmail.posted, hmail.mine, hmail.found⟩,
        mm, log, hmet, hlog, hacc.tally, hacc.accepted, hacc.admins, hacc.log⟩
    ended := h.ended
    admins := fun q hq => (hmk q hq).admin hr.table (h.admins q hq)
    names := h.names
    secret := h.secret
    left := h.left }
  exact {
    inv := ⟨hcore, h.reached⟩
    calm := hc
    beside := ⟨fun q hq _ => ⟨hq, rfl, rfl, fun _ _ => ⟨rfl, rfl⟩⟩, fun q hq _ => ⟨hq, hmk q hq⟩⟩
    size := Nat.le_succ _
    kin := fun hn => absurd hn (by decide)
    talk := fun hn => absurd hn (by decide)
    settings := Or.inl ⟨rfl, rfl⟩ }

/-- The new management session, and nothing else has changed. -/
structure Seated (w w' : World) (m : Ptr) (fd : Fd) : Prop where
  fresh : w.os.allocated m = false
  allocated : w'.os.allocated = Function.update w.os.allocated m true
  mem : w'.mem = w.mem
  mngMem : w'.mngMem = Function.update w.mngMem m { MngSession.zero with fd := fd }
  lists : { w'.g with mngActiveSessions := w.g.mngActiveSessions }.lists = w.g.lists
  admins : w'.g.mngActiveSessions = w.g.mngActiveSessions + 1
  metrics : w'.g.metrics = w.g.metrics.map Metrics.metricsAdminSessionOpen

section Seated
variable {w' : World} {m : Ptr} {fd : Fd} (h : Inv τ ρ w)
  (ha : Admitted w w' fd ⟨opRead, .mng, m⟩ { conn := .established, reported := true })
  (hs : Seated w w' m fd)

include h hs in
theorem seated_notMem : m ∉ ρ.all := fun hm => by
  rw [← h.books.allocated, hs.fresh] at hm
  cases hm

include h hs in
theorem seated_books : Books (ρ.seat m) w' := by
  have hperm : (ρ.seat m).all.Perm (m :: ρ.all) := List.perm_middle
  have hpool : w'.g.pool = w.g.pool := congrArg (fun t => t.1) hs.lists
  have hsize : w'.g.poolSize = w.g.poolSize := congrArg (fun t => t.2.1) hs.lists
  have hhead : w'.g.activeHead = w.g.activeHead := congrArg (fun t => t.2.2.1) hs.lists
  have hactive : w'.g.activeSessions = w.g.activeSessions := congrArg (fun t => t.2.2.2.1) hs.lists
  exact {
    nodup := hperm.nodup_iff.mpr (List.nodup_cons.mpr ⟨seated_notMem h hs, h.books.nodup⟩)
    allocated := fun q => by
      rw [hs.allocated, hperm.mem_iff, List.mem_cons]
      by_cases hq : q = m
      · rw [hq, Function.update_self]
        simp
      · rw [Function.update_of_ne hq, h.books.allocated]
        simp [hq]
    linked := by rw [hs.mem, hhead]; exact h.books.linked
    active := hactive.trans h.books.active
    chain := by rw [hs.mem, hpool]; exact h.books.chain
    pool := hsize.trans h.books.pool
    poolMax := h.books.poolMax
    admins := by rw [hs.admins, h.books.admins]; rfl }

include h ha hs in
theorem seated_attended : Attended τ.tidy τ.secret (w'.mngCtx m) := by
  obtain ⟨hi, hk⟩ := admitted_here ha
  have hm : (w'.mngCtx m).s = { MngSession.zero with fd := fd } := by
    show w'.mngMem m = _
    rw [hs.mngMem]
    exact Function.update_self _ _ _
  refine ⟨⟨?_, ?_, admitted_table h.toCore ha, ?_⟩, fun k hk' => ?_, ?_, ?_⟩
  · rw [hm]; exact ⟨_, hi⟩
  · rw [hm]; exact ⟨_, hk⟩
  · rw [hm]; rfl
  · rw [hm] at hk' ⊢
    have hk' : w'.os.fds fd = some k := hk'
    rw [hk] at hk'
    cases hk'
    exact ⟨[], rfl, rfl, rfl, fun r hr => by cases hr⟩
  · rw [hm]; exact .fresh fd
  · rw [hm]; exact ⟨fun hc => (by cases hc), fun hc => absurd rfl hc, Nat.le_refl _⟩

include h ha hs in
theorem Inv.seated (hc : AllCalm ρ w) :
    Stepped τ (fun _ => False) 1 ρ (ρ.seat m) w w' := by
  have hkept : ∀ q ∈ ρ.act, Kept w w' q := fun q hq =>
    admitted_kept h.toCore ha hq (by rw [hs.mem])
  have htable := admitted_table h.toCore ha
  have hne : ∀ q ∈ ρ.adm, q ≠ m := fun q hq he =>
    seated_notMem h hs (he ▸ List.mem_append_right _ hq)
  have hother : ∀ q ∈ ρ.adm, w'.mngMem q = w.mngMem q := fun q hq => by
    rw [hs.mngMem]
    exact Function.update_of_ne (hne q hq) _ _
  have hmk : ∀ q ∈ ρ.adm, MngKept w w' q := fun q hq =>
    admitted_mngKept h.toCore ha hq (hother q hq)
  have hself : (w'.mngMem m).fd = fd := by
    rw [hs.mngMem, Function.update_self]
  have hjobs : w'.jobs = w.jobs := by unfold World.jobs; rw [ha.dns]
  have hpend : ∀ q, w'.pending q = w.pending q := fun q => by
    unfold World.pending
    rw [hjobs, ha.notices, hs.mem]
  have hhist : w'.histories (ρ.seat m) = w.histories ρ := by
    unfold World.histories
    rw [hs.mem, ha.ended]
    rfl
  have hcore : Core τ (ρ.seat m) w' := {
    books := seated_books h hs
    registry := admitted_registry h.toCore ha (fun q hq => hq)
      (fun q hq => List.mem_cons_of_mem _ hq) (fun q _ => by rw [hs.mem]; exact ⟨rfl, rfl⟩)
      hother (Or.inr ⟨rfl, List.mem_cons_self, hself⟩)
    held := admitted_held h.toCore ha
    own := fun q hq => (hkept q hq).own htable (h.own q hq)
    jobs := by
      refine ⟨?_, ?_, fun q hq => ?_, fun hτ q hq => ?_⟩
      · rw [hjobs, hs.mem]; exact h.jobs.jobs
      · rw [ha.notices, hs.mem]; exact h.jobs.notices
      · rw [hpend, hs.mem]; exact h.jobs.tickets q hq
      · rw [hpend, hs.mem]; exact h.jobs.prompt hτ q hq
    ledgers := by
      obtain ⟨d, hd, hmail⟩ := h.ledgers.mail
      obtain ⟨mm, log, hmet, hlog, hacc⟩ := h.ledgers.accounts
      refine ⟨⟨d, ha.dns.trans hd, ?_, ?_, ?_⟩, mm.metricsAdminSessionOpen, log,
        by rw [hs.metrics, hmet]; rfl, ha.log.trans hlog, ?_, hacc.accepted, ?_, ?_⟩
      · rw [hhist]; exact hmail.posted
      · rw [hs.mem]; exact hmail.mine
      · rw [hs.mem]; exact hmail.found
      · rw [hhist]
        have ht := hacc.tally
        exact ⟨ht.originOk, ht.originFail, ht.authFail, ht.bytesC2o, ht.bytesO2c⟩
      · show mm.adminSessions + 1 = UInt64.ofNat (ρ.adm.length + 1)
        rw [hacc.admins, UInt64.ofNat_add]
        rfl
      · rw [hhist]; exact hacc.log
    ended := by rw [ha.ended]; exact h.ended
    admins := fun q hq => by
      rcases List.mem_cons.mp hq with rfl | hq
      · exact seated_attended h ha hs
      · exact (hmk q hq).admin htable (h.admins q hq)
    names := by rw [ha.users]; exact h.names
    secret := ha.secret.trans h.secret
    left := by rw [ha.mngEnded]; exact h.left }
  exact {
    inv := ⟨hcore, fun q hq => by rw [(hkept q hq).view]; exact h.reached q hq⟩
    calm := fun q hq => (hkept q hq).calm (hc q hq)
    beside := ⟨fun q hq _ => ⟨hq, hkept q hq⟩,
      fun q hq _ => ⟨List.mem_cons_of_mem _ hq, hmk q hq⟩⟩
    size := Nat.le_succ _
    kin := fun hn => absurd hn (by decide)
    talk := fun hn => absurd hn (by decide)
    settings := Or.inl ⟨ha.users, ha.config⟩ }

end Seated

/-- `mng_passive_accept`: one more management session, or none. -/
theorem Inv.mngPassiveAccept (h : Inv τ ρ w) (hc : AllCalm ρ w) :
    ∃ ρ', Stepped τ (fun _ => False) 1 ρ ρ' w w.mngPassiveAccept ∧ ρ'.act = ρ.act ∧
      Admits w w.mngPassiveAccept := by
  have hcalled : ∀ {os' : OS}, Called w.os os' →
      ∃ ρ', Stepped τ (fun _ => False) 1 ρ ρ' w { w with os := os' } ∧ ρ'.act = ρ.act ∧
        Admits w { w with os := os' } := by
    intro os' hc1
    have hs := h.called hc hc1 id fun _ => rfl
    rw [metrics_id] at hs
    exact ⟨ρ, { hs with
      size := Nat.le_succ _
      kin := fun hn => absurd hn (by decide)
      talk := fun hn => absurd hn (by decide) }, rfl, .same hc1.fds rfl⟩
  unfold World.mngPassiveAccept
  rw [show w.os.accept = w.os.newFd { conn := .established, reported := true } from rfl]
  rcases newFd_cases w.os { conn := .established, reported := true } with
    ⟨o1, e, h1, hc1⟩ | ⟨o1, fd, h1, hfree, -, ht, hk1⟩
  · rw [h1]
    exact hcalled hc1
  rw [h1]
  simp only
  rcases nio_cases o1 with ⟨o2, e, h2, hc2⟩ | ⟨o2, h2, hc2⟩
  · rw [h2]
    exact hcalled ((ht.called hc2).close hfree (hc2.killed.trans hk1))
  rw [h2]
  simp only
  have ht2 := ht.called hc2
  have hk2 : o2.killed = w.os.killed := hc2.killed.trans hk1
  rcases malloc_cases o2 with ⟨o3, h3, hc3⟩ | ⟨m, h3, halloc⟩
  · rw [h3]
    exact hcalled ((ht2.called hc3).close hfree (hc3.killed.trans hk2))
  rw [h3]
  simp only
  have hwalloc : o2.allocated = w.os.allocated := (congrArg OS.allocated ht2.still :)
  have hreg := h.registry.table.unregistered hfree
  cases hv : invalidFd fd with
  | true =>
    have hr : w.sel.selectorRegister fd .mng opRead m = (w.sel, .iargs) := by
      unfold Selector.selectorRegister
      rw [hv]
      rfl
    rw [hr]
    -- the block is given back, with what was written to it
    have hm : m ∉ ρ.adm := fun hm => by
      have h4 := (h.books.allocated m).mpr (List.mem_append_right _ hm)
      rw [← hwalloc, halloc] at h4
      cases h4
    have hfree' : ({ o2.tick with
        allocated := Function.update o2.allocated m true } : OS).free m = o2.tick := by
      unfold OS.free
      rw [if_pos (Function.update_self _ _ _)]
      have h4 : Function.update (Function.update o2.allocated m true) m false = o2.allocated := by
        rw [Function.update_idem, ← halloc, Function.update_eq_self]
      exact congrArg (fun f => { o2.tick with allocated := f }) h4
    have hs1 := h.mngForget hc hm { MngSession.zero with fd := fd }
    have hclose := (ht2.called (c := o2.tick) ⟨rfl, rfl, rfl⟩).close hfree hk2
    have hs2 := hs1.inv.called hs1.calm hclose id fun _ => rfl
    rw [metrics_id] at hs2
    simp only [hfree']
    exact ⟨ρ, hs1.andThen hs2 (Or.inr ⟨rfl, rfl⟩), rfl, .same hclose.fds rfl⟩
  | false =>
    obtain ⟨n, hr⟩ := register_new hv hreg .mng opRead m
    rw [hr]
    have ha : Admitted w (World.metrics { w with
        os := { o2.tick with allocated := Function.update o2.allocated m true }
        mngMem := Function.update w.mngMem m { MngSession.zero with fd := fd }
        sel := { w.sel with
          fds := Function.update w.sel.fds fd (some ⟨opRead, .mng, m⟩), maxFd := n
          masterR := Function.update w.sel.masterR fd opRead.read
          masterW := Function.update w.sel.masterW fd opRead.write }
        g := { w.g with mngActiveSessions := w.g.mngActiveSessions + 1 } }
          Metrics.metricsAdminSessionOpen) fd ⟨opRead, .mng, m⟩
        { conn := .established, reported := true } := {
      free := hfree
      valid := hv
      fds := ht2.fds
      os := by rw [← hwalloc]; exact ht2.still
      killed := hk2
      items := rfl
      masterR := rfl
      masterW := rfl
      notices := rfl
      marks := rfl
      log := rfl
      dns := rfl
      users := rfl
      config := rfl
      secret := rfl
      socksFd := rfl
      mngFd := rfl
      ended := rfl
      mngEnded := rfl }
    refine ⟨ρ.seat m, h.seated ha ?_ hc, rfl, admitted_admits h.toCore ha rfl⟩
    exact {
      fresh := by rw [← hwalloc]; exact halloc
      allocated := by rw [← hwalloc]; rfl
      mem := rfl
      mngMem := rfl
      lists := rfl
      admins := rfl
      metrics := rfl }

end Socks5d
