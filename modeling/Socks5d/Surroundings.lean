import Socks5d.Attending

/-! # What happens around the sessions

Steps that run no session's code: answers of the kernel, counters, objects that
no session uses. The sessions are what they were; at most the condition of
their connections has changed. -/
namespace Socks5d
open Ctx Lib.Links

/-- A session without what the DNS worker writes. -/
def Socks5.unresolved (s : Socks5) : Socks5 := { s with originResolution := [] }

/-- The globals without the pool, the counters and the DNS worker. -/
def Globals.core (g : Globals) : Globals :=
  { g with pool := none, poolSize := 0, metrics := none, dnsWorker := none }

def Metrics.unrejected (m : Metrics) : Metrics := { m with connRejected := 0 }

/-- The same sessions, whose connections have changed by `f`. -/
structure Alike (ρ : Roster) (f : Fd → Sock → Sock) (w w' : World) : Prop where
  mem : ∀ p ∈ ρ.act, (w'.mem p).unresolved = (w.mem p).unresolved
  mngMem : w'.mngMem = w.mngMem
  fds : ∀ fd, w'.os.fds fd = (w.os.fds fd).map (f fd)
  streams : ∀ fd k, (f fd k).rx = k.rx ∧ (f fd k).tx = k.tx
  stray : w'.os.strayClose = w.os.strayClose
  alive : w.os.Alive → w'.os.Alive
  items : w'.sel.fds = w.sel.fds
  masterR : w'.sel.masterR = w.sel.masterR
  masterW : w'.sel.masterW = w.sel.masterW
  g : w'.g.core = w.g.core
  metrics : w'.g.metrics.map Metrics.unrejected = w.g.metrics.map Metrics.unrejected
  socksFd : w'.socksFd = w.socksFd
  mngFd : w'.mngFd = w.mngFd
  ended : w'.ended = w.ended
  mngEnded : w'.mngEnded = w.mngEnded

section Alike
variable {τ : Terms} {ρ ρ' : Roster} {f : Fd → Sock → Sock} {w w' : World} (h : Core τ ρ w)
  (ha : Alike ρ f w w') (hact : ρ'.act = ρ.act) (hadm : ρ'.adm = ρ.adm)

include ha in
theorem alike_clientFd {p : Ptr} (hp : p ∈ ρ.act) : (w'.mem p).clientFd = (w.mem p).clientFd :=
  (congrArg Socks5.clientFd (ha.mem p hp) :)

include ha in
theorem alike_originFd {p : Ptr} (hp : p ∈ ρ.act) : (w'.mem p).originFd = (w.mem p).originFd :=
  (congrArg Socks5.originFd (ha.mem p hp) :)

include ha in
theorem alike_hist {p : Ptr} (hp : p ∈ ρ.act) : (w'.mem p).hist = (w.mem p).hist :=
  (congrArg Socks5.hist (ha.mem p hp) :)

include ha in
theorem alike_open {fd : Fd} (hk : ∃ k, w.os.fds fd = some k) : ∃ k, w'.os.fds fd = some k := by
  obtain ⟨k, hk⟩ := hk
  exact ⟨f fd k, by rw [ha.fds, hk]; rfl⟩

include h ha in
theorem alike_table : Table w'.os w'.sel := by
  refine ⟨?_, ?_, ?_, ?_⟩
  · rw [ha.items]; exact h.registry.table.valid
  · rw [ha.items]
    exact fun fd it hi => alike_open ha (h.registry.table.opened fd it hi)
  · rw [ha.masterR, ha.items]; exact h.registry.table.masterR
  · rw [ha.masterW, ha.items]; exact h.registry.table.masterW

theorem Local.of_unresolved {s t : Socks5} (h : Local s) (he : t.unresolved = s.unresolved) :
    Local t := by
  have h1 : ∀ u : Socks5, Local u ↔ Local u.unresolved := fun u =>
    ⟨fun h => ⟨h.rb, h.rbLimit, h.wb, h.wbLimit, h.refs, h.unlogged, h.origin_ne⟩,
      fun h => ⟨h.rb, h.rbLimit, h.wb, h.wbLimit, h.refs, h.unlogged, h.origin_ne⟩⟩
  rw [h1, he, ← h1]
  exact h

include h ha in
theorem alike_own {p : Ptr} (hp : p ∈ ρ.act) : Own (w'.ctx p) := by
  have ho := h.own p hp
  refine ⟨⟨?_, ?_⟩, fun fd hfd => ⟨?_, ?_⟩, ho.here.of_unresolved (ha.mem p hp), alike_table h ha⟩
  · show ∃ i, w'.sel.fds (w'.mem p).clientFd = _
    rw [ha.items, alike_clientFd ha hp]
    exact ho.client.1
  · show ∃ k, w'.os.fds (w'.mem p).clientFd = _
    rw [alike_clientFd ha hp]
    exact alike_open ha ho.client.2
  · have hfd : (w.mem p).originFd = some fd := (alike_originFd ha hp).symm.trans hfd
    show ∃ i, w'.sel.fds fd = _
    rw [ha.items]
    exact (ho.origin fd hfd).1
  · have hfd : (w.mem p).originFd = some fd := (alike_originFd ha hp).symm.trans hfd
    exact alike_open ha (ho.origin fd hfd).2

include ha hact in
theorem alike_histories : w'.histories ρ' = w.histories ρ := by
  unfold World.histories
  rw [hact, ha.ended, List.map_congr_left fun p hp => alike_hist ha hp]

include h ha hact hadm in
/-- The process is in good order if the parts that changed are. -/
theorem Core.alike (hb : Books ρ' w') (hj : Jobs τ.prompt ρ' w')
    (hm : ∃ d, w'.g.dnsWorker = some d ∧ Mail ρ' w' d) : Core τ ρ' w' where
  books := hb
  registry := by
    refine ⟨alike_table h ha, ?_, ?_, ?_, ?_, ?_⟩
    · rw [ha.items, hact]
      intro fd it hi hh
      obtain ⟨h1, h2⟩ := h.registry.socks5 fd it hi hh
      rw [alike_clientFd ha h1, alike_originFd ha h1]
      exact ⟨h1, h2⟩
    · rw [ha.items, hadm, ha.mngMem]
      exact h.registry.mng
    · rw [ha.items]
      exact fun fd it hi hh => (h.registry.listening fd it hi hh).congr ha.socksFd ha.mngFd
    · rw [ha.items, ha.socksFd]
      exact h.registry.socksFd
    · rw [ha.items, ha.mngFd]
      exact h.registry.mngFd
  held := by
    refine ⟨fun fd k hk => ?_, fun fd hin => ?_, ha.stray.trans h.held.stray, ha.alive h.held.alive⟩
    · rw [ha.fds] at hk
      obtain ⟨k', hk', -⟩ := Option.map_eq_some_iff.mp hk
      rw [ha.items]
      exact h.held.opened fd k' hk'
    · obtain ⟨hk, hu⟩ := h.held.inherited fd hin
      exact ⟨alike_open ha hk, by rw [ha.items]; exact hu⟩
  own p hp := alike_own h ha (hact ▸ hp)
  jobs := hj
  ledgers := by
    refine ⟨hm, ?_⟩
    obtain ⟨m, log, hmet, hlog, hacc⟩ := h.ledgers.accounts
    have hlog' : w'.g.accessLog = w.g.accessLog := (congrArg Globals.accessLog ha.g :)
    have hmm := ha.metrics
    rw [hmet] at hmm
    obtain ⟨m', hm', heq⟩ := Option.map_eq_some_iff.mp hmm
    have hfield : ∀ F : Metrics → UInt64, (∀ x : Metrics, F x.unrejected = F x) → F m' = F m :=
      fun F hF => by rw [← hF m', heq, hF]
    refine ⟨m', log, hm', hlog'.trans hlog, ⟨?_, ?_, ?_, ?_, ?_⟩, ?_, ?_, ?_⟩
    · rw [alike_histories ha hact, hfield (·.originOk) fun _ => rfl]; exact hacc.tally.originOk
    · rw [alike_histories ha hact, hfield (·.originFail) fun _ => rfl]; exact hacc.tally.originFail
    · rw [alike_histories ha hact, hfield (·.authFail) fun _ => rfl]; exact hacc.tally.authFail
    · rw [alike_histories ha hact, hfield (·.bytesC2o) fun _ => rfl]; exact hacc.tally.bytesC2o
    · rw [alike_histories ha hact, hfield (·.bytesO2c) fun _ => rfl]; exact hacc.tally.bytesO2c
    · rw [hfield (·.connAccepted) fun _ => rfl, hfield (·.connClosed) fun _ => rfl, hact]
      exact hacc.accepted
    · rw [hfield (·.adminSessions) fun _ => rfl, hadm]; exact hacc.admins
    · rw [alike_histories ha hact]; exact hacc.log
  ended := by rw [ha.ended]; exact h.ended
  admins m hm := by
    have hat := h.admins m (hadm ▸ hm)
    refine ⟨⟨?_, ?_, alike_table h ha, ?_⟩, fun k hk => ?_, ?_, ?_⟩
    · show ∃ i, w'.sel.fds (w'.mngMem m).fd = _
      rw [ha.items, ha.mngMem]
      exact hat.own.item
    · show ∃ k, w'.os.fds (w'.mngMem m).fd = _
      rw [ha.mngMem]
      exact alike_open ha hat.own.sock
    · show (w'.mngMem m).closedWith = none
      rw [ha.mngMem]
      exact hat.own.opened
    · have hk : w'.os.fds (w'.mngMem m).fd = some k := hk
      show Framed (w'.mngMem m) k
      rw [ha.mngMem] at hk ⊢
      rw [ha.fds] at hk
      obtain ⟨k', hk', rfl⟩ := Option.map_eq_some_iff.mp hk
      obtain ⟨done, hrx, hf⟩ := hat.framed k' hk'
      obtain ⟨h1, h2⟩ := ha.streams (w.mngMem m).fd k'
      exact ⟨done, h1.trans hrx, by rw [h2]; exact hf⟩
    · show Mng.Vetted τ.tidy τ.secret (w'.mngMem m)
      rw [ha.mngMem]
      exact hat.vetted
    · show Mng.Waiting (w'.mngMem m)
      rw [ha.mngMem]
      exact hat.waiting
  names := by
    have hu : w'.g.users = w.g.users := (congrArg Globals.users ha.g :)
    rw [hu]
    exact h.names
  secret := by
    have hs : w'.g.adminSecret = w.g.adminSecret := (congrArg Globals.adminSecret ha.g :)
    exact hs.trans h.secret
  left := by rw [ha.mngEnded]; exact h.left

include ha in
theorem alike_pending (hd : w'.g.dnsWorker = w.g.dnsWorker)
    (hn : w'.sel.resolutionJobs = w.sel.resolutionJobs) {p : Ptr} (hp : p ∈ ρ.act) :
    w'.jobs = w.jobs ∧ w'.pending p = w.pending p := by
  have hj : w'.jobs = w.jobs := by unfold World.jobs; rw [hd]
  refine ⟨hj, ?_⟩
  unfold World.pending
  rw [hj, hn, alike_clientFd ha hp]

include h ha hact in
theorem alike_jobs (hd : w'.g.dnsWorker = w.g.dnsWorker)
    (hn : w'.sel.resolutionJobs = w.sel.resolutionJobs) : Jobs τ.prompt ρ' w' := by
  have hj : w'.jobs = w.jobs := by unfold World.jobs; rw [hd]
  refine ⟨?_, ?_, fun p hp => ?_, fun hτ p hp => ?_⟩
  · rw [hj, hact]
    intro j hm
    obtain ⟨h1, h2⟩ := h.jobs.jobs j hm
    exact ⟨h1, by rw [alike_clientFd ha h1]; exact h2⟩
  · rw [hn, hact]
    intro fd hm
    obtain ⟨p, hp, he⟩ := h.jobs.notices fd hm
    exact ⟨p, hp, by rw [alike_clientFd ha hp]; exact he⟩
  · rw [hact] at hp
    rw [(alike_pending ha hd hn hp).2, alike_hist ha hp]
    exact h.jobs.tickets p hp
  · rw [hact] at hp
    rw [(alike_pending ha hd hn hp).2, alike_hist ha hp]
    exact h.jobs.prompt hτ p hp

include h ha hact in
theorem alike_mail (hd : w'.g.dnsWorker = w.g.dnsWorker)
    (hr : ∀ p ∈ ρ.act, (w'.mem p).originResolution = (w.mem p).originResolution) :
    ∃ d, w'.g.dnsWorker = some d ∧ Mail ρ' w' d := by
  obtain ⟨d, hd', hmail⟩ := h.ledgers.mail
  refine ⟨d, hd.trans hd', ?_, fun p hp => ?_, fun p hp => ?_⟩
  · rw [alike_histories ha hact]
    exact hmail.posted
  · rw [hact] at hp
    rw [alike_hist ha hp, alike_clientFd ha hp]
    exact hmail.mine p hp
  · rw [hact] at hp
    rw [alike_hist ha hp, hr p hp]
    exact hmail.found p hp

end Alike

/-! ## Steps no session sees at all -/

section Quiet
variable {τ : Terms} {ρ ρ' : Roster} {w w' : World}

theorem Alike.kept (ha : Alike ρ (fun _ k => k) w w') {p : Ptr} (hm : w'.mem p = w.mem p) :
    Kept w w' p := by
  have hl : w'.g.accessLog = w.g.accessLog := (congrArg Globals.accessLog ha.g :)
  refine ⟨by rw [hl], by rw [hm], fun fd _ => ⟨?_, by rw [ha.items]⟩⟩
  rw [ha.fds]
  exact Option.map_id'

theorem Alike.mngKept (ha : Alike ρ (fun _ k => k) w w') (m : Ptr) : MngKept w w' m := by
  refine ⟨by rw [ha.mngMem], ?_, by rw [ha.items]⟩
  rw [ha.fds]
  exact Option.map_id'

theorem Alike.settings {f : Fd → Sock → Sock} (ha : Alike ρ f w w') : w'.settings = w.settings := by
  have hu : w'.g.users = w.g.users := (congrArg Globals.users ha.g :)
  have hc : w'.g.config = w.g.config := (congrArg Globals.config ha.g :)
  unfold World.settings
  rw [ha.mngMem, hu, hc]

theorem Inv.quiet (h : Inv τ ρ w) (hc : AllCalm ρ w) (ha : Alike ρ (fun _ k => k) w w')
    (hb : Books ρ' w') (hact : ρ'.act = ρ.act) (hadm : ρ'.adm = ρ.adm)
    (hd : w'.g.dnsWorker = w.g.dnsWorker) (hn : w'.sel.resolutionJobs = w.sel.resolutionJobs)
    (hm : ∀ p ∈ ρ.act, w'.mem p = w.mem p) : Stepped τ (fun _ => False) 0 ρ ρ' w w' := by
  have hcore := h.toCore.alike ha hact hadm hb (alike_jobs h.toCore ha hact hd hn)
    (alike_mail h.toCore ha hact hd fun p hp => by rw [hm p hp])
  have hk : ∀ p ∈ ρ.act, Kept w w' p := fun p hp => ha.kept (hm p hp)
  refine .socks ⟨hcore, fun p hp => ?_⟩ (fun p hp => ?_) ⟨fun p hp _ => ?_, fun m hm _ => ?_⟩
    (by rw [hact, hadm]; exact ⟨.refl _, .refl _⟩) ha.settings
  · rw [hact] at hp
    rw [(hk p hp).view]
    exact h.reached p hp
  · rw [hact] at hp
    exact (hk p hp).calm (hc p hp)
  · exact ⟨hact ▸ hp, hk p hp⟩
  · exact ⟨hadm ▸ hm, ha.mngKept m⟩

/-- Only the kernel's and the selector's own state has changed. -/
theorem Inv.still (h : Inv τ ρ w) (hc : AllCalm ρ w) (ha : Alike ρ (fun _ k => k) w w')
    (hmem : w'.mem = w.mem) (halloc : w'.os.allocated = w.os.allocated)
    (hpool : (w'.g.pool, w'.g.poolSize) = (w.g.pool, w.g.poolSize))
    (hd : w'.g.dnsWorker = w.g.dnsWorker) (hn : w'.sel.resolutionJobs = w.sel.resolutionJobs) :
    Stepped τ (fun _ => False) 0 ρ ρ w w' := by
  have hlists : w'.g.lists = w.g.lists := by
    obtain ⟨h1, h2⟩ := Prod.mk.inj hpool
    have h3 : w'.g.activeHead = w.g.activeHead := (congrArg Globals.activeHead ha.g :)
    have h4 : w'.g.activeSessions = w.g.activeSessions := (congrArg Globals.activeSessions ha.g :)
    have h5 : w'.g.mngActiveSessions = w.g.mngActiveSessions :=
      (congrArg Globals.mngActiveSessions ha.g :)
    unfold Globals.lists
    rw [h1, h2, h3, h4, h5]
  exact h.quiet hc ha (h.books.congr (fun q => by rw [hmem]) halloc hlists) rfl rfl hd hn
    fun p _ => by rw [hmem]

end Quiet
end Socks5d
