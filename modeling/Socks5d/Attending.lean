import Socks5d.Callbacks
import Mathlib.Data.List.Nodup

/-! # A callback of a management session, seen from the process

It works on its own connection and on the shared stores. The SOCKS sessions do
not notice, and at its end the session is open or gone for good. -/
namespace Socks5d
open Ctx Lib.Links

/-- The globals that no management session changes. -/
def Globals.away (g : Globals) : Globals :=
  { g with users := none, config := none, metrics := none, mngActiveSessions := 0 }

/-- What a callback of management session `m` leaves alone. -/
structure Aside (w w' : World) (m : Ptr) : Prop where
  mem : w'.mem = w.mem
  others : ∀ q, q ≠ m → w'.mngMem q = w.mngMem q
  fds : ∀ fd, fd ≠ (w.mngMem m).fd → w'.os.fds fd = w.os.fds fd ∧ w'.sel.fds fd = w.sel.fds fd
  os : ({ w'.os with allocated := w.os.allocated } : OS).still = w.os.still
  sel : w'.sel.still = w.sel.still
  g : w'.g.away = w.g.away
  lives : w.os.Lives w'.os
  socksFd : w'.socksFd = w.socksFd
  mngFd : w'.mngFd = w.mngFd
  ended : w'.ended = w.ended
  table : Table w'.os w'.sel

section Aside
variable {τ : Terms} {ρ : Roster} {w w' : World} {m : Ptr} (h : Core τ ρ w) (hm : m ∈ ρ.adm)
  (ha : Aside w w' m)

include h hm in
/-- The descriptor of the session is no one else's. -/
theorem adminFd_ne {fd : Fd} {it : Item} (hi : w.sel.fds fd = some it)
    (hne : it.handler = .mng → it.data ≠ m) : fd ≠ (w.mngMem m).fd := by
  rintro rfl
  obtain ⟨i, hi'⟩ := (h.admins m hm).own.item
  have hi' : w.sel.fds (w.mngMem m).fd = some ⟨i, .mng, m⟩ := hi'
  cases Option.some.inj (hi.symm.trans hi')
  exact hne rfl rfl

include h hm ha in
theorem aside_kept {q : Ptr} (hq : q ∈ ρ.act) : Kept w w' q := by
  have hlog : w'.g.accessLog = w.g.accessLog := (congrArg Globals.accessLog ha.g :)
  refine ⟨by rw [hlog], by rw [ha.mem], fun fd hfd => ?_⟩
  obtain ⟨⟨i, hi⟩, -⟩ := (h.own q hq).owns hfd
  exact ha.fds fd (adminFd_ne h hm hi fun he => by cases he)

include h hm ha in
theorem aside_mngKept {q : Ptr} (hq : q ∈ ρ.adm) (hne : q ≠ m) : MngKept w w' q := by
  obtain ⟨i, hi⟩ := (h.admins q hq).own.item
  obtain ⟨h1, h2⟩ := ha.fds _ (adminFd_ne h hm hi fun _ he => hne he)
  exact ⟨ha.others q hne, h1, h2⟩

include ha in
theorem aside_pending (q : Ptr) : w'.jobs = w.jobs ∧ w'.pending q = w.pending q := by
  have hd : w'.g.dnsWorker = w.g.dnsWorker := (congrArg Globals.dnsWorker ha.g :)
  have hj : w'.jobs = w.jobs := by unfold World.jobs; rw [hd]
  have hn : w'.sel.resolutionJobs = w.sel.resolutionJobs := congrArg (fun t => t.2.2) ha.sel
  refine ⟨hj, ?_⟩
  unfold World.pending
  rw [hj, hn, ha.mem]

include h ha in
theorem aside_jobs {ρ' : Roster} (hact : ρ'.act = ρ.act) : Jobs τ.prompt ρ' w' := by
  have hn : w'.sel.resolutionJobs = w.sel.resolutionJobs := congrArg (fun t => t.2.2) ha.sel
  refine ⟨?_, ?_, ?_, ?_⟩
  · rw [(aside_pending ha m).1, ha.mem, hact]
    exact h.jobs.jobs
  · rw [hn, ha.mem, hact]
    exact h.jobs.notices
  · intro q hq
    rw [(aside_pending ha q).2, ha.mem]
    exact h.jobs.tickets q (hact ▸ hq)
  · intro hτ q hq
    rw [(aside_pending ha q).2, ha.mem]
    exact h.jobs.prompt hτ q (hact ▸ hq)

include ha in
theorem aside_histories {ρ' : Roster} (hact : ρ'.act = ρ.act) : w'.histories ρ' = w.histories ρ := by
  unfold World.histories
  rw [hact, ha.mem, ha.ended]

include h ha in
theorem aside_mail {ρ' : Roster} (hact : ρ'.act = ρ.act) :
    ∃ d, w'.g.dnsWorker = some d ∧ Mail ρ' w' d := by
  obtain ⟨d, hd, hmail⟩ := h.ledgers.mail
  have hd' : w'.g.dnsWorker = w.g.dnsWorker := (congrArg Globals.dnsWorker ha.g :)
  refine ⟨d, hd'.trans hd, ?_, ?_, ?_⟩
  · rw [aside_histories ha hact]
    exact hmail.posted
  · rw [ha.mem, hact]
    exact hmail.mine
  · rw [ha.mem, hact]
    exact hmail.found

include h ha in
/-- The registry, given that the session's own item is in order or gone. -/
theorem aside_registry {ρ' : Roster} (hact : ρ'.act = ρ.act)
    (hself : ∀ it, w'.sel.fds (w.mngMem m).fd = some it →
      it.handler = .mng ∧ it.data ∈ ρ'.adm ∧ (w'.mngMem it.data).fd = (w.mngMem m).fd)
    (hadm : ∀ q ∈ ρ.adm, q ≠ m → q ∈ ρ'.adm) (hm : m ∈ ρ.adm) : Registry ρ' w' := by
  have hitem : ∀ fd it, w'.sel.fds fd = some it → it.handler ≠ .mng → w.sel.fds fd = some it := by
    intro fd it hi hh
    by_cases hfd : fd = (w.mngMem m).fd
    · rw [hfd] at hi
      exact absurd (hself it hi).1 hh
    · rw [← (ha.fds fd hfd).2]
      exact hi
  have hleft : ∀ fd it, w.sel.fds fd = some it → it.handler ≠ .mng → w'.sel.fds fd = some it := by
    intro fd it hi hh
    rw [(ha.fds fd (adminFd_ne h hm hi fun he => absurd he hh)).2]
    exact hi
  refine ⟨ha.table, fun fd it hi hh => ?_, fun fd it hi hh => ?_, fun fd it hi hh => ?_,
    fun fd hfd => ?_, fun fd hfd => ?_⟩
  · rw [ha.mem, hact]
    exact h.registry.socks5 fd it (hitem fd it hi (by rw [hh]; decide)) hh
  · by_cases hfd : fd = (w.mngMem m).fd
    · rw [hfd] at hi ⊢
      exact (hself it hi).2
    · have hi' := (ha.fds fd hfd).2 ▸ hi
      obtain ⟨h1, h2⟩ := h.registry.mng fd it hi' hh
      have hne : it.data ≠ m := fun he => hfd (by rw [← h2, he])
      rw [ha.others _ hne]
      exact ⟨hadm _ h1 hne, h2⟩
  · have hi' := hitem fd it hi (by rcases hh with hh | hh <;> rw [hh] <;> decide)
    exact (h.registry.listening fd it hi' hh).congr ha.socksFd ha.mngFd
  · rw [ha.socksFd] at hfd
    obtain ⟨it, hi, hh⟩ := h.registry.socksFd fd hfd
    exact ⟨it, hleft fd it hi (by rw [hh]; decide), hh⟩
  · rw [ha.mngFd] at hfd
    obtain ⟨it, hi, hh⟩ := h.registry.mngFd fd hfd
    exact ⟨it, hleft fd it hi (by rw [hh]; decide), hh⟩

include h ha in
theorem aside_held (hm : m ∈ ρ.adm)
    (hself : ∀ k, w'.os.fds (w.mngMem m).fd = some k → ∃ it, w'.sel.fds (w.mngMem m).fd = some it) :
    Held τ.inherited w' := by
  refine ⟨fun fd k hk => ?_, fun fd hin => ?_, ?_, ?_⟩
  · by_cases hfd : fd = (w.mngMem m).fd
    · rw [hfd] at hk ⊢
      exact Or.inr (hself k hk)
    · obtain ⟨h1, h2⟩ := ha.fds fd hfd
      rw [h2]
      exact h.held.opened fd k (h1 ▸ hk)
  · obtain ⟨hk, hu⟩ := h.held.inherited fd hin
    have hfd : fd ≠ (w.mngMem m).fd := by
      rintro rfl
      obtain ⟨i, hi⟩ := (h.admins m hm).own.item
      have hi : w.sel.fds (w.mngMem m).fd = some ⟨i, .mng, m⟩ := hi
      rw [hu] at hi
      cases hi
    obtain ⟨h1, h2⟩ := ha.fds fd hfd
    rw [h1, h2]
    exact ⟨hk, hu⟩
  · have h1 : w'.os.strayClose = w.os.strayClose := (congrArg OS.strayClose ha.os :)
    exact h1.trans h.held.stray
  · have hl : w.os.Lives { w'.os with allocated := w.os.allocated } := ha.lives
    exact hl.alive ha.os h.held.alive

end Aside

/-! ## A session that goes on -/

section Open
variable {τ : Terms} {ρ : Roster} {w : World} {m : Ptr} {c : MCtx} (h : Core τ ρ w) (hm : m ∈ ρ.adm)
  (hc : Continued τ.tidy τ.secret (w.mngCtx m) c)

theorem mngPut_mem (hself : c.self = m) : (w.mngPut c).mngMem m = c.s := by
  subst hself; exact Function.update_self _ _ _

theorem mngPut_other (hself : c.self = m) {q : Ptr} (hq : q ≠ m) :
    (w.mngPut c).mngMem q = w.mngMem q := by
  subst hself; exact Function.update_of_ne hq _ _

include hc in
theorem mngPut_aside : Aside w (w.mngPut c) m := by
  have hf := hc.good.frame
  have hself : c.self = m := hf.self
  refine {
    mem := rfl
    others := fun q hq => mngPut_other hself hq
    fds := hf.foreign
    os := ?_
    sel := hf.sel
    g := ?_
    lives := hf.lives
    socksFd := rfl
    mngFd := rfl
    ended := rfl
    table := hc.good.own.table }
  · exact (congrArg (fun o : OS => { o with allocated := w.os.allocated }) hf.os :)
  · exact (congrArg (fun g : Globals => { g with metrics := none, mngActiveSessions := 0 }) hf.g :)

include h hm hc in
/-- The process after a callback of management session `m`, which stays open. -/
theorem Core.mngPut (hw : Mng.Waiting c.s) :
    Core τ ρ (w.mngPut c) ∧ Beside (· = m) ρ ρ w (w.mngPut c) := by
  have ha := mngPut_aside hc
  have hf := hc.good.frame
  have hself : c.self = m := hf.self
  have hfd : c.s.fd = (w.mngMem m).fd := hf.fd
  have hctx : (w.mngPut c).mngCtx m = c := by
    unfold World.mngCtx
    rw [mngPut_mem hself, ← hself]
    rfl
  have hk : ∀ q ∈ ρ.act, Kept w (w.mngPut c) q := fun q hq => aside_kept h hm ha hq
  have hmk : ∀ q ∈ ρ.adm, q ≠ m → MngKept w (w.mngPut c) q := fun q hq hne =>
    aside_mngKept h hm ha hq hne
  have hitem : ∃ i, c.sel.fds (w.mngMem m).fd = some ⟨i, .mng, m⟩ := by
    rw [← hfd, ← hself]
    exact hc.good.own.item
  have hg : (w.mngPut c).g.lists = w.g.lists := (congrArg Globals.lists hf.g :)
  have hmet : (w.mngPut c).g.metrics = w.g.metrics := (congrArg Globals.metrics hf.g :)
  have hlog : (w.mngPut c).g.accessLog = w.g.accessLog := (congrArg Globals.accessLog hf.g :)
  obtain ⟨i, hi⟩ := hitem
  refine ⟨⟨h.books.congr (fun _ => rfl) (congrArg OS.allocated hf.os :) hg, ?_, ?_, fun q hq => ?_,
    aside_jobs h ha rfl, ?_, h.ended, fun q hq => ?_, hc.conversing.names, hc.conversing.key, h.left⟩,
    fun q hq _ => ⟨hq, hk q hq⟩, fun q hq hne => ⟨hq, hmk q hq hne⟩⟩
  · refine aside_registry h ha rfl (fun it hit => ?_) (fun q hq _ => hq) hm
    cases Option.some.inj (hi.symm.trans hit)
    exact ⟨rfl, hm, by rw [mngPut_mem hself]; exact hfd⟩
  · exact aside_held h ha hm fun _ _ => ⟨_, hi⟩
  · exact (hk q hq).own ha.table (h.own q hq)
  · obtain ⟨mm, log, hm', hlog', hacc⟩ := h.ledgers.accounts
    exact ⟨aside_mail h ha rfl, mm, log, hmet.trans hm', hlog.trans hlog',
      hacc.tally, hacc.accepted, hacc.admins, hacc.log⟩
  · by_cases hqm : q = m
    · subst hqm
      rw [hctx]
      exact ⟨hc.conversing.own, hc.conversing.framed, hc.conversing.vetted, hw⟩
    · exact (hmk q hq hqm).admin ha.table (h.admins q hq)

end Open

/-! ## A session that is closed -/

/-- The objects after management session `m` is gone. -/
def Roster.dismiss (ρ : Roster) (m : Ptr) : Roster := { ρ with adm := ρ.adm.erase m }

theorem dismiss_perm {ρ : Roster} {m : Ptr} (hm : m ∈ ρ.adm) : ρ.all.Perm (m :: (ρ.dismiss m).all) := by
  unfold Roster.all Roster.dismiss
  exact ((List.perm_cons_erase hm).append_left _).trans List.perm_middle

theorem Books.adminNodup {ρ : Roster} {w : World} (h : Books ρ w) : ρ.adm.Nodup :=
  (List.nodup_append.mp h.nodup).2.1

/-- Objects that have a descriptor each are not many. -/
theorem Table.few {os : OS} {sel : Selector} (h : Table os sel) {l : List Ptr} (hl : l.Nodup)
    {f : Ptr → Fd} {k : Handler} (hf : ∀ p ∈ l, ∃ i, sel.fds (f p) = some ⟨i, k, p⟩) :
    l.length ≤ itemsMaxSize := by
  have hnodup : (l.map f).Nodup := by
    refine List.Nodup.map_on (fun p hp q hq he => ?_) hl
    obtain ⟨i, hi⟩ := hf p hp
    obtain ⟨j, hj⟩ := hf q hq
    rw [he] at hi
    exact congrArg Item.data (Option.some.inj (hi.symm.trans hj))
  have hsub : l.map f ⊆ List.range itemsMaxSize := by
    intro fd hfd
    obtain ⟨p, hp, rfl⟩ := List.mem_map.mp hfd
    obtain ⟨i, hi⟩ := hf p hp
    have hv := h.valid _ _ hi
    unfold invalidFd at hv
    simp only [decide_eq_false_iff_not, Nat.not_le] at hv
    exact List.mem_range.mpr hv
  have := (List.subperm_of_subset hnodup hsub).length_le
  simpa using this

theorem Core.admins_few {τ : Terms} {ρ : Roster} {w : World} (h : Core τ ρ w) :
    ρ.adm.length ≤ itemsMaxSize :=
  h.registry.table.few h.books.adminNodup fun m hm => (h.admins m hm).own.item

theorem Core.sessions_few {τ : Terms} {ρ : Roster} {w : World} (h : Core τ ρ w) :
    ρ.act.length ≤ itemsMaxSize :=
  h.registry.table.few h.books.actNodup fun p hp => (h.own p hp).client.1

theorem metrics_close {a : UInt64} {n : Nat} (hn : 0 < n) (hle : n ≤ itemsMaxSize)
    (ha : a = UInt64.ofNat n) (m : Metrics) (hm : m.adminSessions = a) :
    m.metricsAdminSessionClose.adminSessions = UInt64.ofNat (n - 1) ∧
      { m.metricsAdminSessionClose with adminSessions := 0 } = { m with adminSessions := 0 } := by
  have hlt : n < 2 ^ 64 := by unfold itemsMaxSize at hle; omega
  have hpos : m.adminSessions > 0 := by
    rw [hm, ha]
    show (0 : UInt64) < UInt64.ofNat n
    rw [UInt64.lt_iff_toNat_lt, UInt64.toNat_ofNat_of_lt' hlt]
    exact hn
  unfold Metrics.metricsAdminSessionClose
  rw [if_pos hpos]
  refine ⟨?_, rfl⟩
  show m.adminSessions - 1 = _
  rw [hm, ha, UInt64.ofNat_sub hn]
  rfl

section Closed
variable {τ : Terms} {ρ : Roster} {w : World} {m : Ptr} {c : MCtx} (h : Core τ ρ w) (hm : m ∈ ρ.adm)
  (hc : Continued τ.tidy τ.secret (w.mngCtx m) c)

include h hm hc in
/-- The process after management session `m` was closed. -/
theorem Core.mngClosed :
    (Mng.unregister c.s.fd c).s.closedWith.isSome = true ∧
    Core τ (ρ.dismiss m) { w.mngPut (Mng.unregister c.s.fd c) with
        mngEnded := w.mngEnded ++ [(Mng.unregister c.s.fd c).s] } ∧
      Beside (· = m) ρ (ρ.dismiss m) w { w.mngPut (Mng.unregister c.s.fd c) with
        mngEnded := w.mngEnded ++ [(Mng.unregister c.s.fd c).s] } := by
  have hf := hc.good.frame
  have hself : c.self = m := hf.self
  have hfd : c.s.fd = (w.mngMem m).fd := hf.fd
  obtain ⟨k, hk⟩ := hc.good.own.sock
  have hun := Mng.unregister_eq hc.good.own hk
  have hdone := hc.conversing.framed k hk
  rw [hun]
  have hperm := dismiss_perm hm
  have hnot := (List.nodup_cons.mp (hperm.nodup_iff.mp h.books.nodup)).1
  have halloc : c.os.allocated = w.os.allocated := (congrArg OS.allocated hf.os :)
  have hmine : (c.os.close c.s.fd).allocated c.self = true := by
    show c.os.allocated c.self = true
    rw [halloc, hself]
    exact (h.books.allocated m).mpr (List.mem_append_right _ hm)
  obtain ⟨hfree, hkill, hfreed, hfstill⟩ := still_free hmine
  let w' : World := { w.mngPut {
        self := c.self
        s := { c.s with closedWith := some k }
        os := (c.os.close c.s.fd).free c.self
        sel := c.sel.dropItem c.s.fd
        g := { c.g with
          mngActiveSessions := c.g.mngActiveSessions - 1
          metrics := c.g.metrics.map Metrics.metricsAdminSessionClose } } with
      mngEnded := w.mngEnded ++ [{ c.s with closedWith := some k }] }
  have hclosed : w'.os.fds (w.mngMem m).fd = none ∧ w'.sel.fds (w.mngMem m).fd = none := by
    rw [← hfd]
    refine ⟨?_, dropItem_self _ _⟩
    show ((c.os.close c.s.fd).free c.self).fds c.s.fd = none
    rw [hfree]
    exact Function.update_self _ _ _
  have ha : Aside w w' m := by
    refine {
      mem := rfl
      others := fun q hq => Function.update_of_ne (by rw [hself]; exact hq) _ _
      fds := fun fd hne => ?_
      os := ?_
      sel := hf.sel
      g := (congrArg (fun g : Globals => { g with metrics := none, mngActiveSessions := 0 }) hf.g :)
      lives := ?_
      socksFd := rfl
      mngFd := rfl
      ended := rfl
      table := (hc.good.own.table.close c.s.fd).congr hfree }
    · have hne' : fd ≠ c.s.fd := by rw [hfd]; exact hne
      obtain ⟨h1, h2⟩ := hf.foreign fd hne
      refine ⟨?_, (dropItem_other hne').trans h2⟩
      show ((c.os.close c.s.fd).free c.self).fds fd = _
      rw [hfree]
      exact (Function.update_of_ne hne' _ _).trans h1
    · have h1 : ({ (c.os.close c.s.fd).free c.self with allocated := w.os.allocated } : OS).still =
          ({ c.os.close c.s.fd with allocated := w.os.allocated } : OS).still := by
        rw [← halloc]
        exact hfstill
      have h2 := congrArg (fun o : OS => { o with allocated := w.os.allocated })
        ((still_close hk).trans hf.os)
      exact h1.trans h2
    · rcases hf.lives with hl | ⟨hp, hl⟩
      · exact Or.inl (hkill.trans hl)
      · exact Or.inr ⟨hp, hkill.trans hl⟩
  have hbooks := h.books
  have hkept : ∀ q ∈ ρ.act, Kept w w' q := fun q hq => aside_kept h hm ha hq
  have hmk : ∀ q ∈ ρ.adm, q ≠ m → MngKept w w' q := fun q hq hne =>
    aside_mngKept h hm ha hq hne
  have hadm : ∀ {q}, q ∈ (ρ.dismiss m).adm → q ∈ ρ.adm ∧ q ≠ m := fun {q} hq =>
    ⟨List.mem_of_mem_erase hq, fun he => hbooks.adminNodup.not_mem_erase (he ▸ hq)⟩
  have hactive : c.g.mngActiveSessions = w.g.mngActiveSessions :=
    (congrArg Globals.mngActiveSessions hf.g :)
  refine ⟨rfl, ⟨?_, ?_, ?_, fun q hq => (hkept q hq).own ha.table (h.own q hq),
    aside_jobs h ha rfl, ?_, h.ended, fun q hq => ?_, hc.conversing.names, hc.conversing.key,
    fun s hs => ?_⟩, fun q hq _ => ⟨hq, hkept q hq⟩,
    fun q hq hne => ⟨(List.mem_erase_of_ne hne).mpr hq, hmk q hq hne⟩⟩
  · refine {
      nodup := (List.nodup_cons.mp (hperm.nodup_iff.mp hbooks.nodup)).2
      allocated := fun q => ?_
      linked := ?_
      active := ?_
      chain := ?_
      pool := ?_
      poolMax := hbooks.poolMax
      admins := ?_ }
    · show ((c.os.close c.s.fd).free c.self).allocated q = true ↔ _
      rw [hfreed, hself]
      by_cases hq : q = m
      · subst hq
        rw [Function.update_self]
        exact ⟨fun he => (by cases he), fun he => absurd he hnot⟩
      · rw [Function.update_of_ne hq]
        show c.os.allocated q = true ↔ _
        rw [halloc, hbooks.allocated q, hperm.mem_iff, List.mem_cons]
        exact ⟨fun he => he.resolve_left hq, Or.inr⟩
    · have h1 : w'.g.activeHead = w.g.activeHead := (congrArg Globals.activeHead hf.g :)
      rw [h1]
      exact hbooks.linked
    · have h1 : w'.g.activeSessions = w.g.activeSessions := (congrArg Globals.activeSessions hf.g :)
      exact h1.trans hbooks.active
    · have h1 : w'.g.pool = w.g.pool := (congrArg Globals.pool hf.g :)
      rw [h1]
      exact hbooks.chain
    · have h1 : w'.g.poolSize = w.g.poolSize := (congrArg Globals.poolSize hf.g :)
      exact h1.trans hbooks.pool
    · show c.g.mngActiveSessions - 1 = (ρ.adm.erase m).length
      rw [hactive, hbooks.admins, List.length_erase_of_mem hm]
  · refine aside_registry h ha rfl (fun it hit => ?_)
      (fun q hq hne => (List.mem_erase_of_ne hne).mpr hq) hm
    rw [hclosed.2] at hit
    cases hit
  · refine aside_held h ha hm fun k hk => ?_
    rw [hclosed.1] at hk
    cases hk
  · obtain ⟨mm, log, hmet, hlog, hacc⟩ := h.ledgers.accounts
    have hmet' : w'.g.metrics = some mm.metricsAdminSessionClose := by
      have h1 : c.g.metrics = w.g.metrics := (congrArg Globals.metrics hf.g :)
      show c.g.metrics.map Metrics.metricsAdminSessionClose = _
      rw [h1, hmet]
      rfl
    have hlog' : w'.g.accessLog = some log := (congrArg Globals.accessLog hf.g :).trans hlog
    obtain ⟨hnum, hrest⟩ := metrics_close (List.length_pos_of_mem hm) h.admins_few hacc.admins mm rfl
    have hfield : ∀ f : Metrics → UInt64, (∀ x : Metrics, f { x with adminSessions := 0 } = f x) →
        f mm.metricsAdminSessionClose = f mm := fun f hfx => by
      rw [← hfx, hrest, hfx]
    refine ⟨aside_mail h ha rfl, _, log, hmet', hlog', ⟨?_, ?_, ?_, ?_, ?_⟩, ?_, ?_, ?_⟩
    · rw [hfield (·.originOk) fun _ => rfl]; exact hacc.tally.originOk
    · rw [hfield (·.originFail) fun _ => rfl]; exact hacc.tally.originFail
    · rw [hfield (·.authFail) fun _ => rfl]; exact hacc.tally.authFail
    · rw [hfield (·.bytesC2o) fun _ => rfl]; exact hacc.tally.bytesC2o
    · rw [hfield (·.bytesO2c) fun _ => rfl]; exact hacc.tally.bytesO2c
    · rw [hfield (·.connAccepted) fun _ => rfl, hfield (·.connClosed) fun _ => rfl]
      exact hacc.accepted
    · rw [hnum]
      show _ = UInt64.ofNat (ρ.adm.erase m).length
      rw [List.length_erase_of_mem hm]
    · exact hacc.log
  · obtain ⟨hq, hne⟩ := hadm hq
    exact (hmk q hq hne).admin ha.table (h.admins q hq)
  · rcases List.mem_append.mp hs with hs | hs
    · exact h.left s hs
    · cases List.mem_singleton.mp hs
      obtain ⟨done, hrx, hfr⟩ := hdone
      exact ⟨hc.conversing.vetted.congr rfl rfl, k, rfl, done, hrx, hfr.read, hfr.sent,
        hfr.tooLong⟩

end Closed

/-! ## The callback as a step -/

theorem Core.conversing {τ : Terms} {ρ : Roster} {w : World} {m : Ptr} (h : Core τ ρ w)
    (hm : m ∈ ρ.adm) : Conversing τ.tidy τ.secret (w.mngCtx m) := by
  have ha := h.admins m hm
  exact ⟨ha.own, ha.framed, ha.vetted, h.names, h.secret⟩

theorem Books.session_ne {ρ : Roster} {w : World} (h : Books ρ w) {p m : Ptr} (hp : p ∈ ρ.act)
    (hm : m ∈ ρ.adm) : p ≠ m :=
  (List.nodup_append.mp h.nodup).2.2 p (List.mem_append_left _ hp) m hm

/-- `mng_read` or `mng_write` of management session `m`. -/
theorem Inv.runMng {τ : Terms} {ρ : Roster} {w : World} {m : Ptr} {callback : MCtx → MCtx}
    (h : Inv τ ρ w) (hcalm : AllCalm ρ w) (hm : m ∈ ρ.adm)
    (hs : Mng.Served τ.tidy τ.secret (w.mngCtx m) (callback (w.mngCtx m))) :
    ∃ ρ', Stepped τ (· = m) 0 ρ ρ' w (w.runMng m callback) := by
  -- the sessions, for either outcome
  have hout : ∀ {ρ' : Roster} {w' : World}, Core τ ρ' w' → Beside (· = m) ρ ρ' w w' →
      ρ'.act = ρ.act → Inv τ ρ' w' ∧ AllCalm ρ' w' := by
    intro ρ' w' hcore hbeside hact
    have hkept : ∀ q ∈ ρ'.act, q ∈ ρ.act ∧ Kept w w' q := fun q hq => by
      rw [hact] at hq
      exact ⟨hq, (hbeside.sessions q hq (h.books.session_ne hq hm)).2⟩
    refine ⟨⟨hcore, fun q hq => ?_⟩, fun q hq => ?_⟩
    · rw [(hkept q hq).2.view]
      exact h.reached q (hkept q hq).1
    · exact (hkept q hq).2.calm (hcalm q (hkept q hq).1)
  obtain ⟨c, hc, hcase⟩ := hs
  have hself : c.self = m := hc.good.frame.self
  have htalk : ∀ {c' : MCtx}, c'.self = m → c'.s.hist = c.s.hist → ∀ q,
      (w.mngMem q).hist <+: ((w.mngPut c').mngMem q).hist := by
    intro c' hs' hh q
    by_cases hq : q = m
    · subst hq
      rw [mngPut_mem hs', hh]
      exact hc.hist
    · exact (congrArg MngSession.hist (mngPut_other hs' hq)).symm ▸ List.prefix_refl _
  have hset : ∀ {c' : MCtx}, c'.self = m → c'.s.hist = c.s.hist → c'.g.users = c.g.users →
      c'.g.config = c.g.config →
      c'.g.users = w.g.users ∧ c'.g.config = w.g.config ∨
        ∃ q, q = m ∧
          Mng.Commanded τ.secret (w.mngMem q).hist ((w.mngPut c').mngMem q).hist := by
    intro c' hs' hh hu hcfg
    rcases hc.ruled with hg | hg
    · exact Or.inl ⟨hu.trans (congrArg Globals.users hg), hcfg.trans (congrArg Globals.config hg)⟩
    · refine Or.inr ⟨m, rfl, ?_⟩
      rw [mngPut_mem hs', hh]
      exact hg
  unfold World.runMng
  rcases hcase with ⟨he, hw⟩ | he
  · have hopen : c.s.closedWith.isSome = false := by rw [hc.conversing.own.opened]; rfl
    obtain ⟨hcore, hbeside⟩ := h.toCore.mngPut hm hc hw
    obtain ⟨h1, h2⟩ := hout hcore hbeside rfl
    simp only [he, hopen, Bool.false_eq_true, if_false]
    exact ⟨ρ, h1, h2, hbeside, Nat.le_refl _, fun _ => ⟨.refl _, .refl _⟩,
      fun _ => htalk hself rfl, hset hself rfl rfl rfl⟩
  · obtain ⟨hclosed, hcore, hbeside⟩ := h.toCore.mngClosed hm hc
    obtain ⟨h1, h2⟩ := hout hcore hbeside rfl
    obtain ⟨k, hk⟩ := hc.good.own.sock
    have hun := Mng.unregister_eq hc.good.own hk
    have hself' : (Mng.unregister c.s.fd c).self = m := by rw [hun]; exact hself
    have hh : (Mng.unregister c.s.fd c).s.hist = c.s.hist := by rw [hun]
    have hu : (Mng.unregister c.s.fd c).g.users = c.g.users := by rw [hun]
    have hcfg : (Mng.unregister c.s.fd c).g.config = c.g.config := by rw [hun]
    simp only [he, hclosed, if_true]
    exact ⟨ρ.dismiss m, h1, h2, hbeside, Nat.le_refl _, fun _ => ⟨.refl _, List.erase_sublist⟩,
      fun _ => htalk hself' hh, hset hself' hh hu hcfg⟩

end Socks5d
