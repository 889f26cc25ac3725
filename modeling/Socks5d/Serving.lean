import Socks5d.Roster

/-! # A callback of a session, seen from the process

A callback works on its own session only: the lists, the other sessions and the
management sessions stay as they are, and the process is in good order again. -/
namespace Socks5d
open Ctx Lib.Links

/-! ## Parts of the state that most steps leave alone -/

/-- A session's places in lists. -/
def Socks5.places (s : Socks5) : Option Ptr × Option Ptr × Option Ptr :=
  (s.next, s.activePrev, s.activeNext)

def Globals.lists (g : Globals) : Option Ptr × Nat × Option Ptr × Nat × Nat :=
  (g.pool, g.poolSize, g.activeHead, g.activeSessions, g.mngActiveSessions)

theorem Books.congr {ρ : Roster} {w w' : World} (h : Books ρ w)
    (hm : ∀ q, (w'.mem q).places = (w.mem q).places) (ha : w'.os.allocated = w.os.allocated)
    (hg : w'.g.lists = w.g.lists) : Books ρ w' where
  nodup := h.nodup
  allocated := by rw [ha]; exact h.allocated
  linked := by
    have h1 : w'.g.activeHead = w.g.activeHead := congrArg (fun t => t.2.2.1) hg
    rw [h1]
    exact h.linked.congr fun p _ =>
      ⟨congrArg (fun t => t.2.2) (hm p), congrArg (fun t => t.2.1) (hm p)⟩
  active := (congrArg (fun t => t.2.2.2.1) hg).trans h.active
  chain := by
    have h1 : w'.g.pool = w.g.pool := congrArg (fun t => t.1) hg
    rw [h1]
    exact h.chain.congr fun p _ => congrArg (fun t => t.1) (hm p)
  pool := (congrArg (fun t => t.2.1) hg).trans h.pool
  poolMax := h.poolMax
  admins := (congrArg (fun t => t.2.2.2.2) hg).trans h.admins

theorem MngKept.admin {tidy : Prop} {secret : Option Bytes} {w w' : World} {m : Ptr}
    (h : MngKept w w' m) (ht : Table w'.os w'.sel) (ha : Attended tidy secret (w.mngCtx m)) :
    Attended tidy secret (w'.mngCtx m) := by
  refine ⟨⟨?_, ?_, ht, ?_⟩, ?_, ?_, ?_⟩
  · show ∃ i, w'.sel.fds (w'.mngMem m).fd = some ⟨i, .mng, m⟩
    rw [h.mem, h.item]; exact ha.own.item
  · show ∃ k, w'.os.fds (w'.mngMem m).fd = some k
    rw [h.mem, h.sock]; exact ha.own.sock
  · show (w'.mngMem m).closedWith = none
    rw [h.mem]; exact ha.own.opened
  · show ∀ k, w'.os.fds (w'.mngMem m).fd = some k → Framed (w'.mngMem m) k
    rw [h.mem, h.sock]; exact ha.framed
  · show Mng.Vetted tidy secret (w'.mngMem m)
    rw [h.mem]; exact ha.vetted
  · show Mng.Waiting (w'.mngMem m)
    rw [h.mem]; exact ha.waiting

/-! ## The frame of a callback -/

/-- What is registered for another object is left alone. -/
theorem Frame.leaves {c c' : SCtx} (hc : Own c) (hf : Frame c c') {fd : Fd} {it : Item}
    (hi : c.sel.fds fd = some it) (hne : it.handler = .socks5 → it.data ≠ c.self) :
    c'.os.fds fd = c.os.fds fd ∧ c'.sel.fds fd = c.sel.fds fd := by
  have hitem : ∀ g, Owns c g → g ≠ fd := by
    rintro g ⟨⟨i, hi'⟩, -⟩ rfl
    cases Option.some.inj (hi.symm.trans hi')
    exact hne rfl rfl
  refine hf.foreign fd (fun he => hitem _ hc.client he.symm)
    (fun ho => hitem _ (hc.origin fd ho) rfl) fun ho => ?_
  rcases hf.fresh fd ho with h | ⟨h, -⟩
  · exact hitem _ (hc.origin fd h) rfl
  · exact absurd (hi.symm.trans (hc.table.unregistered h)) (by simp)

/-- What a callback of session `p` starts from: the process as it is, or with a
notification and its result already taken. -/
structure Base (w : World) (p : Ptr) (c : SCtx) (taken : List Obs) (notices : List Fd) : Prop where
  self : c.self = p
  os : c.os = w.os
  g : c.g = w.g
  fds : c.sel.fds = w.sel.fds
  still : c.s.still = (w.mem p).still
  origin : c.s.originFd = (w.mem p).originFd
  hist : c.s.hist = (w.mem p).hist ++ taken
  plain : taken = [] ∨ ∃ found, taken = [.dnsConsumed found]
  had : ∀ found, .dnsConsumed found ∈ taken → ∀ d, w.g.dnsWorker = some d →
    ∃ k ∈ tickets (w.mem p).hist, ∃ job, d.resolved[k]? = some (job, found)
  jobs : w.sel.resolutionJobs = notices ++ c.sel.resolutionJobs
  mine : notices = List.replicate (consumptions taken) (w.mem p).clientFd

theorem Base.refl (w : World) (p : Ptr) : Base w p (w.ctx p) [] [] where
  self := rfl
  os := rfl
  g := rfl
  fds := rfl
  still := rfl
  origin := rfl
  hist := (List.append_nil _).symm
  plain := Or.inl rfl
  had := fun _ hm => by cases hm
  jobs := rfl
  mine := rfl

theorem Books.actNodup {ρ : Roster} {w : World} (h : Books ρ w) : ρ.act.Nodup :=
  (List.nodup_append.mp (List.nodup_append.mp h.nodup).1).1

/-- No two sessions share a client descriptor. -/
theorem Core.client_inj {τ : Terms} {ρ : Roster} {w : World} (h : Core τ ρ w) {p q : Ptr}
    (hp : p ∈ ρ.act) (hq : q ∈ ρ.act) (he : (w.mem p).clientFd = (w.mem q).clientFd) : p = q := by
  obtain ⟨⟨i, hi⟩, -⟩ := (h.own p hp).client
  obtain ⟨⟨j, hj⟩, -⟩ := (h.own q hq).client
  have hi : w.sel.fds (w.mem p).clientFd = some ⟨i, .socks5, p⟩ := hi
  have hj : w.sel.fds (w.mem q).clientFd = some ⟨j, .socks5, q⟩ := hj
  rw [he] at hi
  exact congrArg Item.data (Option.some.inj (hi.symm.trans hj))

/-- The history of a session grows, on the list of all histories. -/
theorem histories_grow {ρ : Roster} {w w' : World} {p : Ptr} {l : List Obs} (hn : ρ.act.Nodup)
    (hp : p ∈ ρ.act) (hl : (w'.mem p).hist = (w.mem p).hist ++ l)
    (ho : ∀ q ∈ ρ.act, q ≠ p → (w'.mem q).hist = (w.mem q).hist) (he : w'.ended = w.ended) :
    Grown (w.mem p).hist (w.histories ρ) (w'.histories ρ) l := by
  have hperm := List.perm_cons_erase hp
  have herase : ((ρ.act.erase p).map fun q => (w'.mem q).hist) =
      (ρ.act.erase p).map fun q => (w.mem q).hist :=
    List.map_congr_left fun q hm =>
      ho q (List.mem_of_mem_erase hm) fun hqp => hn.not_mem_erase (hqp ▸ hm)
  refine ⟨((ρ.act.erase p).map fun q => (w.mem q).hist) ++ w.ended.map fun e => e.s.hist, ?_, ?_⟩
  · exact (hperm.map _).append_right _
  · unfold World.histories
    rw [he, ← hl, ← herase]
    exact (hperm.map _).append_right _

section Put
variable {τ : Terms} {ρ : Roster} {w : World} {p : Ptr} {c c' : SCtx} {taken : List Obs}
  {notices : List Fd}

theorem put_mem (hself : c'.self = p) : (w.put c').mem p = c'.s := by
  subst hself; exact Function.update_self _ _ _

theorem put_mem_other (hself : c'.self = p) {q : Ptr} (hq : q ≠ p) : (w.put c').mem q = w.mem q := by
  subst hself; exact Function.update_of_ne hq _ _

variable (h : Core τ ρ w) (hp : p ∈ ρ.act) (hb : Base w p c taken notices) (ho : Own c)
  (hg : Good c c')

include hb hg in
theorem put_self : c'.self = p := hg.frame.self.trans hb.self

include hb hg in
theorem put_still : c'.s.still = (w.mem p).still := hg.frame.still.trans hb.still

include hb ho hg in
/-- What is registered for another object is left alone. -/
theorem put_leaves {fd : Fd} {it : Item} (hi : w.sel.fds fd = some it)
    (hne : it.handler = .socks5 → it.data ≠ p) :
    (w.put c').os.fds fd = w.os.fds fd ∧ (w.put c').sel.fds fd = w.sel.fds fd := by
  rw [← hb.fds] at hi
  obtain ⟨h1, h2⟩ := hg.frame.leaves ho hi fun he => by rw [hb.self]; exact hne he
  exact ⟨h1.trans (by rw [hb.os]), h2.trans (by rw [hb.fds])⟩

include hb hg in
theorem put_logging : (w.put c').g.accessLog.isSome = w.g.accessLog.isSome := by
  obtain ⟨l, js, hpast⟩ := hg.frame.past
  show c'.g.accessLog.isSome = _
  rw [hpast.log, Option.isSome_map, hb.g]

include h hb ho hg in
theorem put_kept {q : Ptr} (hq : q ∈ ρ.act) (hne : q ≠ p) : Kept w (w.put c') q := by
  have hs := h.own q hq
  refine ⟨put_logging hb hg, by rw [put_mem_other (put_self hb hg) hne], fun fd hfd => ?_⟩
  obtain ⟨⟨i, hi⟩, -⟩ := hs.owns hfd
  exact put_leaves hb ho hg hi fun _ he => hne he

include h hb ho hg in
theorem put_mngKept {m : Ptr} (hm : m ∈ ρ.adm) : MngKept w (w.put c') m := by
  obtain ⟨i, hi⟩ := (h.admins m hm).own.item
  obtain ⟨h1, h2⟩ := put_leaves hb ho hg hi fun he => by cases he
  exact ⟨rfl, h1, h2⟩

include h hb hg in
theorem put_books : Books ρ (w.put c') := by
  have hos : c'.os.still = w.os.still := hg.frame.os.trans (by rw [hb.os])
  have hgs : c'.g.still = w.g.still := hg.frame.g.trans (by rw [hb.g])
  refine h.books.congr (fun q => ?_) (congrArg OS.allocated hos :) ?_
  · by_cases hq : q = p
    · subst hq
      rw [put_mem (put_self hb hg)]
      have h1 : c'.s.still = (w.mem q).still := put_still hb hg
      exact (congrArg (fun t : Fd × Option Ptr × Option Ptr × Option Ptr × Int × Bool ×
        List SockAddr => (t.2.1, t.2.2.1, t.2.2.2.1)) h1 :)
    · rw [put_mem_other (put_self hb hg) hq]
  · exact (congrArg Globals.lists hgs :)

include h hb hg in
/-- Every item after the callback is the session's, or was there before. -/
theorem put_item {fd : Fd} {it : Item} (hi : c'.sel.fds fd = some it) :
    (it.handler = .socks5 ∧ it.data = p ∧ Mine c' fd) ∨
      w.sel.fds fd = some it ∧ (it.handler = .socks5 → it.data ≠ p) := by
  have hf := hg.frame
  by_cases hm : Mine c' fd
  · obtain ⟨⟨i, hi'⟩, -⟩ := hg.own.owns hm
    cases Option.some.inj (hi.symm.trans hi')
    exact Or.inl ⟨rfl, put_self hb hg, hm⟩
  · have hm1 : fd ≠ c.s.clientFd := fun he => hm (Or.inl (he.trans hf.clientFd.symm))
    have hm2 : c'.s.originFd ≠ some fd := fun he => hm (Or.inr he)
    have hm3 : c.s.originFd ≠ some fd := fun he => by
      rw [(hf.dropped fd he hm2).2] at hi; cases hi
    have hsame := (hf.foreign fd hm1 hm3 hm2).2
    rw [hb.fds] at hsame
    have hi' : w.sel.fds fd = some it := hsame ▸ hi
    refine Or.inr ⟨hi', fun hh hd => ?_⟩
    rcases (h.registry.socks5 fd it hi' hh).2 with he | he
    · rw [hd] at he
      exact hm1 (he.trans (Socks5.still_clientFd hb.still).symm)
    · rw [hd, ← hb.origin] at he
      exact hm3 he

include h hp hb ho hg in
theorem put_registry : Registry ρ (w.put c') := by
  have hself := put_self hb hg
  have hleft : ∀ fd it, w.sel.fds fd = some it → it.handler ≠ .socks5 →
      (w.put c').sel.fds fd = some it := fun fd it hi hh => by
    rw [← hi]
    exact (put_leaves hb ho hg hi fun he => absurd he hh).2
  refine ⟨hg.own.table, fun fd it hi hh => ?_, fun fd it hi hh => ?_, fun fd it hi hh => ?_,
    fun fd hfd => ?_, fun fd hfd => ?_⟩
  · rcases put_item h hb hg hi with ⟨-, hd, hm⟩ | ⟨hi', hd⟩
    · rw [hd, put_mem hself]
      exact ⟨hp, hm⟩
    · rw [put_mem_other hself (hd hh)]
      exact h.registry.socks5 fd it hi' hh
  · rcases put_item h hb hg hi with ⟨hs, -⟩ | ⟨hi', -⟩
    · rw [hs] at hh; cases hh
    · exact h.registry.mng fd it hi' hh
  · rcases put_item h hb hg hi with ⟨hs, -⟩ | ⟨hi', -⟩
    · rw [hs] at hh; rcases hh with hh | hh <;> cases hh
    · exact (h.registry.listening fd it hi' hh).congr rfl rfl
  · obtain ⟨it, hi, hh⟩ := h.registry.socksFd fd hfd
    exact ⟨it, hleft fd it hi (by rw [hh]; decide), hh⟩
  · obtain ⟨it, hi, hh⟩ := h.registry.mngFd fd hfd
    exact ⟨it, hleft fd it hi (by rw [hh]; decide), hh⟩

include h hb ho hg in
theorem put_held : Held τ.inherited (w.put c') := by
  have hf := hg.frame
  have hforeign : ∀ fd, ¬Mine c' fd → c.s.originFd ≠ some fd →
      (w.put c').os.fds fd = w.os.fds fd ∧ (w.put c').sel.fds fd = w.sel.fds fd := by
    intro fd hm hor
    obtain ⟨h1, h2⟩ := hf.foreign fd (fun he => hm (Or.inl (he.trans hf.clientFd.symm))) hor
      fun he => hm (Or.inr he)
    exact ⟨h1.trans (by rw [hb.os]), h2.trans (by rw [hb.fds])⟩
  have hos : c'.os.still = w.os.still := hf.os.trans (by rw [hb.os])
  refine ⟨fun fd k hk => ?_, fun fd hin => ?_, ?_, ?_⟩
  · by_cases hm : Mine c' fd
    · obtain ⟨⟨i, hi⟩, -⟩ := hg.own.owns hm
      exact Or.inr ⟨_, hi⟩
    · have hor : c.s.originFd ≠ some fd := fun he => by
        have hk : c'.os.fds fd = some k := hk
        rw [(hf.dropped fd he fun h' => hm (Or.inr h')).1] at hk
        cases hk
      obtain ⟨h1, h2⟩ := hforeign fd hm hor
      rw [h2]
      exact h.held.opened fd k (h1 ▸ hk)
  · obtain ⟨⟨k, hk⟩, hu⟩ := h.held.inherited fd hin
    have hnot : ∀ g, Owns c g → g ≠ fd := by
      rintro g ⟨⟨i, hi⟩, -⟩ rfl
      rw [hb.fds, hu] at hi
      cases hi
    have hor : c.s.originFd ≠ some fd := fun he => hnot fd (ho.origin fd he) rfl
    have hm : ¬Mine c' fd := by
      rintro (he | he)
      · exact hnot _ ho.client (he.trans hf.clientFd).symm
      · rcases hf.fresh fd he with h1 | ⟨h1, -⟩
        · exact hor h1
        · rw [hb.os, hk] at h1; cases h1
    obtain ⟨h1, h2⟩ := hforeign fd hm hor
    rw [h1, h2]
    exact ⟨⟨k, hk⟩, hu⟩
  · exact ((OS.mk.inj hos).2.2.2.2.2.2.2.2.2.2.2).trans h.held.stray
  · have hl : w.os.Lives c'.os := by rw [← hb.os]; exact hf.lives
    exact hl.alive hos h.held.alive

include hb hg in
/-- What the callback added to the history, and the jobs it handed over. -/
theorem put_past : ∃ l js, Past c c' l js ∧
    ((w.put c').mem p).hist = (w.mem p).hist ++ (taken ++ l) := by
  obtain ⟨l, js, hl⟩ := hg.frame.past
  refine ⟨l, js, hl, ?_⟩
  rw [put_mem (put_self hb hg), hl.hist, hb.hist, List.append_assoc]

include hb in
theorem taken_submissions : submissions taken = 0 := by
  rcases hb.plain with rfl | ⟨found, rfl⟩ <;> rfl

include hb in
theorem taken_tickets : tickets taken = [] := by
  rcases hb.plain with rfl | ⟨found, rfl⟩ <;> rfl

include hb in
theorem taken_charge : charge taken = id := by
  rcases hb.plain with rfl | ⟨found, rfl⟩ <;> rfl

include hb in
theorem taken_records : records taken = [] := by
  rcases hb.plain with rfl | ⟨found, rfl⟩ <;> rfl

/-- The jobs after more of them were handed over. -/
theorem jobs_submit {js : List DnsJob}
    (hd : c'.g.dnsWorker = w.g.dnsWorker.map fun w =>
      { w with queue := w.queue ++ js, submitted := w.submitted ++ js }) :
    (∀ j ∈ (w.put c').jobs, j ∈ w.jobs ∨ w.g.dnsWorker ≠ none ∧ j ∈ js) ∧
      ∀ P : DnsJob → Bool, w.g.dnsWorker ≠ none →
        (w.put c').jobs.countP P = w.jobs.countP P + js.countP P := by
  unfold World.jobs
  rw [show (w.put c').g.dnsWorker = c'.g.dnsWorker from rfl, hd]
  cases w.g.dnsWorker with
  | none => simp
  | some d =>
    simp only [Option.map_some]
    refine ⟨fun j hj => ?_, fun P _ => ?_⟩
    · simp only [List.mem_append] at hj ⊢
      rcases hj with (hj | hj) | hj
      · exact Or.inl (Or.inl hj)
      · exact Or.inr ⟨by simp, hj⟩
      · exact Or.inl (Or.inr hj)
    · simp only [List.countP_append]
      omega

include h hp hb hg in
theorem put_jobs : Jobs τ.prompt ρ (w.put c') := by
  have hself := put_self hb hg
  obtain ⟨l, js, hpast, hhist⟩ := put_past hb hg
  obtain ⟨d, hd, -⟩ := h.ledgers.mail
  have hdns := hpast.dns
  rw [hb.g] at hdns
  obtain ⟨hmem, hcount⟩ := jobs_submit hdns
  have hcount := fun P => hcount P (by rw [hd]; simp)
  have hclient : c'.s.clientFd = (w.mem p).clientFd := Socks5.still_clientFd (put_still hb hg)
  have hnote : w.sel.resolutionJobs = notices ++ (w.put c').sel.resolutionJobs := by
    rw [hb.jobs]
    exact congrArg (notices ++ ·) (congrArg (fun t => t.2.2) hg.frame.sel).symm
  have hfd : ∀ q, ((w.put c').mem q).clientFd = (w.mem q).clientFd := fun q => by
    by_cases hq : q = p
    · subst hq; rw [put_mem hself, hclient]
    · rw [put_mem_other hself hq]
  have htarget : ∀ j ∈ js, j.target = p := fun j hj => (hpast.jobs j hj).1.trans hb.self
  -- what the callback did to the counts of its own session
  have hmine : (w.put c').pending p + consumptions taken = w.pending p + js.length := by
    have hj : js.countP (fun j => j.target = p) = js.length :=
      List.countP_eq_length.mpr fun j hj => by simpa using htarget j hj
    have hn : notices.count (w.mem p).clientFd = consumptions taken := by
      rw [hb.mine, List.count_replicate_self]
    unfold World.pending
    rw [hcount, hnote, List.count_append, hfd, hj, hn]
    omega
  have hsub : submissions ((w.put c').mem p).hist = submissions (w.mem p).hist + js.length := by
    rw [hhist, submissions_append, submissions_append, taken_submissions hb, hpast.submitted]
    omega
  have hcons : consumptions ((w.put c').mem p).hist =
      consumptions (w.mem p).hist + consumptions taken := by
    rw [hhist, consumptions_append, consumptions_append, hpast.consumed]
    omega
  -- and to those of another one
  have hother : ∀ q ∈ ρ.act, q ≠ p → (w.put c').pending q = w.pending q := fun q hq hqp => by
    have hj : js.countP (fun j => j.target = q) = 0 :=
      List.countP_eq_zero.mpr fun j hj => by
        simp only [decide_eq_true_eq]
        exact fun he => hqp (he.symm.trans (htarget j hj))
    have hn : notices.count (w.mem q).clientFd = 0 := by
      rw [hb.mine]
      refine List.count_eq_zero.mpr fun hm => hqp ?_
      exact h.client_inj hq hp (List.eq_of_mem_replicate hm)
    unfold World.pending
    rw [hcount, hnote, List.count_append, hfd, hj, hn]
    omega
  refine ⟨fun j hj => ?_, fun fd hfd' => ?_, fun q hq => ?_, fun hτ q hq => ?_⟩
  · rw [hfd]
    rcases hmem j hj with hj | ⟨-, hj⟩
    · exact h.jobs.jobs j hj
    · rw [htarget j hj]
      exact ⟨hp, (hpast.jobs j hj).2.trans (Socks5.still_clientFd hb.still)⟩
  · obtain ⟨q, hq, he⟩ := h.jobs.notices fd (by rw [hnote]; exact List.mem_append_right _ hfd')
    exact ⟨q, hq, by rw [hfd]; exact he⟩
  · have h1 := h.jobs.tickets q hq
    by_cases hqp : q = p
    · subst hqp
      omega
    · rw [hother q hq hqp, put_mem_other hself hqp]
      exact h1
  · have h1 := h.jobs.prompt hτ q hq
    by_cases hqp : q = p
    · subst hqp
      omega
    · rw [hother q hq hqp, put_mem_other hself hqp]
      exact h1

include h hp hb hg in
theorem put_ledgers : Ledgers ρ (w.put c') := by
  have hself := put_self hb hg
  obtain ⟨l, js, hpast, hhist⟩ := put_past hb hg
  have hgrown : Grown (w.mem p).hist (w.histories ρ) ((w.put c').histories ρ) (taken ++ l) :=
    histories_grow h.books.actNodup hp hhist
      (fun q _ hq => by rw [put_mem_other hself hq]) rfl
  obtain ⟨d, hd, hmail⟩ := h.ledgers.mail
  obtain ⟨m, log, hm, hlog, hacc⟩ := h.ledgers.accounts
  constructor
  · have hdns := hpast.dns
    rw [hb.g, hd] at hdns
    have ht : tickets (taken ++ l) = List.range' d.submitted.length js.length := by
      rw [tickets_append, taken_tickets hb, List.nil_append]
      exact hpast.tickets d (by rw [hb.g]; exact hd)
    have hcons : ∀ found, .dnsConsumed found ∈ taken ++ l →
        ∃ k ∈ tickets (w.mem p).hist, ∃ job, d.resolved[k]? = some (job, found) := by
      intro found hf
      rcases List.mem_append.mp hf with hf | hf
      · exact hb.had found hf d hd
      · have h0 := List.countP_eq_zero.mp hpast.consumed _ hf
        exact absurd rfl h0
    have hlt : ∀ k (j : DnsJob), d.submitted[k]? = some j →
        (d.submitted ++ js)[k]? = some j := fun k j hk => by
      rw [List.getElem?_append_left (List.getElem?_eq_some_iff.mp hk).1]; exact hk
    have hresolved : d.resolved.length ≤ d.submitted.length := by
      rw [hmail.posted.order, List.length_append, List.length_map]; omega
    refine ⟨_, hdns, hmail.posted.grow hgrown ht hcons, fun q hq k hk => ?_, fun q hq k hk r hr => ?_⟩
    · by_cases hqp : q = p
      · subst hqp
        rw [hhist, tickets_append, ht] at hk
        have hfd : ((w.put c').mem q).clientFd = (w.mem q).clientFd := by
          rw [put_mem hself]; exact Socks5.still_clientFd (put_still hb hg)
        rw [hfd]
        rcases List.mem_append.mp hk with hk | hk
        · obtain ⟨j, hj, hjt⟩ := hmail.mine q hq k hk
          exact ⟨j, hlt k j hj, hjt⟩
        · obtain ⟨i, hi, rfl⟩ := List.mem_range'.mp hk
          have hget : (d.submitted ++ js)[d.submitted.length + 1 * i]? = some (js[i]) := by
            rw [List.getElem?_append_right (by omega)]
            simp [List.getElem?_eq_getElem hi]
          obtain ⟨h1, h2⟩ := hpast.jobs _ (List.getElem_mem hi)
          exact ⟨_, hget, h1.trans hb.self, h2.trans (Socks5.still_clientFd hb.still)⟩
      · rw [put_mem_other hself hqp] at hk ⊢
        obtain ⟨j, hj, hjt⟩ := hmail.mine q hq k hk
        exact ⟨j, hlt k j hj, hjt⟩
    · by_cases hqp : q = p
      · subst hqp
        have hfound : ((w.put c').mem q).originResolution = (w.mem q).originResolution := by
          rw [put_mem hself]; exact Socks5.still_resolution (put_still hb hg)
        rw [hhist, tickets_append, ht] at hk
        rw [hfound]
        rcases List.mem_append.mp hk with hk | hk
        · exact hmail.found q hq k hk r hr
        · obtain ⟨i, -, rfl⟩ := List.mem_range'.mp hk
          have hno : d.resolved[d.submitted.length + 1 * i]? = none :=
            List.getElem?_eq_none (by omega)
          rw [hno] at hr
          cases hr
      · rw [put_mem_other hself hqp] at hk ⊢
        exact hmail.found q hq k hk r hr
  · have hmet := hpast.metrics
    have hl := hpast.log
    rw [hb.g] at hmet hl
    rw [hm] at hmet
    rw [hlog] at hl
    have hch : Charged m (charge l m) (taken ++ l) := by
      have h1 := charged (taken ++ l) m
      rwa [charge_append, taken_charge hb] at h1
    refine ⟨charge l m, log ++ records l, hmet, hl, hacc.tally.grow hgrown hch, ?_, ?_, ?_⟩
    · rw [hch.accepted, hch.closed]; exact hacc.accepted
    · rw [hch.admins]; exact hacc.admins
    · have hr := hacc.log.grow hgrown
      rwa [records_append, taken_records hb, List.nil_append] at hr

include hb hg in
theorem put_ctx : (w.put c').ctx p = c' := by
  unfold World.ctx
  rw [put_mem (put_self hb hg), ← put_self hb hg]
  rfl

include h hp hb ho hg in
/-- The process after a callback of session `p`. -/
theorem Core.put : Core τ ρ (w.put c') ∧ Beside (· = p) ρ ρ w (w.put c') := by
  have hk : ∀ q ∈ ρ.act, q ≠ p → Kept w (w.put c') q :=
    fun q hq hne => put_kept h hb ho hg hq hne
  have hmk : ∀ m ∈ ρ.adm, MngKept w (w.put c') m := fun m hm => put_mngKept h hb ho hg hm
  refine ⟨⟨put_books h hb hg, put_registry h hp hb ho hg, put_held h hb ho hg, fun q hq => ?_,
    put_jobs h hp hb hg, put_ledgers h hp hb hg, h.ended, fun m hm => ?_, ?_, ?_, h.left⟩,
    fun q hq hne => ⟨hq, hk q hq hne⟩, fun m hm _ => ⟨hm, hmk m hm⟩⟩
  · by_cases hqp : q = p
    · subst hqp
      rw [put_ctx hb hg]
      exact hg.own
    · exact (hk q hq hqp).own hg.own.table (h.own q hq)
  · exact (hmk m hm).admin hg.own.table (h.admins m hm)
  · have hgs : c'.g.still = w.g.still := hg.frame.g.trans (by rw [hb.g])
    have : (w.put c').g.users = w.g.users := (congrArg Globals.users hgs :)
    rw [this]
    exact h.names
  · have hgs : c'.g.still = w.g.still := hg.frame.g.trans (by rw [hb.g])
    have hkey : (w.put c').g.adminSecret = w.g.adminSecret := (congrArg Globals.adminSecret hgs :)
    exact hkey.trans h.secret

end Put

/-- A callback whose session went on by its own moves. -/
theorem Inv.put {τ : Terms} {ρ : Roster} {w : World} {p : Ptr} {c c' : SCtx} {taken : List Obs}
    {notices : List Fd} (h : Inv τ ρ w) (hp : p ∈ ρ.act) (hb : Base w p c taken notices) (ho : Own c)
    (hg : Good c c') (hr : Reached τ.strict c'.view) :
    Inv τ ρ (w.put c') ∧ Beside (· = p) ρ ρ w (w.put c') := by
  obtain ⟨hcore, hbeside⟩ := h.toCore.put hp hb ho hg
  refine ⟨⟨hcore, fun q hq => ?_⟩, hbeside⟩
  by_cases hqp : q = p
  · subst hqp
    rw [put_ctx hb hg]
    exact hr
  · rw [(hbeside.sessions q hq hqp).2.view]
    exact h.reached q hq

end Socks5d
