import Socks5d.Outcomes

/-! # The delivery of DNS results

Two threads share a queue of jobs, a list of descriptors to notify and a pointer
into each session that waits. A job goes once through all three, in the order in
which jobs were handed over, and what is found for it reaches the session it is
of and no other. -/
namespace Socks5d
open Ctx

/-- How the result of job `k` gets to session `p`, which handed it over: the
worker has yet to resolve it, or has stored what it found, or has asked for the
session to be notified, or the session has had it. -/
inductive World.Delivery (w : World) (d : DnsWorker) (p : Ptr) (k : Nat) (job : DnsJob) : Prop
  | queued : d.resolved.length ≤ k → job ∈ d.waiting → (w.mem p).stm = some .requestResolv →
      (w.mem p).clientFd ∉ w.sel.resolutionJobs → Delivery w d p k job
  | stored : d.resolved[k]? = some (job, (w.mem p).originResolution) →
      (∃ j, d.current = some (j, true) ∧ j.target = p) → (w.mem p).stm = some .requestResolv →
      (w.mem p).clientFd ∉ w.sel.resolutionJobs → Delivery w d p k job
  | notified : d.resolved[k]? = some (job, (w.mem p).originResolution) →
      (∀ j ∈ w.jobs, j.target ≠ p) → (w.mem p).stm = some .requestResolv →
      w.sel.resolutionJobs.count (w.mem p).clientFd = 1 → Delivery w d p k job
  | had (found : List SockAddr) : d.resolved[k]? = some (job, found) →
      .dnsConsumed found ∈ (w.mem p).hist → consumptions (w.mem p).hist = 1 →
      (w.mem p).stm ≠ some .requestResolv → w.pending p = 0 → Delivery w d p k job

/-- A session that has handed over no job is not waited for. -/
structure World.Unasked (w : World) (p : Ptr) : Prop where
  tickets : tickets (w.mem p).hist = []
  st : (w.mem p).stm ≠ some .requestResolv
  pending : w.pending p = 0
  had : consumptions (w.mem p).hist = 0

/-- A session that ended had what its job came to, if it handed one over. -/
def Ended.Served (d : DnsWorker) (e : Ended) : Prop :=
  tickets e.s.hist = [] ∧ consumptions e.s.hist = 0 ∨
    ∃ k job found, tickets e.s.hist = [k] ∧ d.resolved[k]? = some (job, found) ∧
      .dnsConsumed found ∈ e.s.hist ∧ consumptions e.s.hist = 1

/-- A notification is lost for want of memory. -/
def Event.forgets : Event → Bool
  | .dnsNotify allocated => !allocated
  | _ => false

/-- The terms of a run in which that does not happen. -/
def Boot.prompt (b : Boot) : Terms := { b.plain with prompt := True }

section Delivery
variable {τ : Terms} {ρ : Roster} {w : World} {d : DnsWorker} {p : Ptr} {k : Nat}

theorem Boot.prompt_fits (b : Boot) : b.Fits b.prompt := ⟨rfl, rfl, Iff.rfl⟩

theorem along_of_forall {P : World → Input → Prop} : ∀ {is : List Input} (w : World),
    (∀ i ∈ is, ∀ w, P w i) → w.Along P is
  | [], _, _ => trivial
  | i :: _, w, h => ⟨h i List.mem_cons_self w,
      along_of_forall (w.step i) fun j hj => h j (List.mem_cons_of_mem i hj)⟩

/-- A run keeps terms that take no more for granted than what its steps meet. -/
theorem Orderly.run_meeting (hfair : τ.fair = fun v _ _ => v.Rest) {P : World → Input → Prop}
    (hP : ∀ {w i}, P w i → (τ.strict → ∀ j n, w.phase = .walk j n → j ≤ n → w.Clear j) ∧
      (τ.prompt → i.event.forgets = false)) :
    ∀ (is : List Input) {ρ : Roster} {w : World}, w.Along P is → Orderly τ ρ w →
      ∃ ρ', Orderly τ ρ' (w.run is)
  | [], ρ, _, _, h => ⟨ρ, h⟩
  | i :: is, _, w, ha, h => by
    obtain ⟨hclear, hprompt⟩ := hP ha.1
    have hmet : τ.Granted w i := fun _ => {
      clear := fun hs _ _ _ => hclear hs
      fair := fun _ _ _ _ p hp _ _ => by
        rw [hfair]
        exact (h.calm p (h.inv.serves_iff.mp hp)).rest.rest
      prompt := fun hp he => by
        have hno := hprompt hp
        rw [he] at hno
        cases hno }
    obtain ⟨ρ', h1⟩ := h.step hmet
    exact h1.orderly.run_meeting hfair hP is (w := w.step i) ha.2

/-- A job that has been resolved is the one that was handed over. -/
theorem Posted.resolved {hs : List (List Obs)} (h : Posted hs d) {job : DnsJob}
    {r : DnsJob × List SockAddr} (hj : d.submitted[k]? = some job) (hr : d.resolved[k]? = some r) :
    r.1 = job := by
  have hlt : k < d.resolved.length := (List.getElem?_eq_some_iff.mp hr).1
  rw [h.order, List.getElem?_append_left (by simpa using hlt), List.getElem?_map, hr] at hj
  exact Option.some.inj hj

/-- The jobs that wait are among those the worker has. -/
theorem waiting_jobs (hd : w.g.dnsWorker = some d) {j : DnsJob} :
    j ∈ w.jobs ↔ j ∈ d.waiting ∨ d.current = some (j, true) := by
  obtain ⟨queue, current, submitted, resolved⟩ := d
  have hjobs : w.jobs = queue ++ (current.map Prod.fst).toList := by
    unfold World.jobs
    rw [hd]
  rw [hjobs]
  unfold DnsWorker.waiting
  rcases current with _ | ⟨job, _ | _⟩
  · simp
  · simp [or_comm]
  · simp [eq_comm]

/-- What a live session has handed over is on its way, and nothing else is. -/
theorem Inv.delivered (h : Inv τ ρ w) (hprompt : τ.prompt) (hd : w.g.dnsWorker = some d)
    (hp : p ∈ ρ.act) : w.Unasked p ∨ ∃ k job, tickets (w.mem p).hist = [k] ∧
      d.submitted[k]? = some job ∧ job.target = p ∧ job.fd = (w.mem p).clientFd ∧
      w.Delivery d p k job := by
  obtain ⟨d', hd', hmail⟩ := h.ledgers.mail
  cases Option.some.inj (hd.symm.trans hd')
  have hhist : (w.ctx p).view.hist = (w.mem p).hist := rfl
  have hst : (w.ctx p).view.st = (w.mem p).stm := rfl
  have hle := h.jobs.tickets p hp
  have hge := h.jobs.prompt hprompt p hp
  have hledger := (h.reached p hp).ledger
  have honce := (h.reached p hp).once
  unfold View.Ledger at hledger
  unfold View.Once at honce
  rw [hhist, hst] at hledger
  rw [hhist] at honce
  have hone : submissions (w.mem p).hist = 0 ∨ submissions (w.mem p).hist = 1 :=
    honce.imp_right And.left
  have hlen := tickets_length (w.mem p).hist
  rcases hone with h0 | h1
  · refine Or.inl ⟨List.eq_nil_of_length_eq_zero (hlen.trans h0), fun hr => ?_, by omega, by omega⟩
    rw [if_pos hr] at hledger
    omega
  obtain ⟨k, hk⟩ := List.length_eq_one_iff.mp (hlen.trans h1)
  have hmem : k ∈ tickets (w.mem p).hist := by rw [hk]; exact List.mem_singleton_self k
  obtain ⟨job, hjob, htarget, hfd⟩ := hmail.mine p hp k hmem
  refine Or.inr ⟨k, job, hk, hjob, htarget, hfd, ?_⟩
  by_cases hr : (w.mem p).stm = some .requestResolv
  · -- the one thing pending is its job or its notice
    rw [if_pos hr] at hledger
    have hpend : w.pending p = 1 := by omega
    unfold World.pending at hpend
    have hnotice : w.sel.resolutionJobs.count (w.mem p).clientFd = 0 →
        (w.mem p).clientFd ∉ w.sel.resolutionJobs := List.count_eq_zero.mp
    have hcount : ∀ j ∈ w.jobs, j.target = p → 0 < w.jobs.countP (fun j => j.target = p) :=
      fun j hj ht => List.countP_pos_iff.mpr ⟨j, hj, by simpa using ht⟩
    rcases Nat.lt_or_ge k d.resolved.length with hlt | hge
    · have hres : d.resolved[k]? = some d.resolved[k] := List.getElem?_eq_getElem hlt
      have hresolved : d.resolved[k]? = some (job, (w.mem p).originResolution) := by
        rw [hres, hmail.found p hp k hmem _ hres, ← hmail.posted.resolved hjob hres]
      by_cases hmine : ∀ j ∈ w.jobs, j.target ≠ p
      · refine .notified hresolved hmine hr ?_
        have hnone : w.jobs.countP (fun j => j.target = p) = 0 :=
          List.countP_eq_zero.mpr fun j hj => by simpa using hmine j hj
        omega
      · push Not at hmine
        obtain ⟨j, hj, ht⟩ := hmine
        have hpos := hcount j hj ht
        refine .stored hresolved ⟨j, ?_, ht⟩ hr (hnotice (by omega))
        refine ((waiting_jobs hd).mp hj).resolve_left fun hw => ?_
        -- no other job of the session is waiting
        obtain ⟨n, hn⟩ := List.mem_iff_getElem?.mp hw
        have hsub : d.submitted[d.resolved.length + n]? = some j := by
          rw [hmail.posted.order, List.getElem?_append_right (by simp), List.length_map,
            Nat.add_sub_cancel_left, hn]
        obtain ⟨-, hticket⟩ := h.waiting_ticket hmail (Nat.le_add_right _ _) hsub
        rw [ht, hk] at hticket
        have hnk := List.mem_singleton.mp hticket
        omega
    · have hwait : job ∈ d.waiting := by
        rw [hmail.posted.order, List.getElem?_append_right (by simpa using hge)] at hjob
        exact List.mem_of_getElem? hjob
      have hpos := hcount job ((waiting_jobs hd).mpr (Or.inl hwait)) htarget
      exact .queued hge hwait hr (hnotice (by omega))
  · rw [if_neg hr] at hledger
    have hcons : consumptions (w.mem p).hist = 1 := by omega
    obtain ⟨found, hf⟩ := consumed_of (by omega : 0 < consumptions (w.mem p).hist)
    have hin : (w.mem p).hist ∈ w.histories ρ :=
      List.mem_append_left _ (List.mem_map.mpr ⟨p, hp, rfl⟩)
    obtain ⟨k', hk', job', hr'⟩ := hmail.posted.had _ hin found hf
    rw [hk, List.mem_singleton] at hk'
    subst hk'
    have hsame : job' = job := hmail.posted.resolved hjob hr'
    exact .had found (hsame ▸ hr') hf hcons hr (by omega)

/-- A session that ended waits for nothing. -/
theorem Closed.settled {e : Ended} (he : Closed τ e) :
    submissions e.s.hist = consumptions e.s.hist ∧ submissions e.s.hist ≤ 1 := by
  obtain ⟨v, why, t, reason, hv, hw, hview⟩ := he
  have hhist : e.s.hist =
      v.hist ++ (why ++ (v.lastRecord t reason).toList.map .logged ++ [.released]) :=
    congrArg View.hist hview
  have hs := hw.settled hv
  have hwhy : submissions why = 0 ∧ consumptions why = 0 := by cases hw <;> exact ⟨rfl, rfl⟩
  have honce : submissions v.hist ≤ 1 := by
    rcases hv.once with h0 | ⟨h1, -⟩ <;> omega
  have hlast : submissions [.released] = 0 ∧ consumptions [.released] = 0 := ⟨rfl, rfl⟩
  rw [hhist]
  simp only [submissions_append, consumptions_append, submissions_logged, consumptions_logged] at hs ⊢
  omega

theorem Core.ended_served (h : Core τ ρ w) (hd : w.g.dnsWorker = some d) {e : Ended}
    (he : e ∈ w.ended) : e.Served d := by
  obtain ⟨d', hd', hmail⟩ := h.ledgers.mail
  cases Option.some.inj (hd.symm.trans hd')
  obtain ⟨heq, hle⟩ := (h.ended e he).settled
  have hlen := tickets_length e.s.hist
  rcases Nat.le_one_iff_eq_zero_or_eq_one.mp hle with h0 | h1
  · exact Or.inl ⟨List.eq_nil_of_length_eq_zero (hlen.trans h0), by omega⟩
  · obtain ⟨k, hk⟩ := List.length_eq_one_iff.mp (hlen.trans h1)
    obtain ⟨found, hf⟩ := consumed_of (by omega : 0 < consumptions e.s.hist)
    have hin : e.s.hist ∈ w.histories ρ :=
      List.mem_append_right _ (List.mem_map.mpr ⟨e, he, rfl⟩)
    obtain ⟨k', hk', job, hr⟩ := hmail.posted.had _ hin found hf
    rw [hk, List.mem_singleton] at hk'
    subst hk'
    exact Or.inr ⟨k', job, found, hk, hr, hf, by omega⟩

end Delivery

/-- However the two threads take turns, and as long as notifications can be
allocated: jobs are resolved once and in the order in which they were handed over;
each is the job of one session; until that session has had its result it waits in
REQUEST_RESOLV, with one thing under way for it; it has the result once, the one
of its own job; and no descriptor is notified that is not the client of a session
that waits. -/
theorem dns_delivered_once (b : Boot) (is : List Input)
    (hok : ∀ i ∈ is, i.event.forgets = false) :
    let w := b.start.run is
    ∃ act d, w.Roll act ∧ w.g.dnsWorker = some d ∧
      d.submitted = d.resolved.map Prod.fst ++ d.waiting ∧
      ((w.past act).flatMap tickets).Perm (List.range d.submitted.length) ∧
      (∀ p, w.Serves p → w.Unasked p ∨ ∃ k job, tickets (w.mem p).hist = [k] ∧
        d.submitted[k]? = some job ∧ job.target = p ∧ job.fd = (w.mem p).clientFd ∧
        w.Delivery d p k job) ∧
      (∀ e ∈ w.ended, e.Served d) ∧
      ∀ fd ∈ w.sel.resolutionJobs, ∃ p, w.Serves p ∧ (w.mem p).clientFd = fd ∧
        (w.mem p).stm = some .requestResolv := by
  intro w
  have halong : b.start.Along (fun _ i => i.event.forgets = false) is :=
    along_of_forall b.start fun i hi _ => hok i hi
  obtain ⟨ρ, h⟩ := (b.start_orderly b.prompt_fits).run_meeting rfl
    (fun h => ⟨False.elim, fun _ => h⟩) is halong
  obtain ⟨d, hd, hmail⟩ := h.inv.ledgers.mail
  refine ⟨ρ.act, d, h.roll, hd, hmail.posted.order, hmail.posted.owners, fun p hp => ?_,
    fun e he => h.inv.ended_served hd he, fun fd hfd => ?_⟩
  · exact h.inv.delivered trivial hd (h.inv.serves_iff.mp hp)
  · obtain ⟨p, hp, rfl⟩ := h.inv.jobs.notices fd hfd
    exact ⟨p, h.inv.serves_iff.mpr hp, rfl, (h.inv.notified hp hfd).1⟩

/-- A client asks for a host by name, and the name is found. -/
def Input.lookup : List Input :=
  Input.round 1 0 [] ++ Input.round 2 2 [5, 1, 0, 5, 1, 0, 3, 1, 120, 0, 80] ++
    [{ event := .dnsTake }, { event := .dnsResolve [⟨.inet, [127, 0, 0, 1], 80⟩] },
      { event := .dnsNotify true }]

theorem dns_delivered_once_lookup :
    let w := Boot.open.start.run Input.lookup
    w.sel.resolutionJobs = [2] ∧ ∃ p, w.Serves p ∧ (w.mem p).clientFd = 2 ∧
      (w.mem p).stm = some .requestResolv := by
  intro w
  have hok : ∀ i ∈ Input.lookup, i.event.forgets = false := by decide
  have hjobs : w.sel.resolutionJobs = [2] := by decide +kernel
  obtain ⟨act, d, -, -, -, -, -, -, hnotices⟩ := dns_delivered_once Boot.open Input.lookup hok
  exact ⟨hjobs, hnotices 2 (by rw [hjobs]; exact List.mem_singleton_self 2)⟩

end Socks5d
