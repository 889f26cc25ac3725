import Socks5d.Surroundings

/-! # The network and the DNS worker

They act between the moves of the main thread. The network finishes connects
and `pselect` reports them; the worker takes a job, writes its result into the
session that waits for it, and leaves a notification. -/
namespace Socks5d
open Ctx Lib.Links

section Outside
variable {τ : Terms} {ρ : Roster} {f : Fd → Sock → Sock} {w w' : World}

/-! ## Sessions whose connections changed -/

/-- A session waits for the same, whatever its connections have become. -/
theorem View.Rest.around {v : View} (h : v.Rest) (cl og : Sock) (found : List SockAddr) :
    { v with cl := cl, og := og, found := found }.Rest := by
  unfold View.Rest at h ⊢
  simp only
  cases hst : v.st with
  | none => trivial
  | some st =>
    rw [hst] at h
    cases st with
    | copy =>
      refine ⟨fun d => ?_, h.unfinished⟩
      cases d with
      | c2o => exact h.drains .c2o
      | o2c => exact h.drains .o2c
    | _ => exact h

theorem alike_view (h : Core τ ρ w) (ha : Alike ρ f w w') {p : Ptr} (hp : p ∈ ρ.act) :
    (w'.ctx p).view = { (w.ctx p).view with
      cl := f (w.mem p).clientFd (w.ctx p).view.cl
      og := match (w.mem p).originFd with
        | some fd => f fd (w.ctx p).view.og
        | none => .none
      found := (w'.mem p).originResolution } := by
  have hmem : w'.mem p = { w.mem p with originResolution := (w'.mem p).originResolution } := by
    have h1 := congrArg (fun s : Socks5 =>
      { s with originResolution := (w'.mem p).originResolution }) (ha.mem p hp)
    exact h1
  have hlog : w'.g.accessLog = w.g.accessLog := (congrArg Globals.accessLog ha.g :)
  obtain ⟨k, hk⟩ := (h.own p hp).client.2
  have hk : w.os.fds (w.mem p).clientFd = some k := hk
  unfold Ctx.view World.ctx
  rw [hmem]
  simp only [ha.items, hlog, ha.fds, hk]
  cases hor : (w.mem p).originFd with
  | none => rfl
  | some fd =>
    obtain ⟨k', hk'⟩ := ((h.own p hp).origin fd hor).2
    have hk' : w.os.fds fd = some k' := hk'
    simp only [Option.bind_some, hk']
    rfl

/-- The same connections. -/
theorem alike_found (h : Core τ ρ w) (ha : Alike ρ (fun _ k => k) w w') {p : Ptr} (hp : p ∈ ρ.act) :
    (w'.ctx p).view = { (w.ctx p).view with found := (w'.mem p).originResolution } := by
  rw [alike_view h ha hp]
  cases hor : (w.mem p).originFd with
  | some fd => rfl
  | none =>
    have hog : (w.ctx p).view.og = .none := by
      unfold Ctx.view World.ctx
      rw [hor]
      rfl
    simp only [hog]

/-- Steps that leave every session in its state, with moves of its view. -/
theorem Inv.outside (h : Inv τ ρ w) (hc : AllCalm ρ w) (ha : Alike ρ f w w')
    (hb : Books ρ w') (hj : Jobs τ.prompt ρ w') (hm : ∃ d, w'.g.dnsWorker = some d ∧ Mail ρ w' d)
    (hv : ∀ p ∈ ρ.act, Moves τ.strict (w.ctx p).view (w'.ctx p).view) :
    Inv τ ρ w' ∧ AllCalm ρ w' := by
  refine ⟨⟨h.toCore.alike ha rfl rfl hb hj hm, fun p hp => (h.reached p hp).moves (hv p hp)⟩,
    fun p hp => ?_⟩
  have hs := hc p hp
  have hst : (w'.mem p).stm = (w.mem p).stm := (congrArg Socks5.stm (ha.mem p hp) :)
  have hview := alike_view h.toCore ha hp
  refine ⟨⟨?_, fun hcopy => ?_⟩, ?_, ?_⟩
  · rw [hview]
    exact hs.rest.rest.around _ _ _
  · rw [hview]
    have h1 : (copyClientInterest (w'.mem p), copyOriginInterest (w'.mem p)) =
        (copyClientInterest (w.mem p), copyOriginInterest (w.mem p)) :=
      (congrArg (fun s => (copyClientInterest s, copyOriginInterest s)) (ha.mem p hp) :)
    obtain ⟨h2, h3⟩ := Prod.mk.inj h1
    show _ = copyClientInterest (w'.mem p) ∧ _ = copyOriginInterest (w'.mem p)
    rw [h2, h3]
    exact hs.rest.armed (hst ▸ hcopy)
  · show (w'.mem p).stm ≠ _
    rw [hst]
    exact hs.notDone
  · show (w'.mem p).stm ≠ _
    rw [hst]
    exact hs.notError

/-! ## The network -/

theorem fresh_established {strict : Prop} {v : View} (h : Reached strict v) :
    v.cl.conn = .established := by
  obtain ⟨fd, t, h0⟩ := h
  induction h0 with
  | refl => rfl
  | tail _ hm ih =>
    cases hm with
    | relayReceived d | relayEof d | relayUnread d | relaySent d | relayUnsent d | relayShut d =>
      cases d <;> exact ih
    | _ => exact ih

/-- The same main thread, and connections that have changed by `f`. -/
structure Network (f : Fd → Sock → Sock) (w w' : World) : Prop where
  mem : w'.mem = w.mem
  fds : ∀ fd, w'.os.fds fd = (w.os.fds fd).map (f fd)
  streams : ∀ fd k, (f fd k).rx = k.rx ∧ (f fd k).tx = k.tx
  os : ({ w'.os with fds := w.os.fds } : OS) = w.os
  items : w'.sel.fds = w.sel.fds
  masterR : w'.sel.masterR = w.sel.masterR
  masterW : w'.sel.masterW = w.sel.masterW
  notices : w'.sel.resolutionJobs = w.sel.resolutionJobs
  g : w'.g = w.g
  settings : w'.mngMem = w.mngMem
  socksFd : w'.socksFd = w.socksFd
  mngFd : w'.mngFd = w.mngFd
  ended : w'.ended = w.ended
  mngEnded : w'.mngEnded = w.mngEnded

theorem Network.alike (hn : Network f w w') : Alike ρ f w w' where
  mem p _ := by rw [hn.mem]
  mngMem := hn.settings
  fds := hn.fds
  streams := hn.streams
  stray := (congrArg OS.strayClose hn.os :)
  alive h := by
    have h1 : w'.os.killed = w.os.killed := (congrArg OS.killed hn.os :)
    have h2 : w'.os.sendAnswers = w.os.sendAnswers := (congrArg OS.sendAnswers hn.os :)
    have h3 : w'.os.sigpipeHandled = w.os.sigpipeHandled := (congrArg OS.sigpipeHandled hn.os :)
    unfold OS.Alive OS.Piped at h ⊢
    rw [h1, h2, h3]
    exact h
  items := hn.items
  masterR := hn.masterR
  masterW := hn.masterW
  g := by rw [hn.g]
  metrics := by rw [hn.g]
  socksFd := hn.socksFd
  mngFd := hn.mngFd
  ended := hn.ended
  mngEnded := hn.mngEnded

/-- The sessions take part in what happens to their connections. -/
theorem Inv.network (h : Inv τ ρ w) (hc : AllCalm ρ w) (hn : Network f w w')
    (hv : ∀ p ∈ ρ.act, Moves τ.strict (w.ctx p).view (w'.ctx p).view) :
    Inv τ ρ w' ∧ AllCalm ρ w' := by
  have ha : Alike ρ f w w' := hn.alike
  have hd : w'.g.dnsWorker = w.g.dnsWorker := by rw [hn.g]
  refine h.outside hc ha ?_ (alike_jobs h.toCore ha rfl hd hn.notices)
    (alike_mail h.toCore ha rfl hd fun p _ => by rw [hn.mem]) hv
  refine h.books.congr (fun q => by rw [hn.mem]) ?_ (by rw [hn.g])
  exact (congrArg OS.allocated hn.os :)

/-- The socket `pselect` has looked at. -/
def Sock.marked (b : Bool) (k : Sock) : Sock := { k with reported := k.reported || b }

theorem pselect_network (w : World) (rd wr : Fd → Bool) :
    Network (fun fd => Sock.marked ((w.pselect rd wr).sel.slaveW fd)) w (w.pselect rd wr) where
  mem := rfl
  fds _ := rfl
  streams _ _ := ⟨rfl, rfl⟩
  os := rfl
  items := rfl
  masterR := rfl
  masterW := rfl
  notices := rfl
  g := rfl
  settings := rfl
  socksFd := rfl
  mngFd := rfl
  ended := rfl
  mngEnded := rfl

/-- A marked descriptor is not one whose connect is under way. -/
theorem pselect_writable {rd wr : Fd → Bool} {fd : Fd} {k : Sock}
    (hm : (w.pselect rd wr).sel.slaveW fd = true) (hk : w.os.fds fd = some k) :
    k.conn ≠ .inProgress := by
  have h1 := (Bool.and_eq_true_iff.mp hm).2
  simp only [hk, Option.map_some, Option.getD_some] at h1
  intro he
  rw [he] at h1
  cases h1

theorem Inv.pselect (h : Inv τ ρ w) (hc : AllCalm ρ w) (rd wr : Fd → Bool) :
    Inv τ ρ (w.pselect rd wr) ∧ AllCalm ρ (w.pselect rd wr) := by
  refine h.network hc (pselect_network w rd wr) fun p hp => .single ?_
  have hv := alike_view (ρ := ρ) h.toCore (pselect_network w rd wr).alike hp
  have hmem : ((w.pselect rd wr).mem p).originResolution = (w.ctx p).view.found := rfl
  rw [hmem] at hv
  rw [hv]
  cases hor : (w.mem p).originFd with
  | none =>
    have hog : (w.ctx p).view.og = .none := by
      unfold Ctx.view World.ctx
      rw [hor]
      rfl
    have hm := @Move.reported τ.strict (w.ctx p).view
      ((w.pselect rd wr).sel.slaveW (w.mem p).clientFd) false fun he => by cases he
    rw [Bool.or_false] at hm
    have he : (w.ctx p).view.og = { (w.ctx p).view.og with reported := (w.ctx p).view.og.reported } :=
      rfl
    rw [← he, hog] at hm
    exact hm
  | some fd =>
    obtain ⟨k, hk⟩ := ((h.own p hp).origin fd hor).2
    have hog : (w.ctx p).view.og = k := by
      unfold Ctx.view World.ctx
      rw [hor, Option.bind_some]
      show (w.os.fds fd).getD .none = k
      rw [show w.os.fds fd = some k from hk]
      rfl
    exact .reported _ _ fun hm => by
      rw [hog]
      exact pselect_writable hm hk

/-- A connect that was under way has come to an end. -/
def Sock.settled (fd : Fd) (conn : Conn) (err : Option Errno) (g : Fd) (k : Sock) : Sock :=
  if g = fd then { k with conn := conn, soError := err } else k

theorem settled_network {fd : Fd} {k : Sock} (hk : w.os.fds fd = some k) (conn : Conn)
    (err : Option Errno) : Network (Sock.settled fd conn err) w
      { w with os := w.os.setFd fd (some { k with conn := conn, soError := err }) } where
  mem := rfl
  fds g := by
    show Function.update w.os.fds fd _ g = _
    by_cases hg : g = fd
    · subst hg
      rw [Function.update_self, hk]
      simp [Sock.settled]
    · rw [Function.update_of_ne hg]
      have hid : Sock.settled fd conn err g = id := by
        funext k
        exact if_neg hg
      rw [hid, Option.map_id]
      rfl
  streams g k := by
    unfold Sock.settled
    split <;> exact ⟨rfl, rfl⟩
  os := rfl
  items := rfl
  masterR := rfl
  masterW := rfl
  notices := rfl
  g := rfl
  settings := rfl
  socksFd := rfl
  mngFd := rfl
  ended := rfl
  mngEnded := rfl

theorem Inv.settled (h : Inv τ ρ w) (hc : AllCalm ρ w) {fd : Fd} {k : Sock}
    (hk : w.os.fds fd = some k) (hconn : k.conn = .inProgress) {conn : Conn}
    (hne : conn ≠ .inProgress) (err : Option Errno) :
    Inv τ ρ { w with os := w.os.setFd fd (some { k with conn := conn, soError := err }) } ∧
      AllCalm ρ { w with os := w.os.setFd fd (some { k with conn := conn, soError := err }) } := by
  have hn := settled_network hk conn err
  refine h.network hc hn fun p hp => ?_
  have hv := alike_view (ρ := ρ) h.toCore hn.alike hp
  -- a client's connection was never under way
  have hcl : (w.mem p).clientFd ≠ fd := by
    intro he
    have h1 := fresh_established (h.reached p hp)
    have h2 : (w.ctx p).view.cl = k := by
      unfold Ctx.view World.ctx
      show (w.os.fds (w.mem p).clientFd).getD .none = k
      rw [he, hk]
      rfl
    rw [h2, hconn] at h1
    cases h1
  have hcl' : Sock.settled fd conn err (w.mem p).clientFd (w.ctx p).view.cl = (w.ctx p).view.cl :=
    if_neg hcl
  rw [hcl'] at hv
  rw [hv]
  cases hor : (w.mem p).originFd with
  | none =>
    have hog : (w.ctx p).view.og = .none := by
      unfold Ctx.view World.ctx
      rw [hor]
      rfl
    have he : (w.ctx p).view = { (w.ctx p).view with og := .none } := by rw [← hog]
    exact he ▸ .refl
  | some fo =>
    by_cases hfo : fo = fd
    · have hog : (w.ctx p).view.og = k := by
        unfold Ctx.view World.ctx
        rw [hor, Option.bind_some, hfo]
        show (w.os.fds fd).getD .none = k
        rw [hk]
        rfl
      have hset : Sock.settled fd conn err fo (w.ctx p).view.og =
          { (w.ctx p).view.og with conn := conn, soError := err } := if_pos hfo
      simp only [hset]
      exact .single (.settled conn err (by rw [hog]; exact hconn) hne)
    · have hset : Sock.settled fd conn err fo (w.ctx p).view.og = (w.ctx p).view.og := if_neg hfo
      simp only [hset]
      exact .refl

/-! ## The DNS worker -/

/-- A step of the worker on its own queue. -/
theorem Inv.worker (h : Inv τ ρ w) (hc : AllCalm ρ w) {d d' : DnsWorker}
    (hd : w.g.dnsWorker = some d) {l : List Fd}
    (hj : Jobs τ.prompt ρ { w with
      g := { w.g with dnsWorker := some d' }, sel := { w.sel with resolutionJobs := l } })
    (hs : d'.submitted = d.submitted) (hr : d'.resolved = d.resolved)
    (hw : d'.waiting = d.waiting) :
    Inv τ ρ { w with
      g := { w.g with dnsWorker := some d' }, sel := { w.sel with resolutionJobs := l } } ∧
    AllCalm ρ { w with
      g := { w.g with dnsWorker := some d' }, sel := { w.sel with resolutionJobs := l } } := by
  obtain ⟨d0, hd0, hm⟩ := h.ledgers.mail
  cases Option.some.inj (hd.symm.trans hd0)
  have ha : Alike ρ (fun _ k => k) w { w with
      g := { w.g with dnsWorker := some d' }, sel := { w.sel with resolutionJobs := l } } := {
    mem := fun _ _ => rfl
    mngMem := rfl
    fds := fun fd => Option.map_id'.symm
    streams := fun _ _ => ⟨rfl, rfl⟩
    stray := rfl
    alive := id
    items := rfl
    masterR := rfl
    masterW := rfl
    g := rfl
    metrics := rfl
    socksFd := rfl
    mngFd := rfl
    ended := rfl
    mngEnded := rfl }
  refine h.outside hc ha (h.books.congr (fun _ => rfl) rfl rfl) hj ⟨d', rfl, ?_, ?_, ?_⟩
    fun p _ => .refl
  · exact ⟨by rw [hs, hr, hw]; exact hm.posted.order, by rw [hs]; exact hm.posted.owners,
      by rw [hr]; exact hm.posted.had⟩
  · rw [hs]
    exact hm.mine
  · rw [hr]
    exact hm.found

/-- The jobs are the same, in some order. -/
theorem Jobs.perm (h : Jobs τ.prompt ρ w) (hp : w'.jobs.Perm w.jobs) (hm : w'.mem = w.mem)
    (hn : w'.sel.resolutionJobs = w.sel.resolutionJobs) : Jobs τ.prompt ρ w' := by
  have hpend : ∀ p, w'.pending p = w.pending p := fun p => by
    unfold World.pending
    rw [hp.countP_eq, hn, hm]
  refine ⟨fun j hj => ?_, ?_, fun p hp' => ?_, fun hτ p hp' => ?_⟩
  · rw [hm]
    exact h.jobs j (hp.mem_iff.mp hj)
  · rw [hn, hm]
    exact h.notices
  · rw [hpend, hm]
    exact h.tickets p hp'
  · rw [hpend, hm]
    exact h.prompt hτ p hp'

theorem Inv.dnsTake (h : Inv τ ρ w) (hc : AllCalm ρ w) :
    Inv τ ρ w.dnsTake ∧ AllCalm ρ w.dnsTake := by
  unfold World.dnsTake
  split
  · next job queue submitted resolved hd =>
    refine h.worker hc (l := w.sel.resolutionJobs) hd (h.jobs.perm ?_ rfl rfl) rfl rfl rfl
    unfold World.jobs
    rw [hd]
    show (queue ++ [job]).Perm (job :: queue ++ [])
    rw [List.append_nil]
    exact List.perm_append_singleton _ _
  · exact ⟨h, hc⟩

theorem Inv.dnsNotify (h : Inv τ ρ w) (hc : AllCalm ρ w) {allocated : Bool}
    (hprompt : τ.prompt → allocated = true) :
    Inv τ ρ (w.dnsNotify allocated) ∧ AllCalm ρ (w.dnsNotify allocated) := by
  unfold World.dnsNotify
  split
  · next queue job submitted resolved hd =>
    have hjobs : w.jobs = queue ++ [job] := by
      unfold World.jobs
      rw [hd]
      rfl
    obtain ⟨htarget, hfd⟩ := h.jobs.jobs job (by rw [hjobs]; simp)
    refine h.worker hc hd ?_ rfl rfl rfl
    generalize hW : ({ w with
      g := { w.g with dnsWorker := some ⟨queue, none, submitted, resolved⟩ }
      sel := { w.sel with resolutionJobs :=
        if allocated then job.fd :: w.sel.resolutionJobs else w.sel.resolutionJobs } } : World) = W
    have hmem : W.mem = w.mem := by rw [← hW]
    have hjobs' : W.jobs = queue := by
      rw [← hW]
      exact List.append_nil queue
    have hnotices : W.sel.resolutionJobs =
        if allocated then job.fd :: w.sel.resolutionJobs else w.sel.resolutionJobs := by rw [← hW]
    -- the job becomes a notification, for the session it was of
    have hpend : ∀ p ∈ ρ.act, W.pending p ≤ w.pending p ∧
        (allocated = true → W.pending p = w.pending p) := by
      intro p hp
      have hiff : job.fd = (w.mem p).clientFd ↔ job.target = p := by
        rw [hfd]
        exact ⟨fun he => h.toCore.client_inj htarget hp he, fun he => by rw [he]⟩
      unfold World.pending
      rw [hjobs, hjobs', hnotices, hmem, List.countP_append, List.countP_singleton]
      cases allocated with
      | false => simp
      | true =>
        simp only [if_true, List.count_cons, beq_iff_eq, hiff, decide_eq_true_eq]
        omega
    refine ⟨fun j hj => ?_, fun fd hm => ?_, fun p hp => ?_, fun hτ p hp => ?_⟩
    · rw [hmem]
      exact h.jobs.jobs j (by rw [hjobs]; exact List.mem_append_left _ (hjobs' ▸ hj))
    · rw [hmem]
      rw [hnotices] at hm
      split at hm
      · rcases List.mem_cons.mp hm with rfl | hm
        · exact ⟨job.target, htarget, hfd.symm⟩
        · exact h.jobs.notices fd hm
      · exact h.jobs.notices fd hm
    · have h1 := h.jobs.tickets p hp
      have h2 := (hpend p hp).1
      rw [hmem]
      omega
    · have h1 := h.jobs.prompt hτ p hp
      have h2 := (hpend p hp).2 (hprompt hτ)
      rw [hmem]
      omega
  · exact ⟨h, hc⟩

/-- A session hands over one job at most. -/
theorem one_ticket {l : List Obs} (h : submissions l ≤ 1) {k n : Nat} (hk : k ∈ tickets l)
    (hn : n ∈ tickets l) : k = n := by
  rw [← tickets_length] at h
  cases hl : tickets l with
  | nil => rw [hl] at hk; cases hk
  | cons x rest =>
    rw [hl] at h hk hn
    have hrest : rest = [] := List.eq_nil_of_length_eq_zero (by simpa using h)
    subst hrest
    rw [List.mem_singleton] at hk hn
    rw [hk, hn]

theorem consumed_of {l : List Obs} (h : 0 < consumptions l) : ∃ found, .dnsConsumed found ∈ l := by
  obtain ⟨o, ho, hc⟩ := List.countP_pos_iff.mp h
  cases o with
  | dnsConsumed found => exact ⟨found, ho⟩
  | _ => cases hc

/-- A session that ended has had the result of its job. -/
theorem closed_ticket {e : Ended} (he : Closed τ e) {k : Nat} (hk : k ∈ tickets e.s.hist) :
    submissions e.s.hist ≤ 1 ∧ 0 < consumptions e.s.hist := by
  obtain ⟨v, why, t, reason, hv, hw, hview⟩ := he
  have hhist : e.s.hist =
      v.hist ++ (why ++ (v.lastRecord t reason).toList.map .logged ++ [.released]) :=
    congrArg View.hist hview
  have hs := hw.settled hv
  have hwhy : submissions why = 0 := by cases hw <;> rfl
  have honce : submissions v.hist ≤ 1 := by
    rcases hv.once with h0 | ⟨h1, -⟩ <;> omega
  have hpos : 0 < submissions e.s.hist := by
    rw [← tickets_length]
    exact List.length_pos_of_mem hk
  rw [hhist] at hpos ⊢
  simp only [submissions_append, consumptions_append, submissions_logged, consumptions_logged]
    at hpos hs ⊢
  have h1 : submissions [.released] = 0 := rfl
  have h2 : consumptions [.released] = 0 := rfl
  omega

/-- A job that is not resolved yet is one of the session it is for. -/
theorem Inv.waiting_ticket (h : Inv τ ρ w) {d : DnsWorker} (hm : Mail ρ w d) {n : Nat}
    {j : DnsJob} (hn : d.resolved.length ≤ n) (hj : d.submitted[n]? = some j) :
    j.target ∈ ρ.act ∧ n ∈ tickets (w.mem j.target).hist := by
  have hlt : n < d.submitted.length := by
    by_contra hge
    rw [List.getElem?_eq_none (by omega)] at hj
    cases hj
  obtain ⟨l, hl, hnl⟩ := List.mem_flatMap.mp
    (hm.posted.owners.mem_iff.mpr (List.mem_range.mpr hlt))
  rcases List.mem_append.mp hl with hl' | hl'
  · obtain ⟨q, hq, rfl⟩ := List.mem_map.mp hl'
    obtain ⟨j', hj', htarget, -⟩ := hm.mine q hq n hnl
    cases Option.some.inj (hj.symm.trans hj')
    rw [htarget]
    exact ⟨hq, hnl⟩
  · obtain ⟨e, he, rfl⟩ := List.mem_map.mp hl'
    obtain ⟨honce, hpos⟩ := closed_ticket (h.ended e he) hnl
    obtain ⟨found, hf⟩ := consumed_of hpos
    obtain ⟨k, hk, job, hr⟩ := hm.posted.had _ hl found hf
    have hkn := one_ticket honce hk hnl
    rw [hkn, List.getElem?_eq_none hn] at hr
    cases hr

/-- A session with a job that has not been answered waits for it. -/
theorem Inv.waits (h : Inv τ ρ w) {p : Ptr} (hp : p ∈ ρ.act) (hpos : 0 < w.pending p) :
    (w.mem p).stm = some .requestResolv := by
  have htickets := h.jobs.tickets p hp
  have hledger := (h.reached p hp).ledger
  have hhist : (w.ctx p).view.hist = (w.mem p).hist := rfl
  unfold View.Ledger at hledger
  rw [hhist] at hledger
  by_contra hne
  have hne : (w.ctx p).view.st ≠ some .requestResolv := hne
  rw [if_neg hne] at hledger
  omega

theorem Inv.dnsResolve (h : Inv τ ρ w) (hc : AllCalm ρ w) (found : List SockAddr) :
    Inv τ ρ (w.dnsResolve found) ∧ AllCalm ρ (w.dnsResolve found) := by
  unfold World.dnsResolve
  split
  · next queue job submitted resolved hd =>
    obtain ⟨d, hd', hmail⟩ := h.ledgers.mail
    cases Option.some.inj (hd.symm.trans hd')
    have hn : submitted[resolved.length]? = some job := by
      have h1 : submitted = resolved.map Prod.fst ++ ([job] ++ queue) := hmail.posted.order
      rw [h1, List.getElem?_append_right (by simp)]
      simp
    obtain ⟨htarget, hticket⟩ := h.waiting_ticket hmail (Nat.le_refl _) hn
    have honce : ∀ p ∈ ρ.act, submissions (w.mem p).hist ≤ 1 := fun p hp => by
      have hview : (w.ctx p).view.hist = (w.mem p).hist := rfl
      rcases (h.reached p hp).once with h0 | ⟨h1, -⟩ <;> rw [hview] at * <;> omega
    dsimp only
    generalize hW : World.modifyMem _ job.target _ = W
    have hself : W.mem job.target = { w.mem job.target with originResolution := found } := by
      rw [← hW]
      exact Function.update_self _ _ _
    have hother : ∀ q, q ≠ job.target → W.mem q = w.mem q := fun q hq => by
      rw [← hW]
      exact Function.update_of_ne hq _ _
    have hunres : ∀ q, (W.mem q).unresolved = (w.mem q).unresolved := fun q => by
      by_cases hq : q = job.target
      · rw [hq, hself]
        rfl
      · rw [hother q hq]
    have ha : Alike ρ (fun _ k => k) w W := by
      constructor
      · exact fun q _ => hunres q
      · rw [← hW]; rfl
      · rw [← hW]; exact fun _ => Option.map_id'.symm
      · exact fun _ _ => ⟨rfl, rfl⟩
      · rw [← hW]; rfl
      · rw [← hW]; exact id
      all_goals rw [← hW]; rfl
    have hd'' : W.g.dnsWorker =
        some ⟨queue, some (job, true), submitted, resolved ++ [(job, found)]⟩ := by
      rw [← hW]
      rfl
    have hplaces : ∀ q, (W.mem q).places = (w.mem q).places := fun q =>
      (congrArg Socks5.places (hunres q) :)
    have hhist : ∀ q, (W.mem q).hist = (w.mem q).hist := fun q =>
      (congrArg Socks5.hist (hunres q) :)
    have hfd : ∀ q, (W.mem q).clientFd = (w.mem q).clientFd := fun q =>
      (congrArg Socks5.clientFd (hunres q) :)
    have hjobs : W.jobs = w.jobs := by
      unfold World.jobs
      rw [hd, hd'']
      rfl
    have hpend : ∀ q, W.pending q = w.pending q := fun q => by
      unfold World.pending
      rw [hjobs, hfd, ← hW]
      rfl
    have hhists : W.histories ρ = w.histories ρ := by
      unfold World.histories
      rw [List.map_congr_left fun q _ => hhist q, ← hW]
      rfl
    refine h.outside hc ha (h.books.congr hplaces (by rw [← hW]; rfl) (by rw [← hW]; rfl)) ?_
      ⟨_, hd'', ?_, fun p hp k hk => ?_, fun p hp k hk r hr => ?_⟩ fun p hp => ?_
    · refine ⟨fun j hj => ?_, fun fd hm => ?_, fun p hp => ?_, fun hτ p hp => ?_⟩
      · rw [hfd]
        exact h.jobs.jobs j (hjobs ▸ hj)
      · have hm : fd ∈ w.sel.resolutionJobs := by rw [← hW] at hm; exact hm
        obtain ⟨p, hp, he⟩ := h.jobs.notices fd hm
        exact ⟨p, hp, by rw [hfd]; exact he⟩
      · rw [hpend, hhist]
        exact h.jobs.tickets p hp
      · rw [hpend, hhist]
        exact h.jobs.prompt hτ p hp
    · rw [hhists]
      refine ⟨?_, hmail.posted.owners, fun l hl x hx => ?_⟩
      · have h1 : submitted = resolved.map Prod.fst ++ ([job] ++ queue) := hmail.posted.order
        show submitted = (resolved ++ [(job, found)]).map Prod.fst ++ queue
        rw [h1, List.map_append, List.append_assoc]
        rfl
      · obtain ⟨k, hk, job', hr⟩ := hmail.posted.had l hl x hx
        obtain ⟨hlt, -⟩ := List.getElem?_eq_some_iff.mp hr
        exact ⟨k, hk, job', by rw [List.getElem?_append_left hlt]; exact hr⟩
    · rw [hhist] at hk
      rw [hfd]
      exact hmail.mine p hp k hk
    · rw [hhist] at hk
      by_cases hp' : p = job.target
      · -- its only ticket is the one that has just been resolved
        subst hp'
        have hkn := one_ticket (honce _ hp) hk hticket
        have hk : k = resolved.length := hkn
        rw [hself]
        have hr : (resolved ++ [(job, found)])[k]? = some r := hr
        rw [hk, List.getElem?_append_right (Nat.le_refl _), Nat.sub_self] at hr
        cases hr
        rfl
      · rw [hother p hp']
        have hr : (resolved ++ [(job, found)])[k]? = some r := hr
        by_cases hlt : k < resolved.length
        · rw [List.getElem?_append_left hlt] at hr
          exact hmail.found p hp k hk r hr
        · -- that ticket is another session's
          have hk' : k = resolved.length := by
            obtain ⟨hlen, -⟩ := List.getElem?_eq_some_iff.mp hr
            rw [List.length_append, List.length_singleton] at hlen
            omega
          obtain ⟨j, hj, htp, -⟩ := hmail.mine p hp k hk
          have hj : submitted[k]? = some j := hj
          rw [hk', hn] at hj
          exact absurd ((Option.some.inj hj) ▸ htp).symm hp'
    · rw [alike_found h.toCore ha hp]
      by_cases hp' : p = job.target
      · have hpos : 0 < w.pending p := by
          unfold World.pending
          have h1 : 0 < w.jobs.countP (fun j => j.target = p) := by
            refine List.countP_pos_iff.mpr ⟨job, ?_, by simpa using hp'.symm⟩
            unfold World.jobs
            rw [hd]
            simp
          omega
        exact .single (.resolved _ (h.waits hp hpos))
      · rw [hother p hp']
        exact .refl
  · exact ⟨h, hc⟩

end Outside
end Socks5d
