import Socks5d.Tunnels
import Socks5d.AccessLog

/-! # The books of the process

What the log and the counters say about the sessions of a run, how many there
are, and who refers to the object of each. -/
namespace Socks5d
open Ctx View Lib.Links Lib.Tables

section Claims
variable {τ : Terms} {ρ : Roster} {w : World} {v : View}

/-! ## Bytes and records -/

/-- How many bytes a tunnel has sent in a direction: all its origin was sent,
and what the client was sent since the relay started. -/
def View.carried (v : View) : Dir → Nat
  | .c2o => v.og.tx.length
  | .o2c =>
    match starts v.hist with
    | (_, sent, _) :: _ => v.cl.tx.length - sent
    | [] => 0

/-- The counters count what was sent. -/
theorem Reached.carries {strict : Prop} (h : Reached strict v) (d : Dir) :
    Socks5d.relayed d v.hist = v.carried d := by
  rcases h.relayed with hb | ⟨u, t, -, hr⟩
  · have hs : starts v.hist = [] :=
      filterMap_none fun o ho => (Obs.quiet_of_plain (hb.plain o ho)).2.1
    rw [(idle_of_about (hb.about d)).2]
    cases d with
    | c2o => rw [View.carried, hb.origin.2, List.length_nil]
    | o2c => rw [View.carried, hs]
  · rw [← hr.counted.sent d]
    cases d with
    | c2o => rfl
    | o2c =>
      simp only [View.carried, hr.starts]
      exact List.length_drop

theorem Final.relayed {fair : View → Limit → Int → Prop} {u : View} {l : List Obs}
    (h : Final fair u l) (d : Dir) :
    Socks5d.relayed d (u.filed l).hist = Socks5d.relayed d u.hist := by
  rw [filed_hist, relayed_append, (idle_of_about (h.about d)).2, Nat.add_zero]

theorem Final.starts {fair : View → Limit → Int → Prop} {u : View} {l : List Obs}
    (h : Final fair u l) : Socks5d.starts (u.filed l).hist = Socks5d.starts u.hist := by
  have hl : Socks5d.starts l = [] := filterMap_none fun o ho => by
    have := h.closing o ho
    cases o <;> first | rfl | cases this
  rw [filed_hist, starts_append, hl, List.append_nil]

theorem Final.carried {fair : View → Limit → Int → Prop} {u : View} {l : List Obs}
    (h : Final fair u l) (d : Dir) : (u.filed l).carried d = u.carried d := by
  cases d with
  | c2o => rfl
  | o2c =>
    rw [View.carried, h.starts]
    rfl

/-- The line of the log that a record is, behind the time. -/
def LogRecord.Says (r : LogRecord) (t : Int) (columns : List Bytes) : Prop :=
  r.text = if (iso8601 t).length < timestampLen then some (line 9 10 (iso8601 t :: columns)) else none

/-- The columns of a session that say who and whither. -/
def View.columns (v : View) (d : Bytes × UInt16) : List Bytes :=
  [v.logUser.getD (lit "-"), d.1 ++ lit ":" ++ lit (toString d.2.toNat)]

/-- The records of a session that ended, by how far it came, and what they say. -/
structure View.LoggedExactly (v : View) : Prop where
  silent : v.dest = none → records v.hist = []
  failed : ∀ d, v.dest = some d → (∀ t, .entered .copy t ∉ v.hist) →
    ∃ t reason, records v.hist = [.failed t v.logUser d.1 d.2 reason] ∧
      (LogRecord.failed t v.logUser d.1 d.2 reason).Says t (v.columns d ++ [lit "-", lit "-",
        lit "FAIL: " ++ (reason.map FailureReason.text).getD (lit "unknown")])
  closed : (∃ t, .entered .copy t ∈ v.hist) → ∃ d t t', v.dest = some d ∧ records v.hist =
    [.opened t v.logUser d.1 d.2, .closed t' v.logUser d.1 d.2 (UInt64.ofNat (v.carried .c2o))
      (UInt64.ofNat (v.carried .o2c))] ∧
    (LogRecord.opened t v.logUser d.1 d.2).Says t (v.columns d ++ [lit "-", lit "-", lit "OPEN"]) ∧
    (LogRecord.closed t' v.logUser d.1 d.2 (UInt64.ofNat (v.carried .c2o))
      (UInt64.ofNat (v.carried .o2c))).Says t' (v.columns d ++
        [lit (toString (v.carried .c2o % 2 ^ 64)), lit (toString (v.carried .o2c % 2 ^ 64)),
          lit "CLOSE"])

theorem LogRecord.says (r : LogRecord) : r.Says r.now r.fields.tail := r.text_fields

/-- A session that has a tunnel has entered COPY. -/
theorem Reached.entered {strict : Prop} (h : Reached strict v) :
    v.Before ∨ ∃ t, .entered .copy t ∈ v.hist := by
  have hr := h.relay (P := fun _ t v => .entered .copy t ∈ v.hist) (fun u t _ => ?_)
    fun _ _ hm hmove => ?_
  · exact hr.imp_right fun ⟨_, t, _, hm⟩ => ⟨t, hm⟩
  · rw [startRelay_grown]
    simp
  · obtain ⟨l, hl, -⟩ := hmove.grows
    rw [hl]
    exact List.mem_append_left _ hm

theorem records_logged (rs : List LogRecord) : records (rs.map .logged) = rs := by
  induction rs with
  | nil => rfl
  | cons r rs ih => exact congrArg (r :: ·) ih

theorem Ending.records {fair : View → Limit → Int → Prop} {u : View} {why : List Obs}
    (h : Ending fair u why) : Socks5d.records why = [] := by
  cases h <;> rfl

theorem Closed.logged {e : Ended} (h : Closed τ e) : e.view.LoggedExactly := by
  obtain ⟨u, why, t, reason, hr, he, hv⟩ := h
  have hrec : records e.view.hist = records u.hist ++ (u.lastRecord t reason).toList := by
    have hlast : records [.released] = [] := rfl
    rw [hv, filed_hist, records_append, records_append, records_append, he.records, records_logged,
      hlast, List.append_nil, List.nil_append]
  have hmem : ∀ t', .entered .copy t' ∈ e.view.hist ↔ .entered .copy t' ∈ u.hist := fun t' => by
    rw [hv]
    exact (Final.intro t reason he).mem rfl
  have hd : e.view.dest = u.dest := by rw [hv]; rfl
  have hu : e.view.logUser = u.logUser := by rw [hv]; rfl
  have hc : ∀ d, e.view.carried d = u.carried d := fun d => by
    rw [hv]
    exact (Final.intro t reason he).carried d
  rcases hr.relayed with hb | ⟨u', t', hu', hrel⟩
  · -- the record, if any, is that of a failure
    have hno : ∀ t', .entered .copy t' ∉ u.hist := fun t' hm => by
      have := hb.plain _ hm
      cases this
    refine ⟨fun hn => ?_, fun d hs _ => ⟨t, reason, ?_, LogRecord.says _⟩, fun ⟨t', hm⟩ => absurd ((hmem t').mp hm) (hno t')⟩
    · rw [hrec, hb.unlogged, View.lastRecord, ← hd, hn]
      rfl
    · rw [hrec, hb.unlogged, View.lastRecord, ← hd, hs, hb.unopened, hu]
      rfl
  · have hsome := hu'.staged.2
    obtain ⟨d, hs⟩ := Option.isSome_iff_exists.mp hsome
    obtain ⟨hopen, hdest, huser⟩ := hrel.told
    have hs' : u.dest = some d := hdest.trans hs
    have hname : u'.logUser = u.logUser := by
      unfold View.logUser
      rw [huser]
    refine ⟨fun hn => ?_, fun d' _ hno => ?_, fun _ => ⟨d, t', t, hd.trans hs', ?_,
      LogRecord.says _, ?_⟩⟩
    · rw [hd, hs'] at hn
      cases hn
    · rcases hr.entered with hb | ⟨t'', hm⟩
      · have := hb.unopened.symm.trans hopen
        cases this
      · exact absurd ((hmem t'').mpr hm) (hno t'')
    · have h1 : u.client.asCopy.transferred = UInt64.ofNat (u.carried .c2o) := by
        rw [← hr.carries]
        exact hrel.counted.field .c2o
      have h2 : u.orig.asCopy.transferred = UInt64.ofNat (u.carried .o2c) := by
        rw [← hr.carries]
        exact hrel.counted.field .o2c
      rw [hrec, hrel.records, hs, View.lastRecord, hs', hopen, hc, hc, hu, hname, ← h1, ← h2]
      rfl
    · have hsays := LogRecord.says (.closed t e.view.logUser d.1 d.2
        (UInt64.ofNat (e.view.carried .c2o)) (UInt64.ofNat (e.view.carried .o2c)))
      rw [← UInt64.toNat_ofNat', ← UInt64.toNat_ofNat']
      exact hsays

/-- The live sessions, each once. -/
structure World.Roll (w : World) (act : List Ptr) : Prop where
  nodup : act.Nodup
  serves : ∀ p, p ∈ act ↔ w.Serves p

theorem Orderly.roll (h : Orderly τ ρ w) : w.Roll ρ.act :=
  ⟨h.inv.books.actNodup, fun _ => h.inv.serves_iff.symm⟩

/-- What all sessions, live or ended, have sent in a direction. -/
def World.carried (w : World) (act : List Ptr) (d : Dir) : Nat :=
  (act.map fun p => (w.ctx p).view.carried d).sum + (w.ended.map fun e => e.view.carried d).sum

theorem Orderly.carried (h : Orderly τ ρ w) (d : Dir) :
    totalOf (Socks5d.relayed d) (w.histories ρ) = w.carried ρ.act d := by
  have hact : (ρ.act.map fun p => Socks5d.relayed d (w.mem p).hist) =
      ρ.act.map fun p => (w.ctx p).view.carried d :=
    List.map_congr_left fun p hp => (h.inv.reached p hp).carries d
  have hended : (w.ended.map fun e => Socks5d.relayed d e.s.hist) =
      w.ended.map fun e => e.view.carried d := by
    refine List.map_congr_left fun e he => ?_
    obtain ⟨u, l, hr, hf, hv⟩ := (h.inv.ended e he).final
    rw [hv, hf.carried, ← hr.carries, ← hf.relayed, ← hv]
    rfl
  unfold totalOf World.histories World.carried
  rw [List.map_append, List.sum_append, List.map_map, List.map_map, ← hact, ← hended]
  rfl

/-- The log has what the sessions have recorded and no more, and the records of
each in their order. -/
structure World.Logged (w : World) (act : List Ptr) (log : AccessLog) : Prop where
  all : log.Perm (((act.map fun p => (w.mem p).hist) ++ w.ended.map fun e => e.s.hist).flatMap records)
  inOrder : ∀ e ∈ w.ended, (records e.s.hist).Sublist log

/-- A session that ended has left one record of its failure, or those of its
tunnel with what it carried, or none; the counters are the sums. -/
theorem records_exact (b : Boot) (is : List Input) :
    (∀ e ∈ (b.start.run is).ended, e.view.LoggedExactly) ∧
    ∃ act m log, (b.start.run is).Roll act ∧ (b.start.run is).g.metrics = some m ∧
      (b.start.run is).g.accessLog = some log ∧ (b.start.run is).Logged act log ∧
      m.bytesC2o = UInt64.ofNat ((b.start.run is).carried act .c2o) ∧
      m.bytesO2c = UInt64.ofNat ((b.start.run is).carried act .o2c) := by
  obtain ⟨ρ, h⟩ := b.orderly is
  refine ⟨fun e he => (h.inv.ended e he).logged, ?_⟩
  obtain ⟨m, log, hm, hl, hacc⟩ := h.inv.ledgers.accounts
  refine ⟨ρ.act, m, log, h.roll, hm, hl, ⟨hacc.log.all, fun e he => ?_⟩, ?_, ?_⟩
  · exact hacc.log.inOrder _ (List.mem_append_right _ (List.mem_map_of_mem he))
  · rw [hacc.tally.bytesC2o, h.carried]
  · rw [hacc.tally.bytesO2c, h.carried]

/-! ## How many there are -/

/-- The list of live sessions, its counters, and those of the management. -/
structure World.Accounted (w : World) (act adm : List Ptr) : Prop where
  linked : Linked (fun p => (w.mem p).activeNext) (fun p => (w.mem p).activePrev) none
    w.g.activeHead act
  nodup : act.Nodup
  registered : ∀ p, p ∈ act ↔ ∃ i, w.sel.fds (w.mem p).clientFd = some ⟨i, .socks5, p⟩
  sessions : w.g.activeSessions = act.length
  admNodup : adm.Nodup
  hosts : ∀ m, m ∈ adm ↔ w.Hosts m
  admins : w.g.mngActiveSessions = adm.length
  metrics : ∃ m, w.g.metrics = some m ∧ (m.connAccepted - m.connClosed).toNat = act.length ∧
    m.adminSessions.toNat = adm.length

theorem toNat_ofNat_few {n : Nat} (h : n ≤ itemsMaxSize) : (UInt64.ofNat n).toNat = n := by
  refine UInt64.toNat_ofNat_of_lt' ?_
  unfold itemsMaxSize at h
  exact Nat.lt_of_le_of_lt h (by decide)

theorem Orderly.accounted (h : Orderly τ ρ w) : w.Accounted ρ.act ρ.adm := by
  have hb := h.inv.books
  obtain ⟨m, log, hm, -, hacc⟩ := h.inv.ledgers.accounts
  refine ⟨hb.linked, hb.actNodup, fun p => ⟨fun hp => (h.inv.own p hp).client.1, ?_⟩, hb.active,
    hb.adminNodup, fun _ => h.inv.hosts_iff.symm, hb.admins, m, hm, ?_, ?_⟩
  · rintro ⟨i, hi⟩
    exact (h.inv.registry.socks5 _ _ hi rfl).1
  · have hdiff : m.connAccepted - m.connClosed = UInt64.ofNat ρ.act.length := by
      rw [hacc.accepted, UInt64.add_comm, UInt64.add_sub_cancel]
    rw [hdiff, toNat_ofNat_few h.inv.sessions_few]
  · rw [hacc.admins, toNat_ofNat_few h.inv.admins_few]

/-- The limit on connections is `m`. -/
def World.LimitedTo (m : Int) (w : World) (_ : Input) : Prop :=
  w.g.config.map Config.maxConnections = some m

theorem Books.full_iff {m : Nat} (h : Books ρ w) (hm : 0 < m)
    (hc : w.g.config.map Config.maxConnections = some (m : Int)) :
    w.connectionsFull = false ↔ ρ.act.length < m := by
  obtain ⟨cfg, hcfg, hmax⟩ := Option.map_eq_some_iff.mp hc
  unfold World.connectionsFull
  rw [hcfg, h.active]
  dsimp only
  rw [hmax]
  simp only [gt_iff_lt, Bool.and_eq_false_iff, decide_eq_false_iff_not]
  omega

theorem Orderly.limited {b : Boot} {m : Nat} (hm : 0 < m) :
    ∀ (is : List Input) {ρ : Roster} {w : World}, Orderly b.plain ρ w →
      w.Along (World.LimitedTo m) is → ρ.act.length ≤ m → (w.run is).g.activeSessions ≤ m
  | [], _, _, h, _, hle => h.inv.books.active ▸ hle
  | i :: is, ρ, w, h, ha, hle => by
    obtain ⟨ρ', h1⟩ := h.step (h.granted_plain i)
    refine h1.orderly.limited (w := w.step i) hm is ha.2 ?_
    rcases h1.size with hs | ⟨hs, hroom⟩
    · exact Nat.le_trans hs hle
    · have := (h.inv.books.full_iff hm ha.1).mp hroom
      omega

/-! ## The end of the main loop -/

/-- The main loop ends by itself when it drains and nobody is left. -/
theorem loopTop_exits (he : w.loopTop.phase = .exited) : 1 < w.signalCount ∨
    w.loopTop.draining = true ∧ w.g.activeSessions = 0 ∧ w.g.mngActiveSessions = 0 := by
  unfold World.loopTop at he ⊢
  split at he
  · exact Or.inl ‹_›
  · next hone =>
    rw [if_neg hone]
    dsimp only at he ⊢
    have hg : ∀ v : World, v = (if w.signalCount = 1 ∧ w.draining = false then
        { (w.unregisterListener w.socksFd).unregisterListener w.mngFd with
          socksFd := none, mngFd := none, draining := true }
        else w) → v.g = w.g := by
      rintro v rfl
      split
      · exact (unregisterListener_g _ _).trans (unregisterListener_g _ _)
      · rfl
    generalize hv : (if w.signalCount = 1 ∧ w.draining = false then
        { (w.unregisterListener w.socksFd).unregisterListener w.mngFd with
          socksFd := none, mngFd := none, draining := true }
        else w) = v at he ⊢
    have hgv := hg v hv.symm
    split at he
    · next hd =>
      rw [if_pos hd]
      rw [hgv] at hd
      exact Or.inr hd
    · cases he

theorem Orderly.exits (h : Orderly τ ρ w) (hr : w.Running) {i : Input}
    (he : (w.step i).phase = .exited) : i.event = .failed ∨ 1 < w.signalCount ∨
      (w.step i).draining = true ∧ (∀ p, ¬w.Serves p) ∧ ∀ m, ¬w.Hosts m := by
  have hstep : w.step i = (w.load i).handle i.event := if_pos hr
  have hrun : (w.load i).phase ≠ .exited := hr.2
  obtain ⟨hl, -⟩ := h.inv.load h.calm hr.1 i
  rw [hstep] at he ⊢
  cases hev : i.event with
  | failed => exact Or.inl rfl
  | signal | clock => rw [hev] at he; exact absurd he hrun
  | connected fd err =>
    rw [hev] at he
    refine absurd ?_ hrun
    rw [← he]
    unfold World.handle
    dsimp only
    split
    · split <;> rfl
    · rfl
  | dnsTake => rw [hev] at he; exact absurd ((dnsTake_rest _).2.2.1.symm.trans he) hrun
  | dnsResolve found => rw [hev] at he; exact absurd ((dnsResolve_rest _ _).2.2.1.symm.trans he) hrun
  | dnsNotify allocated =>
    rw [hev] at he
    refine absurd ?_ hrun
    rw [← he]
    unfold World.handle
    dsimp only
    split
    · rfl
    · exact (dnsNotify_rest _ _).2.2.1.symm
  | interrupted =>
    rw [hev] at he
    unfold World.handle at he
    dsimp only at he
    split at he
    · cases he
    · exact absurd he hrun
  | loop rd wr =>
    rw [hev] at he
    have he : ((w.load i).loop rd wr).phase = .exited := he
    show _ ∨ _ ∨ ((w.load i).loop rd wr).draining = true ∧ _
    unfold World.loop at he ⊢
    split at he
    · rcases loopTop_exits he with h1 | ⟨h1, h2, h3⟩
      · exact Or.inr (Or.inl h1)
      · refine Or.inr (Or.inr ⟨h1, fun p hp => ?_, fun m hm => ?_⟩)
        · have h2 : ρ.act.length = 0 := h.inv.books.active.symm.trans h2
          have := h.inv.serves_iff.mp hp
          rw [List.length_eq_zero_iff.mp h2] at this
          cases this
        · have h3 : ρ.adm.length = 0 := h.inv.books.admins.symm.trans h3
          have := h.inv.hosts_iff.mp hm
          rw [List.length_eq_zero_iff.mp h3] at this
          cases this
    · rw [hl.registry.table.noBadDescriptor, if_neg (by simp)] at he
      cases he
    · split at he <;> cases he
    · next hph =>
      split at he
      · next fd rest hn =>
        obtain ⟨p, hp, hfd⟩ := hl.jobs.notices fd (by rw [hn]; simp)
        obtain ⟨⟨i', hi⟩, -⟩ := (hl.own p hp).client
        have hi : (w.load i).sel.fds ((w.load i).mem p).clientFd = some ⟨i', .socks5, p⟩ := hi
        have hphase := handleBlockNotification_phase (w.load i) fd rest ⟨_, hfd ▸ hi, rfl⟩
        rw [hphase, hph] at he
        cases he
      · cases he
    · cases he
    · next hph => exact absurd hph hrun

/-- Between two steps the active list has the sessions there are, the counters
count them and the management sessions, and the limit holds while it lasts. A
server that drains runs on until nobody is left. -/
theorem sessions_accounted (b : Boot) (is : List Input) :
    (∃ act adm, (b.start.run is).Accounted act adm) ∧
    (∀ m : Nat, 0 < m → ∀ is', (b.start.run is).Along (World.LimitedTo m) is' →
      (b.start.run is).g.activeSessions ≤ m → ((b.start.run is).run is').g.activeSessions ≤ m) ∧
    ∀ i, (b.start.run is).Running → ((b.start.run is).step i).phase = .exited →
      i.event = .failed ∨ 1 < (b.start.run is).signalCount ∨
        ((b.start.run is).step i).draining = true ∧
          (∀ p, ¬(b.start.run is).Serves p) ∧ ∀ m, ¬(b.start.run is).Hosts m := by
  obtain ⟨ρ, h⟩ := b.orderly is
  exact ⟨⟨_, _, h.accounted⟩, fun m hm is' ha hle =>
    h.limited hm is' ha (h.inv.books.active ▸ hle), fun i hr he => h.exits hr he⟩

/-! ## Who refers to an object -/

/-- Only the close code gives an object back. -/
theorem Move.unreleased {strict : Prop} {v v' : View} (h : Move strict v v')
    (hn : .released ∉ v.hist) : .released ∉ v'.hist := by
  cases h with
  | relayReceived | relayEof | relayUnread | relaySent | relayUnsent | relayShut =>
    simpa [View.note] using hn
  | _ => simpa [View.note, noOrigin] using hn

theorem Reached.unreleased {strict : Prop} (h : Reached strict v) : .released ∉ v.hist :=
  h.induct (P := fun v => .released ∉ v.hist) (fun _ _ hm => by cases hm)
    fun _ hn hm => hm.unreleased hn

theorem Closed.released {e : Ended} (h : Closed τ e) :
    ∃ l, e.s.hist = l ++ [.released] ∧ .released ∉ l ∧ submissions l = consumptions l := by
  obtain ⟨u, why, t, reason, hr, he, hv⟩ := h
  refine ⟨_, ((congrArg View.hist hv).trans (List.append_assoc ..).symm :), fun hm => ?_, ?_⟩
  · rw [← List.append_assoc, List.mem_append, List.mem_append] at hm
    rcases hm with (hm | hm) | hm
    · exact hr.unreleased hm
    · cases he with
      | finished => cases hm
      | timedOut => cases List.mem_singleton.mp hm
    · obtain ⟨r, -, hr'⟩ := List.mem_map.mp hm
      cases hr'
  · rw [← List.append_assoc, submissions_append, consumptions_append, submissions_logged,
      consumptions_logged, he.settled hr]

/-- The origin's descriptor is registered for the session. -/
def World.originRegistered (w : World) (p : Ptr) : Bool :=
  ((w.mem p).originFd.bind w.sel.fds).any fun it => it.handler = .socks5 ∧ it.data = p

/-- A DNS job was submitted for the session, and its handler has not had the result. -/
def World.inFlight (w : World) (p : Ptr) : Bool :=
  consumptions (w.mem p).hist < submissions (w.mem p).hist

/-- The object of a live session, and what refers to it. -/
structure World.Referred (w : World) (p : Ptr) : Prop where
  client : ∃ i, w.sel.fds (w.mem p).clientFd = some ⟨i, .socks5, p⟩
  references : (w.mem p).references = 1 + (w.originRegistered p).toNat + (w.inFlight p).toNat
  registered : ∀ fd it, w.sel.fds fd = some it → it.handler = .socks5 → it.data = p →
    fd = (w.mem p).clientFd ∨ (w.mem p).originFd = some fd
  pending : w.pending p ≤ (w.inFlight p).toNat
  unreleased : .released ∉ (w.mem p).hist

/-- The pool, beside the live sessions. -/
structure World.Pooled (w : World) (act pool : List Ptr) : Prop where
  chain : Chain (fun p => (w.mem p).next) w.g.pool pool
  size : w.g.poolSize = pool.length
  few : pool.length ≤ maxPool
  nodup : pool.Nodup
  apart : ∀ p ∈ pool, p ∉ act
  /-- What `malloc` gave out is in use, in the pool, or a management session. -/
  allocated : ∀ p, w.os.allocated p = true ↔ p ∈ act ∨ p ∈ pool ∨ w.Hosts p

theorem Orderly.referred (h : Orderly τ ρ w) {p : Ptr} (hp : p ∈ ρ.act) : w.Referred p := by
  have hown := h.inv.own p hp
  have hreach := h.inv.reached p hp
  have hledger := hreach.ledger
  have hjobs := h.inv.jobs.tickets p hp
  have hrefs := hown.here.refs
  have hhist : (w.ctx p).view.hist = (w.mem p).hist := rfl
  unfold View.Ledger at hledger
  rw [hhist] at hledger
  have hflight : submissions (w.mem p).hist =
      consumptions (w.mem p).hist + (w.inFlight p).toNat := by
    unfold World.inFlight
    by_cases hlt : consumptions (w.mem p).hist < submissions (w.mem p).hist
    · rw [decide_eq_true hlt, Bool.toNat_true]
      split at hledger <;> omega
    · rw [decide_eq_false hlt, Bool.toNat_false]
      split at hledger <;> omega
  have horigin : originRefs (w.mem p) = (w.originRegistered p).toNat := by
    unfold originRefs World.originRegistered
    cases hor : (w.mem p).originFd with
    | none => rfl
    | some fd =>
      obtain ⟨⟨i, hi⟩, -⟩ := hown.origin fd hor
      have hi : w.sel.fds fd = some ⟨i, .socks5, p⟩ := hi
      rw [Option.bind_some, hi]
      simp
  have hrefs : (w.mem p).references + consumptions (w.mem p).hist =
    1 + originRefs (w.mem p) + submissions (w.mem p).hist := hrefs
  refine ⟨hown.client.1, by omega, fun fd it hi hh hd => ?_, by omega, hreach.unreleased⟩
  subst hd
  exact (h.inv.registry.socks5 fd it hi hh).2

theorem Orderly.pooled (h : Orderly τ ρ w) : w.Pooled ρ.act ρ.pool := by
  have hb := h.inv.books
  obtain ⟨hn, -, -⟩ := List.nodup_append.mp hb.nodup
  obtain ⟨-, hpool, hdisj⟩ := List.nodup_append.mp hn
  refine ⟨hb.chain, hb.pool, hb.poolMax, hpool, fun p hp ha => hdisj p ha p hp rfl, fun p => ?_⟩
  rw [hb.allocated, h.inv.hosts_iff]
  unfold Roster.all
  rw [List.mem_append, List.mem_append, or_assoc]

/-- Between two steps the count of every live session is that of what refers to
it; nothing refers to an object that was given back, which happens once to each
session, and never to a block that is not in use. -/
theorem references_exact (b : Boot) (is : List Input) :
    (∀ p, (b.start.run is).Serves p → (b.start.run is).Referred p) ∧
    (∃ act pool, (b.start.run is).Roll act ∧ (b.start.run is).Pooled act pool) ∧
    (∀ p, ¬(b.start.run is).Serves p → ∀ j ∈ (b.start.run is).jobs, j.target ≠ p) ∧
    (∀ fd ∈ (b.start.run is).sel.resolutionJobs, ∃ p, (b.start.run is).Serves p ∧
      ((b.start.run is).mem p).clientFd = fd) ∧
    (∀ e ∈ (b.start.run is).ended,
      ∃ l, e.s.hist = l ++ [.released] ∧ .released ∉ l ∧ submissions l = consumptions l) ∧
    (b.start.run is).os.killed ≠ some .badFree := by
  obtain ⟨ρ, h⟩ := b.orderly is
  have hserves := fun p => h.inv.serves_iff (p := p)
  refine ⟨fun p hp => h.referred ((hserves p).mp hp), ⟨_, _, h.roll, h.pooled⟩, fun p hp j hj he => ?_,
    fun fd hfd => ?_, fun e he => (h.inv.ended e he).released, fun hk => ?_⟩
  · exact hp ((hserves p).mpr (he ▸ (h.inv.jobs.jobs j hj).1))
  · obtain ⟨p, hp, he⟩ := h.inv.jobs.notices fd hfd
    exact ⟨p, (hserves p).mpr hp, he⟩
  · rcases h.inv.held.alive with ha | ⟨-, ha⟩ <;> rw [hk] at ha <;> cases ha

end Claims
end Socks5d
