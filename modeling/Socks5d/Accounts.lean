import Socks5d.Ownership
import Mathlib.Data.List.Perm.Basic

/-! # What the histories of all sessions add up to

The shared counters, the access log and the queue of the DNS worker, each
against the list of all histories. An event makes one history grow; the
counters and the log follow by what was added. -/
namespace Socks5d

/-! ## Counters -/

def totalOf (f : List Obs → Nat) (hs : List (List Obs)) : Nat := (hs.map f).sum

/-- Counters that moved by what `l` charges. -/
structure Charged (m m' : Metrics) (l : List Obs) : Prop where
  originOk : m'.originOk = m.originOk + UInt64.ofNat (connections l)
  originFail : m'.originFail = m.originFail + UInt64.ofNat (failures l)
  authFail : m'.authFail = m.authFail + UInt64.ofNat (refusals l)
  bytesC2o : m'.bytesC2o = m.bytesC2o + UInt64.ofNat (relayed .c2o l)
  bytesO2c : m'.bytesO2c = m.bytesO2c + UInt64.ofNat (relayed .o2c l)
  accepted : m'.connAccepted = m.connAccepted
  closed : m'.connClosed = m.connClosed
  rejected : m'.connRejected = m.connRejected
  admins : m'.adminSessions = m.adminSessions

theorem Charged.refl (m : Metrics) : Charged m m [] := by
  constructor <;> simp

theorem Charged.trans {a b c : Metrics} {l₁ l₂ : List Obs} (h₁ : Charged a b l₁)
    (h₂ : Charged b c l₂) : Charged a c (l₁ ++ l₂) where
  originOk := by
    rw [h₂.originOk, h₁.originOk, connections_append, UInt64.ofNat_add, UInt64.add_assoc]
  originFail := by
    rw [h₂.originFail, h₁.originFail, failures_append, UInt64.ofNat_add, UInt64.add_assoc]
  authFail := by
    rw [h₂.authFail, h₁.authFail, refusals_append, UInt64.ofNat_add, UInt64.add_assoc]
  bytesC2o := by
    rw [h₂.bytesC2o, h₁.bytesC2o, relayed_append, UInt64.ofNat_add, UInt64.add_assoc]
  bytesO2c := by
    rw [h₂.bytesO2c, h₁.bytesO2c, relayed_append, UInt64.ofNat_add, UInt64.add_assoc]
  accepted := h₂.accepted.trans h₁.accepted
  closed := h₂.closed.trans h₁.closed
  rejected := h₂.rejected.trans h₁.rejected
  admins := h₂.admins.trans h₁.admins

theorem Obs.charged (o : Obs) (m : Metrics) : Charged m (o.charge m) [o] := by
  cases o with
  | completed e r k => cases e <;> constructor <;> simp [Obs.charge, Metrics.metricsOriginOk]
  | connectFailed => constructor <;> simp [Obs.charge, Metrics.metricsOriginFail]
  | authProcessed us p status =>
    by_cases hs : status = 0 <;> constructor <;>
      simp [Obs.charge, hs, Metrics.metricsAuthFail]
  | relaySend d n =>
    cases n with
    | none => constructor <;> simp [Obs.charge]
    | some n =>
      cases d <;> constructor <;>
        simp [Obs.charge, Metrics.metricsAddBytesC2o, Metrics.metricsAddBytesO2c]
  | _ => constructor <;> simp [Obs.charge]

theorem charged : ∀ (l : List Obs) (m : Metrics), Charged m (charge l m) l
  | [], m => .refl m
  | o :: l, m => by
    have h := (o.charged m).trans (charged l (o.charge m))
    exact h

/-- The counters that follow the histories. -/
structure Tally (hs : List (List Obs)) (m : Metrics) : Prop where
  originOk : m.originOk = UInt64.ofNat (totalOf connections hs)
  originFail : m.originFail = UInt64.ofNat (totalOf failures hs)
  authFail : m.authFail = UInt64.ofNat (totalOf refusals hs)
  bytesC2o : m.bytesC2o = UInt64.ofNat (totalOf (relayed .c2o) hs)
  bytesO2c : m.bytesO2c = UInt64.ofNat (totalOf (relayed .o2c) hs)

/-! ## One history grows -/

/-- The history `h` grew by `l`; the others are as they were. -/
def Grown (h : List Obs) (hs hs' : List (List Obs)) (l : List Obs) : Prop :=
  ∃ rest, hs.Perm (h :: rest) ∧ hs'.Perm ((h ++ l) :: rest)

section Grown
variable {h : List Obs} {hs hs' : List (List Obs)} {l : List Obs}

theorem Grown.total (hg : Grown h hs hs' l) {f : List Obs → Nat}
    (hf : ∀ a b, f (a ++ b) = f a + f b) : totalOf f hs' = totalOf f hs + f l := by
  obtain ⟨rest, h1, h2⟩ := hg
  unfold totalOf
  rw [(h1.map f).sum_nat, (h2.map f).sum_nat]
  simp only [List.map_cons, List.sum_cons, hf]
  omega

theorem Grown.flatMap {α : Type} (hg : Grown h hs hs' l) {f : List Obs → List α}
    (hf : ∀ a b, f (a ++ b) = f a ++ f b) : (hs'.flatMap f).Perm (hs.flatMap f ++ f l) := by
  obtain ⟨rest, h1, h2⟩ := hg
  have h3 : (hs.flatMap f).Perm (f h ++ rest.flatMap f) := h1.flatMap_right f
  refine (h2.flatMap_right f).trans ?_
  rw [List.flatMap_cons, hf, List.append_assoc]
  refine List.Perm.trans ?_ (h3.append_right (f l)).symm
  rw [List.append_assoc]
  exact List.Perm.append_left _ List.perm_append_comm

theorem Tally.grow {m m' : Metrics} (ht : Tally hs m) (hg : Grown h hs hs' l)
    (hc : Charged m m' l) : Tally hs' m' where
  originOk := by rw [hc.originOk, ht.originOk, hg.total connections_append, UInt64.ofNat_add]
  originFail := by rw [hc.originFail, ht.originFail, hg.total failures_append, UInt64.ofNat_add]
  authFail := by rw [hc.authFail, ht.authFail, hg.total refusals_append, UInt64.ofNat_add]
  bytesC2o := by
    rw [hc.bytesC2o, ht.bytesC2o, hg.total fun a b => relayed_append a b _, UInt64.ofNat_add]
  bytesO2c := by
    rw [hc.bytesO2c, ht.bytesO2c, hg.total fun a b => relayed_append a b _, UInt64.ofNat_add]

theorem Tally.congr {m : Metrics} (ht : Tally hs m)
    (he : ∀ f, f [] = 0 → totalOf f hs' = totalOf f hs) : Tally hs' m where
  originOk := by rw [he _ connections_nil]; exact ht.originOk
  originFail := by rw [he _ failures_nil]; exact ht.originFail
  authFail := by rw [he _ refusals_nil]; exact ht.authFail
  bytesC2o := by rw [he _ (relayed_nil _)]; exact ht.bytesC2o
  bytesO2c := by rw [he _ (relayed_nil _)]; exact ht.bytesO2c

/-- A session that has done nothing yet. -/
theorem Tally.fresh {m : Metrics} (ht : Tally hs m) : Tally ([] :: hs) m :=
  ht.congr fun f hf => by simp [totalOf, hf]

end Grown

/-! ## The log -/

/-- The log has the records of the histories and no others, those of each in
their order. -/
structure Recorded (hs : List (List Obs)) (log : AccessLog) : Prop where
  all : log.Perm (hs.flatMap records)
  inOrder : ∀ h ∈ hs, (records h).Sublist log

/-- A session that has done nothing yet. -/
theorem Recorded.fresh {hs : List (List Obs)} {log : AccessLog} (h : Recorded hs log) :
    Recorded ([] :: hs) log := by
  refine ⟨h.all, fun x hx => ?_⟩
  rcases List.mem_cons.mp hx with rfl | hx
  · exact List.nil_sublist _
  · exact h.inOrder x hx

theorem Recorded.grow {h : List Obs} {hs hs' : List (List Obs)} {l : List Obs} {log : AccessLog}
    (hr : Recorded hs log) (hg : Grown h hs hs' l) : Recorded hs' (log ++ records l) := by
  refine ⟨(hr.all.append_right _).trans (hg.flatMap records_append).symm, fun x hx => ?_⟩
  obtain ⟨rest, h1, h2⟩ := hg
  rcases List.mem_cons.mp (h2.mem_iff.mp hx) with rfl | hx
  · rw [records_append]
    exact (hr.inOrder h (h1.mem_iff.mpr List.mem_cons_self)).append (List.Sublist.refl _)
  · exact (hr.inOrder x (h1.mem_iff.mpr (List.mem_cons_of_mem _ hx))).trans
      (List.sublist_append_left _ _)

/-! ## The queue of the DNS worker -/

/-- The jobs that are not resolved yet, oldest first. -/
def DnsWorker.waiting (d : DnsWorker) : List DnsJob :=
  (match d.current with
    | some (job, false) => [job]
    | _ => []) ++ d.queue

/-- Jobs are resolved in the order they were handed over, each is some session's,
and a result that was had is the one of that job. -/
structure Posted (hs : List (List Obs)) (d : DnsWorker) : Prop where
  order : d.submitted = d.resolved.map Prod.fst ++ d.waiting
  owners : (hs.flatMap tickets).Perm (List.range d.submitted.length)
  had : ∀ h ∈ hs, ∀ found, .dnsConsumed found ∈ h →
    ∃ k ∈ tickets h, ∃ job, d.resolved[k]? = some (job, found)

theorem Posted.fresh {hs : List (List Obs)} {d : DnsWorker} (h : Posted hs d) :
    Posted ([] :: hs) d where
  order := h.order
  owners := h.owners
  had x hx found hf := by
    rcases List.mem_cons.mp hx with rfl | hx
    · cases hf
    · exact h.had x hx found hf

/-- A history grows by jobs it hands over and results it has. -/
theorem Posted.grow {h : List Obs} {hs hs' : List (List Obs)} {l : List Obs} {d : DnsWorker}
    {j : List DnsJob} (hp : Posted hs d) (hg : Grown h hs hs' l)
    (ht : tickets l = List.range' d.submitted.length j.length)
    (hc : ∀ found, .dnsConsumed found ∈ l →
      ∃ k ∈ tickets h, ∃ job, d.resolved[k]? = some (job, found)) :
    Posted hs' { d with queue := d.queue ++ j, submitted := d.submitted ++ j } where
  order := by
    show d.submitted ++ j = d.resolved.map Prod.fst ++ (_ ++ (d.queue ++ j))
    rw [hp.order, DnsWorker.waiting, List.append_assoc, List.append_assoc]
  owners := by
    refine (hg.flatMap tickets_append).trans ?_
    rw [ht, List.length_append, List.range_eq_range', List.range'_append_1.symm, Nat.zero_add,
      ← List.range_eq_range']
    exact hp.owners.append_right _
  had x hx found hf := by
    obtain ⟨rest, h1, h2⟩ := hg
    rcases List.mem_cons.mp (h2.mem_iff.mp hx) with rfl | hx
    · have hmem : ∀ k ∈ tickets h, k ∈ tickets (h ++ l) := fun k hk => by
        rw [tickets_append]; exact List.mem_append_left _ hk
      rcases List.mem_append.mp hf with hf | hf
      · obtain ⟨k, hk, hj⟩ := hp.had h (h1.mem_iff.mpr List.mem_cons_self) found hf
        exact ⟨k, hmem k hk, hj⟩
      · obtain ⟨k, hk, hj⟩ := hc found hf
        exact ⟨k, hmem k hk, hj⟩
    · exact hp.had x (h1.mem_iff.mpr (List.mem_cons_of_mem _ hx)) found hf

end Socks5d
