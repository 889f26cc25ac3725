import Socks5d.Reckoning

/-! # The descriptors of the process

What is open is registered and watched for what its owner can handle, so no
descriptor is lost and no event finds a session without a handler for it. -/
namespace Socks5d
open Ctx View

section Claims
variable {τ : Terms} {ρ : Roster} {w : World} {v : View}

/-! ## Open and registered -/

/-- An open descriptor that `accept` or `socket` returned: neither there at the
start nor a listener. -/
def World.Obtained (w : World) (inherited : Fd → Bool) (fd : Fd) : Prop :=
  (∃ k, w.os.fds fd = some k) ∧ inherited fd = false ∧ w.socksFd ≠ some fd ∧ w.mngFd ≠ some fd

theorem Core.obtained_iff (h : Core τ ρ w) (fd : Fd) : w.Obtained τ.inherited fd ↔
    ∃ it, w.sel.fds fd = some it ∧ (it.handler = .socks5 ∨ it.handler = .mng) := by
  constructor
  · rintro ⟨⟨k, hk⟩, hin, hs, hm⟩
    rcases h.held.opened fd k hk with hin' | ⟨it, hit⟩
    · rw [hin] at hin'
      cases hin'
    · refine ⟨it, hit, ?_⟩
      cases hh : it.handler with
      | socks5 => exact Or.inl rfl
      | mng => exact Or.inr rfl
      | socksListener => exact absurd ((h.registry.listening fd it hit (Or.inl hh)).socks hh) hs
      | mngListener => exact absurd ((h.registry.listening fd it hit (Or.inr hh)).mng hh) hm
  · rintro ⟨it, hit, hh⟩
    have hother : ∀ {k : Handler}, k ≠ .socks5 → k ≠ .mng →
        ¬∃ jt, w.sel.fds fd = some jt ∧ jt.handler = k := by
      rintro k h1 h2 ⟨jt, hj, rfl⟩
      cases Option.some.inj (hit.symm.trans hj)
      exact hh.elim h1 h2
    refine ⟨h.registry.table.opened fd it hit, ?_, fun hs => ?_, fun hm => ?_⟩
    · cases hin : τ.inherited fd with
      | false => rfl
      | true =>
        rw [(h.held.inherited fd hin).2] at hit
        cases hit
    · exact hother (by decide) (by decide) (h.registry.socksFd fd hs)
    · exact hother (by decide) (by decide) (h.registry.mngFd fd hm)

/-- Between two steps the descriptors that were opened and are not closed are
those of the sessions; nothing was closed that was not open, and what is not
registered is not watched. -/
theorem descriptors_exact (b : Boot) (is : List Input) :
    (∀ fd, (b.start.run is).Obtained b.others fd ↔
      ∃ it, (b.start.run is).sel.fds fd = some it ∧ (it.handler = .socks5 ∨ it.handler = .mng)) ∧
    (b.start.run is).os.strayClose = false ∧
    ∀ fd, (b.start.run is).sel.fds fd = none →
      (b.start.run is).sel.masterR fd = false ∧ (b.start.run is).sel.masterW fd = false := by
  obtain ⟨ρ, h⟩ := b.orderly is
  have ht := h.inv.registry.table
  refine ⟨h.inv.obtained_iff, h.inv.held.stray, fun fd hn => ?_⟩
  rw [ht.masterR, ht.masterW, hn]
  exact ⟨rfl, rfl⟩

/-! ## Events and handlers -/

/-- The state has the handlers for what is watched. -/
structure Handles (st : SocksState) (i : Interest) : Prop where
  read : i.read = true → (clientStatbl st).onReadReady.isSome = true
  write : i.write = true → (clientStatbl st).onWriteReady.isSome = true

theorem Handles.noop (st : SocksState) : Handles st opNoop :=
  ⟨fun h => (by cases h), fun h => (by cases h)⟩

/-- Every event that is watched for finds its handler. -/
theorem View.Sane.handles (hs : v.Sane) (hd : v.st ≠ some .done) (he : v.st ≠ some .error) :
    Handles (v.st.getD .helloRead) v.ci ∧
      (v.originFd ≠ none → Handles (v.st.getD .helloRead) v.oi) := by
  have hread : ∀ {st}, (clientStatbl st).onReadReady.isSome = true → Handles st opRead :=
    fun h => ⟨fun _ => h, fun h => (by cases h)⟩
  have hwrite : ∀ {st}, (clientStatbl st).onWriteReady.isSome = true → Handles st opWrite :=
    fun h => ⟨fun h => (by cases h), fun _ => h⟩
  unfold View.Sane at hs
  split at hs
  · next hst =>
    obtain ⟨hu, -, -, hci, -⟩ := hs
    rw [hst, hci]
    exact ⟨hread rfl, fun ho => absurd hu.origin ho⟩
  · next hst =>
    obtain ⟨hu, -, hci, -⟩ := hs
    rw [hst, hci]
    exact ⟨hread rfl, fun ho => absurd hu.origin ho⟩
  · next hst =>
    obtain ⟨hu, -, hci, -⟩ := hs
    rw [hst, hci]
    exact ⟨hwrite rfl, fun ho => absurd hu.origin ho⟩
  · next hst =>
    obtain ⟨hu, -, hci, -⟩ := hs
    rw [hst, hci]
    exact ⟨hread rfl, fun ho => absurd hu.origin ho⟩
  · next hst =>
    obtain ⟨hu, -, hci, -⟩ := hs
    rw [hst, hci]
    exact ⟨hwrite rfl, fun ho => absurd hu.origin ho⟩
  · next hst =>
    obtain ⟨hu, -, hci, -⟩ := hs
    rw [hst, hci]
    exact ⟨hread rfl, fun ho => absurd hu.origin ho⟩
  · next hst =>
    obtain ⟨hu, -, hci, -⟩ := hs
    rw [hst, hci]
    exact ⟨.noop _, fun ho => absurd hu.origin ho⟩
  · next hst =>
    obtain ⟨-, -, -, hwait, hopen⟩ := hs
    rw [hst]
    by_cases ho : v.originFd = none
    · refine ⟨?_, fun hne => absurd ho hne⟩
      rcases hwait ho with hci | hci <;> rw [hci]
      · exact .noop _
      · exact hwrite rfl
    · obtain ⟨hci, hoi⟩ := hopen ho
      rw [hci, hoi]
      exact ⟨.noop _, fun _ => hwrite rfl⟩
  · next hst =>
    obtain ⟨-, hci, -, -, hoi⟩ := hs
    rw [hst, hci]
    refine ⟨hwrite rfl, fun ho => ?_⟩
    rw [hoi ho]
    exact .noop _
  · next hst =>
    rw [hst]
    exact ⟨⟨fun _ => rfl, fun _ => rfl⟩, fun _ => ⟨fun _ => rfl, fun _ => rfl⟩⟩
  · next hst => exact absurd hst hd
  · next hst => exact absurd hst he

theorem Orderly.handles (h : Orderly τ ρ w) {fd : Fd} {it : Item} (hit : w.sel.fds fd = some it)
    (hh : it.handler = .socks5) :
    Handles ((w.mem it.data).stm.getD .helloRead) it.interest := by
  obtain ⟨hp, hfd⟩ := h.inv.registry.socks5 fd it hit hh
  have hc := h.calm _ hp
  obtain ⟨h1, h2⟩ := (h.inv.reached _ hp).sane.handles hc.notDone hc.notError
  rcases hfd with rfl | hor
  · have hci : (w.ctx it.data).view.ci = it.interest := by
      show ((w.sel.fds (w.mem it.data).clientFd).map Item.interest).getD opNoop = _
      rw [hit]
      rfl
    exact hci ▸ h1
  · have hoi : (w.ctx it.data).view.oi = it.interest := by
      show (((w.mem it.data).originFd.bind w.sel.fds).map Item.interest).getD opNoop = _
      rw [hor, Option.bind_some, hit]
      rfl
    exact hoi ▸ h2 (by
      show (w.mem it.data).originFd ≠ none
      rw [hor]
      simp)

/-- Between two steps, the state of a session has a handler for every event its
descriptors are watched for, and for every notification on its way; no step
reaches an `abort`. -/
theorem aborts_unreachable (b : Boot) (is : List Input) :
    (∀ fd it, (b.start.run is).sel.fds fd = some it → it.handler = .socks5 →
      Handles (((b.start.run is).mem it.data).stm.getD .helloRead) it.interest) ∧
    (∀ fd ∈ (b.start.run is).sel.resolutionJobs, ∃ i p,
      (b.start.run is).sel.fds fd = some ⟨i, .socks5, p⟩ ∧
        (clientStatbl (((b.start.run is).mem p).stm.getD .helloRead)).onBlockReady.isSome = true) ∧
    (b.start.run is).os.killed ≠ some .abort := by
  obtain ⟨ρ, h⟩ := b.orderly is
  refine ⟨fun fd it hit hh => h.handles hit hh, fun fd hfd => ?_, fun hk => ?_⟩
  · obtain ⟨p, hp, rfl⟩ := h.inv.jobs.notices fd hfd
    obtain ⟨⟨i, hi⟩, -⟩ := (h.inv.own p hp).client
    have hpos : 0 < (b.start.run is).pending p := by
      have := List.count_pos_iff.mpr hfd
      unfold World.pending
      omega
    refine ⟨i, p, hi, ?_⟩
    rw [h.inv.waits hp hpos]
    rfl
  · rcases h.inv.held.alive with ha | ⟨-, ha⟩ <;> rw [hk] at ha <;> cases ha

end Claims
end Socks5d
