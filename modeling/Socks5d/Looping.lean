import Socks5d.Turning
import Socks5d.Outside

/-! # The main loop

Every step of a run keeps the process in good order: the moves of the main
thread, one after the other, and what happens around them. -/
namespace Socks5d
open Ctx Lib.Links

section Loop
variable {τ : Terms} {ρ ρ' : Roster} {w w' : World}

/-! ## Steps that touch no session -/

/-- Answers, the clock and where the loop stands may change at any time. -/
theorem Inv.idle (h : Inv τ ρ w) (hc : AllCalm ρ w) {o : OS} (hf : o.fds = w.os.fds)
    (hs : o.strayClose = w.os.strayClose) (ha : o.allocated = w.os.allocated)
    (hl : w.os.Alive → o.Alive) (ph : Phase) (n : Nat) (d : Bool) :
    Stepped τ (fun _ => False) 0 ρ ρ w
      { w with os := o, phase := ph, signalCount := n, draining := d } := by
  refine h.still hc ?_ rfl ha rfl rfl rfl
  exact {
    mem := fun _ _ => rfl
    mngMem := rfl
    fds := fun fd => by
      show o.fds fd = _
      rw [hf]
      exact Option.map_id'.symm
    streams := fun _ _ => ⟨rfl, rfl⟩
    stray := hs
    alive := hl
    items := rfl
    masterR := rfl
    masterW := rfl
    g := rfl
    metrics := rfl
    socksFd := rfl
    mngFd := rfl
    ended := rfl
    mngEnded := rfl }

theorem Inv.phased (h : Inv τ ρ w) (hc : AllCalm ρ w) (ph : Phase) :
    Stepped τ (fun _ => False) 0 ρ ρ w { w with phase := ph } :=
  h.idle hc rfl rfl rfl id ph w.signalCount w.draining

/-- A running process is given new answers. -/
theorem Inv.load (h : Inv τ ρ w) (hc : AllCalm ρ w) (hr : w.os.killed = none) (i : Input) :
    Inv τ ρ (w.load i) ∧ AllCalm ρ (w.load i) := by
  have h1 := h.idle hc (o := (w.load i).os) rfl rfl rfl (fun _ => Or.inl hr) w.phase w.signalCount
    w.draining
  exact ⟨h1.inv, h1.calm⟩

/-- The master sets hold open descriptors only, so `pselect` takes them. -/
theorem Table.noBadDescriptor (h : Table w.os w.sel) : w.badDescriptor = false := by
  unfold World.badDescriptor
  rw [List.any_eq_false]
  intro fd _ hbad
  obtain ⟨hm, hclosed⟩ := Bool.and_eq_true_iff.mp hbad
  have hnone : w.sel.fds fd = none := h.unregistered (Option.isNone_iff_eq_none.mp hclosed)
  rw [h.masterR, h.masterW, hnone] at hm
  cases hm

/-! ## The listeners are closed -/

/-- A listener is unregistered and closed. -/
def World.unlisten (w : World) (fd : Fd) (s m : Option Fd) : World :=
  { w with sel := w.sel.dropItem fd, os := w.os.close fd, socksFd := s, mngFd := m }

theorem unlisten_other {fd g : Fd} (s m : Option Fd) (hg : g ≠ fd) :
    (w.unlisten fd s m).os.fds g = w.os.fds g ∧ (w.unlisten fd s m).sel.fds g = w.sel.fds g :=
  ⟨Function.update_of_ne hg _ _, dropItem_other hg⟩

theorem unlisten_self (w : World) (fd : Fd) (s m : Option Fd) :
    (w.unlisten fd s m).os.fds fd = none ∧ (w.unlisten fd s m).sel.fds fd = none :=
  ⟨Function.update_self _ _ _, dropItem_self _ _⟩

theorem Inv.unlisten (h : Inv τ ρ w) (hc : AllCalm ρ w) {fd : Fd} {it : Item}
    (hit : w.sel.fds fd = some it) (hl : it.handler = .socksListener ∨ it.handler = .mngListener)
    {s m : Option Fd} (hs : ∀ g, s = some g ↔ w.socksFd = some g ∧ g ≠ fd)
    (hm : ∀ g, m = some g ↔ w.mngFd = some g ∧ g ≠ fd) :
    Inv τ ρ (w.unlisten fd s m) ∧ AllCalm ρ (w.unlisten fd s m) := by
  obtain ⟨k, hk⟩ := h.registry.table.opened fd it hit
  have hne : ∀ {g jt}, w.sel.fds g = some jt → jt.handler = .socks5 ∨ jt.handler = .mng → g ≠ fd := by
    rintro g jt hg hj rfl
    cases Option.some.inj (hg.symm.trans hit)
    rcases hj with hj | hj <;> rw [hj] at hl <;> rcases hl with hl | hl <;> cases hl
  have hkept : ∀ p ∈ ρ.act, Kept w (w.unlisten fd s m) p := fun p hp => by
    refine ⟨rfl, rfl, fun g hg => ?_⟩
    obtain ⟨⟨i, hi⟩, -⟩ := (h.own p hp).owns hg
    exact unlisten_other s m (hne hi (Or.inl rfl))
  have hmk : ∀ q ∈ ρ.adm, MngKept w (w.unlisten fd s m) q := fun q hq => by
    obtain ⟨i, hi⟩ := (h.admins q hq).own.item
    obtain ⟨h1, h2⟩ := unlisten_other (w := w) s m (hne hi (Or.inr rfl))
    exact ⟨rfl, h1, h2⟩
  have hold : ∀ {g jt}, (w.unlisten fd s m).sel.fds g = some jt → w.sel.fds g = some jt ∧ g ≠ fd := by
    intro g jt hg
    by_cases hgf : g = fd
    · rw [hgf, (unlisten_self w fd s m).2] at hg
      cases hg
    · rw [(unlisten_other s m hgf).2] at hg
      exact ⟨hg, hgf⟩
  have hleft : ∀ {g}, (∃ jt, w.sel.fds g = some jt ∧ jt.handler = .socksListener) → g ≠ fd →
      ∃ jt, (w.unlisten fd s m).sel.fds g = some jt ∧ jt.handler = .socksListener := by
    rintro g ⟨jt, hj, hh⟩ hg
    exact ⟨jt, by rw [(unlisten_other s m hg).2]; exact hj, hh⟩
  have hleft' : ∀ {g}, (∃ jt, w.sel.fds g = some jt ∧ jt.handler = .mngListener) → g ≠ fd →
      ∃ jt, (w.unlisten fd s m).sel.fds g = some jt ∧ jt.handler = .mngListener := by
    rintro g ⟨jt, hj, hh⟩ hg
    exact ⟨jt, by rw [(unlisten_other s m hg).2]; exact hj, hh⟩
  have htable : Table (w.unlisten fd s m).os (w.unlisten fd s m).sel := by
    refine (h.registry.table.dropItem fd).withFds fun g jt hg ho => ?_
    obtain ⟨-, hgf⟩ := hold (g := g) hg
    rw [(unlisten_other s m hgf).1]
    exact ho
  have hr := h.registry
  have hcore : Core τ ρ (w.unlisten fd s m) := {
    books := h.books.congr (fun _ => rfl) rfl rfl
    registry := {
      table := htable
      socks5 := fun g jt hg => hr.socks5 g jt (hold hg).1
      mng := fun g jt hg => hr.mng g jt (hold hg).1
      listening := fun g jt hg hh => by
        obtain ⟨hg', hgf⟩ := hold hg
        have hls := hr.listening g jt hg' hh
        exact ⟨hls.interest, fun h1 => (hs g).mpr ⟨hls.socks h1, hgf⟩,
          fun h1 => (hm g).mpr ⟨hls.mng h1, hgf⟩⟩
      socksFd := fun g hg => hleft (hr.socksFd g ((hs g).mp hg).1) ((hs g).mp hg).2
      mngFd := fun g hg => hleft' (hr.mngFd g ((hm g).mp hg).1) ((hm g).mp hg).2 }
    held := by
      refine ⟨fun g k' hk' => ?_, fun g hin => ?_, ?_, h.held.alive⟩
      · have hgf : g ≠ fd := fun he => by
          rw [he, (unlisten_self w fd s m).1] at hk'
          cases hk'
        obtain ⟨h1, h2⟩ := unlisten_other (w := w) s m hgf
        rw [h2]
        exact h.held.opened g k' (h1 ▸ hk')
      · obtain ⟨hopen, hu⟩ := h.held.inherited g hin
        have hgf : g ≠ fd := fun he => by
          rw [he, hit] at hu
          cases hu
        obtain ⟨h1, h2⟩ := unlisten_other (w := w) s m hgf
        rw [h1, h2]
        exact ⟨hopen, hu⟩
      · show (w.os.strayClose || (w.os.fds fd).isNone) = false
        rw [h.held.stray, hk]
        rfl
    own := fun p hp => (hkept p hp).own htable (h.own p hp)
    jobs := ⟨h.jobs.jobs, h.jobs.notices, h.jobs.tickets, h.jobs.prompt⟩
    ledgers := by
      obtain ⟨d, hd, hmail⟩ := h.ledgers.mail
      obtain ⟨mm, log, hmet, hlog, hacc⟩ := h.ledgers.accounts
      exact ⟨⟨d, hd, hmail.posted, hmail.mine, hmail.found⟩,
        mm, log, hmet, hlog, hacc.tally, hacc.accepted, hacc.admins, hacc.log⟩
    ended := h.ended
    admins := fun q hq => (hmk q hq).admin htable (h.admins q hq)
    names := h.names
    secret := h.secret
    left := h.left }
  refine ⟨⟨hcore, fun p hp => ?_⟩, fun p hp => (hkept p hp).calm (hc p hp)⟩
  rw [(hkept p hp).view]
  exact h.reached p hp

theorem unregisterListener_eq {fd : Fd} {it : Item} (h : Table w.os w.sel)
    (hit : w.sel.fds fd = some it) :
    w.unregisterListener (some fd) = w.unlisten fd w.socksFd w.mngFd := by
  unfold World.unregisterListener World.unlisten
  have hv := h.valid fd it hit
  have hn : (invalidFd fd || (w.sel.fds fd).isNone) = false := by rw [hv, hit]; rfl
  simp only [hn, Bool.false_eq_true, if_false]
  rfl

theorem Inv.unregisterSocks (h : Inv τ ρ w) (hc : AllCalm ρ w) :
    Inv τ ρ { w.unregisterListener w.socksFd with socksFd := none } ∧
      AllCalm ρ { w.unregisterListener w.socksFd with socksFd := none } := by
  cases hs : w.socksFd with
  | none =>
    have he : { w.unregisterListener none with socksFd := none } = w :=
      (congrArg (fun s => { w with socksFd := s }) hs).symm
    rw [he]
    exact ⟨h, hc⟩
  | some fd =>
    obtain ⟨it, hit, hh⟩ := h.registry.socksFd fd hs
    have he : { w.unregisterListener (some fd) with socksFd := none } =
        w.unlisten fd none w.mngFd := by
      rw [unregisterListener_eq h.registry.table hit]
      rfl
    rw [he]
    refine h.unlisten hc hit (Or.inl hh) (fun g => ⟨fun hg => (by cases hg), fun ⟨hg, hne⟩ => ?_⟩)
      fun g => ⟨fun hg => ⟨hg, ?_⟩, And.left⟩
    · exact absurd (Option.some.inj (hs.symm.trans hg)).symm hne
    rintro rfl
    obtain ⟨jt, hj, hh'⟩ := h.registry.mngFd g hg
    rw [Option.some.inj (hit.symm.trans hj), hh'] at hh
    cases hh

theorem Inv.unregisterMng (h : Inv τ ρ w) (hc : AllCalm ρ w) (hs : w.socksFd = none) :
    Inv τ ρ { w.unregisterListener w.mngFd with mngFd := none } ∧
      AllCalm ρ { w.unregisterListener w.mngFd with mngFd := none } := by
  cases hm : w.mngFd with
  | none =>
    have he : { w.unregisterListener none with mngFd := none } = w :=
      (congrArg (fun s => { w with mngFd := s }) hm).symm
    rw [he]
    exact ⟨h, hc⟩
  | some fd =>
    obtain ⟨it, hit, hh⟩ := h.registry.mngFd fd hm
    have he : { w.unregisterListener (some fd) with mngFd := none } =
        w.unlisten fd w.socksFd none := by
      rw [unregisterListener_eq h.registry.table hit]
      rfl
    rw [he]
    refine h.unlisten hc hit (Or.inr hh) (fun g => ⟨fun hg => ?_, And.left⟩)
      fun g => ⟨fun hg => (by cases hg), fun ⟨hg, hne⟩ => ?_⟩
    · rw [hs] at hg
      cases hg
    · exact absurd (Option.some.inj (hm.symm.trans hg)).symm hne

theorem unregisterListener_socksFd (w : World) (fd s : Option Fd) :
    { w with socksFd := s }.unregisterListener fd = { w.unregisterListener fd with socksFd := s } := by
  unfold World.unregisterListener
  cases fd with
  | none => rfl
  | some fd =>
    dsimp only
    split <;> rfl

theorem unregisterListener_mngFd (w : World) (fd : Option Fd) :
    (w.unregisterListener fd).mngFd = w.mngFd := by
  unfold World.unregisterListener
  cases fd with
  | none => rfl
  | some fd =>
    dsimp only
    split <;> rfl

/-- The listeners are closed, if they are not yet. -/
theorem Inv.drain (h : Inv τ ρ w) (hc : AllCalm ρ w) :
    Inv τ ρ { (w.unregisterListener w.socksFd).unregisterListener w.mngFd with
      socksFd := none, mngFd := none } ∧
    AllCalm ρ { (w.unregisterListener w.socksFd).unregisterListener w.mngFd with
      socksFd := none, mngFd := none } := by
  obtain ⟨h1, hc1⟩ := h.unregisterSocks hc
  have h2 := h1.unregisterMng hc1 rfl
  have hm : ({ w.unregisterListener w.socksFd with socksFd := none } : World).mngFd = w.mngFd :=
    unregisterListener_mngFd w _
  rw [hm, unregisterListener_socksFd] at h2
  exact h2

/-! ## One step -/

/-- A SOCKS session is registered. -/
def World.Serves (w : World) (p : Ptr) : Prop :=
  ∃ fd it, w.sel.fds fd = some it ∧ it.handler = .socks5 ∧ it.data = p

/-- So is a management session. -/
def World.Hosts (w : World) (m : Ptr) : Prop :=
  ∃ fd it, w.sel.fds fd = some it ∧ it.handler = .mng ∧ it.data = m

theorem Core.serves_iff (h : Core τ ρ w) {p : Ptr} : w.Serves p ↔ p ∈ ρ.act := by
  constructor
  · rintro ⟨fd, it, hit, hh, rfl⟩
    exact (h.registry.socks5 fd it hit hh).1
  · intro hp
    obtain ⟨⟨i, hi⟩, -⟩ := (h.own p hp).client
    exact ⟨_, _, hi, rfl, rfl⟩

theorem Core.hosts_iff (h : Core τ ρ w) {m : Ptr} : w.Hosts m ↔ m ∈ ρ.adm := by
  constructor
  · rintro ⟨fd, it, hit, hh, rfl⟩
    exact (h.registry.mng fd it hit hh).1
  · intro hm
    obtain ⟨i, hi⟩ := (h.admins m hm).own.item
    exact ⟨_, _, hi, rfl, rfl⟩

/-- What is taken for granted of one step. -/
structure Terms.Met (τ : Terms) (w : World) (e : Event) : Prop where
  clear : τ.strict → ∀ rd wr, e = .loop rd wr → ∀ i n, w.phase = .walk i n → i ≤ n → w.Clear i
  fair : ∀ rd wr, e = .loop rd wr → w.phase = .sweep → ∀ p, w.Serves p → ∀ l, w.due p = some l →
    τ.fair (w.ctx p).view l w.os.now
  prompt : τ.prompt → e ≠ .dnsNotify false

/-- What every step of a run does. -/
structure Advanced (τ : Terms) (ρ ρ' : Roster) (w w' : World) : Prop where
  inv : Inv τ ρ' w'
  calm : AllCalm ρ' w'
  heard : τ.strict → ∀ i n, w'.phase = .walk i n → w'.Heard i
  size : ρ'.act.length ≤ ρ.act.length ∨
    ρ'.act.length ≤ ρ.act.length + 1 ∧ w.connectionsFull = false
  settings : w'.g.users = w.g.users ∧ w'.g.config = w.g.config ∨
    ∃ m, Mng.Commanded τ.secret (w.mngMem m).hist (w'.mngMem m).hist

theorem Stepped.advanced {busy : Ptr → Prop} {n : Nat} (h : Stepped τ busy n ρ ρ' w w')
    (hn : n = 0 ∨ n = 1 ∧ (ρ'.act = ρ.act ∨ w.connectionsFull = false))
    (hh : τ.strict → ∀ i n, w'.phase = .walk i n → w'.Heard i) : Advanced τ ρ ρ' w w' where
  inv := h.inv
  calm := h.calm
  heard := hh
  size := by
    have hs := h.size
    rcases hn with rfl | ⟨rfl, he | hf⟩
    · exact Or.inl hs
    · exact Or.inl (by rw [he])
    · exact Or.inr ⟨hs, hf⟩
  settings := h.settings.imp_right fun ⟨m, _, hc⟩ => ⟨m, hc⟩

/-- A move that does nothing. -/
theorem Advanced.refl (h : Inv τ ρ w) (hc : AllCalm ρ w)
    (hh : τ.strict → ∀ i n, w.phase = .walk i n → w.Heard i) : Advanced τ ρ ρ w w :=
  (@Stepped.refl τ (fun _ => False) ρ w h hc).advanced (Or.inl rfl) hh

/-- A step of the network or the DNS worker. -/
theorem Advanced.outside (h : Inv τ ρ w' ∧ AllCalm ρ w') (hu : w'.g.users = w.g.users)
    (hc : w'.g.config = w.g.config)
    (hh : τ.strict → ∀ i n, w'.phase = .walk i n → w'.Heard i) : Advanced τ ρ ρ w w' where
  inv := h.1
  calm := h.2
  heard := hh
  size := Or.inl (Nat.le_refl _)
  settings := Or.inl ⟨hu, hc⟩

theorem World.Heard.congr {i : Fd} (h : w.Heard i) (hf : w'.os.fds = w.os.fds)
    (hs : w'.sel.slaveW = w.sel.slaveW) : w'.Heard i := by
  unfold World.Heard
  rw [hf, hs]
  exact h

theorem closeFd_phase (w : World) (p : Ptr) (fd : Fd) : (w.closeFd p fd).phase = w.phase := by
  unfold World.closeFd
  split <;> rfl

theorem socksv5Done_phase (w : World) (p : Ptr) : (w.socksv5Done p).phase = w.phase := by
  unfold World.socksv5Done
  dsimp only
  obtain ⟨-, -, ho, -⟩ := unlink_rest (w.put (socks5LogEvent (w.ctx p))) p
  have hph : ((w.put (socks5LogEvent (w.ctx p))).unlink p).phase = w.phase :=
    congrArg (fun t => t.2.1) ho
  split
  · exact (closeFd_phase _ _ _).trans ((closeFd_phase _ _ _).trans hph)
  · exact (closeFd_phase _ _ _).trans hph

theorem handleBlockNotification_phase (w : World) (fd : Fd) (rest : List Fd)
    (hs : ∃ it, w.sel.fds fd = some it ∧ it.handler = .socks5) :
    (w.handleBlockNotification fd rest).phase = w.phase := by
  obtain ⟨it, hit, hh⟩ := hs
  unfold World.handleBlockNotification World.handleBlock World.runSocks
  dsimp only
  rw [hit]
  dsimp only
  rw [hh]
  dsimp only
  split
  · exact socksv5Done_phase _ _
  · rfl

theorem unregisterListener_g (w : World) (fd : Option Fd) : (w.unregisterListener fd).g = w.g := by
  unfold World.unregisterListener
  cases fd with
  | none => rfl
  | some fd =>
    dsimp only
    split <;> rfl

/-- The signal checks. -/
theorem Inv.loopTop (h : Inv τ ρ w) (hc : AllCalm ρ w) :
    (Inv τ ρ w.loopTop ∧ AllCalm ρ w.loopTop) ∧ w.loopTop.g = w.g ∧
      (w.loopTop.phase = .select ∨ w.loopTop.phase = .exited) := by
  have hend : ∀ {v : World} (ph : Phase), Inv τ ρ v ∧ AllCalm ρ v → v.g = w.g →
      ph = .select ∨ ph = .exited →
      (Inv τ ρ { v with phase := ph } ∧ AllCalm ρ { v with phase := ph }) ∧
        ({ v with phase := ph } : World).g = w.g ∧
        (({ v with phase := ph } : World).phase = .select ∨
          ({ v with phase := ph } : World).phase = .exited) := by
    intro v ph hv hg hph
    have h1 := hv.1.phased hv.2 ph
    exact ⟨⟨h1.inv, h1.calm⟩, hg, hph⟩
  unfold World.loopTop
  split
  · exact hend _ ⟨h, hc⟩ rfl (Or.inr rfl)
  · dsimp only
    have hv : ∀ v : World, v = (if w.signalCount = 1 ∧ w.draining = false then
        { (w.unregisterListener w.socksFd).unregisterListener w.mngFd with
          socksFd := none, mngFd := none, draining := true }
        else w) → (Inv τ ρ v ∧ AllCalm ρ v) ∧ v.g = w.g := by
      rintro v rfl
      split
      · obtain ⟨h1, hc1⟩ := h.drain hc
        have h2 := h1.idle hc1 rfl rfl rfl id
          ((w.unregisterListener w.socksFd).unregisterListener w.mngFd).phase
          ((w.unregisterListener w.socksFd).unregisterListener w.mngFd).signalCount true
        refine ⟨⟨h2.inv, h2.calm⟩, ?_⟩
        exact (unregisterListener_g _ _).trans (unregisterListener_g _ _)
      · exact ⟨⟨h, hc⟩, rfl⟩
    generalize hveq : (if w.signalCount = 1 ∧ w.draining = false then
        { (w.unregisterListener w.socksFd).unregisterListener w.mngFd with
          socksFd := none, mngFd := none, draining := true }
        else w) = v
    obtain ⟨h1, hg⟩ := hv v hveq.symm
    split
    · exact hend _ h1 hg (Or.inr rfl)
    · exact hend _ h1 hg (Or.inl rfl)

/-- The next move of the main thread. -/
theorem Inv.loop (h : Inv τ ρ w) (hc : AllCalm ρ w)
    (hh : τ.strict → ∀ i n, w.phase = .walk i n → w.Heard i) {rd wr : Fd → Bool}
    (hm : τ.Met w (.loop rd wr)) : ∃ ρ', Advanced τ ρ ρ' w (w.loop rd wr) := by
  -- a move to a phase that is not the walk needs no marks
  have hother : ∀ {w' : World} {ph : Phase}, w'.phase = ph → (∀ i n, ph ≠ .walk i n) →
      τ.strict → ∀ i n, w'.phase = .walk i n → w'.Heard i := by
    intro w' ph hph hne _ i n hw
    exact absurd (hph.symm.trans hw) (hne i n)
  unfold World.loop
  cases hph : w.phase with
  | top =>
    obtain ⟨h1, hg, hp⟩ := h.loopTop hc
    refine ⟨ρ, .outside h1 (congrArg Globals.users hg) (congrArg Globals.config hg) ?_⟩
    rcases hp with hp | hp <;> exact hother hp fun _ _ he => by cases he
  | select =>
    dsimp only
    rw [h.registry.table.noBadDescriptor, if_neg (by simp)]
    obtain ⟨h1, hc1⟩ := h.pselect hc rd wr
    have h2 := h1.phased hc1 (.walk 0 w.sel.maxFd)
    refine ⟨ρ, .outside ⟨h2.inv, h2.calm⟩ rfl rfl fun _ i n _ fd _ hmark k hk => ?_⟩
    obtain ⟨k0, -, rfl⟩ := Option.map_eq_some_iff.mp
      (show (w.os.fds fd).map (Sock.marked ((w.pselect rd wr).sel.slaveW fd)) = some k from hk)
    have hmark : (w.pselect rd wr).sel.slaveW fd = true := hmark
    show (k0.reported || (w.pselect rd wr).sel.slaveW fd) = true
    rw [hmark, Bool.or_true]
  | walk i n =>
    dsimp only
    split
    · next hle =>
      obtain ⟨ρ', m, h1, h2, h3⟩ := h.dispatch hc i (fun hs => hh hs i n hph)
        fun hs => hm.clear hs rd wr rfl i n hph hle
      have h4 := h1.inv.phased h1.calm (.walk (i + 1) n)
      refine ⟨ρ', (h1.andThen (h4.mono fun _ hf => hf.elim) (Or.inr ⟨rfl, rfl⟩)).advanced h2
        fun hs j m hw => ?_⟩
      cases hw
      exact h3 hs
    · exact ⟨ρ, (h.phased hc .notify).advanced (Or.inl rfl) (hother rfl fun _ _ he => by cases he)⟩
  | notify =>
    dsimp only
    cases hn : w.sel.resolutionJobs with
    | nil => exact ⟨ρ, (h.phased hc .sweep).advanced (Or.inl rfl) (hother rfl fun _ _ he => by cases he)⟩
    | cons fd rest =>
      obtain ⟨p, hp, hfd, ρ', h1⟩ := h.blockNotification hc hn
      obtain ⟨⟨i, hi⟩, -⟩ := (h.own p hp).client
      have hi : w.sel.fds (w.mem p).clientFd = some ⟨i, .socks5, p⟩ := hi
      have hphase := handleBlockNotification_phase w fd rest ⟨_, hfd ▸ hi, rfl⟩
      exact ⟨ρ', h1.advanced (Or.inl rfl) (hother (hphase.trans hph) fun _ _ he => by cases he)⟩
  | sweep =>
    obtain ⟨ρ', h1⟩ := h.checkTimeouts hc fun p hp l hd =>
      hm.fair rd wr rfl hph p (h.toCore.serves_iff.mpr hp) l hd
    have h1 := h1.stepped
    have h2 := h1.inv.phased h1.calm .top
    exact ⟨ρ', (h1.trans (h2.mono fun _ hf => hf.elim)).advanced (Or.inl rfl)
      (hother rfl fun _ _ he => by cases he)⟩
  | exited =>
    exact ⟨ρ, .refl h hc hh⟩

theorem dnsTake_rest (w : World) : w.dnsTake.os = w.os ∧ w.dnsTake.sel = w.sel ∧
    w.dnsTake.phase = w.phase ∧ w.dnsTake.g.users = w.g.users ∧ w.dnsTake.g.config = w.g.config := by
  unfold World.dnsTake
  split <;> exact ⟨rfl, rfl, rfl, rfl, rfl⟩

theorem dnsResolve_rest (w : World) (found : List SockAddr) :
    (w.dnsResolve found).os = w.os ∧ (w.dnsResolve found).sel = w.sel ∧
      (w.dnsResolve found).phase = w.phase ∧ (w.dnsResolve found).g.users = w.g.users ∧
      (w.dnsResolve found).g.config = w.g.config := by
  unfold World.dnsResolve
  split <;> exact ⟨rfl, rfl, rfl, rfl, rfl⟩

theorem dnsNotify_rest (w : World) (allocated : Bool) : (w.dnsNotify allocated).os = w.os ∧
    (w.dnsNotify allocated).sel.slaveW = w.sel.slaveW ∧
      (w.dnsNotify allocated).phase = w.phase ∧ (w.dnsNotify allocated).g.users = w.g.users ∧
      (w.dnsNotify allocated).g.config = w.g.config := by
  unfold World.dnsNotify
  split <;> exact ⟨rfl, rfl, rfl, rfl, rfl⟩

theorem settled_heard {i fd : Fd} {k : Sock} (h : w.Heard i) (hk : w.os.fds fd = some k) (conn : Conn)
    (err : Option Errno) :
    { w with os := w.os.setFd fd (some { k with conn := conn, soError := err }) }.Heard i := by
  intro g hle hmark k' hk'
  rw [(settled_network hk conn err).fds g] at hk'
  obtain ⟨k0, hk0, rfl⟩ := Option.map_eq_some_iff.mp hk'
  have hr : (Sock.settled fd conn err g k0).reported = k0.reported := by
    unfold Sock.settled
    split <;> rfl
  rw [hr]
  exact h g hle hmark k0 hk0

/-- Whatever happens next. -/
theorem Inv.handle (h : Inv τ ρ w) (hc : AllCalm ρ w)
    (hh : τ.strict → ∀ i n, w.phase = .walk i n → w.Heard i) {e : Event} (hm : τ.Met w e) :
    ∃ ρ', Advanced τ ρ ρ' w (w.handle e) := by
  have hsame : ∀ {w' : World}, w'.os.fds = w.os.fds → w'.sel.slaveW = w.sel.slaveW →
      w'.phase = w.phase → τ.strict → ∀ i n, w'.phase = .walk i n → w'.Heard i := by
    intro w' hf hs hp hst i n hw
    exact (hh hst i n (hp ▸ hw)).congr hf hs
  have hother : ∀ {w' : World} {ph : Phase}, w'.phase = ph → (∀ i n, ph ≠ .walk i n) →
      τ.strict → ∀ i n, w'.phase = .walk i n → w'.Heard i := by
    intro w' ph hph hne _ i n hw
    exact absurd (hph.symm.trans hw) (hne i n)
  cases e with
  | signal =>
    have h1 := h.idle hc rfl rfl rfl id w.phase (w.signalCount + 1) w.draining
    exact ⟨ρ, h1.advanced (Or.inl rfl) (hsame rfl rfl rfl)⟩
  | clock t =>
    have h1 := h.idle hc (o := { w.os with now := t }) rfl rfl rfl id w.phase w.signalCount
      w.draining
    exact ⟨ρ, h1.advanced (Or.inl rfl) (hsame rfl rfl rfl)⟩
  | connected fd err =>
    have hrefl : ∃ ρ', Advanced τ ρ ρ' w w :=
      ⟨ρ, .refl h hc hh⟩
    unfold World.handle
    dsimp only
    cases hk : w.os.fds fd with
    | none => exact hrefl
    | some k =>
      dsimp only
      split
      · next hconn =>
        cases err with
        | none =>
          have hne : Conn.established ≠ .inProgress := by simp
          exact ⟨ρ, .outside (h.settled hc hk hconn hne none) rfl rfl fun hs i n hw =>
            settled_heard (hh hs i n hw) hk _ none⟩
        | some e =>
          have hne : Conn.refused ≠ .inProgress := by simp
          exact ⟨ρ, .outside (h.settled hc hk hconn hne (some e)) rfl rfl fun hs i n hw =>
            settled_heard (hh hs i n hw) hk _ (some e)⟩
      · exact hrefl
  | dnsTake =>
    obtain ⟨ho, hs, hp, hu, hcfg⟩ := dnsTake_rest w
    exact ⟨ρ, .outside (h.dnsTake hc) hu hcfg
      (hsame (congrArg OS.fds ho) (congrArg Selector.slaveW hs) hp)⟩
  | dnsResolve found =>
    obtain ⟨ho, hs, hp, hu, hcfg⟩ := dnsResolve_rest w found
    exact ⟨ρ, .outside (h.dnsResolve hc found) hu hcfg
      (hsame (congrArg OS.fds ho) (congrArg Selector.slaveW hs) hp)⟩
  | dnsNotify allocated =>
    unfold World.handle
    dsimp only
    split
    · exact ⟨ρ, .refl h hc hh⟩
    · obtain ⟨ho, hs, hp, hu, hcfg⟩ := dnsNotify_rest w allocated
      refine ⟨ρ, .outside (h.dnsNotify hc fun hpr => ?_) hu hcfg
        (hsame (congrArg OS.fds ho) hs hp)⟩
      cases allocated with
      | true => rfl
      | false => exact absurd rfl (hm.prompt hpr)
  | loop rd wr => exact h.loop hc hh hm
  | interrupted =>
    unfold World.handle
    dsimp only
    split
    · exact ⟨ρ, (h.phased hc .notify).advanced (Or.inl rfl) (hother rfl fun _ _ he => by cases he)⟩
    · exact ⟨ρ, .refl h hc hh⟩
  | failed =>
    unfold World.handle
    dsimp only
    split
    · exact ⟨ρ, (h.phased hc .exited).advanced (Or.inl rfl) (hother rfl fun _ _ he => by cases he)⟩
    · exact ⟨ρ, .refl h hc hh⟩

end Loop
end Socks5d
