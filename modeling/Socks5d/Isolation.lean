import Socks5d.Deadlines
import Socks5d.Sessions

/-! # Sessions do not meet

All sessions share one thread, one table of descriptors, one pool and one DNS
worker. What happens next still concerns the objects whose turn it is, and no
others: the rest keep their state, their connections and their registration. -/
namespace Socks5d
open Ctx View Lib.Links

/-- The objects whose turn an event is: those whose descriptor it is about, whose
result has come, or whose time has run out. -/
def World.Concerns (w : World) (q : Ptr) : Event → Prop
  | .connected fd _ => w.OnDuty fd q
  | .dnsResolve _ => ∃ queue job submitted resolved,
      w.g.dnsWorker = some ⟨queue, some (job, false), submitted, resolved⟩ ∧ job.target = q
  | .loop rd wr =>
    match w.phase with
    | .select => ∃ fd, w.OnDuty fd q ∧ (w.pselect rd wr).sel.slaveW fd = true
    | .walk i n => i ≤ n ∧ w.OnDuty i q
    | .notify => ∃ fd rest, w.sel.resolutionJobs = fd :: rest ∧ w.OnDuty fd q
    | .sweep => w.Serves q ∧ (w.Lapsed q ∨ w.Unanswered q)
    | .top | .exited => False
  | .signal | .clock _ | .dnsTake | .dnsNotify _ | .interrupted | .failed => False

/-- A session of either kind is still there, just as it was. -/
structure World.Spares (w w' : World) (q : Ptr) : Prop where
  session : w.Serves q → w'.Serves q ∧ Kept w w' q
  admin : w.Hosts q → w'.Hosts q ∧ MngKept w w' q

section Spares
variable {τ : Terms} {ρ ρ' : Roster} {w w' w'' : World} {q : Ptr}

theorem World.Spares.refl (w : World) (q : Ptr) : w.Spares w q :=
  ⟨fun h => ⟨h, .refl w q⟩, fun h => ⟨h, .refl w q⟩⟩

theorem World.Spares.trans (h : w.Spares w' q) (h' : w'.Spares w'' q) : w.Spares w'' q where
  session hs := by
    obtain ⟨h1, h2⟩ := h.session hs
    obtain ⟨h3, h4⟩ := h'.session h1
    exact ⟨h3, h2.trans h4⟩
  admin hs := by
    obtain ⟨h1, h2⟩ := h.admin hs
    obtain ⟨h3, h4⟩ := h'.admin h1
    exact ⟨h3, h2.trans h4⟩

/-- What is kept is still registered. -/
theorem Core.spares (h : Core τ ρ w) (hs : q ∈ ρ.act → Kept w w' q)
    (ha : q ∈ ρ.adm → MngKept w w' q) : w.Spares w' q where
  session hq := by
    have hin := h.serves_iff.mp hq
    obtain ⟨⟨i, hi⟩, -⟩ := (h.own q hin).client
    exact ⟨⟨_, _, ((hs hin).fds _ (Or.inl rfl)).2.trans hi, rfl, rfl⟩, hs hin⟩
  admin hq := by
    have hin := h.hosts_iff.mp hq
    obtain ⟨i, hi⟩ := (h.admins q hin).own.item
    exact ⟨⟨_, _, (ha hin).item.trans hi, rfl, rfl⟩, ha hin⟩

theorem Core.duty_socks (h : Core τ ρ w) (hq : q ∈ ρ.act) {fd : Fd}
    (hfd : fd = (w.mem q).clientFd ∨ (w.mem q).originFd = some fd) : w.OnDuty fd q := by
  obtain ⟨⟨i, hi⟩, -⟩ := (h.own q hq).owns hfd
  exact ⟨_, hi, Or.inl rfl, rfl⟩

theorem Core.duty_mng (h : Core τ ρ w) (hq : q ∈ ρ.adm) : w.OnDuty (w.mngMem q).fd q := by
  obtain ⟨i, hi⟩ := (h.admins q hq).own.item
  exact ⟨_, hi, Or.inr rfl, rfl⟩

/-- Nothing of an object changes with the descriptors of others. -/
theorem Core.spares_fds (h : Core τ ρ w) (hm : w'.mem q = w.mem q) (ha : w'.mngMem = w.mngMem)
    (hl : w'.g.accessLog = w.g.accessLog)
    (hf : ∀ fd, w.OnDuty fd q → w'.os.fds fd = w.os.fds fd ∧ w'.sel.fds fd = w.sel.fds fd) :
    w.Spares w' q := by
  refine h.spares (fun hq => ⟨by rw [hl], by rw [hm], fun fd hfd => hf fd (h.duty_socks hq hfd)⟩)
    fun hq => ?_
  obtain ⟨h1, h2⟩ := hf _ (h.duty_mng hq)
  exact ⟨by rw [ha], h1, h2⟩

theorem Core.spares_beside {busy : Ptr → Prop} (h : Core τ ρ w) (hb : Beside busy ρ ρ' w w')
    (hq : ¬busy q) : w.Spares w' q :=
  h.spares (fun hin => (hb.sessions q hin hq).2) fun hin => (hb.admins q hin hq).2

/-! ## One step -/

/-- A listener that is closed is nobody's descriptor. -/
theorem unregisterListener_other (w : World) {fd : Option Fd} {g : Fd} (hne : fd ≠ some g) :
    (w.unregisterListener fd).os.fds g = w.os.fds g ∧
      (w.unregisterListener fd).sel.fds g = w.sel.fds g := by
  unfold World.unregisterListener
  cases fd with
  | none => exact ⟨rfl, rfl⟩
  | some fd =>
    have hg : g ≠ fd := fun he => hne (congrArg some he.symm)
    dsimp only
    split
    · exact ⟨Function.update_of_ne hg _ _, rfl⟩
    · exact ⟨Function.update_of_ne hg _ _, dropItem_other hg⟩

theorem unregisterListener_mem (w : World) (fd : Option Fd) :
    (w.unregisterListener fd).mem = w.mem ∧ (w.unregisterListener fd).mngMem = w.mngMem := by
  unfold World.unregisterListener
  cases fd with
  | none => exact ⟨rfl, rfl⟩
  | some fd =>
    dsimp only
    split <;> exact ⟨rfl, rfl⟩

theorem Core.duty_listener (h : Core τ ρ w) {fd : Fd} (hd : w.OnDuty fd q) :
    w.socksFd ≠ some fd ∧ w.mngFd ≠ some fd := by
  obtain ⟨it, hit, hh, -⟩ := hd
  constructor
  · intro hs
    obtain ⟨jt, hj, hl⟩ := h.registry.socksFd fd hs
    cases Option.some.inj (hit.symm.trans hj)
    rcases hh with hh | hh <;> cases hh.symm.trans hl
  · intro hs
    obtain ⟨jt, hj, hl⟩ := h.registry.mngFd fd hs
    cases Option.some.inj (hit.symm.trans hj)
    rcases hh with hh | hh <;> cases hh.symm.trans hl

theorem Core.loopTop_spares (h : Core τ ρ w) (q : Ptr) : w.Spares w.loopTop q := by
  have hdrain : w.Spares ((w.unregisterListener w.socksFd).unregisterListener w.mngFd) q := by
    obtain ⟨h1, h2⟩ := unregisterListener_mem w w.socksFd
    obtain ⟨h3, h4⟩ := unregisterListener_mem (w.unregisterListener w.socksFd) w.mngFd
    refine h.spares_fds (by rw [h3, h1]) (h4.trans h2)
      (congrArg Globals.accessLog ((unregisterListener_g _ _).trans (unregisterListener_g _ _)))
      fun fd hd => ?_
    obtain ⟨hs, hm⟩ := h.duty_listener hd
    obtain ⟨h5, h6⟩ := unregisterListener_other w hs
    obtain ⟨h7, h8⟩ := unregisterListener_other (w.unregisterListener w.socksFd) hm
    exact ⟨h7.trans h5, h8.trans h6⟩
  have hkeep : ∀ v : World, w.Spares v q → ∀ ph n d s m, w.Spares { v with
      phase := ph, signalCount := n, draining := d, socksFd := s, mngFd := m } q :=
    fun v hv _ _ _ _ _ => ⟨fun hs => ⟨(hv.session hs).1, (hv.session hs).2.1, (hv.session hs).2.2,
      (hv.session hs).2.3⟩, fun hs => ⟨(hv.admin hs).1, (hv.admin hs).2.1, (hv.admin hs).2.2,
      (hv.admin hs).2.3⟩⟩
  unfold World.loopTop
  split
  · exact hkeep w (.refl w q) _ _ _ _ _
  · dsimp only
    split
    · split <;> exact hkeep _ hdrain _ _ _ _ _
    · split <;> exact hkeep w (.refl w q) _ _ _ _ _

end Spares

section Run
variable {b : Boot} {ρ : Roster} {w : World} {q : Ptr}

/-- The main thread works on those whose turn it is. -/
theorem Inv.loop_spares (h : Inv b.plain ρ w) (hc : AllCalm ρ w) {rd wr : Fd → Bool}
    (hq : ¬w.Concerns q (.loop rd wr)) : w.Spares (w.loop rd wr) q := by
  have hphase : ∀ {v : World} {ph : Phase}, w.Spares v q → w.Spares { v with phase := ph } q :=
    fun hv => ⟨fun hs => ⟨(hv.session hs).1, (hv.session hs).2.1, (hv.session hs).2.2,
      (hv.session hs).2.3⟩, fun hs => ⟨(hv.admin hs).1, (hv.admin hs).2.1, (hv.admin hs).2.2,
      (hv.admin hs).2.3⟩⟩
  unfold World.Concerns at hq
  unfold World.loop
  cases hph : w.phase with
  | top => exact h.toCore.loopTop_spares q
  | select =>
    rw [hph] at hq
    dsimp only at hq ⊢
    split
    · exact hphase (.refl w q)
    · refine hphase (h.toCore.spares_fds rfl rfl rfl fun fd hd => ⟨?_, rfl⟩)
      have hmark : (w.pselect rd wr).sel.slaveW fd = false :=
        Bool.eq_false_iff.mpr fun hm => hq ⟨fd, hd, hm⟩
      show (w.os.fds fd).map (Sock.marked ((w.pselect rd wr).sel.slaveW fd)) = w.os.fds fd
      have hsame : ∀ k : Sock, k.marked false = k := fun k => by simp [Sock.marked]
      rw [hmark, funext hsame]
      exact Option.map_id'
  | walk i n =>
    rw [hph] at hq
    dsimp only at hq ⊢
    split
    · next hle =>
      obtain ⟨ρ', m, h1, -, -⟩ := h.dispatch hc i False.elim False.elim
      exact hphase (h.toCore.spares_beside h1.beside fun hd => hq ⟨hle, hd⟩)
    · exact hphase (.refl w q)
  | notify =>
    rw [hph] at hq
    dsimp only at hq ⊢
    cases hn : w.sel.resolutionJobs with
    | nil => exact hphase (.refl w q)
    | cons fd rest =>
      obtain ⟨p, hp, hfd, ρ', h1⟩ := h.blockNotification hc hn
      refine h.toCore.spares_beside h1.beside fun he => hq ⟨fd, rest, hn, ?_⟩
      rw [he]
      exact h.toCore.duty_socks hp (Or.inl hfd.symm)
  | sweep =>
    rw [hph] at hq
    dsimp only at hq ⊢
    obtain ⟨ρ', hs⟩ := h.checkTimeouts hc fun p hp l _ => (hc p hp).rest.rest
    obtain ⟨-, htended, -⟩ := hs.swept
    refine hphase (h.toCore.spares (fun hin => ?_) fun hin => ?_)
    · have hserved := h.serves_iff.mpr hin
      exact (htended q hin).spared (fun hl => hq ⟨hserved, Or.inl hl⟩)
        fun hu => hq ⟨hserved, Or.inr hu⟩
    · refine (hs.stepped.beside.admins q hin fun hact => ?_).2
      have hdisjoint := List.disjoint_of_nodup_append h.books.nodup
      exact hdisjoint (List.mem_append_left _ hact) hin
  | exited => exact .refl w q

/-- So does whatever else happens. -/
theorem Inv.handle_spares (h : Inv b.plain ρ w) (hc : AllCalm ρ w) {e : Event}
    (hq : ¬w.Concerns q e) : w.Spares (w.handle e) q := by
  have hidle : ∀ {v : World}, v.mem = w.mem → v.mngMem = w.mngMem →
      v.g.accessLog = w.g.accessLog → v.os.fds = w.os.fds → v.sel.fds = w.sel.fds →
      w.Spares v q := fun hm ha hl hf hi =>
    h.toCore.spares_fds (by rw [hm]) ha hl fun fd _ => ⟨by rw [hf], by rw [hi]⟩
  cases e with
  | signal | clock => exact hidle rfl rfl rfl rfl rfl
  | connected fd err =>
    unfold World.handle
    dsimp only
    cases hk : w.os.fds fd with
    | none => exact .refl w q
    | some k =>
      dsimp only
      split
      · refine h.toCore.spares_fds rfl rfl rfl fun g hg => ⟨Function.update_of_ne ?_ _ _, rfl⟩
        rintro rfl
        exact hq hg
      · exact .refl w q
  | dnsTake =>
    unfold World.handle World.dnsTake
    dsimp only
    split <;> exact hidle rfl rfl rfl rfl rfl
  | dnsResolve found =>
    unfold World.handle World.dnsResolve
    dsimp only
    split
    · next queue job submitted resolved hd =>
      have hne : q ≠ job.target := fun he => hq ⟨_, _, _, _, hd, he.symm⟩
      exact h.toCore.spares_fds (Function.update_of_ne hne _ _) rfl rfl fun _ _ => ⟨rfl, rfl⟩
    · exact .refl w q
  | dnsNotify allocated =>
    unfold World.handle World.dnsNotify
    dsimp only
    split
    · exact .refl w q
    · split <;> exact hidle rfl rfl rfl rfl rfl
  | loop rd wr => exact h.loop_spares hc hq
  | interrupted | failed =>
    unfold World.handle
    dsimp only
    split <;> exact hidle rfl rfl rfl rfl rfl

theorem Orderly.step_spares (h : Orderly b.plain ρ w) {x : Input} (hq : ¬w.Concerns q x.event) :
    w.Spares (w.step x) q := by
  unfold World.step
  split
  · next hr =>
    obtain ⟨h1, hc1⟩ := h.inv.load h.calm hr.1 x
    have hload : w.Spares (w.load x) q :=
      h.inv.toCore.spares_fds rfl rfl rfl fun _ _ => ⟨rfl, rfl⟩
    exact hload.trans (h1.handle_spares hc1 hq)
  · exact .refl w q

theorem Orderly.run_spares : ∀ {is : List Input} {ρ : Roster} {w : World}, Orderly b.plain ρ w →
    w.Along (fun w x => ¬w.Concerns q x.event) is → w.Spares (w.run is) q
  | [], _, w, _, _ => .refl w q
  | x :: is, _, w, h, ha => by
    obtain ⟨ρ', h1⟩ := h.step (h.granted_plain x)
    exact (h.step_spares ha.1).trans (h1.orderly.run_spares (w := w.step x) ha.2)

end Run

/-- From any point of any run on, a session of either kind stays as it is, with
its connections and its registration, as long as nothing that happens concerns
it; and nothing any session does ends the process, unless a `send` raises a
signal nobody handles. -/
theorem sessions_isolated (b : Boot) (is js : List Input) (q : Ptr)
    (hq : (b.start.run is).Along (fun w x => ¬w.Concerns q x.event) js) :
    (b.start.run is).Spares (b.start.run (is ++ js)) q ∧ (b.start.run (is ++ js)).os.Alive := by
  obtain ⟨ρ, h⟩ := b.orderly is
  obtain ⟨ρ', h'⟩ := b.orderly (is ++ js)
  have hrun : b.start.run (is ++ js) = (b.start.run is).run js := List.foldl_append
  refine ⟨?_, h'.inv.held.alive⟩
  rw [hrun]
  exact h.run_spares hq

/-- The tunnel, and the walk about to come to the listener with a client waiting. -/
def Input.second : List Input := Input.tunnel ++ [.turn [] [] 0, .turn [0] [] 0]

/-- A client that is accepted is no concern of a tunnel. -/
theorem sessions_isolated_second :
    (Boot.open.start.run Input.second).Spares
        (Boot.open.start.run (Input.second ++ [.turn [] [] 4096])) 0 ∧
      (Boot.open.start.run (Input.second ++ [.turn [] [] 4096])).os.Alive := by
  refine sessions_isolated Boot.open Input.second [.turn [] [] 4096] 0 ⟨?_, trivial⟩
  have hphase : (Boot.open.start.run Input.second).phase = .walk 0 3 := by decide +kernel
  have hitem : (Boot.open.start.run Input.second).sel.fds 0 = some ⟨opRead, .socksListener, 0⟩ := by
    decide +kernel
  generalize Boot.open.start.run Input.second = w at hphase hitem ⊢
  show ¬World.Concerns w 0 (.loop _ _)
  unfold World.Concerns
  dsimp only
  rw [hphase]
  rintro ⟨-, it, hit, hh, -⟩
  rw [hitem] at hit
  cases hit
  rcases hh with hh | hh <;> cases hh

end Socks5d
