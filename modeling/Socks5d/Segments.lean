import Socks5d.Replaying

/-! # The same answers, however the stream is cut

A management session that has the server to itself is what its lines have made
of it, in every state of the run. So two runs that go on from one state and
deliver one stream end alike. -/
namespace Socks5d
open Ctx Lib.CString Lib.Lines

/-! ## A session that has the server to itself -/

/-- No other descriptor becomes ready. -/
def Input.Solo (fd : Fd) (i : Input) : Prop :=
  ∀ rd wr, i.event = .loop rd wr → ∀ g, g ≠ fd → rd g = false ∧ wr g = false

/-- The connection of a management session, also after its end. -/
def World.wire (w : World) (m : Ptr) : Sock :=
  ((w.mngMem m).closedWith.or (w.os.fds (w.mngMem m).fd)).getD .none

/-- What the session and its answers depend on, besides itself. -/
def Globals.shared (g : Globals) :
    Option Users × Option Config × Option Metrics × Option Bytes × Option Ptr :=
  (g.users, g.config, g.metrics, g.adminSecret, g.activeHead)

/-- The session `m` on `fd` is what its lines have made of `c₀`, and nothing
else goes on. -/
structure World.Talks (c₀ : MCtx) (m : Ptr) (fd : Fd) (w : World) : Prop where
  alone : w.g.activeHead = none
  unmarked : ∀ i n, w.phase = .walk i n → ∀ g, g ≠ fd →
    w.sel.slaveR g = false ∧ w.sel.slaveW g = false
  own : (w.mngMem m).fd = fd
  determined : Mng.Determined c₀ (w.mngCtx m)
  opened : (w.mngMem m).closedWith = none → (∃ i, w.sel.fds fd = some ⟨i, .mng, m⟩) ∧
    Mng.Attentive (w.mngCtx m)
  closed : (w.mngMem m).closedWith ≠ none → w.sel.fds fd = none ∧ w.mngMem m ∈ w.mngEnded

section Talks
variable {τ : Terms} {ρ : Roster} {c₀ : MCtx} {m : Ptr} {fd : Fd} {w w' : World} {i : Input}

theorem World.Talks.quiet (h : w.Talks c₀ m fd) (hm : w'.mngMem = w.mngMem)
    (hg : w'.g.shared = w.g.shared) (hi : w'.sel.fds fd = w.sel.fds fd)
    (he : w'.mngEnded = w.mngEnded)
    (hs : ∀ i n, w'.phase = .walk i n → ∀ g, g ≠ fd →
      w'.sel.slaveR g = false ∧ w'.sel.slaveW g = false) : w'.Talks c₀ m fd where
  alone := (congrArg (fun t => t.2.2.2.2) hg :).trans h.alone
  unmarked := hs
  own := by rw [hm]; exact h.own
  determined := h.determined.quiet (by show (w'.mngMem m).standing = _; rw [hm]; rfl)
    (by show (w'.mngMem m).hist = _; rw [hm]; rfl) (congrArg (fun t => t.1) hg)
    (congrArg (fun t => t.2.1) hg) (congrArg (fun t => t.2.2.2.1) hg)
    fun ho => ⟨by rw [← ho]; show _ = (w'.mngMem m).closedWith; rw [hm]; rfl,
      congrArg (fun t => t.2.2.1) hg⟩
  opened := by
    rw [hm, hi]
    intro ho
    obtain ⟨hit, ha⟩ := h.opened ho
    refine ⟨hit, ?_, ?_⟩
    · have hmind := ha.minded
      show w'.sel.fds (w'.mngMem m).fd = some ⟨if (w'.mngMem m).out = [] then _ else _, _, _⟩
      rw [hm, h.own, hi, ← h.own]
      exact hmind
    · show (w'.mngMem m).out = [] → (w'.mngMem m).inBuf.drop (w'.mngMem m).inPos = []
      rw [hm]
      exact ha.read
  closed := by
    rw [hm, hi, he]
    exact h.closed

theorem World.Talks.hosted (h : w.Talks c₀ m fd) (hr : Registry ρ w)
    (hopen : (w.mngMem m).closedWith = none) : m ∈ ρ.adm := by
  obtain ⟨⟨i, hi⟩, -⟩ := h.opened hopen
  exact (hr.mng fd _ hi rfl).1

/-- A callback of the session. -/
theorem World.Talks.serve (h : w.Talks c₀ m fd)
    {callback : MCtx → MCtx}
    (hs : Mng.Served τ.tidy τ.secret (w.mngCtx m) (callback (w.mngCtx m)))
    (hd : Mng.Determined c₀ (callback (w.mngCtx m)))
    (ha : (callback (w.mngCtx m)).s.closedWith = none → Mng.Attentive (callback (w.mngCtx m))) :
    (w.runMng m callback).Talks c₀ m fd := by
  obtain ⟨c1, h1, hcase⟩ := hs
  have hf := h1.good.frame
  have hself : c1.self = m := hf.self
  have hfd1 : c1.s.fd = fd := hf.fd.trans h.own
  have halone : c1.g.activeHead = none :=
    Eq.trans (congrArg Globals.activeHead hf.g :) h.alone
  have hmarks : c1.sel.slaveR = w.sel.slaveR ∧ c1.sel.slaveW = w.sel.slaveW :=
    ⟨congrArg (fun t => t.1) hf.sel, congrArg (fun t => t.2.1) hf.sel⟩
  unfold World.runMng
  dsimp only
  rcases hcase with ⟨he, -⟩ | he
  · rw [he] at hd ha ⊢
    have hno := h1.good.own.opened
    have hmem : (w.mngPut c1).mngMem m = c1.s := mngPut_mem hself
    simp only [hno, Option.isSome_none, Bool.false_eq_true, if_false]
    have hctx : (w.mngPut c1).mngCtx m = c1 := by
      unfold World.mngCtx
      rw [hmem, ← hself]
      rfl
    refine ⟨halone, fun i n hw g hg => ?_, by rw [hmem]; exact hfd1, by rw [hctx]; exact hd,
      fun _ => ?_, fun hc => ?_⟩
    · obtain ⟨h2, h3⟩ := h.unmarked i n hw g hg
      exact ⟨(congrFun hmarks.1 g).trans h2, (congrFun hmarks.2 g).trans h3⟩
    · rw [hctx]
      refine ⟨?_, ha hno⟩
      obtain ⟨j, hj⟩ := h1.good.own.item
      exact ⟨j, by rw [hfd1, hself] at hj; exact hj⟩
    · rw [hmem] at hc
      exact absurd hno hc
  · obtain ⟨k, hk⟩ := h1.good.own.sock
    have hun := Mng.unregister_eq h1.good.own hk
    have hclosed : (Mng.unregister c1.s.fd c1).s.closedWith = some k := by rw [hun]
    have hself' : (Mng.unregister c1.s.fd c1).self = m := by rw [hun]; exact hself
    have hsel : (Mng.unregister c1.s.fd c1).sel = c1.sel.dropItem fd := by rw [hun, hfd1]
    have hmem : (w.mngPut (Mng.unregister c1.s.fd c1)).mngMem m = (Mng.unregister c1.s.fd c1).s :=
      mngPut_mem hself'
    rw [he] at hd ⊢
    simp only [hclosed, Option.isSome_some, if_true]
    refine ⟨?_, fun i n hw g hg => ?_, ?_, ?_, fun hc => ?_, fun _ => ⟨?_, ?_⟩⟩
    · show (Mng.unregister c1.s.fd c1).g.activeHead = none
      rw [hun]
      exact halone
    · obtain ⟨h2, h3⟩ := h.unmarked i n hw g hg
      show (Mng.unregister c1.s.fd c1).sel.slaveR g = false ∧
        (Mng.unregister c1.s.fd c1).sel.slaveW g = false
      rw [hsel]
      exact ⟨(congrFun hmarks.1 g).trans h2, (congrFun hmarks.2 g).trans h3⟩
    · show ((w.mngPut (Mng.unregister c1.s.fd c1)).mngMem m).fd = fd
      rw [hmem, hun]
      exact hfd1
    · refine hd.quiet ?_ ?_ rfl rfl rfl fun hc => ?_
      · exact congrArg MngSession.standing hmem
      · exact congrArg MngSession.hist hmem
      · have hc : ((w.mngPut (Mng.unregister c1.s.fd c1)).mngMem m).closedWith = none := hc
        rw [hmem, hclosed] at hc
        cases hc
    · have hc : ((w.mngPut (Mng.unregister c1.s.fd c1)).mngMem m).closedWith = none := hc
      rw [hmem, hclosed] at hc
      cases hc
    · show (Mng.unregister c1.s.fd c1).sel.fds fd = none
      rw [hsel]
      exact dropItem_self _ _
    · show (w.mngPut (Mng.unregister c1.s.fd c1)).mngMem m ∈ w.mngEnded ++ [_]
      rw [hmem]
      exact List.mem_append_right _ (List.mem_singleton.mpr rfl)

/-- The read handler, if it is to run. -/
theorem World.Talks.readTurn (h : w.Talks c₀ m fd) (hi : Inv τ ρ w) (hc : AllCalm ρ w)
    (hopen : (w.mngMem m).closedWith = none) :
    ∃ ρ', (w.runMng m (Mng.mngRead fd)).Talks c₀ m fd ∧
      Inv τ ρ' (w.runMng m (Mng.mngRead fd)) ∧ AllCalm ρ' (w.runMng m (Mng.mngRead fd)) := by
  have hm := h.hosted hi.registry hopen
  have hconv := hi.toCore.conversing hm
  have hwait := (hi.admins m hm).waiting
  have hs := Mng.mngRead_served hconv h.own.symm hwait
  obtain ⟨ρ', h1⟩ := hi.runMng hc hm hs
  exact ⟨ρ', h.serve hs (Mng.mngRead_determined hconv h.own.symm hwait h.determined)
    (Mng.mngRead_attentive hconv h.own.symm hwait (h.opened hopen).2), h1.inv, h1.calm⟩

theorem runMng_phase (w : World) (m : Ptr) (callback : MCtx → MCtx) :
    (w.runMng m callback).phase = w.phase := by
  unfold World.runMng
  dsimp only
  split <;> rfl

/-- The write handler, if it is to run. -/
theorem World.Talks.writeTurn (h : w.Talks c₀ m fd) (hi : Inv τ ρ w) (j : Interest) :
    (w.writeTurn ⟨j, .mng, m⟩ fd).Talks c₀ m fd ∧
      (w.writeTurn ⟨j, .mng, m⟩ fd).phase = w.phase := by
  by_cases hopen : (w.mngMem m).closedWith = none
  · obtain ⟨⟨j', hit⟩, ha⟩ := h.opened hopen
    have hm := h.hosted hi.registry hopen
    have hconv := hi.toCore.conversing hm
    have hwait := (hi.admins m hm).waiting
    unfold World.writeTurn
    rw [hit]
    dsimp only
    split
    · next hgo =>
      have hwrite : j'.write = true := (Bool.and_eq_true_iff.mp hgo).2
      have hmind : w.sel.fds (w.mngMem m).fd =
          some ⟨if (w.mngMem m).out = [] then opRead else opWrite, .mng, m⟩ := ha.minded
      rw [h.own, hit] at hmind
      have hout : (w.mngMem m).out ≠ [] := by
        intro he
        rw [if_pos he] at hmind
        cases hmind
        cases hwrite
      have hs := Mng.mngWrite_served hconv h.own.symm hwait
      exact ⟨h.serve hs (Mng.mngWrite_determined hconv h.own.symm hwait h.determined)
        (Mng.mngWrite_attentive hconv h.own.symm hwait ha.minded hout), runMng_phase _ _ _⟩
    · exact ⟨h, rfl⟩
  · unfold World.writeTurn
    rw [(h.closed hopen).1]
    exact ⟨h, rfl⟩

/-- One look of the walk at the session's descriptor. -/
theorem World.Talks.visit (h : w.Talks c₀ m fd) (hi : Inv τ ρ w) (hc : AllCalm ρ w) :
    (w.dispatch fd).Talks c₀ m fd ∧ (w.dispatch fd).phase = w.phase := by
  by_cases hopen : (w.mngMem m).closedWith = none
  · obtain ⟨⟨j, hit⟩, -⟩ := h.opened hopen
    rw [dispatch_eq hit]
    split
    · obtain ⟨ρ', h1, hi1, -⟩ := h.readTurn hi hc hopen
      obtain ⟨h2, hph⟩ := h1.writeTurn hi1 j
      exact ⟨h2, hph.trans (runMng_phase _ _ _)⟩
    · exact h.writeTurn hi j
  · have hit := (h.closed hopen).1
    unfold World.dispatch
    rw [hit]
    exact ⟨h, rfl⟩

/-- A look at another descriptor, for which nothing is marked. -/
theorem dispatch_unmarked {g : Fd} (hr : w.sel.slaveR g = false) (hw : w.sel.slaveW g = false) :
    w.dispatch g = w := by
  unfold World.dispatch
  cases hit : w.sel.fds g with
  | none => rfl
  | some it =>
    simp only [hr, Bool.false_and, Bool.false_eq_true, if_false, hit, hw]

/-- The listeners are not the session's. -/
theorem World.Talks.unlistened (h : w.Talks c₀ m fd) {g : Fd} {it : Item}
    (hit : w.sel.fds g = some it) (hh : it.handler ≠ .mng) : fd ≠ g := by
  rintro rfl
  by_cases hopen : (w.mngMem m).closedWith = none
  · obtain ⟨⟨j, hj⟩, -⟩ := h.opened hopen
    cases Option.some.inj (hit.symm.trans hj)
    exact hh rfl
  · rw [(h.closed hopen).1] at hit
    cases hit

theorem unregisterListener_beside (w : World) {fd : Fd} {fd' : Option Fd} (hne : fd' ≠ some fd) :
    (w.unregisterListener fd').sel.fds fd = w.sel.fds fd ∧
      (w.unregisterListener fd').mngMem = w.mngMem ∧
      (w.unregisterListener fd').mngEnded = w.mngEnded := by
  unfold World.unregisterListener
  cases fd' with
  | none => exact ⟨rfl, rfl, rfl⟩
  | some g =>
    have hg : fd ≠ g := fun he => hne (by rw [he])
    dsimp only
    split
    · exact ⟨rfl, rfl, rfl⟩
    · exact ⟨dropItem_other hg, rfl, rfl⟩

theorem World.Talks.loopTop (h : w.Talks c₀ m fd) (hi : Inv τ ρ w) (hc : AllCalm ρ w) :
    w.loopTop.Talks c₀ m fd := by
  have hs : w.socksFd ≠ some fd := fun he => by
    obtain ⟨it, hit, hh⟩ := hi.registry.socksFd _ he
    exact h.unlistened hit (by rw [hh]; simp) rfl
  have hm : w.mngFd ≠ some fd := fun he => by
    obtain ⟨it, hit, hh⟩ := hi.registry.mngFd _ he
    exact h.unlistened hit (by rw [hh]; simp) rfl
  obtain ⟨a1, a2, a3⟩ := unregisterListener_beside w hs
  obtain ⟨b1, b2, b3⟩ := unregisterListener_beside (w.unregisterListener w.socksFd) hm
  obtain ⟨-, hg, hp⟩ := hi.loopTop hc
  have hrest : w.loopTop.mngMem = w.mngMem ∧ w.loopTop.sel.fds fd = w.sel.fds fd ∧
      w.loopTop.mngEnded = w.mngEnded := by
    unfold World.loopTop
    split
    · exact ⟨rfl, rfl, rfl⟩
    · dsimp only
      split
      · split <;> exact ⟨b2.trans a2, b1.trans a1, b3.trans a3⟩
      · split <;> exact ⟨rfl, rfl, rfl⟩
  refine h.quiet hrest.1 (by rw [hg]) hrest.2.1 hrest.2.2 fun i n he => ?_
  rcases hp with hp | hp <;> rw [hp] at he <;> cases he

/-- The next move of the main thread, when no one else is ready. -/
theorem World.Talks.loop (h : w.Talks c₀ m fd) (ho : Orderly τ ρ w) {rd wr : Fd → Bool}
    (hsolo : ∀ g, g ≠ fd → rd g = false ∧ wr g = false) : (w.loop rd wr).Talks c₀ m fd := by
  have hi := ho.inv
  -- there are no sessions that could wait for anything
  have hact : ρ.act = [] := by
    have hl := hi.books.linked
    rw [h.alone] at hl
    cases he : ρ.act with
    | nil => rfl
    | cons p l =>
      rw [he] at hl
      cases hl.1
  unfold World.loop
  cases hph : w.phase with
  | top => exact h.loopTop hi ho.calm
  | select =>
    dsimp only
    split
    · exact h.quiet rfl rfl rfl rfl fun i n he => by cases he
    · refine h.quiet rfl rfl rfl rfl fun i n _ g hg => ?_
      obtain ⟨h1, h2⟩ := hsolo g hg
      unfold World.pselect
      simp only [h1, h2, Bool.and_false, Bool.false_and, and_self]
  | walk i n =>
    dsimp only
    split
    · by_cases hfd : i = fd
      · subst hfd
        obtain ⟨h1, hsame⟩ := h.visit hi ho.calm
        exact h1.quiet rfl rfl rfl rfl fun _ _ _ g hg => h1.unmarked i n (hsame.trans hph) g hg
      · obtain ⟨h1, h2⟩ := h.unmarked i n hph i hfd
        rw [dispatch_unmarked h1 h2]
        refine h.quiet rfl rfl rfl rfl fun _ _ _ g hg => h.unmarked i n hph g hg
    · exact h.quiet rfl rfl rfl rfl fun _ _ he => by cases he
  | notify =>
    have hnone : w.sel.resolutionJobs = [] := by
      refine List.eq_nil_iff_forall_not_mem.mpr fun g hg => ?_
      obtain ⟨p, hp, -⟩ := hi.jobs.notices g hg
      rw [hact] at hp
      cases hp
    rw [hnone]
    exact h.quiet rfl rfl rfl rfl fun _ _ he => by cases he
  | sweep =>
    have hsweep : w.socksv5CheckTimeouts = w := by
      unfold World.socksv5CheckTimeouts
      rw [h.alone]
      rcases w.g.activeSessions with _ | n <;> rfl
    rw [hsweep]
    exact h.quiet rfl rfl rfl rfl fun _ _ he => by cases he
  | exited => exact h

theorem World.Talks.step (h : w.Talks c₀ m fd) (ho : Orderly τ ρ w) (hsolo : i.Solo fd) :
    (w.step i).Talks c₀ m fd := by
  unfold World.step
  split
  · next hr =>
    have h1 : (w.load i).Talks c₀ m fd :=
      h.quiet rfl rfl rfl rfl fun j n he g hg => h.unmarked j n he g hg
    obtain ⟨hi1, hc1⟩ := ho.inv.load ho.calm hr.1 i
    have hkeep : ∀ {v : World}, v.mngMem = (w.load i).mngMem → v.g.shared = (w.load i).g.shared →
        v.sel.fds = (w.load i).sel.fds → v.mngEnded = (w.load i).mngEnded →
        (v.phase = (w.load i).phase ∨ ∀ j n, v.phase ≠ .walk j n) →
        (v.sel.slaveR, v.sel.slaveW) = ((w.load i).sel.slaveR, (w.load i).sel.slaveW) →
        v.Talks c₀ m fd := by
      intro v hm hg hit he hp hs
      obtain ⟨hs1, hs2⟩ := Prod.mk.inj hs
      refine h1.quiet hm hg (by rw [hit]) he fun j n hw g hgf => ?_
      rw [hs1, hs2]
      rcases hp with hp | hp
      · exact h1.unmarked j n (hp.symm.trans hw) g hgf
      · exact absurd hw (hp j n)
    unfold World.handle
    cases hev : i.event with
    | signal | clock => exact hkeep rfl rfl rfl rfl (Or.inl rfl) rfl
    | connected f err =>
      dsimp only
      split
      · split
        · exact hkeep rfl rfl rfl rfl (Or.inl rfl) rfl
        · exact h1
      · exact h1
    | dnsTake =>
      dsimp only
      unfold World.dnsTake
      split
      · exact hkeep rfl rfl rfl rfl (Or.inl rfl) rfl
      · exact h1
    | dnsResolve found =>
      dsimp only
      unfold World.dnsResolve
      split
      · exact hkeep rfl rfl rfl rfl (Or.inl rfl) rfl
      · exact h1
    | dnsNotify allocated =>
      dsimp only
      unfold World.dnsNotify
      split
      · exact h1
      · split
        · exact hkeep rfl rfl rfl rfl (Or.inl rfl) rfl
        · exact h1
    | loop rd wr => exact h1.loop ⟨hi1, hc1, ho.heard⟩ (hsolo rd wr hev)
    | interrupted | failed =>
      dsimp only
      split
      · exact hkeep rfl rfl rfl rfl (Or.inr fun _ _ he => by cases he) rfl
      · exact h1
  · exact h

theorem World.Talks.run {b : Boot} : ∀ (is : List Input) {ρ : Roster} {w : World},
    w.Talks c₀ m fd → Orderly b.plain ρ w → (∀ i ∈ is, i.Solo fd) → (w.run is).Talks c₀ m fd
  | [], _, _, h, _, _ => h
  | i :: is, _, w, h, ho, hs => by
    obtain ⟨ρ', h1⟩ := ho.step (ho.granted_plain i)
    exact World.Talks.run is (w := w.step i) (h.step ho (hs i List.mem_cons_self)) h1.orderly
      fun j hj => hs j (List.mem_cons_of_mem _ hj)

/-- What is known of the session besides its lines. -/
theorem World.Talks.admin {b : Boot} (h : w.Talks c₀ m fd) (ho : Orderly b.plain ρ w) :
    Mng.Vetted b.Tidy b.adminSecret (w.mngMem m) ∧ Framed (w.mngMem m) (w.wire m) := by
  cases hc : (w.mngMem m).closedWith with
  | none =>
    have ha := ho.inv.admins m (h.hosted ho.inv.registry hc)
    obtain ⟨k, hk⟩ := ha.own.sock
    have hk : w.os.fds (w.mngMem m).fd = some k := hk
    refine ⟨ha.vetted, ?_⟩
    unfold World.wire
    rw [hc, hk]
    exact ha.framed k hk
  | some k =>
    obtain ⟨hv, k', hk', hf⟩ := ho.inv.left _ (h.closed (by rw [hc]; simp)).2
    cases hc.symm.trans hk'
    refine ⟨hv, ?_⟩
    unfold World.wire
    rw [hc]
    exact hf

end Talks

namespace Mng

variable {c₀ c c' : MCtx}

end Mng

section Claims
variable {τ : Terms} {m : Ptr} {fd : Fd} {w w' : World} {S : Bytes}

/-- What the session has taken has been read as part of the stream. -/
theorem Framed.events_extend {s : MngSession} {k : Sock} (h : Framed s k)
    (hrx : k.rx <+: S) : s.hist.map MngObs.event <+: (gather S).1 ∧
      (k.rx = S → s.inBuf.drop s.inPos = [] → s.hist.map MngObs.event = (gather S).1) := by
  obtain ⟨done, hk, hf⟩ := h
  have hread : (gather done).1 = s.hist.map MngObs.event := congrArg Prod.fst hf.read
  constructor
  · obtain ⟨more, hmore⟩ := ((List.prefix_append done _).trans (hk ▸ hrx) : done <+: S)
    rw [← hread, ← hmore]
    unfold gather assemble
    rw [List.foldl_append]
    exact Lib.Lines.events_extend _ _
  · intro hall hend
    rw [hend, List.append_nil] at hk
    rw [← hread, ← hk, hall]

theorem Framed.said {s : MngSession} {k : Sock} (h : Framed s k)
    (hout : s.out = []) : k.tx = s.hist.flatMap MngObs.response := by
  obtain ⟨done, -, hf⟩ := h
  have hs := hf.sent
  rwa [hout, List.drop_nil, List.append_nil] at hs

end Claims
end Socks5d
