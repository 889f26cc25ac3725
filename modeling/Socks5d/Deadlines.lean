import Socks5d.Sessions

/-! # What a sweep does

`socksv5_check_timeouts` over the whole active list: whom it visits, whom it
ends, whom it only takes the origin from, and whom it leaves as they were. -/
namespace Socks5d
open Ctx Lib.Links

/-! ## Who is due -/

/-- The relay of the session has been silent for the configured time. -/
def World.Idled (w : World) (p : Ptr) : Prop :=
  (w.mem p).stm = some .copy ∧ ∃ cfg, w.g.config = some cfg ∧ 0 < cfg.idleTimeout ∧
    cfg.idleTimeout ≤ w.os.now - (w.mem p).lastActivity

/-- The session is still negotiating at its deadline, if it has one. The name
and the origin are not waited for here. -/
def World.Stalled (w : World) (p : Ptr) : Prop :=
  (w.mem p).stm ≠ some .requestResolv ∧ (w.mem p).stm ≠ some .connecting ∧
    (w.mem p).stm ≠ some .copy ∧ (w.mem p).stm ≠ some .done ∧ (w.mem p).stm ≠ some .error ∧
    (w.mem p).negotiationDeadline ≠ 0 ∧ (w.mem p).negotiationDeadline ≤ w.os.now

/-- The origin has not been reached by its deadline, if there is one. -/
def World.Unanswered (w : World) (p : Ptr) : Prop :=
  (w.mem p).stm = some .connecting ∧ (w.mem p).connectDeadline ≠ 0 ∧
    (w.mem p).connectDeadline ≤ w.os.now

/-- The session is to be ended. -/
def World.Lapsed (w : World) (p : Ptr) : Prop := w.Idled p ∨ w.Stalled p

section Due
variable {w w' : World} {p : Ptr}

theorem getD_of_ne {o : Option SocksState} (h1 : o ≠ some .requestResolv)
    (h2 : o ≠ some .connecting) (h3 : o ≠ some .copy) (h4 : o ≠ some .done)
    (h5 : o ≠ some .error) : o.getD .helloRead = .helloRead ∨ o.getD .helloRead = .helloWrite ∨
      o.getD .helloRead = .authRead ∨ o.getD .helloRead = .authWrite ∨
      o.getD .helloRead = .requestRead ∨ o.getD .helloRead = .requestWrite := by
  cases o with
  | none => exact Or.inl rfl
  | some st => cases st <;> simp_all

theorem due_iff (w : World) (p : Ptr) : (∃ l, w.due p = some l) ↔ w.Lapsed p := by
  constructor
  · intro hd
    obtain ⟨l, hd⟩ := hd
    have hx := due_expired hd
    dsimp only [World.due] at hd
    cases hst : (w.mem p).stm.getD .helloRead with
    | copy =>
      rw [hst] at hd
      obtain ⟨cfg, hcfg, hd⟩ := Option.bind_eq_some_iff.mp hd
      split at hd
      · next h => exact Or.inl ⟨getD_eq hst (by decide), cfg, hcfg, h.1, h.2⟩
      · cases hd
    | connecting | done | error | requestResolv => rw [hst] at hd; cases hd
    | helloRead | helloWrite | authRead | authWrite | requestRead | requestWrite =>
      rw [hst] at hd
      simp only at hd
      split at hd
      · next h =>
        cases hd
        obtain ⟨h1, h2, h3, h4, h5⟩ := hx
        exact Or.inr ⟨h1, h2, h3, h4, h5, h.1, h.2⟩
      · cases hd
  · intro hl
    rcases hl with ⟨hst, cfg, hcfg, h1, h2⟩ | ⟨h1, h2, h3, h4, h5, h6, h7⟩
    · refine ⟨.idle cfg.idleTimeout, ?_⟩
      dsimp only [World.due]
      rw [hst, hcfg]
      exact if_pos ⟨h1, h2⟩
    · refine ⟨.negotiation, ?_⟩
      dsimp only [World.due]
      rcases getD_of_ne h1 h2 h3 h4 h5 with h | h | h | h | h | h <;> rw [h] <;>
        exact if_pos ⟨h6, h7⟩

/-- What the sweep does with a session. -/
theorem sweepOne_spared (hl : ¬w.Lapsed p) (hu : ¬w.Unanswered p) : w.sweepOne p = w := by
  rcases sweepOne_cases w p with ⟨h, -⟩ | ⟨-, hst⟩ | ⟨l, reason, hd, -⟩
  · exact h
  · dsimp only [World.sweepOne]
    rw [hst]
    exact if_neg fun h => hu ⟨hst, h.1, h.2⟩
  · exact absurd ((due_iff w p).mp ⟨l, hd⟩) hl

theorem sweepOne_unanswered (hu : w.Unanswered p) :
    w.sweepOne p = w.put (connectingTimeout (w.ctx p)) := by
  dsimp only [World.sweepOne]
  rw [hu.1]
  exact if_pos ⟨hu.2.1, hu.2.2⟩

theorem sweepOne_lapsed (hl : w.Lapsed p) :
    ∃ l reason, w.due p = some l ∧ w.sweepOne p = w.timeOut p l reason := by
  obtain ⟨l, hd⟩ := (due_iff w p).mpr hl
  rcases sweepOne_cases w p with ⟨-, hn⟩ | ⟨-, hst⟩ | h
  · rw [hd] at hn
    cases hn
  · have hnone : w.due p = none := by
      dsimp only [World.due]
      rw [hst]
      rfl
    rw [hd] at hnone
    cases hnone
  · exact h

theorem World.Unanswered.not_lapsed (hu : w.Unanswered p) : ¬w.Lapsed p := by
  intro hl
  rcases hl with ⟨hst, -⟩ | ⟨-, hne, -⟩
  · rw [hu.1] at hst
    cases hst
  · exact hne hu.1

/-- A session that was left alone is judged as it was. -/
theorem Kept.lapsed (h : Kept w w' p) (ht : w'.terms = w.terms) : w'.Lapsed p ↔ w.Lapsed p := by
  rw [← due_iff, ← due_iff, h.due ht]

theorem Kept.unanswered (h : Kept w w' p) (ht : w'.terms = w.terms) :
    w'.Unanswered p ↔ w.Unanswered p := by
  have h1 : w'.os.now = w.os.now := congrArg Prod.fst ht
  have h3 : (w'.mem p).stm = (w.mem p).stm := (congrArg Socks5.stm h.mem :)
  have h4 : (w'.mem p).connectDeadline = (w.mem p).connectDeadline :=
    (congrArg Socks5.connectDeadline h.mem :)
  unfold World.Unanswered
  rw [h1, h3, h4]

end Due

/-! ## What becomes of a session -/

/-- The session was closed for a limit; `e` is what is kept of it. -/
def World.Ejected (w : World) (p : Ptr) (e : Ended) : Prop :=
  ∃ l reason, w.due p = some l ∧ e.view = (w.ctx p).view.filed
    (.timedOut l w.os.now :: ((w.ctx p).view.lastRecord w.os.now reason).toList.map .logged ++
      [.released])

/-- The origin of the session was given up, and its client is to be told. -/
structure GivenUp (w w' : World) (p : Ptr) : Prop where
  object : (w'.mem p).unlinked = { (w.mem p).unlinked with
    originFd := none
    references := (w.mem p).references - originRefs (w.mem p)
    orig := .conn ⟨[], replyTtlExpired⟩
    hist := (w.mem p).hist ++ [.timedOut .connect w.os.now] }
  released : ∀ fd, (w.mem p).originFd = some fd → w'.os.fds fd = none ∧ w'.sel.fds fd = none
  client : w'.os.fds (w.mem p).clientFd = w.os.fds (w.mem p).clientFd
  armed : w'.sel.fds (w.mem p).clientFd = some ⟨opWrite, .socks5, p⟩

/-- What the sweep did about a session. -/
structure Tended (w w' : World) (p : Ptr) : Prop where
  lapsed : w.Lapsed p → ∀ fd, Mine (w.ctx p) fd → w'.os.fds fd = none ∧ w'.sel.fds fd = none
  unanswered : w.Unanswered p → GivenUp w w' p
  spared : ¬w.Lapsed p → ¬w.Unanswered p → Kept w w' p

/-- No descriptor was opened or registered. -/
def Fewer (w w' : World) : Prop :=
  ∀ fd, w.os.fds fd = none ∧ w.sel.fds fd = none → w'.os.fds fd = none ∧ w'.sel.fds fd = none

instance (w : World) (p : Ptr) : Decidable (w.Lapsed p) :=
  decidable_of_iff ((w.due p).isSome = true) (Option.isSome_iff_exists.trans (due_iff w p))

theorem connectingTimeout_exact {c : SCtx} (h : Own c) (hl : c.view.Ledger) :
    (connectingTimeout c).s = { c.s with
      originFd := none
      references := c.s.references - originRefs c.s
      orig := .conn ⟨[], replyTtlExpired⟩
      hist := c.s.hist ++ [.timedOut .connect c.os.now] } ∧
    (connectingTimeout c).os.fds c.s.clientFd = c.os.fds c.s.clientFd ∧
    (connectingTimeout c).sel.fds c.s.clientFd = some ⟨opWrite, .socks5, c.self⟩ := by
  obtain ⟨h1, -⟩ := dropOrigin_spec h hl
  have h2 := h1.own.setConn fun _ => { current := [], reply := replyTtlExpired }
  have h3 := h2.own.note (o := .timedOut .connect (dropOrigin c).os.now) rfl
  obtain ⟨sel, he, -, hs⟩ := h3.own.setInterest (Or.inl rfl) opWrite
  have heq : connectingTimeout c = _ := congrArg Prod.fst he
  have hcf : (dropOrigin c).s.clientFd = c.s.clientFd := h1.frame.clientFd
  have hself : (dropOrigin c).self = c.self := h1.frame.self
  have hsel : sel.fds c.s.clientFd = some ⟨opWrite, .socks5, c.self⟩ := by
    rw [hs, ← hcf, ← hself]
    exact Function.update_self _ _ _
  rw [heq]
  cases hor : c.s.originFd with
  | none =>
    have hd : dropOrigin c = c := by simp only [dropOrigin, hor]
    refine ⟨?_, by simp only [hd, setConn, Ctx.note, Ctx.modify], hsel⟩
    simp only [hd, setConn, Ctx.note, Ctx.modify, originRefs, hor]
    rfl
  | some fd =>
    have hd := dropOrigin_eq h hl hor
    have hne : c.s.clientFd ≠ fd := fun he => h.here.origin_ne (by rw [hor, he])
    refine ⟨?_, ?_, hsel⟩
    · simp only [hd, setConn, Ctx.note, Ctx.modify, originRefs, hor]
      rfl
    · simp only [hd, setConn, Ctx.note, Ctx.modify]
      exact Function.update_of_ne hne _ _

section Turn
variable {τ : Terms} {ρ : Roster} {w w' : World} {p : Ptr}

theorem Inv.givenUp (h : Inv τ ρ w) (hp : p ∈ ρ.act) (hst : (w.mem p).stm = some .connecting) :
    GivenUp w (w.put (connectingTimeout (w.ctx p))) p ∧
      Fewer w (w.put (connectingTimeout (w.ctx p))) := by
  have ho := h.own p hp
  have hl := (h.reached p hp).ledger
  have hg := (@connectingTimeout_spec τ.strict _ ho hl hst).1
  obtain ⟨hs, hos, hsel⟩ := connectingTimeout_exact ho hl
  have hmem := put_mem (w := w) (put_self (Base.refl w p) hg)
  have hnone : (connectingTimeout (w.ctx p)).s.originFd = none := by rw [hs]
  refine ⟨⟨?_, fun fd hfd => ?_, hos, hsel⟩, fun fd hfd => ?_⟩
  · rw [hmem, hs]
    rfl
  · exact hg.frame.dropped fd hfd (by rw [hnone]; simp)
  · have hmine : ¬Mine (w.ctx p) fd := fun hm => by
      obtain ⟨k, hk⟩ := (ho.owns hm).2
      rw [show (w.ctx p).os.fds fd = none from hfd.1] at hk
      cases hk
    obtain ⟨h1, h2⟩ := hg.frame.foreign fd (fun he => hmine (Or.inl he))
      (fun he => hmine (Or.inr he)) (by rw [hnone]; simp)
    exact ⟨h1.trans hfd.1, h2.trans hfd.2⟩

theorem Inv.ejected (h : Inv τ ρ w) (hp : p ∈ ρ.act) {l : Limit} (reason : FailureReason)
    (hd : w.due p = some l) :
    (∃ e, (w.timeOut p l reason).ended = w.ended ++ [e] ∧ w.Ejected p e) ∧
      (∀ fd, Mine (w.ctx p) fd → (w.timeOut p l reason).os.fds fd = none ∧
        (w.timeOut p l reason).sel.fds fd = none) ∧ Fewer w (w.timeOut p l reason) := by
  have hb := Base.refl w p
  have ho := h.own p hp
  have h1 := ho.note (o := .timedOut l w.os.now) rfl
  have hg : Good (w.ctx p) (socks5SetFailure reason ((w.ctx p).note (.timedOut l w.os.now))) :=
    h1.trans ho (h1.own.setFailure reason)
  have hcore := (h.toCore.put hp hb ho hg).1
  have hctx := put_ctx hb hg
  obtain ⟨m, log, -, hlog, -⟩ := h.ledgers.accounts
  have hend : Ending (fun _ _ _ => True) (w.ctx p).view [.timedOut l w.os.now] :=
    .timedOut l _ (due_expired hd) trivial
  have hview : (socks5SetFailure reason ((w.ctx p).note (.timedOut l w.os.now))).view =
      (w.ctx p).view.note (.timedOut l w.os.now) := by rw [view_setFailure, view_note]
  -- the world in which the reason is recorded
  generalize hw1 : w.put (socks5SetFailure reason ((w.ctx p).note (.timedOut l w.os.now))) = w1
    at hcore hctx
  have hn : consumptions (w1.mem p).hist = submissions (w1.mem p).hist := by
    have h2 : (w1.mem p).hist = (w.ctx p).view.hist ++ [.timedOut l w.os.now] :=
      (congrArg (fun c : SCtx => c.view.hist) hctx :).trans (congrArg View.hist hview)
    rw [h2]
    exact hend.settled (h.reached p hp)
  have ha : w1.os.allocated p = true :=
    (hcore.books.allocated p).mpr (List.mem_append_left _ (List.mem_append_left _ hp))
  have hlog1 : w1.g.accessLog = some log := by rw [← hw1]; exact hlog
  have hf := socksv5Done_finished (hcore.own p hp) hlog1 ha hn
  have hdone : w.timeOut p l reason = w1.socksv5Done p := by rw [← hw1]; rfl
  have hmine : ∀ fd, Mine (w1.ctx p) fd ↔ Mine (w.ctx p) fd := fun fd => by rw [hctx]; exact Iff.rfl
  have hended : w1.ended = w.ended := by rw [← hw1]; rfl
  rw [hdone]
  refine ⟨⟨_, hf.ended.trans (congrArg (· ++ _) hended), l, (w1.mem p).failureReason, hd, ?_⟩,
    fun fd hfd => ?_, fun fd hfd => ?_⟩
  · rw [finished_view hf hlog1, hctx, hview]
    have hnow : w1.os.now = w.os.now := by rw [← hw1]; rfl
    rw [hnow]
    simp only [View.filed, View.note, List.append_assoc]
    rfl
  · exact hf.closed fd ((hmine fd).mpr hfd)
  · have hnot : ¬Mine (w1.ctx p) fd := fun hm => by
      obtain ⟨k, hk⟩ := (ho.owns ((hmine fd).mp hm)).2
      rw [show (w.ctx p).os.fds fd = none from hfd.1] at hk
      cases hk
    obtain ⟨h2, h3⟩ := hf.kept fd hnot
    rw [h2, h3, ← hw1]
    exact hfd

end Turn

/-! ## The whole sweep -/

/-- What the sweep did at the sessions `rest`, one after the other. -/
structure Swept (w w' : World) (rest : List Ptr) : Prop where
  ended : ∃ es, w'.ended = w.ended ++ es ∧ List.Forall₂ w.Ejected (rest.filter (w.Lapsed ·)) es
  tended : ∀ p ∈ rest, Tended w w' p
  fewer : Fewer w w'

section Whole
variable {τ : Terms} {ρ ρ' : Roster} {w w' w'' : World} {p : Ptr} {rest : List Ptr}

theorem Fewer.refl (w : World) : Fewer w w := fun _ h => h

/-- One turn. -/
theorem Inv.swept (h : Inv τ ρ w) (hp : p ∈ ρ.act) : Swept w (w.sweepOne p) [p] := by
  by_cases hl : w.Lapsed p
  · obtain ⟨l, reason, hd, he⟩ := sweepOne_lapsed hl
    obtain ⟨⟨e, h1, h2⟩, h3, h4⟩ := h.ejected hp reason hd
    rw [he]
    refine ⟨⟨[e], h1, ?_⟩, fun q hq => ?_, h4⟩
    · rw [List.filter_cons_of_pos (by simpa using hl)]
      exact .cons h2 .nil
    · rw [List.mem_singleton.mp hq]
      exact ⟨fun _ => h3, fun hu => absurd hl hu.not_lapsed, fun hn => absurd hl hn⟩
  · have hnil : [p].filter (w.Lapsed ·) = [] := List.filter_cons_of_neg (by simpa using hl)
    by_cases hu : w.Unanswered p
    · obtain ⟨h1, h2⟩ := h.givenUp hp hu.1
      rw [sweepOne_unanswered hu]
      refine ⟨⟨[], (List.append_nil _).symm, by rw [hnil]; exact .nil⟩, fun q hq => ?_, h2⟩
      rw [List.mem_singleton.mp hq]
      exact ⟨fun hn => absurd hn hl, fun _ => h1, fun _ hn => absurd hu hn⟩
    · rw [sweepOne_spared hl hu]
      refine ⟨⟨[], (List.append_nil _).symm, by rw [hnil]; exact .nil⟩, fun q hq => ?_, .refl w⟩
      rw [List.mem_singleton.mp hq]
      exact ⟨fun hn => absurd hn hl, fun hn => absurd hn hu, fun _ _ => .refl w p⟩

theorem GivenUp.kept (h : GivenUp w w' p) (hk : Kept w' w'' p) (hf : Fewer w' w'') :
    GivenUp w w'' p := by
  have hfd : (w'.mem p).clientFd = (w.mem p).clientFd := (congrArg Socks5.clientFd h.object :)
  obtain ⟨h1, h2⟩ := hk.fds (w.mem p).clientFd (Or.inl hfd.symm)
  exact ⟨hk.mem.trans h.object, fun fd ho => hf fd (h.released fd ho), h1.trans h.client,
    h2.trans h.armed⟩

theorem Kept.givenUp (hk : Kept w w' p) (ht : w'.terms = w.terms) (h : GivenUp w' w'' p) :
    GivenUp w w'' p := by
  have hnow : w'.os.now = w.os.now := congrArg Prod.fst ht
  have hrefs : (w'.mem p).references - originRefs (w'.mem p) =
      (w.mem p).references - originRefs (w.mem p) :=
    (congrArg (fun s : Socks5 => s.references - originRefs s) hk.mem :)
  refine ⟨?_, fun fd hfd => h.released fd (hk.originFd.trans hfd), ?_, ?_⟩
  · rw [h.object, hk.mem, hrefs, hnow, hk.hist]
  · rw [← hk.clientFd, h.client, hk.clientFd]
    exact (hk.fds _ (Or.inl rfl)).1
  · rw [← hk.clientFd]
    exact h.armed

theorem Kept.ejected {e : Ended} (hk : Kept w w' p) (ht : w'.terms = w.terms) :
    w'.Ejected p e ↔ w.Ejected p e := by
  have hnow : w'.os.now = w.os.now := congrArg Prod.fst ht
  unfold World.Ejected
  rw [hk.due ht, hk.view, hnow]

/-- A turn, then the turns after it. -/
theorem Tended.after (hk : Kept w w' p) (ht : w'.terms = w.terms) (h : Tended w' w'' p) :
    Tended w w'' p := by
  refine ⟨fun hl fd hfd => h.lapsed ((hk.lapsed ht).mpr hl) fd ?_,
    fun hu => hk.givenUp ht (h.unanswered ((hk.unanswered ht).mpr hu)), fun hl hu => ?_⟩
  · rcases hfd with he | he
    · exact Or.inl (he.trans hk.clientFd.symm)
    · exact Or.inr (hk.originFd.trans he)
  · exact hk.trans (h.spared (fun hn => hl ((hk.lapsed ht).mp hn))
      fun hn => hu ((hk.unanswered ht).mp hn))

theorem Tended.then (h : Tended w w' p) (hk : ¬w.Lapsed p → Kept w' w'' p) (hf : Fewer w' w'') :
    Tended w w'' p :=
  ⟨fun hl fd hfd => hf fd (h.lapsed hl fd hfd),
    fun hu => (h.unanswered hu).kept (hk hu.not_lapsed) hf,
    fun hl hu => (h.spared hl hu).trans (hk hl)⟩

theorem Sweep.swept (h : Sweep τ ρ w rest ρ' w') : Swept w w' rest := by
  induction h with
  | finished h hc => exact ⟨⟨[], (List.append_nil _).symm, .nil⟩, fun q hq => (by cases hq), .refl _⟩
  | @turn ρ ρ₁ ρ' w w' p rest h hp hnot hrest h1 ht hact h2 ih =>
    obtain ⟨⟨es, he, hes⟩, htended, hfewer⟩ := h.swept hp
    obtain ⟨⟨es', he', hes'⟩, htended', hfewer'⟩ := ih
    have hkept : ∀ q ∈ rest, Kept w (w.sweepOne p) q := fun q hq =>
      (h1.beside.sessions q (hrest q hq) fun hqp => hnot (hqp ▸ hq)).2
    refine ⟨⟨es ++ es', by rw [he', he, List.append_assoc], ?_⟩, fun q hq => ?_,
      fun fd hfd => hfewer' fd (hfewer fd hfd)⟩
    · have hfilter : rest.filter ((w.sweepOne p).Lapsed ·) = rest.filter (w.Lapsed ·) :=
        List.filter_congr fun q hq => by simpa using (hkept q hq).lapsed ht
      have hes'' : List.Forall₂ w.Ejected (rest.filter (w.Lapsed ·)) es' := by
        rw [← hfilter]
        have hin : ∀ q ∈ rest.filter ((w.sweepOne p).Lapsed ·), Kept w (w.sweepOne p) q :=
          fun q hq => hkept q (List.mem_of_mem_filter hq)
        exact ((List.forall₂_and_left _ _).mpr ⟨hin, hes'⟩).imp fun q e h => (h.1.ejected ht).mp h.2
      have hsplit : (p :: rest).filter (w.Lapsed ·) =
          [p].filter (w.Lapsed ·) ++ rest.filter (w.Lapsed ·) := List.filter_append [p] rest
      rw [hsplit]
      exact List.rel_append hes hes''
    · rcases List.mem_cons.mp hq with rfl | hq
      · refine (htended q List.mem_cons_self).then (fun hl => ?_) hfewer'
        have hin : q ∈ ρ₁.act := by
          rw [hact, if_neg fun hd => hl ((due_iff w q).mp (Option.isSome_iff_exists.mp hd))]
          exact hp
        exact (h2.stepped.beside.sessions q hin hnot).2
      · exact (htended' q hq).after (hkept q hq) ht

/-- The turns are taken at the sessions of the list, in its order. -/
theorem Sweep.foldl (h : Sweep τ ρ w rest ρ' w') : w' = rest.foldl World.sweepOne w := by
  induction h with
  | finished h hc => rfl
  | turn _ _ _ _ _ _ _ _ ih => exact ih

/-- Those that lapsed are off the list; the others keep their places. -/
theorem Sweep.act (h : Sweep τ ρ w rest ρ' w') : ∀ {done : List Ptr}, ρ.act = done ++ rest →
    ρ'.act = done ++ rest.filter (¬w.Lapsed ·) := by
  induction h with
  | finished h hc => exact fun hact => hact
  | @turn ρ ρ₁ ρ' w w' p rest h hp hnot hrest h1 ht hact h2 ih =>
    intro done hd
    have hfilter : rest.filter (¬(w.sweepOne p).Lapsed ·) = rest.filter (¬w.Lapsed ·) :=
      List.filter_congr fun q hq => by
        have hk := (h1.beside.sessions q (hrest q hq) fun hqp => hnot (hqp ▸ hq)).2
        simpa using hk.lapsed ht
    have hnodup : (done ++ p :: rest).Nodup := hd ▸ h.books.actNodup
    by_cases hl : w.Lapsed p
    · have hdue : (w.due p).isSome = true := Option.isSome_iff_exists.mpr ((due_iff w p).mpr hl)
      have hpd : p ∉ done := fun hm =>
        (List.nodup_append.mp hnodup).2.2 p hm p List.mem_cons_self rfl
      rw [if_pos hdue, hd, List.erase_append_right _ hpd, List.erase_cons_head] at hact
      rw [ih hact, hfilter, List.filter_cons_of_neg (by simpa using hl)]
    · rw [if_neg fun hdue => hl ((due_iff w p).mp (Option.isSome_iff_exists.mp hdue)), hd] at hact
      have hact' : ρ₁.act = (done ++ [p]) ++ rest := by rw [hact, List.append_assoc]; rfl
      rw [ih hact', hfilter, List.filter_cons_of_pos (by simpa using hl), List.append_assoc]
      rfl

end Whole

/-! ## Any clock, any configuration -/

/-- The process at time `t`, with other limits. -/
def World.under (w : World) (t : Int) (cfg : Config) : World :=
  { w with os := { w.os with now := t }, g := { w.g with config := some cfg } }

/-- The active list is well formed, and holds the sessions. -/
structure World.Listed (w : World) (act : List Ptr) : Prop where
  linked : Linked (fun p => (w.mem p).activeNext) (fun p => (w.mem p).activePrev) none
    w.g.activeHead act
  nodup : act.Nodup
  count : w.g.activeSessions = act.length
  sessions : ∀ p, p ∈ act ↔ w.Serves p

section Exact
variable {τ : Terms} {ρ : Roster} {w : World}

theorem Inv.listed (h : Inv τ ρ w) : w.Listed ρ.act :=
  ⟨h.books.linked, h.books.actNodup, h.books.active, fun _ => h.serves_iff.symm⟩

/-- Nothing that has to hold between two steps depends on the clock or on the limits. -/
theorem Inv.under (h : Inv τ ρ w) (t : Int) (cfg : Config) : Inv τ ρ (w.under t cfg) := by
  have hb := h.books
  have hr := h.registry
  have ht : Table (w.under t cfg).os (w.under t cfg).sel := hr.table.congr rfl
  refine ⟨{
    books := ⟨hb.nodup, hb.allocated, hb.linked, hb.active, hb.chain, hb.pool, hb.poolMax, hb.admins⟩
    registry := ⟨ht, hr.socks5, hr.mng, fun fd it hi hh => (hr.listening fd it hi hh).congr rfl rfl,
      hr.socksFd, hr.mngFd⟩
    held := ⟨h.held.opened, h.held.inherited, h.held.stray, h.held.alive⟩
    own := fun p hp => ⟨(h.own p hp).client, (h.own p hp).origin, (h.own p hp).here, ht⟩
    jobs := ⟨h.jobs.jobs, h.jobs.notices, h.jobs.tickets, h.jobs.prompt⟩
    ledgers := ?_
    ended := h.ended
    admins := fun m hm => ?_
    names := h.names
    secret := h.secret
    left := h.left }, h.reached⟩
  · obtain ⟨d, hd, hmail⟩ := h.ledgers.mail
    obtain ⟨m, log, hm, hlog, hacc⟩ := h.ledgers.accounts
    exact ⟨⟨d, hd, hmail.posted, hmail.mine, hmail.found⟩,
      m, log, hm, hlog, hacc.tally, hacc.accepted, hacc.admins, hacc.log⟩
  · have hk : MngKept w (w.under t cfg) m := ⟨rfl, rfl, rfl⟩
    exact hk.admin ht (h.admins m hm)

theorem AllCalm.under (h : AllCalm ρ w) (t : Int) (cfg : Config) : AllCalm ρ (w.under t cfg) :=
  fun p hp => ⟨(h p hp).rest.congr rfl rfl, (h p hp).notDone, (h p hp).notError⟩

end Exact

/-- Whatever the clock says and whatever the limits are, the sweep looks at every
session of the active list once, in the order of the list. It ends those that
have lapsed, takes the origin from those whose connect is overdue, and leaves
the others alone; the list is well formed afterwards and holds those that were
not ended. -/
theorem sweep_exact (b : Boot) (is : List Input) (t : Int) (cfg : Config) :
    ∃ act, ((b.start.run is).under t cfg).Listed act ∧
      ((b.start.run is).under t cfg).socksv5CheckTimeouts =
        act.foldl World.sweepOne ((b.start.run is).under t cfg) ∧
      ((b.start.run is).under t cfg).socksv5CheckTimeouts.Listed
        (act.filter (¬((b.start.run is).under t cfg).Lapsed ·)) ∧
      (∃ es, ((b.start.run is).under t cfg).socksv5CheckTimeouts.ended =
          ((b.start.run is).under t cfg).ended ++ es ∧
        List.Forall₂ ((b.start.run is).under t cfg).Ejected
          (act.filter (((b.start.run is).under t cfg).Lapsed ·)) es) ∧
      ∀ p ∈ act, Tended ((b.start.run is).under t cfg)
        ((b.start.run is).under t cfg).socksv5CheckTimeouts p := by
  obtain ⟨ρ, h⟩ := b.orderly is
  generalize hw : (b.start.run is).under t cfg = w
  have hinv : Inv b.plain ρ w := hw ▸ h.inv.under t cfg
  have hcalm : AllCalm ρ w := hw ▸ h.calm.under t cfg
  obtain ⟨ρ', hs⟩ := hinv.checkTimeouts hcalm fun p hp l _ => (hcalm p hp).rest.rest
  have hact : ρ'.act = ρ.act.filter (¬w.Lapsed ·) := hs.act (List.nil_append _).symm
  obtain ⟨hended, htended, -⟩ := hs.swept
  exact ⟨ρ.act, hinv.listed, hs.foldl, hact ▸ hs.stepped.inv.listed, hended, htended⟩

end Socks5d
