import Socks5d.Accepting

/-! # The sweep

`socksv5_check_timeouts` walks the active list and ends sessions while it does.
It has the successor of a session before it looks at it, and ending a session
takes that one out only: what is left to visit stays the rest of the list. -/
namespace Socks5d
open Ctx Lib.Links

/-- The limit for which the sweep is about to close session `p`. -/
def World.due (w : World) (p : Ptr) : Option Limit :=
  let s := w.mem p
  match s.stm.getD .helloRead with
  | .copy =>
    w.g.config.bind fun cfg =>
      if cfg.idleTimeout > 0 ∧ w.os.now - s.lastActivity ≥ cfg.idleTimeout then
        some (.idle cfg.idleTimeout)
      else none
  | .connecting | .done | .error | .requestResolv => none
  | .helloRead | .helloWrite | .authRead | .authWrite | .requestRead | .requestWrite =>
    if s.negotiationDeadline ≠ 0 ∧ w.os.now ≥ s.negotiationDeadline then some .negotiation else none

/-- What the sweep reads besides the sessions. -/
def World.terms (w : World) : Int × Option Config := (w.os.now, w.g.config)

section Sweep
variable {τ : Terms} {ρ : Roster} {w : World} {p : Ptr}

theorem getD_eq {o : Option SocksState} {st : SocksState} (h : o.getD .helloRead = st)
    (hne : st ≠ .helloRead) : o = some st := by
  cases o with
  | none => exact absurd h.symm hne
  | some _ => exact congrArg some h

/-- The sweep leaves a session alone, gives up its connect, or ends it. -/
theorem sweepOne_cases (w : World) (p : Ptr) :
    w.sweepOne p = w ∧ w.due p = none ∨
    w.sweepOne p = w.put (connectingTimeout (w.ctx p)) ∧ (w.mem p).stm = some .connecting ∨
    ∃ l reason, w.due p = some l ∧ w.sweepOne p = w.timeOut p l reason := by
  dsimp only [World.sweepOne, World.due]
  cases hst : (w.mem p).stm.getD .helloRead with
  | connecting =>
    simp only
    split
    · exact Or.inr (Or.inl ⟨rfl, getD_eq hst (by decide)⟩)
    · exact Or.inl ⟨rfl, trivial⟩
  | copy =>
    simp only
    cases w.g.config with
    | none => exact Or.inl ⟨rfl, rfl⟩
    | some cfg =>
      simp only [Option.bind_some]
      split
      · exact Or.inr (Or.inr ⟨_, _, rfl, rfl⟩)
      · exact Or.inl ⟨rfl, rfl⟩
  | done | error | requestResolv => exact Or.inl ⟨rfl, rfl⟩
  | helloRead | helloWrite | authRead | authWrite | requestRead | requestWrite =>
    simp only
    split
    · exact Or.inr (Or.inr ⟨_, _, rfl, rfl⟩)
    · exact Or.inl ⟨rfl, rfl⟩

theorem due_expired {l : Limit} (hd : w.due p = some l) : (w.ctx p).view.Expired w.os.now l := by
  have hview : (w.ctx p).view.st = (w.mem p).stm := rfl
  have hother : ∀ st, (w.mem p).stm = some st → (w.mem p).stm.getD .helloRead = st :=
    fun st h => by rw [h]; rfl
  dsimp only [World.due] at hd
  cases hst : (w.mem p).stm.getD .helloRead with
  | copy =>
    rw [hst] at hd
    obtain ⟨cfg, -, hd⟩ := Option.bind_eq_some_iff.mp hd
    split at hd
    · next h =>
      cases hd
      exact ⟨hview.trans (getD_eq hst (by decide)), h.1, h.2⟩
    · cases hd
  | connecting | done | error | requestResolv => rw [hst] at hd; cases hd
  | helloRead | helloWrite | authRead | authWrite | requestRead | requestWrite =>
    rw [hst] at hd
    simp only at hd
    split at hd
    · cases hd
      refine ⟨?_, ?_, ?_, ?_, ?_⟩ <;>
      · intro he
        have h1 := hother _ (hview.symm.trans he)
        rw [hst] at h1
        cases h1
    · cases hd

/-- A session that was left alone is due as it was. -/
theorem Kept.due {w' : World} (h : Kept w w' p) (ht : w'.terms = w.terms) : w'.due p = w.due p := by
  have h1 : w'.os.now = w.os.now := congrArg Prod.fst ht
  have h2 : w'.g.config = w.g.config := congrArg Prod.snd ht
  have h3 : (w'.mem p).stm = (w.mem p).stm := (congrArg Socks5.stm h.mem :)
  have h4 : (w'.mem p).lastActivity = (w.mem p).lastActivity := (congrArg Socks5.lastActivity h.mem :)
  have h5 : (w'.mem p).negotiationDeadline = (w.mem p).negotiationDeadline :=
    (congrArg Socks5.negotiationDeadline h.mem :)
  dsimp only [World.due]
  rw [h1, h2, h3, h4, h5]

/-! ## One session -/

theorem put_terms {c c' : SCtx} {taken : List Obs} {notices : List Fd}
    (hb : Base w p c taken notices) (hg : Good c c') : (w.put c').terms = w.terms := by
  have h1 : c'.os.now = w.os.now := by
    have h := congrArg OS.now hg.frame.os
    rw [hb.os] at h
    exact h
  have h2 : c'.g.config = w.g.config := by
    have h := congrArg Globals.config hg.frame.g
    rw [hb.g] at h
    exact h
  exact Prod.ext h1 h2

theorem Core.doneTerms {v : View} {why : List Obs} (h : Core τ ρ w) (hp : p ∈ ρ.act)
    (hv : Reached τ.strict v) (hw : Ending τ.fair v why)
    (he : (w.ctx p).view = { v with hist := v.hist ++ why }) : (w.socksv5Done p).terms = w.terms := by
  obtain ⟨m, log, -, hl, -⟩ := h.ledgers.accounts
  have hn : consumptions (w.mem p).hist = submissions (w.mem p).hist := by
    have h1 : (w.mem p).hist = v.hist ++ why := congrArg View.hist he
    rw [h1]
    exact hw.settled hv
  have ha : w.os.allocated p = true :=
    (h.books.allocated p).mpr (List.mem_append_left _ (List.mem_append_left _ hp))
  have hf := socksv5Done_finished (h.own p hp) hl ha hn
  exact Prod.ext (congrArg OS.now hf.os :) (congrArg Globals.config hf.g :)

/-- The session is closed for a limit it has exceeded. -/
theorem Inv.timeOut (h : Inv τ ρ w) (hc : AllCalm ρ w) (hp : p ∈ ρ.act) {l : Limit} (reason : FailureReason)
    (hd : w.due p = some l) (hf : τ.fair (w.ctx p).view l w.os.now) :
    Stepped τ (· = p) 0 ρ (ρ.without p) w (w.timeOut p l reason) ∧
      (w.timeOut p l reason).terms = w.terms := by
  have hb := Base.refl w p
  have ho := h.own p hp
  have h1 := ho.note (o := .timedOut l w.os.now) rfl
  have hg : Good (w.ctx p) (socks5SetFailure reason ((w.ctx p).note (.timedOut l w.os.now))) :=
    h1.trans ho (h1.own.setFailure reason)
  obtain ⟨hcore, hbeside⟩ := h.toCore.put hp hb ho hg
  have hview := congrArg Ctx.view (put_ctx hb hg)
  rw [view_setFailure, view_note] at hview
  have hothers : ∀ q ∈ ρ.act, q ≠ p → Kept w (w.put
      (socks5SetFailure reason ((w.ctx p).note (.timedOut l w.os.now)))) q := fun q hq hne =>
    (hbeside.sessions q hq hne).2
  have hend : Ending τ.fair (w.ctx p).view [.timedOut l w.os.now] := .timedOut l _ (due_expired hd) hf
  obtain ⟨h2, hbeside2, hset⟩ := Inv.done hcore
    (fun q hq hne => by rw [(hothers q hq hne).view]; exact h.reached q hq) hp (h.reached p hp) hend
    hview
  refine ⟨.socks h2 (fun q hq => ?_) (hbeside.trans hbeside2) without_kin
    (hset.trans (put_settings hb hg)), ?_⟩
  · have hne : q ≠ p := fun he => h.books.actNodup.not_mem_erase (he ▸ hq)
    have hq : q ∈ ρ.act := List.mem_of_mem_erase hq
    exact (hbeside2.sessions q hq hne).2.calm ((hothers q hq hne).calm (hc q hq))
  · exact (hcore.doneTerms hp (h.reached p hp) hend hview).trans (put_terms hb hg)

/-- The connect is given up; the session is to tell its client. -/
theorem Inv.connectTimeOut (h : Inv τ ρ w) (hc : AllCalm ρ w) (hp : p ∈ ρ.act)
    (hst : (w.mem p).stm = some .connecting) :
    Stepped τ (· = p) 0 ρ ρ w (w.put (connectingTimeout (w.ctx p))) ∧
      (w.put (connectingTimeout (w.ctx p))).terms = w.terms := by
  have hb := Base.refl w p
  have ho := h.own p hp
  obtain ⟨hg, hm, hst', hs⟩ :=
    @connectingTimeout_spec τ.strict _ ho (h.reached p hp).ledger hst
  obtain ⟨h1, hbeside⟩ := h.put hp hb ho hg ((h.reached p hp).moves hm)
  refine ⟨.socks h1 (fun q hq => ?_) hbeside ⟨.refl _, .refl _⟩
    (put_settings hb hg), put_terms hb hg⟩
  by_cases hqp : q = p
  · subst hqp
    rw [put_ctx hb hg]
    exact ⟨hs, by rw [hst']; decide, by rw [hst']; decide⟩
  · exact (hbeside.sessions q hq hqp).2.calm (hc q hq)

theorem connecting_due (hst : (w.mem p).stm = some .connecting) : w.due p = none := by
  dsimp only [World.due]
  rw [hst]
  rfl

/-- The sweep at session `p`. -/
theorem Inv.sweepOne (h : Inv τ ρ w) (hc : AllCalm ρ w) (hp : p ∈ ρ.act)
    (hf : ∀ l, w.due p = some l → τ.fair (w.ctx p).view l w.os.now) :
    ∃ ρ', Stepped τ (· = p) 0 ρ ρ' w (w.sweepOne p) ∧ (w.sweepOne p).terms = w.terms ∧
      ρ'.act = if (w.due p).isSome then ρ.act.erase p else ρ.act := by
  rcases sweepOne_cases w p with ⟨he, hd⟩ | ⟨he, hst⟩ | ⟨l, reason, hd, he⟩
  · rw [he, hd]
    exact ⟨ρ, .refl h hc, rfl, rfl⟩
  · rw [he, connecting_due hst]
    obtain ⟨h1, h2⟩ := h.connectTimeOut hc hp hst
    exact ⟨ρ, h1, h2, rfl⟩
  · rw [he, hd]
    obtain ⟨h1, h2⟩ := h.timeOut hc hp reason hd (hf l hd)
    exact ⟨ρ.without p, h1, h2, rfl⟩

/-! ## All sessions -/

/-- The sweep at the sessions of the list, one after the other. -/
inductive Sweep (τ : Terms) : Roster → World → List Ptr → Roster → World → Prop
  | finished {ρ : Roster} {w : World} : Inv τ ρ w → AllCalm ρ w → Sweep τ ρ w [] ρ w
  | turn {ρ ρ₁ ρ' : Roster} {w w' : World} {p : Ptr} {rest : List Ptr} :
      Inv τ ρ w → p ∈ ρ.act → p ∉ rest → (∀ q ∈ rest, q ∈ ρ.act) →
      Stepped τ (· = p) 0 ρ ρ₁ w (w.sweepOne p) → (w.sweepOne p).terms = w.terms →
      ρ₁.act = (if (w.due p).isSome then ρ.act.erase p else ρ.act) →
      Sweep τ ρ₁ (w.sweepOne p) rest ρ' w' → Sweep τ ρ w (p :: rest) ρ' w'

theorem Sweep.stepped {ρ' : Roster} {w' : World} {rest : List Ptr} (h : Sweep τ ρ w rest ρ' w') :
    Stepped τ (· ∈ rest) 0 ρ ρ' w w' := by
  induction h with
  | finished h hc => exact .refl h hc
  | turn _ _ _ _ h1 _ _ _ ih =>
    exact (h1.mono fun q hq => hq ▸ List.mem_cons_self).trans
      (ih.mono fun q hq => List.mem_cons_of_mem _ hq)

/-- The sweep from one session on: `rest` is what is left of the list. -/
theorem Inv.sweepFrom : ∀ (rest : List Ptr) {ρ : Roster} {w : World} {done : List Ptr} {n : Nat},
    Inv τ ρ w → AllCalm ρ w → ρ.act = done ++ rest → rest.length ≤ n →
    (∀ p ∈ rest, ∀ l, w.due p = some l → τ.fair (w.ctx p).view l w.os.now) →
    ∃ ρ', Sweep τ ρ w rest ρ' (World.sweepFrom n rest.head? w)
  | [], ρ, w, _, n, h, hc, _, _, _ => by
    have he : World.sweepFrom n none w = w := by cases n <;> rfl
    exact ⟨ρ, by rw [List.head?_nil, he]; exact .finished h hc⟩
  | p :: rest, ρ, w, done, 0, _, _, _, hn, _ => absurd hn (by simp)
  | p :: rest, ρ, w, done, n + 1, h, hc, hact, hn, hf => by
    have hnodup : (done ++ p :: rest).Nodup := hact ▸ h.books.actNodup
    have hp : p ∈ ρ.act := by rw [hact]; simp
    -- the successor is read before the session may go
    have hnext : (w.mem p).activeNext = rest.head? := (hact ▸ h.books.linked.chain).next_eq
    obtain ⟨ρ₁, h1, hterms, hact1⟩ := h.sweepOne hc hp (hf p List.mem_cons_self)
    have hnot : p ∉ rest := (List.nodup_cons.mp (List.nodup_append.mp hnodup).2.1).1
    have hrest : ∀ q ∈ rest, q ∈ ρ.act := fun q hq => by rw [hact]; simp [hq]
    obtain ⟨done', hact'⟩ : ∃ done', ρ₁.act = done' ++ rest := by
      by_cases hd : (w.due p).isSome
      · refine ⟨done, ?_⟩
        have hd' : p ∉ done := fun hd' =>
          (List.nodup_append.mp hnodup).2.2 p hd' p List.mem_cons_self rfl
        rw [hact1, if_pos hd, hact, List.erase_append_right _ hd', List.erase_cons_head]
      · exact ⟨done ++ [p], by rw [hact1, if_neg hd, hact, List.append_assoc]; rfl⟩
    obtain ⟨ρ', h2⟩ := Inv.sweepFrom rest h1.inv h1.calm hact' (Nat.le_of_succ_le_succ hn)
      fun q hq l hd => by
        have hk := (h1.beside.sessions q (hrest q hq) fun he => hnot (he ▸ hq)).2
        rw [hk.due hterms] at hd
        have hnow : (w.sweepOne p).os.now = w.os.now := congrArg Prod.fst hterms
        rw [hk.view, hnow]
        exact hf q (List.mem_cons_of_mem _ hq) l hd
    have he : World.sweepFrom (n + 1) (p :: rest).head? w =
        World.sweepFrom n rest.head? (w.sweepOne p) := by
      rw [← hnext]
      rfl
    rw [he]
    exact ⟨ρ', .turn h hp hnot hrest h1 hterms hact1 h2⟩

/-- `socksv5_check_timeouts` -/
theorem Inv.checkTimeouts (h : Inv τ ρ w) (hc : AllCalm ρ w)
    (hf : ∀ p ∈ ρ.act, ∀ l, w.due p = some l → τ.fair (w.ctx p).view l w.os.now) :
    ∃ ρ', Sweep τ ρ w ρ.act ρ' w.socksv5CheckTimeouts := by
  unfold World.socksv5CheckTimeouts
  rw [h.books.linked.chain.head_eq, h.books.active]
  exact Inv.sweepFrom ρ.act h hc (List.nil_append _).symm (Nat.le_refl _) hf

end Sweep
end Socks5d
