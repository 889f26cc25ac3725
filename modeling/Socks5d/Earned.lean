import Socks5d.Attempts
import Socks5d.Delivery
import Socks5d.Lib.Histories

/-! # Successes are earned

The walk over the descriptors goes by marks that were taken before it began. As
long as it serves no session that could open a socket while a mark is left on the
number that socket would get, a client is told of a success only when the kernel
has reported its own origin's connect to be over. -/
namespace Socks5d
open Ctx View Lib.Histories

/-- The step does not come to a session that could fall for a stale mark. -/
def World.Untrapped (w : World) (_ : Input) : Prop :=
  ∀ i n, w.phase = .walk i n → i ≤ n → w.Clear i

/-- What an event about an origin rests on: a success, on the attempt right before
it, reported and over; a relay, on a success. -/
def Obs.EarnedBy (past : List Obs) : Obs → Prop
  | .replied r => r = replySucceeded → ∃ h a conn, conn ≠ .inProgress ∧
      past = h ++ [.attempted a .opened, .completed none true (some conn)]
  | .entered st _ => st = .copy → .replied replySucceeded ∈ past
  | .completed none reported _ => reported = true
  | _ => True

/-- What a session was told of its origin it was told because it was so. -/
def View.Earned (v : View) : Prop := Grounded Obs.EarnedBy v.hist

section Moves
variable {strict : Prop} {v v' : View} {l : List Obs}

theorem Obs.earned_unmarked {past : List Obs} {o : Obs} (h : o.marks = false) : o.EarnedBy past := by
  cases o with
  | replied | entered => cases h
  | completed err reported conn =>
    cases err with
    | none => cases h
    | some e => trivial
  | _ => trivial

/-- What `SO_ERROR` said, and of which socket. -/
theorem Move.connects (h : Move strict v v') (hl : v'.hist = v.hist ++ l) {a : Bool}
    {k : Option Conn} (hc : .completed none a k ∈ l) :
    (strict → a = true) ∧ a = v.og.reported ∧ k = some v.og.conn ∧ v.originFd ≠ none := by
  cases h with
  | connected fd t hst hor hso hrep =>
    have hl : l = [.completed none v.og.reported (some v.og.conn), .replied replySucceeded,
        .entered .requestWrite t] := by simpa using hl.symm
    subst hl
    simp only [List.mem_cons, Obs.completed.injEq, reduceCtorEq, List.not_mem_nil, or_false,
      true_and] at hc
    obtain ⟨rfl, rfl⟩ := hc
    exact ⟨hrep, rfl, rfl, by rw [hor]; exact Option.some_ne_none fd⟩
  | relayStarted t hst =>
    have hl := List.append_cancel_left (hl.symm.trans (startRelay_grown v t))
    subst hl
    simp at hc
  | relayReceived d | relayEof d | relayUnread d | relaySent d | relayUnsent d | relayShut d =>
    cases d <;> simp at hl <;> subst hl <;> simp at hc
  | _ =>
    simp at hl
    subst hl
    simp at hc

/-- The kernel does not report a connect that is under way. -/
def View.Honest (v : View) : Prop := v.og.reported = true → v.og.conn ≠ .inProgress

theorem Move.honest (h : Move strict v v') (hv : v.Honest) : v'.Honest := by
  cases h with
  | attemptOpened a rest fd k ha hk =>
    intro hr
    rcases hk with rfl | rfl
    · cases hr
    · exact Conn.noConfusion
  | reported a b hb =>
    intro hr
    rcases Bool.or_eq_true_iff.mp hr with h1 | h1
    · exact hv h1
    · exact hb h1
  | settled conn err _ hconn => exact fun _ => hconn
  | originFailed | originGaveUp | connectTimedOut =>
    intro hr
    cases hr
  | relayReceived d | relayEof d | relayUnread d | relaySent d | relayUnsent d | relayShut d =>
    cases d <;> exact hv
  | _ => exact hv

/-- With an origin open, it is the one that was opened last. -/
theorem Stage.pending {targets : List SockAddr} (h : Stage v targets l) (ho : v.originFd ≠ none) :
    ∃ past a, l = past ++ [.attempted a .opened] := by
  cases h with
  | between hn => exact absurd hn ho
  | doomed hn => exact absurd hn ho
  | @opened tried a => exact ⟨trials tried, a, rfl⟩

theorem earned_all (hl : ∀ o ∈ l, o.marks = false) (f : List Obs → List Obs) :
    Grounded (fun past => Obs.EarnedBy (f past)) l := fun past o rest he =>
  Obs.earned_unmarked (hl o (by rw [he]; exact List.mem_append_right _ List.mem_cons_self))

/-- A session that relays has been told of a success. -/
theorem View.Script.told (h : v.Script) (hst : v.st = some .copy) :
    .replied replySucceeded ∈ v.hist := by
  simp only [View.Script, hst] at h
  obtain ⟨ns, got, user, -, ht, -⟩ := h
  have hm : .replied replySucceeded ∈ verdicts v.hist := by
    rw [ht.verdicts]
    exact List.mem_append_right _ (List.mem_singleton_self _)
  exact (List.mem_filter.mp hm).1

theorem Move.earned (h : Move strict v v') (hstrict : strict) (hs : v.Sane) (hc : v'.Script)
    (ht : v.Tracked) (hh : v.Honest) (he : v.Earned) : v'.Earned := by
  obtain ⟨l, hgrow, hb⟩ := h.beat hs
  unfold View.Earned
  rw [hgrow, grounded_append]
  refine ⟨he, ?_⟩
  generalize hst : v.st = s at hb
  generalize hst' : v'.st = s' at hb
  cases hb with
  | stay hl => exact earned_all hl _
  | @enter _ l r st t hne hl hr =>
    rw [grounded_append, grounded_append, grounded_singleton]
    refine ⟨⟨earned_all hl _, fun hcopy => ?_⟩, earned_all hr _⟩
    have htold := hc.told (hst'.trans (congrArg some hcopy))
    rw [hgrow] at htold
    simp only [List.mem_append, List.mem_singleton, reduceCtorEq, or_false] at htold ⊢
    rcases htold with hm | hm | hm
    · exact Or.inl hm
    · cases hl _ hm
    · cases hr _ hm
  | @refuse _ l r t hne hl hr =>
    rw [grounded_append, grounded_cons, grounded_singleton]
    exact ⟨earned_all hl _, fun he => absurd he hr, SocksState.noConfusion⟩
  | @gaveUp l r t hl hr =>
    rw [grounded_append, grounded_cons, grounded_cons, grounded_singleton]
    exact ⟨earned_all hl _, trivial, fun he => absurd he hr, SocksState.noConfusion⟩
  | connected a k t =>
    obtain ⟨ha, hrep, rfl, hor⟩ := h.connects hgrow List.mem_cons_self
    obtain ⟨targets, before, l, t', hp, hstage⟩ := ht.pass hst
    obtain ⟨past, x, rfl⟩ := hstage.pending hor
    have ha := ha hstrict
    subst ha
    rw [grounded_cons, grounded_cons, grounded_singleton]
    refine ⟨rfl, fun _ => ?_, SocksState.noConfusion⟩
    refine ⟨before ++ .entered .connecting t' :: past, x, v.og.conn, hh hrep.symm, ?_⟩
    rw [hp.hist, append_pair]
    simp

theorem Reached.earned (h : Reached strict v) (hstrict : strict) : v.Earned := by
  have hall : v.Script ∧ v.Tracked ∧ v.Honest ∧ v.Earned :=
    h.induct (P := fun v => v.Script ∧ v.Tracked ∧ v.Honest ∧ v.Earned)
      (fun fd t => ⟨fresh_script fd t, Or.inl fun o ho => (by cases ho), fun _ => Conn.noConfusion,
        grounded_nil⟩)
      fun hs ⟨hc, ht, hh, he⟩ hm => by
        have hc' := hm.script hs hc
        exact ⟨hc', hm.tracked hs hc ht, hm.honest hh, hm.earned hstrict hs hc' ht hh he⟩
  exact hall.2.2.2

theorem Final.unmarked {fair : View → Limit → Int → Prop} (h : Final fair v l) :
    ∀ o ∈ l, o.marks = false := fun o ho => by
  have hc := h.closing o ho
  cases o <;> first | rfl | cases hc

end Moves

/-- The terms of a run in which every step is untrapped. -/
def Boot.strictly (b : Boot) : Terms := { b.plain with strict := True }

/-- In a run that never serves a negotiating session while a mark is left on the
number its next socket would get, every success is told right after the session's
own last attempt was reported by the kernel and found without an error, and every
relay is one a success was told of. -/
theorem success_earned (b : Boot) (is : List Input) (hclear : b.start.Along World.Untrapped is)
    {v : View} (hs : (b.start.run is).Session v) : v.Earned := by
  have hfits : b.Fits b.strictly := ⟨rfl, rfl, Iff.rfl⟩
  obtain ⟨ρ, h⟩ := (b.start_orderly hfits).run_meeting rfl
    (fun h => ⟨fun _ => h, False.elim⟩) is hclear
  refine h.every hs (fun hr => hr.earned trivial) fun hr hf he => ?_
  exact grounded_append.mpr ⟨he, earned_all hf.unmarked _⟩

/-- A look at the step that shows it untrapped: the lowest free number, among the
first few, is not marked. -/
def World.unmarkedNext (w : World) : Bool :=
  match w.phase with
  | .walk i n => decide (n < i) ||
      match (List.range 8).find? fun g => (w.os.fds g).isNone with
      | some g => !w.sel.slaveW g
      | none => false
  | _ => true

theorem World.untrapped_of {w : World} (h : w.unmarkedNext = true) (x : Input) : w.Untrapped x := by
  intro i n hph hle it _ _ _ _ htrap
  obtain ⟨j, -, hmark, hfree, hlow⟩ := htrap
  unfold World.unmarkedNext at h
  rw [hph] at h
  simp only [Bool.or_eq_true, decide_eq_true_eq, Nat.not_lt.mpr hle, false_or] at h
  split at h
  · next g hg =>
    obtain ⟨hnone, -, hfirst⟩ := List.find?_range_eq_some.mp hg
    -- both are the lowest free number
    have hj : j = g := by
      rcases Nat.lt_trichotomy j g with hlt | heq | hlt
      · have hopen := hfirst j hlt
        rw [hfree] at hopen
        cases hopen
      · exact heq
      · exact absurd (Option.isNone_iff_eq_none.mp hnone) (hlow g hlt)
    rw [← hj, hmark] at h
    cases h
  · cases h

def World.unmarkedAlong : World → List Input → Bool
  | _, [] => true
  | w, i :: is => w.unmarkedNext && (w.step i).unmarkedAlong is

theorem World.along_of : ∀ (is : List Input) {w : World}, w.unmarkedAlong is = true →
    w.Along World.Untrapped is
  | [], _, _ => trivial
  | i :: is, w, h => by
    obtain ⟨h1, h2⟩ := Bool.and_eq_true_iff.mp h
    exact ⟨World.untrapped_of h1 i, along_of is h2⟩

theorem success_earned_tunnel :
    let v := ((Boot.open.start.run Input.tunnel).ctx 0).view
    v.st = some .copy ∧ v.Earned :=
  ⟨by decide +kernel, success_earned Boot.open Input.tunnel (World.along_of _ (by decide +kernel))
    (.live tunnel_serves)⟩

end Socks5d
