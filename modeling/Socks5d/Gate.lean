import Socks5d.Transcript
import Socks5d.Lib.Histories

/-! # The gate

Nothing is done for a client that has not been let in: behind every request that
is read, every job and every attempt to reach an origin stand the verdicts that
let the client through, about bytes it has sent. -/
namespace Socks5d
open Ctx View Lib.Histories

/-- The states behind the gate. -/
def SocksState.admitted : SocksState → Bool
  | .requestRead | .requestResolv | .connecting | .requestWrite | .copy => true
  | _ => false

/-- What only happens behind the gate. -/
def Obs.gated : Obs → Bool
  | .entered st _ => st.admitted
  | .requestProcessed _ | .replied _ | .dnsSubmit _ | .dnsConsumed _ | .attempted _ _
  | .completed _ _ _ | .connectFailed | .relayStart _ _ _ | .relayRecv _ _ _ | .relaySend _ _
  | .relayShut _ _ => true
  | _ => false

/-- The client has been let in by verdicts of this history, on the strength of
bytes it had sent. -/
def ClearedBy (rx : Bytes) (past : List Obs) : Prop :=
  ∃ ns got user, Cleared ns got user ∧ ns <+: verdicts past ∧ got <+: rx

/-- Each event behind the gate has the verdicts that let its client in behind it. -/
def Gated (rx : Bytes) (h : List Obs) : Prop :=
  Grounded (fun past o => o.gated = true → ClearedBy rx past) h

section Gate
variable {strict : Prop} {v v' : View} {rx bs : Bytes} {h l : List Obs}

theorem ClearedBy.grow (hc : ClearedBy rx h) (bs : Bytes) (l : List Obs) :
    ClearedBy (rx ++ bs) (h ++ l) := by
  obtain ⟨ns, got, user, hcl, hns, hgot⟩ := hc
  refine ⟨ns, got, user, hcl, ?_, hgot.trans (List.prefix_append _ _)⟩
  rw [verdicts_append]
  exact hns.trans (List.prefix_append _ _)

theorem Gated.grow (hg : Gated rx h) (bs : Bytes)
    (hl : ClearedBy rx h ∨ ∀ o ∈ l, o.gated = false) : Gated (rx ++ bs) (h ++ l) := by
  have hold : Gated (rx ++ bs) h := hg.mono fun past o _ hp ho => by
    have hpast := (hp ho).grow bs []
    rwa [List.append_nil] at hpast
  refine hold.add fun past o ho hgated => ?_
  rcases hl with hc | hn
  · exact hc.grow bs past
  · rw [hn o ho] at hgated
    cases hgated

def View.Admitted (v : View) : Prop := ∃ st, v.st = some st ∧ st.admitted = true

/-- What a move adds to a history, on which side of the gate. -/
inductive Passage (v v' : View) (l : List Obs) : Prop
  | inside : v.Admitted → Passage v v' l
  | outside : (∀ o ∈ l, o.gated = false) → ¬v'.Admitted → Passage v v' l
  | through (t : Int) : l = [.entered .requestRead t] → v'.st = some .requestRead → Passage v v' l

theorem not_admitted {st : SocksState} (hst : v.st = some st) (ha : st.admitted = false) :
    ¬v.Admitted := by
  rintro ⟨s, hs, hs'⟩
  rw [Option.some.inj (hst.symm.trans hs), hs'] at ha
  cases ha

theorem Move.passage (hm : Move strict v v') : ∃ l bs, v'.hist = v.hist ++ l ∧
    v'.cl.rx = v.cl.rx ++ bs ∧ Passage v v' l := by
  have hin : ∀ {st : SocksState}, v.st = some st → st.admitted = true → ∀ l, Passage v v' l :=
    fun hst ha l => .inside ⟨_, hst, ha⟩
  have hnil : v.hist = v.hist ++ [] ∧ v.cl.rx = v.cl.rx ++ [] :=
    ⟨(List.append_nil _).symm, (List.append_nil _).symm⟩
  have hstill : v'.st = v.st → Passage v v' [] := fun he => by
    by_cases ha : v.Admitted
    · exact .inside ha
    · refine .outside (by simp) ?_
      unfold View.Admitted at ha ⊢
      rwa [he]
  have hone : ∀ {o : Obs}, o.gated = false → ∀ x ∈ [o], x.gated = false := fun ho x hx => by
    rw [List.mem_singleton.mp hx, ho]
  cases hm with
  | start t hst => exact ⟨_, [], rfl, hnil.2, .outside (hone rfl) (not_admitted rfl rfl)⟩
  | received bs hst => exact ⟨[], bs, hnil.1, rfl, hstill rfl⟩
  | recvLost t hst hr | sendLost t hst hr | helloBad p rest t hst | helloRefused t hst
  | authBad p rest t hst | authRefused t hst =>
    exact ⟨_, [], rfl, hnil.2, .outside (hone rfl) (not_admitted rfl rfl)⟩
  | helloToAuth stale t hst =>
    exact ⟨_, [], rfl, hnil.2, .outside (hone rfl) (not_admitted rfl rfl)⟩
  | helloDone us p rest t hst | authDone us p rest t hst =>
    refine ⟨_, [], List.append_assoc _ [_] [_], hnil.2, .outside ?_ (not_admitted rfl rfl)⟩
    intro o ho
    rcases List.mem_append.mp ho with ho | ho <;> exact hone rfl o ho
  | helloToRequest stale t hst | authToRequest stale t hst =>
    exact ⟨_, [], rfl, hnil.2, .through t rfl rfl⟩
  | sent | helloMore | authMore | requestMore | resolved | exhausted | reported | settled
  | relaySynced => exact ⟨[], [], hnil.1, hnil.2, hstill rfl⟩
  | attemptFailed a rest e ha | attemptUnregistered a rest ha | attemptOpened a rest fd k ha =>
    exact ⟨_, [], rfl, hnil.2, hin ha.1 rfl _⟩
  | relayReceived d bs t hst =>
    cases d
    · exact ⟨_, bs, rfl, rfl, hin hst rfl _⟩
    · exact ⟨_, [], rfl, hnil.2, hin hst rfl _⟩
  | relayEof d t hst | relayUnread d lost t hst | relaySent d n fl hst | relayUnsent d lost fl hst
  | relayShut d shut hst => cases d <;> exact ⟨_, [], rfl, hnil.2, hin hst rfl _⟩
  | relayStarted t hst => exact ⟨_, [], startRelay_grown v t, hnil.2, hin hst rfl _⟩
  | requestRefused p rest r t hst | requestUnsubmitted p rest t hst | dnsFailed t hst
  | originGaveUp fd e t hst | gaveUp t hst | connected fd t hst =>
    exact ⟨_, [], by simp; rfl, hnil.2, hin hst rfl _⟩
  | requestSubmitted p rest k t hst =>
    exact ⟨[.requestProcessed rest, .dnsSubmit (some k), .entered .requestResolv t], [], by simp,
      hnil.2, hin hst rfl _⟩
  | _ => exact ⟨_, [], by first | rfl | exact List.append_assoc _ [_] [_], hnil.2,
      hin ‹v.st = some _› rfl _⟩

/-- Where a session stands at the gate, and what it has done behind it. -/
structure View.Guarded (v : View) : Prop where
  cleared : v.Admitted → ClearedBy v.cl.rx v.hist
  gated : Gated v.cl.rx v.hist

theorem Move.guarded (hm : Move strict v v') (hs : v'.Script) (hg : v.Guarded) : v'.Guarded := by
  obtain ⟨l, bs, hh, hrx, hp⟩ := hm.passage
  cases hp with
  | inside ha =>
    have hc := hg.cleared ha
    refine ⟨fun _ => ?_, ?_⟩
    · rw [hh, hrx]
      exact hc.grow bs l
    · rw [hh, hrx]
      exact hg.gated.grow bs (Or.inl hc)
  | outside hn hout =>
    refine ⟨fun ha => absurd ha hout, ?_⟩
    rw [hh, hrx]
    exact hg.gated.grow bs (Or.inr hn)
  | through t hl hst =>
    subst hl
    simp only [View.Script, hst] at hs
    obtain ⟨ns, got, user, hc, ht, -, -, seen, hseen, -⟩ := hs
    have hgot : got <+: v'.cl.rx := ⟨_, hseen.symm⟩
    have hv : verdicts v.hist = ns := by
      have h1 := ht.verdicts
      rwa [hh, verdicts_append, show verdicts [Obs.entered .requestRead t] = [] from rfl,
        List.append_nil] at h1
    have hpast : ClearedBy v'.cl.rx v.hist :=
      ⟨ns, got, user, hc, by rw [hv], hgot⟩
    refine ⟨fun _ => ?_, ?_⟩
    · have hnow := hpast.grow [] [.entered .requestRead t]
      rwa [List.append_nil, ← hh] at hnow
    · have hold : Gated v'.cl.rx v.hist := by
        have h1 := hg.gated.grow (l := []) bs (Or.inr (by simp))
        rwa [List.append_nil, ← hrx] at h1
      rw [hh]
      refine hold.add fun past o ho _ => ?_
      have hnow := hpast.grow [] past
      rwa [List.append_nil] at hnow

theorem fresh_guarded (fd : Fd) (t : Int) : (View.fresh fd t).Guarded := by
  refine ⟨?_, grounded_nil⟩
  rintro ⟨st, hst, -⟩
  cases hst

theorem Reached.guarded (hr : Reached strict v) : v.Guarded := by
  have hboth : v.Script ∧ v.Guarded :=
    hr.induct (P := fun v => v.Script ∧ v.Guarded)
      (fun fd t => ⟨fresh_script fd t, fresh_guarded fd t⟩) fun hs hv hm => by
      have hscript := hm.script hs hv.1
      exact ⟨hscript, hm.guarded hscript hv.2⟩
  exact hboth.2

/-! ## Who is turned away -/

/-- The verdicts that turn a client away. -/
@[simp] def Obs.turnsAway : Obs → Bool
  | .helloProcessed _ _ m => m == helloNoAcceptableMethods
  | .authProcessed _ _ status => status != 0x00
  | _ => false

theorem Cleared.welcome {ns : List Obs} {got user : Bytes} (hc : Cleared ns got user) :
    ∀ o ∈ ns, o.turnsAway = false := by
  intro o ho
  cases hc with
  | anyone => cases List.mem_singleton.mp ho; rfl
  | known =>
    rcases List.mem_cons.mp ho with rfl | ho
    · rfl
    · cases List.mem_singleton.mp ho
      rfl

/-- A client that is turned away has not been let in. -/
theorem Course.turned {ns ns' : List Obs} {got got' user user' : Bytes} {o : Obs}
    (hcourse : Course ns got user) (ho : o ∈ ns) (ha : o.turnsAway = true)
    (hc : Cleared ns' got' user') : ¬ns' <+: ns := by
  rintro ⟨rest, hrest⟩
  cases hcourse with
  | silent => cases ho
  | chosen =>
    cases List.mem_singleton.mp ho
    cases hc with
    | anyone => cases hrest; cases ha
    | known => cases hrest
  | judged =>
    rcases List.mem_cons.mp ho with rfl | ho
    · cases ha
    · cases List.mem_singleton.mp ho
      cases hc with
      | anyone => cases hrest
      | known =>
        have hsecond := (List.cons.inj (List.cons.inj hrest).2).1
        rw [← hsecond] at ha
        cases ha
  | replied r hns =>
    rcases List.mem_append.mp ho with ho | ho
    · rw [hns.welcome o ho] at ha
      cases ha
    · cases List.mem_singleton.mp ho
      cases ha

theorem Obs.gated_of_closing {o : Obs} (h : o.closing = true) : o.gated = false := by
  cases o <;> first | rfl | cases h

theorem View.Guarded.filed {fair : View → Limit → Int → Prop} (hg : v.Guarded)
    (hf : Final fair v l) : (v.filed l).Guarded := by
  refine ⟨fun ha => ?_, ?_⟩
  · have hc := (hg.cleared ha).grow [] l
    rwa [List.append_nil] at hc
  · have hl := hg.gated.grow [] (Or.inr fun o ho => Obs.gated_of_closing (hf.closing o ho))
    rwa [List.append_nil] at hl

end Gate

/-- In every run, whatever a session does behind the gate it does for a client
that was let in before: without credentials because the store asked for none, or
with credentials that the store accepted when it looked at them. Nothing of the
kind is ever done for a client that is turned away. -/
theorem sessions_gated (b : Boot) (is : List Input) {v : View} (hs : (b.start.run is).Session v) :
    Gated v.cl.rx v.hist ∧
      ((∃ o ∈ v.hist, o.turnsAway = true) → ∀ o ∈ v.hist, o.gated = false) := by
  obtain ⟨ρ, h⟩ := b.orderly is
  have hg : v.Guarded := h.every hs Reached.guarded fun _ hf hu => hu.filed hf
  refine ⟨hg.gated, ?_⟩
  rintro ⟨x, hx, hturn⟩ o ho
  cases hgate : o.gated with
  | false => rfl
  | true =>
    obtain ⟨past, ⟨rest, hpast⟩, hc⟩ := hg.gated.past ho
    obtain ⟨ns, got, user, hcl, hns, -⟩ := hc hgate
    obtain ⟨ns', got', user', hcourse, ht, -⟩ := (h.script hs).course
    have hx' : x ∈ ns' := by
      rw [← ht.verdicts]
      refine List.mem_filter.mpr ⟨hx, ?_⟩
      cases x <;> first | rfl | cases hturn
    refine absurd ?_ (hcourse.turned hx' hturn hcl)
    rw [← ht.verdicts, ← hpast, verdicts_append]
    exact hns.trans (List.prefix_append _ _)

theorem sessions_gated_tunnel :
    let v := ((Boot.open.start.run Input.tunnel).ctx 0).view
    Gated v.cl.rx v.hist ∧
      ((∃ o ∈ v.hist, o.turnsAway = true) → ∀ o ∈ v.hist, o.gated = false) :=
  sessions_gated Boot.open Input.tunnel (.live tunnel_serves)

end Socks5d
