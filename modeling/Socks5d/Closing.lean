import Socks5d.Streams

/-! # The end of a relay

What a relay has read, sent and closed is told by its history: how much, in
which order, and what is left to do. -/
namespace Socks5d
open Ctx View

/-! ## The end of a stream -/

/-- How much a direction has been given to send on. -/
@[simp] def Obs.gave (d : Dir) : Obs → Nat
  | .relayStart _ _ left => if d = .c2o then left.length else 0
  | .relayRecv e (some n) _ => if e = d then n else 0
  | _ => 0

def intake (d : Dir) (h : List Obs) : Nat := (h.map (Obs.gave d)).sum

@[simp] theorem intake_append (d : Dir) (h l : List Obs) :
    intake d (h ++ l) = intake d h + intake d l := by simp [intake]

/-- What the history of a relay says about a direction. -/
@[simp] def Obs.about (d : Dir) : Obs → Bool
  | .relayStart _ _ _ => true
  | .relayRecv e _ _ | .relaySend e _ | .relayShut e _ => e = d
  | _ => false

theorem Obs.idle_of_about {d : Dir} {o : Obs} (h : o.about d = false) :
    o.gave d = 0 ∧ o.took d = 0 := by
  cases o with
  | relayRecv e n t => cases n <;> simp_all
  | relaySend e n => cases n <;> simp_all
  | relayStart => cases h
  | _ => exact ⟨rfl, rfl⟩

theorem idle_of_about {d : Dir} : ∀ {l : List Obs}, (∀ o ∈ l, o.about d = false) →
    intake d l = 0 ∧ relayed d l = 0
  | [], _ => ⟨rfl, rfl⟩
  | o :: l, h => by
    obtain ⟨h1, h2⟩ := idle_of_about fun o' ho' => h o' (List.mem_cons_of_mem _ ho')
    have hg := Obs.idle_of_about (h o List.mem_cons_self)
    refine ⟨?_, ?_⟩
    · rw [show intake d (o :: l) = o.gave d + intake d l from List.sum_cons, hg.1, h1]
    · rw [relayed_cons, hg.2, h2]

/-- The rules of half-closing, over the history of a direction: it is shut down
once, after its source has ended and all of it has been sent, and nothing is
sent after that or read after the end. -/
structure HalfClosing (d : Dir) (h : List Obs) : Prop where
  shut : ∀ a b ok, h = a ++ .relayShut d ok :: b → (∃ t, .relayRecv d (some 0) t ∈ a) ∧
    intake d a = relayed d a ∧ (∀ ok', .relayShut d ok' ∉ a ++ b) ∧ ∀ n, .relaySend d n ∉ b
  ended : ∀ a b t, h = a ++ .relayRecv d (some 0) t :: b → ∀ n t', .relayRecv d n t' ∉ b

/-- Where one more observation can fall. -/
theorem split_snoc {α : Type} {h a b : List α} {x o : α} (he : h ++ [o] = a ++ x :: b) :
    b = [] ∧ a = h ∧ x = o ∨ ∃ b', b = b' ++ [o] ∧ h = a ++ x :: b' := by
  rcases List.eq_nil_or_concat b with rfl | ⟨b', y, rfl⟩
  · obtain ⟨h1, h2⟩ := List.append_inj' he rfl
    exact Or.inl ⟨rfl, h1.symm, (List.cons.inj h2).1.symm⟩
  · rw [List.concat_eq_append, ← List.cons_append, ← List.append_assoc] at he
    obtain ⟨h1, h2⟩ := List.append_inj' he rfl
    cases h2
    exact Or.inr ⟨b', List.concat_eq_append, h1⟩

theorem HalfClosing.snoc {d : Dir} {h : List Obs} (hh : HalfClosing d h) {o : Obs}
    (hshut : ∀ ok, o = .relayShut d ok → (∃ t, .relayRecv d (some 0) t ∈ h) ∧
      intake d h = relayed d h ∧ ∀ ok', .relayShut d ok' ∉ h)
    (hsend : ∀ n, o = .relaySend d n → ∀ ok, .relayShut d ok ∉ h)
    (hrecv : ∀ n t, o = .relayRecv d n t → ∀ t', .relayRecv d (some 0) t' ∉ h) :
    HalfClosing d (h ++ [o]) where
  shut a b ok he := by
    rcases split_snoc he with ⟨rfl, rfl, rfl⟩ | ⟨b', rfl, he'⟩
    · obtain ⟨h1, h2, h3⟩ := hshut ok rfl
      exact ⟨h1, h2, fun ok' hm => h3 ok' (by simpa using hm), fun n hm => by cases hm⟩
    · obtain ⟨h1, h2, h3, h4⟩ := hh.shut a b' ok he'
      have hmem : .relayShut d ok ∈ h := by rw [he']; simp
      refine ⟨h1, h2, fun ok' hm => ?_, fun n hm => ?_⟩
      · rw [← List.append_assoc, List.mem_append, List.mem_singleton] at hm
        exact hm.elim (h3 ok') fun ho => (hshut ok' ho.symm).2.2 ok hmem
      · rw [List.mem_append, List.mem_singleton] at hm
        exact hm.elim (h4 n) fun ho => hsend n ho.symm ok hmem
  ended a b t he n t' hm := by
    rcases split_snoc he with ⟨rfl, rfl, rfl⟩ | ⟨b', rfl, he'⟩
    · cases hm
    · rw [List.mem_append, List.mem_singleton] at hm
      refine hm.elim (hh.ended a b' t he' n t') fun ho => hrecv n t' ho.symm t ?_
      rw [he']
      simp

/-- A direction of a relay against its history. -/
structure View.Half (d : Dir) (v : View) : Prop where
  eof : (v.copyOf d).eof = true ↔ ∃ t, .relayRecv d (some 0) t ∈ v.hist
  closed : (v.copyOf d).writeClosed = true ↔ .relayShut d true ∈ v.hist
  refused : .relayShut d false ∈ v.hist → v.st ≠ some .copy
  level : intake d v.hist = relayed d v.hist + (v.bufOf d).length
  closing : HalfClosing d v.hist

section Half
variable {d : Dir} {v v' : View}

theorem HalfClosing.grow {h l : List Obs} (hh : HalfClosing d h) (hl : ∀ o ∈ l, o.about d = false) :
    HalfClosing d (h ++ l) := by
  induction l generalizing h with
  | nil => rw [List.append_nil]; exact hh
  | cons o l ih =>
    have ho := hl o List.mem_cons_self
    rw [← List.singleton_append, ← List.append_assoc]
    refine ih (hh.snoc ?_ ?_ ?_) fun o' ho' => hl o' (List.mem_cons_of_mem _ ho')
    · rintro ok rfl; simp at ho
    · rintro n rfl; simp at ho
    · rintro n t rfl; simp at ho

/-- Nothing happened to this direction. -/
theorem View.Half.grow (h : v.Half d) {l : List Obs} (hh : v'.hist = v.hist ++ l)
    (hl : ∀ o ∈ l, o.about d = false) (hc : v'.copyOf d = v.copyOf d) (hb : v'.bufOf d = v.bufOf d)
    (hst : v'.st = some .copy → v.st = some .copy) : v'.Half d := by
  have hmem : ∀ {o : Obs}, o.about d = true → (o ∈ v'.hist ↔ o ∈ v.hist) := by
    intro o ho
    rw [hh, List.mem_append]
    refine ⟨fun hm => hm.resolve_right fun hm => ?_, Or.inl⟩
    rw [hl o hm] at ho
    cases ho
  obtain ⟨h1, h2⟩ := idle_of_about hl
  refine ⟨?_, ?_, ?_, ?_, ?_⟩
  · rw [hc, h.eof]
    exact exists_congr fun t => (hmem (by simp)).symm
  · rw [hc, h.closed]
    exact (hmem (by simp)).symm
  · intro hm he
    exact h.refused ((hmem (by simp)).mp hm) (hst he)
  · rw [hb, hh, intake_append, relayed_append, h1, h2]
    exact h.level
  · rw [hh]
    exact h.closing.grow hl

/-- An open direction of a relay at work has not been shut down. -/
theorem View.Half.unshut (h : v.Half d) (hst : v.st = some .copy)
    (hopen : (v.copyOf d).writeClosed = false) (ok : Bool) : .relayShut d ok ∉ v.hist := by
  intro hm
  cases ok with
  | false => exact h.refused hm hst
  | true => rw [h.closed.mpr hm] at hopen; cases hopen

/-- One more observation about the direction. -/
theorem View.Half.snoc (h : v.Half d) {o : Obs} (hh : v'.hist = v.hist ++ [o])
    (heof : (v'.copyOf d).eof = true ↔ (v.copyOf d).eof = true ∨ ∃ t, o = .relayRecv d (some 0) t)
    (hclosed : (v'.copyOf d).writeClosed = true ↔
      (v.copyOf d).writeClosed = true ∨ o = .relayShut d true)
    (hrefused : v.st = some .copy ∧ o ≠ .relayShut d false)
    (hlevel : (v.bufOf d).length + o.gave d = (v'.bufOf d).length + o.took d)
    (hclosing : HalfClosing d (v.hist ++ [o])) : v'.Half d := by
  refine ⟨?_, ?_, ?_, ?_, hh ▸ hclosing⟩
  · rw [heof, h.eof, hh]
    simp only [List.mem_append, List.mem_singleton, exists_or]
    exact or_congr_right (exists_congr fun t => eq_comm)
  · rw [hclosed, h.closed, hh]
    simp only [List.mem_append, List.mem_singleton]
    exact or_congr_right eq_comm
  · intro hm
    rw [hh, List.mem_append, List.mem_singleton] at hm
    rcases hm with hm | hm
    · exact absurd hrefused.1 (h.refused hm)
    · exact absurd hm.symm hrefused.2
  · have hl := h.level
    have hg : intake d [o] = o.gave d := by simp [intake]
    have ht : relayed d [o] = o.took d := by simp [relayed]
    rw [hh, intake_append, relayed_append, hg, ht]
    omega

theorem RelayMove.half (hm : RelayMove v v') (hs : v.Sane) (h : v.Half d) : v'.Half d := by
  have hrel : v.st = some .copy → v.Relaying := fun hst => (sane_copy hst).mp hs
  -- what a move of the other direction needs
  have hother : ∀ {e : Dir} {o : Obs}, v'.hist = v.hist ++ [o] → o.about d = false →
      v'.copyOf d = v.copyOf d → v'.bufOf d = v.bufOf d → v.st = some .copy → v'.Half d :=
    fun hh ho hc hb hst => h.grow hh (fun o' hm => by rwa [List.mem_singleton.mp hm]) hc hb
      fun _ => hst
  cases hm with
  | received e bs t hst heof hne =>
    by_cases he : e = d
    · subst he
      have h0 : bs.length ≠ 0 := fun h0 => hne (List.length_eq_zero_iff.mp h0)
      refine h.snoc (o := .relayRecv e (some bs.length) t) (by cases e <;> rfl) ?_ ?_
        ⟨hst, by simp⟩ ?_ ?_
      · cases e <;> simp [View.copyOf, View.setBuf, View.setSource, View.note, h0]
      · cases e <;> simp [View.copyOf, View.setBuf, View.setSource, View.note]
      · cases e <;> simp [View.bufOf, View.setBuf, View.setSource, View.note]
      · refine h.closing.snoc (by rintro ok ⟨⟩) (by rintro n ⟨⟩) fun n t' _ t'' hm => ?_
        rw [h.eof.mpr ⟨t'', hm⟩] at heof
        cases heof
    · refine hother (e := e) (o := .relayRecv e (some bs.length) t) (by cases e <;> rfl) (by simp [he])
        ?_ ?_ hst <;> cases e <;> cases d <;> first | rfl | exact absurd rfl he
  | eof e t hst heof =>
    by_cases he : e = d
    · subst he
      refine h.snoc (o := .relayRecv e (some 0) t) (by cases e <;> rfl) ?_ ?_ ⟨hst, by simp⟩ ?_ ?_
      · cases e <;> simp [View.copyOf, View.setCopy, View.setSource, View.note, ClientUnion.asCopy,
          OrigUnion.asCopy]
      · cases e <;> simp [View.copyOf, View.setCopy, View.setSource, View.note, ClientUnion.asCopy,
          OrigUnion.asCopy]
      · cases e <;> simp [View.bufOf, View.setCopy, View.setSource, View.note]
      · refine h.closing.snoc (by rintro ok ⟨⟩) (by rintro n ⟨⟩) fun n t' _ t'' hm => ?_
        rw [h.eof.mpr ⟨t'', hm⟩] at heof
        cases heof
    · refine hother (e := e) (o := .relayRecv e (some 0) t) (by cases e <;> rfl) (by simp [he])
        ?_ ?_ hst <;> cases e <;> cases d <;> first | rfl | exact absurd rfl he
  | unread e lost t hst heof =>
    by_cases he : e = d
    · subst he
      refine h.snoc (o := .relayRecv e none t) (by cases e <;> rfl) (by simp) (by simp)
        ⟨hst, by simp⟩ (by simp) ?_
      refine h.closing.snoc (by rintro ok ⟨⟩) (by rintro n ⟨⟩) fun n t' _ t'' hm => ?_
      rw [h.eof.mpr ⟨t'', hm⟩] at heof
      cases heof
    · exact hother (e := e) (o := .relayRecv e none t) (by cases e <;> rfl) (by simp [he]) (by simp)
        (by simp) hst
  | sent e n flawless hst hne hn =>
    by_cases he : e = d
    · subst he
      have hopen := h.unshut hst ((hrel hst).open (Or.inr hne))
      refine h.snoc (o := .relaySend e (some n)) (by cases e <;> rfl) ?_ ?_ ⟨hst, by simp⟩ ?_ ?_
      · cases e <;> simp [View.copyOf, View.setCopy, View.setSink, View.note, ClientUnion.asCopy,
          OrigUnion.asCopy]
      · cases e <;> simp [View.copyOf, View.setCopy, View.setSink, View.note, ClientUnion.asCopy,
          OrigUnion.asCopy]
      · cases e <;> simp [View.bufOf, View.setCopy, View.setBuf, View.setSink, View.note] at hn ⊢ <;>
          omega
      · exact h.closing.snoc (by rintro ok ⟨⟩) (fun _ _ => hopen) (by rintro n t ⟨⟩)
    · refine hother (e := e) (o := .relaySend e (some n)) (by cases e <;> rfl) (by simp [he])
        ?_ ?_ hst <;> cases e <;> cases d <;> first | rfl | exact absurd rfl he
  | unsent e lost flawless hst hne =>
    by_cases he : e = d
    · subst he
      have hopen := h.unshut hst ((hrel hst).open (Or.inr hne))
      refine h.snoc (o := .relaySend e none) (by cases e <;> rfl) (by simp) (by simp)
        ⟨hst, by simp⟩ (by simp) ?_
      exact h.closing.snoc (by rintro ok ⟨⟩) (fun _ _ => hopen) (by rintro n t ⟨⟩)
    · exact hother (e := e) (o := .relaySend e none) (by cases e <;> rfl) (by simp [he]) (by simp)
        (by simp) hst
  | shut e shut hst heof hopen hnil =>
    by_cases he : e = d
    · subst he
      have hlevel := h.level
      rw [hnil, List.length_nil, Nat.add_zero] at hlevel
      refine h.snoc (o := .relayShut e true) (by cases e <;> rfl) ?_ ?_ ⟨hst, by simp⟩ ?_ ?_
      · cases e <;> simp [View.copyOf, View.setCopy, View.setSink, View.note, ClientUnion.asCopy,
          OrigUnion.asCopy]
      · cases e <;> simp [View.copyOf, View.setCopy, View.setSink, View.note, ClientUnion.asCopy,
          OrigUnion.asCopy]
      · cases e <;> simp [View.bufOf, View.setCopy, View.setSink, View.note]
      · exact h.closing.snoc (fun _ _ => ⟨h.eof.mp heof, hlevel, h.unshut hst hopen⟩)
          (by rintro n ⟨⟩) (by rintro n t ⟨⟩)
    · refine hother (e := e) (o := .relayShut e true) (by cases e <;> rfl) (by simp [he])
        ?_ ?_ hst <;> cases e <;> cases d <;> first | rfl | exact absurd rfl he
  | unshut e t hst heof hopen hnil =>
    by_cases he : e = d
    · subst he
      have hlevel := h.level
      rw [hnil, List.length_nil, Nat.add_zero] at hlevel
      have hclosing : HalfClosing e (v.hist ++ [.relayShut e false]) :=
        h.closing.snoc (fun _ _ => ⟨h.eof.mp heof, hlevel, h.unshut hst hopen⟩)
          (by rintro n ⟨⟩) (by rintro n t ⟨⟩)
      have hmem : ∀ {o : Obs}, o ≠ .relayShut e false → o ≠ .entered .error t →
          (o ∈ ((v.note (.relayShut e false)).enter .error t).hist ↔ o ∈ v.hist) := by
        intro o h1 h2
        simp [h1, h2]
      have hcopy : ((v.note (.relayShut e false)).enter .error t).copyOf e = v.copyOf e := by
        cases e <;> rfl
      have hbuf : ((v.note (.relayShut e false)).enter .error t).bufOf e = v.bufOf e := by
        cases e <;> rfl
      refine ⟨?_, ?_, fun _ => by simp, ?_, hclosing.grow (l := [.entered .error t]) (by simp)⟩
      · rw [hcopy, h.eof]
        exact exists_congr fun t' => (hmem (by simp) (by simp)).symm
      · rw [hcopy, h.closed]
        exact (hmem (by simp) (by simp)).symm
      · rw [hbuf]
        simpa [intake, relayed] using h.level
    · refine h.grow (l := [.relayShut e false, .entered .error t]) (by simp) (by simp [he])
        (by cases d <;> rfl) (by cases d <;> rfl) (by simp)
  | synced r₁ r₂ => exact h.grow (l := []) (by simp) (by simp) (by simp) (by simp) id
  | finished t hst =>
    exact h.grow (l := [.entered .done t]) rfl (by simp) (by cases d <;> rfl) (by cases d <;> rfl)
      (by simp)
  | broken e t hst =>
    exact h.grow (l := [.entered .error t]) rfl (by simp) (by cases d <;> rfl) (by cases d <;> rfl)
      (by simp)
  | network cl og =>
    exact h.grow (l := []) (by simp) (by simp) (by cases d <;> rfl) (by cases d <;> rfl) id

end Half

/-! ## A relay from its start on -/

/-- What the history of a relay at work, or at its end, is made of. -/
@[simp] def Obs.running : Obs → Bool
  | .relayRecv _ _ _ | .relaySend _ _ | .relayShut _ _ | .entered .done _ | .entered .error _ => true
  | _ => false

/-- Where `copy_init` ran: what had been received and sent, and what was left. -/
@[simp] def Obs.start : Obs → Option (Nat × Nat × Bytes)
  | .relayStart got sent left => some (got, sent, left)
  | _ => none

def starts (h : List Obs) : List (Nat × Nat × Bytes) := h.filterMap Obs.start

@[simp] theorem starts_append (h l : List Obs) : starts (h ++ l) = starts h ++ starts l := by
  simp [starts]

theorem mem_starts {h : List Obs} {got sent : Nat} {left : Bytes} :
    (got, sent, left) ∈ starts h ↔ .relayStart got sent left ∈ h := by
  unfold starts
  rw [List.mem_filterMap]
  constructor
  · rintro ⟨o, ho, he⟩
    cases o <;> cases he
    exact ho
  · exact fun ho => ⟨_, ho, rfl⟩

theorem mem_lefts {h : List Obs} {l : Bytes} : l ∈ lefts h ↔ .requestProcessed l ∈ h := by
  unfold lefts
  rw [List.mem_filterMap]
  constructor
  · rintro ⟨o, ho, he⟩
    cases o <;> cases he
    exact ho
  · exact fun ho => ⟨_, ho, rfl⟩

theorem filterMap_none {α β : Type} {f : α → Option β} {l : List α} (h : ∀ a ∈ l, f a = none) :
    l.filterMap f = [] := List.filterMap_eq_nil_iff.mpr h

theorem Obs.start_of_running {o : Obs} (h : o.running = true) :
    o.start = none ∧ o.left = none ∧ o.record = none := by
  cases o <;> first | exact ⟨rfl, rfl, rfl⟩ | cases h

theorem RelayMove.grows {v v' : View} (h : RelayMove v v') :
    ∃ l, v'.hist = v.hist ++ l ∧ ∀ o ∈ l, o.running = true := by
  cases h with
  | received d | eof d | unread d | sent d | unsent d | shut d =>
    cases d <;> exact ⟨[_], rfl, by simp⟩
  | unshut d t => exact ⟨[.relayShut d false, .entered .error t], by simp, by simp⟩
  | finished | broken => exact ⟨[_], rfl, by simp⟩
  | synced | network => exact ⟨[], by simp, by simp⟩

theorem RelayMove.keeps {v v' : View} (h : RelayMove v v') :
    v'.opened = v.opened ∧ v'.dest = v.dest ∧ v'.user = v.user := by
  cases h with
  | received d | eof d | unread d | sent d | unsent d | shut d => cases d <;> exact ⟨rfl, rfl, rfl⟩
  | _ => exact ⟨rfl, rfl, rfl⟩

/-- How a relay can have come to its end. -/
structure View.Outcome (v : View) : Prop where
  done : v.st = some .done → ∀ d, (v.copyOf d).writeClosed = true ∧ v.bufOf d = []
  error : v.st = some .error → ∃ d, (v.copyOf d).writeClosed = false

theorem View.Outcome.running {v : View} (h : v.st = some .copy) : v.Outcome :=
  ⟨fun hd => (by rw [h] at hd; cases hd), fun he => (by rw [h] at he; cases he)⟩

theorem RelayMove.outcome {v v' : View} (h : RelayMove v v') (hs : v.Sane) (ho : v.Outcome) :
    v'.Outcome := by
  cases h with
  | received d bs t hst | eof d t hst | unread d lost t hst | sent d n flawless hst
  | unsent d lost flawless hst | shut d shut hst =>
    cases d <;> exact .running hst
  | synced r₁ r₂ hst => exact .running hst
  | unshut d t hst _ hopen => exact ⟨fun h => by simp at h, fun _ => ⟨d, by cases d <;> exact hopen⟩⟩
  | broken d t hst hopen => exact ⟨fun h => by simp at h, fun _ => ⟨d, by cases d <;> exact hopen⟩⟩
  | finished t hst hclosed =>
    refine ⟨fun _ d => ?_, fun h => by simp at h⟩
    have hc := hclosed d
    obtain ⟨-, hb⟩ := ((sane_copy hst).mp hs).closed d hc
    cases d <;> exact ⟨hc, hb⟩
  | network cl og =>
    refine ⟨fun h d => ?_, fun h => ?_⟩
    · have := ho.done h d
      cases d <;> exact this
    · obtain ⟨d, hd⟩ := ho.error h
      exact ⟨d, by cases d <;> exact hd⟩

/-- The moments of a relay: when it started, and when data arrived. -/
@[simp] def Obs.moment : Obs → Option Int
  | .entered .copy t => some t
  | .relayRecv _ (some (_ + 1)) t => some t
  | _ => none

def moments (h : List Obs) : List Int := h.filterMap Obs.moment

@[simp] theorem moments_append (h l : List Obs) : moments (h ++ l) = moments h ++ moments l := by
  simp [moments]

/-- What the session remembers of the relay so far: what the counters say, and
when data last arrived. -/
structure View.Counted (sent : Nat) (t : Int) (v : View) : Prop where
  sent : ∀ d, (v.delivered sent d).length = relayed d v.hist
  field : ∀ d, (v.copyOf d).transferred = UInt64.ofNat (relayed d v.hist)
  moments : ∃ data, moments v.hist = t :: data ∧ ∀ x, data.getLast? = some x → v.lastActivity = x

theorem View.Counted.congr {v v' : View} {sent : Nat} {t : Int} (h : v.Counted sent t)
    {l : List Obs} (hh : v'.hist = v.hist ++ l) (hl : ∀ o ∈ l, o.moment = none)
    (hr : ∀ d, relayed d l = 0) (hd : ∀ d, v'.delivered sent d = v.delivered sent d)
    (hc : ∀ d, (v'.copyOf d).transferred = (v.copyOf d).transferred)
    (ha : v'.lastActivity = v.lastActivity) : v'.Counted sent t := by
  refine ⟨fun d => ?_, fun d => ?_, ?_⟩
  · rw [hd, hh, relayed_append, hr, h.sent]; rfl
  · rw [hc, hh, relayed_append, hr, h.field]; rfl
  · rw [hh, moments_append, show Socks5d.moments l = [] from filterMap_none hl, List.append_nil, ha]
    exact h.moments

theorem RelayMove.counted {v v' : View} {sent : Nat} {t : Int} (h : RelayMove v v')
    (hle : sent ≤ v.cl.tx.length) (hc : v.Counted sent t) : v'.Counted sent t := by
  cases h with
  | received e bs t' hst heof hne =>
    obtain ⟨n, hn⟩ : ∃ n, bs.length = n + 1 :=
      ⟨bs.length - 1, (Nat.succ_pred_eq_of_pos (List.length_pos_iff.mpr hne)).symm⟩
    obtain ⟨data, hdata, -⟩ := hc.moments
    rw [hn]
    refine ⟨fun d => ?_, fun d => ?_, data ++ [t'], ?_, fun x hx => ?_⟩
    · have hd := hc.sent d
      cases e <;> cases d <;> simpa [View.delivered, View.setSource, View.source, View.setBuf, View.note]
        using hd
    · have hd := hc.field d
      cases e <;> cases d <;> simpa [View.copyOf, View.setSource, View.setBuf, View.note] using hd
    · have hm : moments [.relayRecv e (some (n + 1)) t'] = [t'] := rfl
      rw [note_hist, moments_append, hm, setSource_hist, setBuf_hist, hdata]
      rfl
    · rw [List.getLast?_concat] at hx
      exact Option.some.inj hx
  | sent e n flawless hst hne hn =>
    have hsum : ∀ d, relayed d [.relaySend e (some n)] = if e = d then n else 0 := by simp
    obtain ⟨data, hdata, hlast⟩ := hc.moments
    refine ⟨fun d => ?_, fun d => ?_, data, ?_, fun x hx => ?_⟩
    · have hd := hc.sent d
      rw [note_hist, relayed_append, hsum, setSink_hist, setCopy_hist, setBuf_hist, ← hd]
      cases e <;> cases d <;> simp [View.delivered, View.setSink, View.sink, View.setCopy,
        View.setBuf, View.note, View.bufOf] at hn ⊢ <;> omega
    · have hd := hc.field d
      rw [note_hist, relayed_append, hsum, setSink_hist, setCopy_hist, setBuf_hist, UInt64.ofNat_add,
        ← hd]
      cases e <;> cases d <;> simp [View.copyOf, View.setSink, View.setCopy, View.setBuf, View.note,
        ClientUnion.asCopy, OrigUnion.asCopy]
    · rw [note_hist, moments_append, setSink_hist, setCopy_hist, setBuf_hist, hdata]
      exact List.append_nil _
    · rw [← hlast x hx]
      cases e <;> rfl
  | eof e t' =>
    refine hc.congr (l := [.relayRecv e (some 0) t']) (by cases e <;> rfl) (by simp) (by simp) ?_ ?_
      (by cases e <;> rfl)
    · intro d; cases e <;> cases d <;> rfl
    · intro d; cases e <;> cases d <;> rfl
  | unread e lost t' =>
    refine hc.congr (l := [.relayRecv e none t']) (by cases e <;> rfl) (by simp) (by simp) ?_ ?_
      (by cases e <;> rfl)
    · intro d; cases e <;> cases d <;> rfl
    · intro d; cases e <;> cases d <;> rfl
  | unsent e =>
    refine hc.congr (l := [.relaySend e none]) (by cases e <;> rfl) (by simp) (by simp) ?_ ?_
      (by cases e <;> rfl)
    · intro d; cases e <;> cases d <;> rfl
    · intro d; cases e <;> cases d <;> rfl
  | shut e =>
    refine hc.congr (l := [.relayShut e true]) (by cases e <;> rfl) (by simp) (by simp) ?_ ?_
      (by cases e <;> rfl)
    · intro d; cases e <;> cases d <;> rfl
    · intro d; cases e <;> cases d <;> rfl
  | unshut e t' =>
    exact hc.congr (l := [.relayShut e false, .entered .error t']) (by simp) (by simp) (by simp)
      (fun d => by cases d <;> rfl) (fun d => by cases d <;> rfl) rfl
  | finished t' =>
    exact hc.congr (l := [.entered .done t']) rfl (by simp) (by simp)
      (fun d => by cases d <;> rfl) (fun d => by cases d <;> rfl) rfl
  | broken e t' =>
    exact hc.congr (l := [.entered .error t']) rfl (by simp) (by simp)
      (fun d => by cases d <;> rfl) (fun d => by cases d <;> rfl) rfl
  | synced =>
    exact hc.congr (l := []) (by simp) (by simp) (by simp)
      (fun d => by cases d <;> rfl) (fun d => by cases d <;> rfl) rfl
  | network cl og hcl hog =>
    exact hc.congr (l := []) (by simp) (by simp) (by simp)
      (fun d => by cases d <;> simp [View.delivered, hcl, hog]) (fun d => by cases d <;> rfl) rfl

/-- A relay that started from `u` at time `t`. -/
structure Relayed (u : View) (t : Int) (v : View) : Prop where
  tunnel : v.Tunnel
  starts : starts v.hist = [(u.cl.rx.length, u.drained.cl.tx.length, u.rb)]
  lefts : lefts v.hist = [u.rb]
  flow : v.Flow u.cl.rx.length u.drained.cl.tx.length u.rb
  half : ∀ d, v.Half d
  outcome : v.Outcome
  counted : v.Counted u.drained.cl.tx.length t
  told : v.opened = true ∧ v.dest = u.dest ∧ v.user = u.user
  records : records v.hist = (u.dest.map fun d => .opened t u.logUser d.1 d.2).toList

theorem RelayMove.relayed {u v v' : View} {t : Int} (h : RelayMove v v') (hs : v.Sane)
    (hr : Relayed u t v) : Relayed u t v' := by
  obtain ⟨l, hl, hrun⟩ := h.grows
  refine ⟨h.tunnel hr.tunnel, ?_, ?_, h.flow hr.flow, fun d => h.half hs (hr.half d),
    h.outcome hs hr.outcome, h.counted hr.flow.sentLe hr.counted, ?_, ?_⟩
  · rw [hl, starts_append, hr.starts, Socks5d.starts, filterMap_none, List.append_nil]
    exact fun o ho => (Obs.start_of_running (hrun o ho)).1
  · rw [hl, lefts_append, hr.lefts, Socks5d.lefts, filterMap_none, List.append_nil]
    exact fun o ho => (Obs.start_of_running (hrun o ho)).2.1
  · obtain ⟨h1, h2, h3⟩ := h.keeps
    rw [h1, h2, h3]
    exact hr.told
  · rw [hl, records_append, hr.records, Socks5d.records, filterMap_none, List.append_nil]
    exact fun o ho => (Obs.start_of_running (hrun o ho)).2.2

/-- The history of a relay at its start. -/
theorem startRelay_grown (u : View) (t : Int) : (u.drained.startRelay t).hist =
    u.hist ++ ([.entered .copy t, .relayStart u.cl.rx.length u.drained.cl.tx.length u.rb] ++
      (u.drained.openRecord t).toList.map .logged) := by
  rw [startRelay_hist, List.append_assoc]
  rfl

theorem Obs.quiet_of_plain {o : Obs} (h : o.relays = false) :
    (∀ d, o.about d = false) ∧ o.start = none ∧ o.moment = none := by
  cases o with
  | entered st t => cases st <;> first | exact ⟨fun _ => rfl, rfl, rfl⟩ | cases h
  | relayStart | relayRecv | relaySend | relayShut => cases h
  | _ => exact ⟨fun _ => rfl, rfl, rfl⟩

theorem View.Before.about {u : View} (h : u.Before) (d : Dir) : ∀ o ∈ u.hist, o.about d = false :=
  fun o ho => (Obs.quiet_of_plain (h.plain o ho)).1 d

theorem Opens.relayed {strict : Prop} {u : View} (h : Opens strict u) (t : Int) :
    Relayed u t (u.drained.startRelay t) := by
  have hb := h.before
  have hopen : u.drained.openRecord t = u.dest.map fun d => .opened t u.logUser d.1 d.2 := by
    have h1 : (u.drained.logging && !u.drained.opened) = true := by
      show (u.logging && !u.opened) = true
      rw [h.reached.logging, hb.unopened]
      rfl
    exact if_pos h1
  have hhist := startRelay_grown u t
  generalize hrs : (u.drained.openRecord t).toList = rs at hhist
  have hlog : ∀ d, ∀ o ∈ rs.map Obs.logged, o.about d = false := by simp
  refine ⟨Or.inl rfl, ?_, ?_, ?_, fun d => ?_, .running rfl, ?_, ?_, ?_⟩
  · have h0 : Socks5d.starts u.hist = [] :=
      filterMap_none fun o ho => (Obs.quiet_of_plain (hb.plain o ho)).2.1
    have h1 : Socks5d.starts (rs.map .logged) = [] := filterMap_none (by simp)
    rw [hhist, starts_append, h0, starts_append, h1]
    rfl
  · have h1 : Socks5d.lefts (rs.map .logged) = [] := filterMap_none (by simp)
    rw [hhist, lefts_append, h.staged.1, lefts_append, h1]
    rfl
  · refine ⟨Nat.le_refl _, Nat.le_refl _, fun d => ?_⟩
    cases d with
    | c2o =>
      show u.og.tx ++ u.rb = u.rb ++ u.cl.rx.drop u.cl.rx.length
      rw [hb.origin.2, List.drop_length, List.append_nil, List.nil_append]
    | o2c =>
      show u.drained.cl.tx.drop u.drained.cl.tx.length ++ [] = u.og.rx
      rw [hb.origin.1, List.drop_length, List.append_nil]
  · obtain ⟨h1, h2⟩ := idle_of_about (hb.about d)
    have hno : ∀ {o : Obs}, o.about d = true → (∀ a b l, o ≠ .relayStart a b l) →
        o ∉ (u.drained.startRelay t).hist := by
      intro o ho hne hm
      rw [hhist] at hm
      simp only [List.mem_append, List.mem_cons, List.not_mem_nil, or_false, List.mem_map] at hm
      rcases hm with hm | (rfl | rfl) | ⟨r, -, rfl⟩
      · rw [hb.about d o hm] at ho; cases ho
      · cases ho
      · exact hne _ _ _ rfl
      · cases ho
    refine ⟨?_, ?_, fun hm => absurd hm (hno (by simp) (by simp)), ?_, ?_⟩
    · constructor
      · intro hc
        cases d <;> cases hc
      · rintro ⟨t', hm⟩
        exact absurd hm (hno (by simp) (by simp))
    · refine ⟨fun hc => ?_, fun hm => absurd hm (hno (by simp) (by simp))⟩
      cases d <;> cases hc
    · obtain ⟨h3, h4⟩ := idle_of_about (hlog d)
      rw [hhist, intake_append, intake_append, relayed_append, relayed_append, h1, h2, h3, h4]
      cases d <;> simp [intake, View.startRelay, View.logOpen, View.note, View.bufOf, View.drained,
        View.enter]
    · have h0 : HalfClosing d [] := ⟨fun a b ok he => by simp at he, fun a b t he => by simp at he⟩
      have h3 := h0.grow (hb.about d)
      have h4 := h3.grow (l := [.entered .copy t]) (by simp)
      have h5 := h4.snoc (o := .relayStart u.cl.rx.length u.drained.cl.tx.length u.rb)
        (by rintro ok ⟨⟩) (by rintro n ⟨⟩) (by rintro n t ⟨⟩)
      rw [hhist]
      simpa using h5.grow (hlog d)
  · obtain ⟨h3, h4⟩ : (∀ d, Socks5d.relayed d (u.drained.startRelay t).hist = 0) ∧
        moments (u.drained.startRelay t).hist = [t] := by
      refine ⟨fun d => ?_, ?_⟩
      · rw [hhist, relayed_append, relayed_append, (idle_of_about (hb.about d)).2,
          (idle_of_about (hlog d)).2]
        rfl
      · have h1 : moments u.hist = [] :=
          filterMap_none fun o ho => (Obs.quiet_of_plain (hb.plain o ho)).2.2
        have h2 : moments (rs.map .logged) = [] := filterMap_none (by simp)
        rw [hhist, moments_append, moments_append, h1, h2]
        rfl
    refine ⟨fun d => ?_, fun d => ?_, [], h4, fun x hx => by cases hx⟩
    · rw [h3]
      cases d with
      | c2o => exact congrArg List.length hb.origin.2
      | o2c => exact congrArg List.length (List.drop_length ..)
    · rw [h3]
      cases d <;> rfl
  · refine ⟨?_, rfl, rfl⟩
    show (u.opened || (u.drained.openRecord t).isSome) = true
    rw [hopen, Option.isSome_map, h.staged.2, Bool.or_true]
  · have h1 : ∀ l : List LogRecord, Socks5d.records (l.map .logged) = l := by
      intro l
      induction l with
      | nil => rfl
      | cons r l ih => exact congrArg (r :: ·) ih
    rw [hhist, records_append, hb.unlogged, records_append, h1, ← hrs, hopen]
    rfl

/-- A session is before its relay, or has one. -/
theorem Reached.relayed {strict : Prop} {v : View} (h : Reached strict v) :
    v.Before ∨ ∃ u t, Opens strict u ∧ Relayed u t v :=
  h.relay (P := Relayed) (fun _ t hu => hu.relayed t) fun _ hs hp hm => hm.relayed hs hp

end Socks5d
