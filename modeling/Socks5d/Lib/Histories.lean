import Mathlib.Data.List.Basic

/-! # What events rest on

A history is a list of events, oldest first. It is grounded when each event
stands in a given relation to the events before it, so that nothing in it came
about without what it needs. -/
namespace Socks5d.Lib.Histories

variable {α : Type} {P Q : List α → α → Prop} {h l : List α} {o : α}

/-- Every event of the history goes with its past. -/
def Grounded (P : List α → α → Prop) (h : List α) : Prop :=
  ∀ past o rest, h = past ++ o :: rest → P past o

theorem grounded_nil : Grounded P [] := fun past o rest he => by
  rcases past with _ | ⟨x, past⟩ <;> cases he

theorem Grounded.mono (hg : Grounded P h) (hp : ∀ past o, o ∈ h → P past o → Q past o) :
    Grounded Q h := fun past o rest he =>
  hp past o (by rw [he]; exact List.mem_append_right _ List.mem_cons_self) (hg past o rest he)

theorem grounded_append : Grounded P (h ++ l) ↔ Grounded P h ∧ Grounded (fun past => P (h ++ past)) l := by
  constructor
  · intro hg
    constructor
    · intro past o rest he
      exact hg past o (rest ++ l) (by rw [he, List.append_assoc, List.cons_append])
    · intro past o rest he
      exact hg (h ++ past) o rest (by rw [he, List.append_assoc])
  · rintro ⟨hh, hl⟩ past o rest he
    rcases List.append_eq_append_iff.mp he with ⟨mid, rfl, hm⟩ | ⟨mid, hm, hr⟩
    · exact hl mid o rest hm
    · rcases mid with _ | ⟨x, mid⟩
      · rw [List.append_nil] at hm
        have hr' : l = [] ++ o :: rest := hr.symm
        have hfirst : P (h ++ []) o := hl [] o rest hr'
        rwa [List.append_nil, hm] at hfirst
      · obtain ⟨rfl, -⟩ := List.cons.inj hr
        exact hh past _ mid hm

theorem grounded_singleton : Grounded P [o] ↔ P [] o := by
  constructor
  · intro hg
    exact hg [] o [] rfl
  · intro hp past x rest he
    rcases past with _ | ⟨y, past⟩
    · cases he
      exact hp
    · obtain ⟨-, hr⟩ := List.cons.inj he
      exact absurd hr.symm (List.append_ne_nil_of_right_ne_nil _ (List.cons_ne_nil _ _))

theorem grounded_cons : Grounded P (o :: l) ↔ P [] o ∧ Grounded (fun past => P (o :: past)) l := by
  rw [← List.singleton_append, grounded_append, grounded_singleton]
  rfl

/-- What asks nothing of its past can be added. -/
theorem Grounded.add (hg : Grounded P h) (hl : ∀ past, ∀ o ∈ l, P (h ++ past) o) :
    Grounded P (h ++ l) :=
  grounded_append.mpr ⟨hg, fun past o rest he =>
    hl past o (by rw [he]; exact List.mem_append_right _ List.mem_cons_self)⟩

/-- Behind an event of the history there is the past it goes with. -/
theorem Grounded.past (hg : Grounded P h) (ho : o ∈ h) : ∃ past, past <+: h ∧ P past o := by
  obtain ⟨past, rest, he⟩ := List.append_of_mem ho
  exact ⟨past, ⟨o :: rest, he.symm⟩, hg past o rest he⟩

end Socks5d.Lib.Histories
