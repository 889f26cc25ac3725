import Mathlib.Data.List.Basic

/-! # Machines that take calls

A machine has a state, takes a call, and answers it. What every call keeps, every
sequence of calls keeps; and one machine does what another does when the calls,
one by one, keep the two states related and are answered alike. -/
namespace Socks5d.Lib.Machines

variable {S T C A : Type}

/-- The state after the calls, and their answers. -/
def run (step : S → C → S × A) : S → List C → S × List A
  | s, [] => (s, [])
  | s, c :: cs => ((run step (step s c).1 cs).1, (step s c).2 :: (run step (step s c).1 cs).2)

/-- Every call meets `P` in the state it comes in. -/
def Throughout (step : S → C → S × A) (P : S → C → Prop) : S → List C → Prop
  | _, [] => True
  | s, c :: cs => P s c ∧ Throughout step P (step s c).1 cs

instance (step : S → C → S × A) (P : S → C → Prop) [∀ s c, Decidable (P s c)] :
    ∀ s cs, Decidable (Throughout step P s cs)
  | _, [] => isTrue trivial
  | s, c :: cs =>
    have := instDecidableThroughout step P (step s c).1 cs
    inferInstanceAs (Decidable (_ ∧ _))

section Runs
variable {step : S → C → S × A} {P : S → C → Prop} {Inv : S → Prop}

@[simp] theorem run_nil (s : S) : run step s [] = (s, []) := rfl

/-- A condition on the calls alone. -/
theorem throughout_of_forall {s : S} {cs : List C} (h : ∀ c ∈ cs, ∀ s, P s c) :
    Throughout step P s cs := by
  induction cs generalizing s with
  | nil => trivial
  | cons c cs ih =>
    exact ⟨h c List.mem_cons_self s, ih fun d hd => h d (List.mem_cons_of_mem _ hd)⟩

theorem run_invariant (hstep : ∀ s c, Inv s → P s c → Inv (step s c).1) {s : S} {cs : List C}
    (hs : Inv s) (hp : Throughout step P s cs) : Inv (run step s cs).1 := by
  induction cs generalizing s with
  | nil => exact hs
  | cons c cs ih => exact ih (hstep s c hs hp.1) hp.2

theorem run_always (hstep : ∀ s c, Inv s → Inv (step s c).1) {s : S} (hs : Inv s) (cs : List C) :
    Inv (run step s cs).1 :=
  run_invariant (P := fun _ _ => True) (fun s c h _ => hstep s c h) hs
    (throughout_of_forall fun _ _ _ => trivial)

end Runs

/-- Calls that are answered alike, in states that stay related. -/
theorem run_refines {f : S → C → S × A} {g : T → C → T × A} {R : S → T → Prop} {P : C → Prop}
    (hstep : ∀ s t c, R s t → P c → R (f s c).1 (g t c).1 ∧ (f s c).2 = (g t c).2)
    {s : S} {t : T} {cs : List C} (h : R s t) (hp : ∀ c ∈ cs, P c) :
    R (run f s cs).1 (run g t cs).1 ∧ (run f s cs).2 = (run g t cs).2 := by
  induction cs generalizing s t with
  | nil => exact ⟨h, rfl⟩
  | cons c cs ih =>
    obtain ⟨h1, ha⟩ := hstep s t c h (hp c List.mem_cons_self)
    obtain ⟨h2, hb⟩ := ih h1 fun d hd => hp d (List.mem_cons_of_mem _ hd)
    exact ⟨h2, congrArg₂ List.cons ha hb⟩

end Socks5d.Lib.Machines
