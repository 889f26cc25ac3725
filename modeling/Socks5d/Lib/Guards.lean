import Socks5d.Lib.Incremental

/-! # Machines that check before they step

A guarded machine looks at its state before each step and gives up when a check
fails. When an invariant implies the checks and every step keeps it, the guarded
machine does what the plain one does. -/
namespace Socks5d.Lib.Guards
open Incremental

variable {σ α : Type}

/-- A step behind a check; `none` when a check has failed. -/
def guarded (ok : σ → Bool) (step : σ → α → σ) (s : Option σ) (x : α) : Option σ :=
  s.bind fun p => if ok p then some (step p x) else none

/-- A failed check is the end. -/
def guardedStop (stop : σ → Bool) : Option σ → Bool
  | none => true
  | some p => stop p

variable {ok : σ → Bool} {step : σ → α → σ} {stop : σ → Bool} {Inv : σ → Prop}

theorem guarded_of_ok {p : σ} (h : ok p = true) (x : α) :
    guarded ok step (some p) x = some (step p x) := if_pos h

/-- No check fails. -/
theorem feed_guarded (hok : ∀ p, Inv p → ok p = true)
    (hstep : ∀ p x, Inv p → Inv (step p x)) (xs : List α) {p : σ} (h : Inv p) :
    feed (guarded ok step) (guardedStop stop) (some p) xs =
      (some (feed step stop p xs).1, (feed step stop p xs).2) := by
  induction xs generalizing p with
  | nil => rfl
  | cons x xs ih =>
    rw [feed_cons, feed_cons, guarded_of_ok (hok p h)]
    show (if stop (step p x) = true then _ else _) = _
    split
    · rfl
    · exact ih (hstep p x h)

end Socks5d.Lib.Guards
