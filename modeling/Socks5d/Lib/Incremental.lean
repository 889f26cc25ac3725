import Mathlib.Data.List.Basic

/-! # Machines fed one symbol at a time

An incremental decoder keeps a state, takes one symbol, and stops at a
terminal state. `feed` runs it over one piece of input; the laws below say
when feeding the pieces of a message agrees with feeding the message whole.
-/
namespace Socks5d.Lib.Incremental

variable {σ α : Type} (step : σ → α → σ) (stop : σ → Bool)

/-- Feed symbols until a terminal state is entered or the input ends. Returns
the state reached and the symbols that were not looked at. -/
def feed : σ → List α → σ × List α
  | p, [] => (p, [])
  | p, x :: xs => if stop (step p x) = true then (step p x, xs) else feed (step p x) xs

@[simp] theorem feed_nil (p : σ) : feed step stop p [] = (p, []) := rfl

theorem feed_cons (p : σ) (x : α) (xs : List α) :
    feed step stop p (x :: xs) =
      if stop (step p x) = true then (step p x, xs) else feed step stop (step p x) xs := rfl

variable {step stop}

/-- A run that ends outside the terminal states has looked at everything. -/
theorem feed_rest_nil : ∀ (xs : List α) (p : σ),
    stop (feed step stop p xs).1 = false → (feed step stop p xs).2 = []
  | [], _, _ => rfl
  | x :: xs, p, h => by
    rw [feed_cons] at h ⊢
    split
    · next hs => rw [if_pos hs] at h; rw [hs] at h; cases h
    · next hs => rw [if_neg hs] at h; exact feed_rest_nil xs _ h

/-- A run over the first piece that did not stop is continued by the second. -/
theorem feed_append_of_running : ∀ (xs ys : List α) (p : σ), stop p = false →
    stop (feed step stop p xs).1 = false →
      feed step stop p (xs ++ ys) = feed step stop (feed step stop p xs).1 ys
  | [], _, _, _, _ => rfl
  | x :: xs, ys, p, _, h => by
    rw [List.cons_append, feed_cons, feed_cons]
    rw [feed_cons] at h
    split
    · next hs => rw [if_pos hs] at h; rw [hs] at h; cases h
    · next hs =>
      rw [if_neg hs] at h
      exact feed_append_of_running xs ys _ (by simpa using hs) h

/-- A run over the first piece that stopped is not disturbed by the second. -/
theorem feed_append_of_stopped : ∀ (xs ys : List α) (p : σ), stop p = false →
    stop (feed step stop p xs).1 = true →
      feed step stop p (xs ++ ys) = ((feed step stop p xs).1, (feed step stop p xs).2 ++ ys)
  | [], _, p, hp, h => by rw [feed_nil, hp] at h; cases h
  | x :: xs, ys, p, _, h => by
    rw [List.cons_append, feed_cons, feed_cons]
    rw [feed_cons] at h
    split
    · rfl
    · next hs =>
      rw [if_neg hs] at h
      exact feed_append_of_stopped xs ys _ (by simpa using hs) h

/-- A run that goes on reads as one with what it goes on with. -/
theorem feed_resume {xs ys : List α} {p q : σ} (hp : stop p = false) (hq : stop q = false)
    (h : feed step stop p xs = (q, [])) :
    feed step stop p (xs ++ ys) = feed step stop q ys := by
  have hrun : stop (feed step stop p xs).1 = false := by rw [h]; exact hq
  rw [feed_append_of_running xs ys p hp hrun, h]

/-- Invariants of the machine: what every step keeps, every run keeps. -/
theorem feed_induction {P : σ → Prop} (hstep : ∀ p x, stop p = false → P p → P (step p x)) :
    ∀ (xs : List α) (p : σ), stop p = false → P p → P (feed step stop p xs).1
  | [], _, _, h => h
  | x :: xs, p, hp, h => by
    rw [feed_cons]
    split
    · exact hstep p x hp h
    · next hs => exact feed_induction hstep xs _ (by simpa using hs) (hstep p x hp h)

variable (step stop) in
/-- A field of `n` symbols: `at' xs` is the state when `xs` of it has come,
`fin xs` the state when all of it has. -/
theorem feed_field (at' fin : List α → σ) {n : Nat}
    (hmore : ∀ xs x, xs.length + 1 < n → step (at' xs) x = at' (xs ++ [x]))
    (hlast : ∀ xs x, xs.length + 1 = n → step (at' xs) x = fin (xs ++ [x]))
    (hrun : ∀ xs, xs.length < n → stop (at' xs) = false) :
    ∀ bs xs : List α, xs.length < n → feed step stop (at' xs) bs =
      if xs.length + bs.length < n then (at' (xs ++ bs), [])
      else if stop (fin (xs ++ bs.take (n - xs.length))) then
        (fin (xs ++ bs.take (n - xs.length)), bs.drop (n - xs.length))
      else feed step stop (fin (xs ++ bs.take (n - xs.length))) (bs.drop (n - xs.length))
  | [], xs, h => by
    rw [feed_nil, if_pos (by simpa using h), List.append_nil]
  | x :: bs, xs, h => by
    rw [feed_cons]
    by_cases hx : xs.length + 1 = n
    · -- the last symbol of the field
      have h1 : n - xs.length = 1 := by omega
      have hn : ¬xs.length + (x :: bs).length < n := by simp only [List.length_cons]; omega
      rw [hlast xs x hx, if_neg hn, h1, List.take_succ_cons, List.take_zero, List.drop_succ_cons,
        List.drop_zero]
    · have hlt : xs.length + 1 < n := by omega
      have hlen : (xs ++ [x]).length = xs.length + 1 := by simp
      have h1 : n - xs.length = n - (xs ++ [x]).length + 1 := by omega
      have hiff : xs.length + (x :: bs).length < n ↔ (xs ++ [x]).length + bs.length < n := by
        simp only [List.length_cons, hlen]; omega
      have hstop : ¬stop (at' (xs ++ [x])) = true := by
        rw [hrun _ (by rw [hlen]; exact hlt)]
        simp
      have happ : ∀ ys : List α, xs ++ x :: ys = (xs ++ [x]) ++ ys := fun ys => by simp
      rw [hmore xs x hlt, if_neg hstop, feed_field at' fin hmore hlast hrun bs (xs ++ [x]) (by omega), h1,
        List.take_succ_cons, List.drop_succ_cons, happ bs, happ (bs.take _)]
      simp only [hiff]

end Socks5d.Lib.Incremental
