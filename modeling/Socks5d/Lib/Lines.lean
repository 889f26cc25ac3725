import Mathlib.Data.List.Basic

/-! # Lines of bounded length

A reader that gathers elements into lines: some elements are skipped, a
separator ends a line, and a line that would reach `max` elements is dropped
with an event of its own. The lines of a stream are those of `splitOnP`; the
rules say when the reader's events are exactly these. -/
namespace Socks5d.Lib.Lines

variable {α : Type} (skip sep : α → Bool) (max : Nat)

inductive LineEvent (α : Type) | line (content : List α) | tooLong
  deriving DecidableEq, Repr

@[simp] def LineEvent.isTooLong : LineEvent α → Bool
  | .line _ => false
  | .tooLong => true

/-- One element: the events so far and the line being gathered. -/
def step (s : List (LineEvent α) × List α) (x : α) : List (LineEvent α) × List α :=
  if skip x then s
  else if sep x then (s.1 ++ [.line s.2], [])
  else if max ≤ s.2.length + 1 then (s.1 ++ [.tooLong], [])
  else (s.1, s.2 ++ [x])

def assemble (xs : List α) : List (LineEvent α) × List α := xs.foldl (step skip sep max) ([], [])

/-- The lines of a stream, and after them what follows the last separator. -/
def segments (xs : List α) : List (List α) := (xs.filter fun x => !skip x).splitOnP sep

/-- The finished lines. -/
def lines (xs : List α) : List (List α) := (segments skip sep xs).dropLast

variable {skip sep max}

theorem assemble_snoc (xs : List α) (x : α) :
    assemble skip sep max (xs ++ [x]) = step skip sep max (assemble skip sep max xs) x := by
  simp [assemble]

theorem segments_ne_nil (xs : List α) : segments skip sep xs ≠ [] := List.splitOnP_ne_nil _ _

@[simp] theorem segments_nil : segments skip sep [] = [[]] := rfl

section Cons
variable {x : α} (xs : List α)

theorem segments_skip (h : skip x = true) : segments skip sep (x :: xs) = segments skip sep xs := by
  simp [segments, h]

theorem segments_sep (h : skip x = false) (hs : sep x = true) :
    segments skip sep (x :: xs) = [] :: segments skip sep xs := by
  simp [segments, h, List.splitOnP_cons_eq_if_modifyHead, hs]

theorem segments_other (h : skip x = false) (hs : sep x = false) :
    segments skip sep (x :: xs) = (segments skip sep xs).modifyHead (List.cons x) := by
  simp [segments, h, List.splitOnP_cons_eq_if_modifyHead, hs]

/-- What is gathered so far stands before the first segment. -/
theorem modifyHead_other (line : List α) (h : skip x = false) (hs : sep x = false) :
    (segments skip sep (x :: xs)).modifyHead (line ++ ·) =
      (segments skip sep xs).modifyHead (line ++ [x] ++ ·) := by
  rw [segments_other xs h hs, List.modifyHead_modifyHead]
  congr 1
  funext l
  simp

end Cons

/-- Events are only ever added. -/
theorem events_extend (xs : List α) : ∀ s : List (LineEvent α) × List α,
    s.1 <+: (xs.foldl (step skip sep max) s).1 := by
  induction xs with
  | nil => exact fun s => List.prefix_rfl
  | cons x xs ih =>
    intro s
    refine List.IsPrefix.trans ?_ (ih (step skip sep max s x))
    unfold step
    split_ifs
    · exact List.prefix_rfl
    · exact List.prefix_append _ _
    · exact List.prefix_append _ _
    · exact List.prefix_rfl

/-- A stream without a long segment is read as its lines. -/
theorem foldl_short (xs : List α) : ∀ (evs : List (LineEvent α)) (line : List α),
    (∀ s ∈ (segments skip sep xs).modifyHead (line ++ ·), s.length < max) →
    xs.foldl (step skip sep max) (evs, line) =
      (evs ++ (((segments skip sep xs).modifyHead (line ++ ·)).dropLast).map .line,
        ((segments skip sep xs).modifyHead (line ++ ·)).getLastD []) := by
  induction xs with
  | nil => intro evs line _; simp
  | cons x xs ih =>
    intro evs line h
    rw [List.foldl_cons]
    cases hk : skip x with
    | true =>
      rw [segments_skip xs hk] at h ⊢
      rw [step, if_pos hk]
      exact ih evs line h
    | false =>
      cases hs : sep x with
      | true =>
        rw [segments_sep xs hk hs] at h ⊢
        rw [step, if_neg (by simp [hk]), if_pos hs]
        have hid : (segments skip sep xs).modifyHead ([] ++ ·) = segments skip sep xs := by
          cases segments skip sep xs <;> simp
        have ht := ih (evs ++ [.line line]) [] (by
          rw [hid]
          exact fun s hm => h s (List.mem_cons_of_mem _ hm))
        rw [hid] at ht
        rw [ht]
        have hne := @segments_ne_nil α skip sep xs
        obtain ⟨y, ys, he⟩ := List.exists_cons_of_ne_nil hne
        simp [he]
      | false =>
        rw [modifyHead_other xs line hk hs] at h ⊢
        have hlen : line.length + 1 < max := by
          obtain ⟨y, ys, he⟩ := List.exists_cons_of_ne_nil (@segments_ne_nil α skip sep xs)
          have h1 := h (line ++ [x] ++ y) (by rw [he]; exact List.mem_cons_self)
          simp only [List.length_append, List.length_cons, List.length_nil] at h1
          omega
        rw [step, if_neg (by simp [hk]), if_neg (by simp [hs]), if_neg (by simpa using hlen)]
        exact ih evs (line ++ [x]) h

/-- Every separator is an event. -/
theorem foldl_lines (xs : List α) : ∀ (evs : List (LineEvent α)) (line : List α),
    (xs.foldl (step skip sep max) (evs, line)).1.countP (fun e => !e.isTooLong) + 1 =
      evs.countP (fun e => !e.isTooLong) + (segments skip sep xs).length := by
  induction xs with
  | nil => intro evs line; simp
  | cons x xs ih =>
    intro evs line
    rw [List.foldl_cons]
    cases hk : skip x with
    | true => rw [segments_skip xs hk, step, if_pos hk, ih]
    | false =>
      cases hs : sep x with
      | true =>
        rw [segments_sep xs hk hs, step, if_neg (by simp [hk]), if_pos hs, ih]
        simp only [List.countP_append, List.countP_singleton, LineEvent.isTooLong, List.length_cons,
          Bool.not_false, if_true]
        omega
      | false =>
        rw [segments_other xs hk hs, List.length_modifyHead, step, if_neg (by simp [hk]),
          if_neg (by simp [hs])]
        split
        · rw [ih]; simp
        · rw [ih]

/-- A long segment leaves an event. -/
theorem foldl_long (hmax : 0 < max) (xs : List α) : ∀ (evs : List (LineEvent α)) (line : List α),
    line.length < max →
    (∃ s ∈ (segments skip sep xs).modifyHead (line ++ ·), max ≤ s.length) →
      evs.countP LineEvent.isTooLong <
        (xs.foldl (step skip sep max) (evs, line)).1.countP LineEvent.isTooLong := by
  induction xs with
  | nil =>
    rintro evs line hl ⟨s, hs, hlen⟩
    simp only [segments_nil, List.modifyHead_cons, List.append_nil, List.mem_singleton] at hs
    rw [hs] at hlen
    omega
  | cons x xs ih =>
    rintro evs line hl ⟨s, hs, hlen⟩
    rw [List.foldl_cons]
    cases hk : skip x with
    | true =>
      rw [segments_skip xs hk] at hs
      rw [step, if_pos hk]
      exact ih evs line hl ⟨s, hs, hlen⟩
    | false =>
      cases hsep : sep x with
      | true =>
        rw [segments_sep xs hk hsep] at hs
        rw [step, if_neg (by simp [hk]), if_pos hsep]
        have hm : s ∈ (segments skip sep xs).modifyHead ([] ++ ·) := by
          rcases List.mem_cons.mp hs with rfl | hm
          · simp only [List.append_nil] at hlen; omega
          · cases hc : segments skip sep xs with
            | nil => rw [hc] at hm; cases hm
            | cons y ys => rw [hc] at hm; simpa using hm
        have h1 := ih (evs ++ [.line line]) [] hmax ⟨s, hm, hlen⟩
        simpa using h1
      | false =>
        rw [modifyHead_other xs line hk hsep] at hs
        rw [step, if_neg (by simp [hk]), if_neg (by simp [hsep])]
        split
        · have hp := @events_extend α skip sep max xs
            (evs ++ [.tooLong], [])
          have := hp.sublist.countP_le (p := LineEvent.isTooLong)
          simp only [List.countP_append, List.countP_singleton, LineEvent.isTooLong, if_true] at this
          show _ < (xs.foldl (step skip sep max) (evs ++ [.tooLong], [])).1.countP LineEvent.isTooLong
          omega
        · next hlt =>
          exact ih evs (line ++ [x]) (by simpa using Nat.lt_of_not_le hlt) ⟨s, hs, hlen⟩

theorem modifyHead_nil_append (l : List (List α)) : l.modifyHead ([] ++ ·) = l := by
  cases l <;> simp

/-- Reading a stream all of whose segments are short. -/
theorem assemble_short {xs : List α} (h : ∀ s ∈ segments skip sep xs, s.length < max) :
    assemble skip sep max xs =
      ((lines skip sep xs).map .line, (segments skip sep xs).getLastD []) := by
  have h1 := @foldl_short α skip sep max xs [] []
  rw [modifyHead_nil_append] at h1
  simpa [assemble, lines] using h1 h

/-- There are as many events as lines exactly when no segment is too long. -/
theorem assemble_length_iff (hmax : 0 < max) (xs : List α) :
    (assemble skip sep max xs).1.length = (lines skip sep xs).length ↔
      ∀ s ∈ segments skip sep xs, s.length < max := by
  constructor
  · intro hlen
    by_contra hno
    simp only [not_forall, Nat.not_lt, exists_prop] at hno
    have h1 := foldl_long hmax xs [] [] hmax
      (by rwa [modifyHead_nil_append])
    have h2 := @foldl_lines α skip sep max xs [] []
    have h3 := List.length_eq_countP_add_countP LineEvent.isTooLong
      (l := (assemble skip sep max xs).1)
    simp only [List.countP_nil] at h1 h2
    simp only [lines, List.length_dropLast, assemble] at hlen h3
    simp only [Bool.not_eq_true, Bool.decide_eq_false] at h3
    omega
  · intro h
    rw [assemble_short h, List.length_map]

end Socks5d.Lib.Lines
