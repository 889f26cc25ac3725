import Mathlib.Data.List.Basic
import Mathlib.Data.UInt

/-! # Messages at the front of a byte string

A reader takes a message off the front of what it is given: it finds one, finds
that none can come, or needs more bytes. Readers for single bytes, for fields of
a fixed length and for fields that begin with their length, and their sequence. -/
namespace Socks5d.Lib.Readers

/-- What a reader makes of a byte string; the rest is what it did not look at. -/
inductive Reading (ε α : Type)
  | done (a : α) (rest : List UInt8)
  | failed (e : ε) (rest : List UInt8)
  | more
  deriving Repr

variable {ε α β : Type}

namespace Reading

/-- One reader after the other. -/
def andThen (r : Reading ε α) (k : α → List UInt8 → Reading ε β) : Reading ε β :=
  match r with
  | done a rest => k a rest
  | failed e rest => failed e rest
  | more => more

@[simp] theorem andThen_done (a : α) (rest : List UInt8) (k : α → List UInt8 → Reading ε β) :
    (done a rest).andThen k = k a rest := rfl

@[simp] theorem andThen_failed (e : ε) (rest : List UInt8) (k : α → List UInt8 → Reading ε β) :
    (failed e rest : Reading ε α).andThen k = failed e rest := rfl

@[simp] theorem andThen_more (k : α → List UInt8 → Reading ε β) :
    (more : Reading ε α).andThen k = more := rfl

theorem andThen_eq_done {r : Reading ε α} {k : α → List UInt8 → Reading ε β} {b : β}
    {rest : List UInt8} : r.andThen k = done b rest ↔ ∃ a mid, r = done a mid ∧ k a mid = done b rest := by
  cases r <;> simp

theorem andThen_eq_failed {r : Reading ε α} {k : α → List UInt8 → Reading ε β} {e : ε}
    {rest : List UInt8} : r.andThen k = failed e rest ↔
      r = failed e rest ∨ ∃ a mid, r = done a mid ∧ k a mid = failed e rest := by
  cases r <;> simp

end Reading

open Reading

def takeByte : List UInt8 → Reading ε UInt8
  | [] => more
  | x :: bs => done x bs

@[simp] theorem takeByte_done {bs : List UInt8} {x : UInt8} {rest : List UInt8} :
    (takeByte bs : Reading ε UInt8) = done x rest ↔ bs = x :: rest := by
  cases bs <;> simp [takeByte]

@[simp] theorem takeByte_failed {bs : List UInt8} {e : ε} {rest : List UInt8} :
    (takeByte bs : Reading ε UInt8) ≠ failed e rest := by
  cases bs <;> simp [takeByte]

/-- A field of `n` bytes. -/
abbrev Exactly (n : Nat) : Type := { xs : List UInt8 // xs.length = n }

def takeExactly (n : Nat) (bs : List UInt8) : Reading ε (Exactly n) :=
  if h : bs.length < n then more
  else done ⟨bs.take n, List.length_take_of_le (Nat.le_of_not_lt h)⟩ (bs.drop n)

theorem takeExactly_done {n : Nat} {bs : List UInt8} {f : Exactly n} {rest : List UInt8} :
    (takeExactly n bs : Reading ε (Exactly n)) = done f rest ↔ bs = f.val ++ rest := by
  unfold takeExactly
  split
  · next h =>
    refine ⟨fun he => (by cases he), fun he => ?_⟩
    rw [he, List.length_append, f.property] at h
    exact absurd h (by omega)
  · next h =>
    rw [done.injEq]
    constructor
    · rintro ⟨rfl, rfl⟩
      exact (List.take_append_drop n bs).symm
    · intro he
      have hlen : f.val.length = n := f.property
      subst he
      exact ⟨Subtype.ext (List.take_left' hlen), List.drop_left' hlen⟩

@[simp] theorem takeExactly_failed {n : Nat} {bs : List UInt8} {e : ε} {rest : List UInt8} :
    (takeExactly n bs : Reading ε (Exactly n)) ≠ failed e rest := by
  unfold takeExactly
  split <;> simp

/-- The content of a field that begins with its length, which is never zero. -/
abbrev Field : Type := { xs : List UInt8 // 1 ≤ xs.length ∧ xs.length ≤ 255 }

def Field.encode (f : Field) : List UInt8 := UInt8.ofNat f.val.length :: f.val

theorem toNat_pos {l : UInt8} (h : l ≠ 0) : 1 ≤ l.toNat :=
  Nat.one_le_iff_ne_zero.mpr fun h0 => h (UInt8.toNat_inj.mp h0)

/-- `e` is what a length of zero comes to. -/
def takeField (e : ε) : List UInt8 → Reading ε Field
  | [] => more
  | l :: bs =>
    if hl : l = 0 then failed e bs
    else if h : bs.length < l.toNat then more
    else
      have hlen : (bs.take l.toNat).length = l.toNat :=
        List.length_take_of_le (Nat.le_of_not_lt h)
      done ⟨bs.take l.toNat, by rw [hlen]; exact ⟨toNat_pos hl, Nat.le_of_lt_succ l.toNat_lt⟩⟩
        (bs.drop l.toNat)

theorem takeField_zero (e : ε) (bs : List UInt8) : takeField e (0 :: bs) = failed e bs := rfl

theorem takeField_short {e : ε} {l : UInt8} {bs : List UInt8} (hl : l ≠ 0)
    (h : bs.length < l.toNat) : takeField e (l :: bs) = more := by
  simp only [takeField, dif_neg hl, dif_pos h]

/-- A length that is not zero, and enough bytes after it. -/
theorem takeField_enough {e : ε} {l : UInt8} {bs : List UInt8} (hl : l ≠ 0)
    (h : ¬bs.length < l.toNat) : ∃ f : Field, f.val = bs.take l.toNat ∧ f.val.length = l.toNat ∧
      takeField e (l :: bs) = done f (bs.drop l.toNat) := by
  have hlen : (bs.take l.toNat).length = l.toNat := List.length_take_of_le (Nat.le_of_not_lt h)
  refine ⟨⟨bs.take l.toNat, by rw [hlen]; exact ⟨toNat_pos hl, Nat.le_of_lt_succ l.toNat_lt⟩⟩,
    rfl, hlen, ?_⟩
  simp only [takeField, dif_neg hl, dif_neg h]

theorem Field.length_toNat (f : Field) : (UInt8.ofNat f.val.length).toNat = f.val.length :=
  UInt8.toNat_ofNat_of_lt' (by have := f.property.2; simp only [UInt8.size]; omega)

theorem Field.length_ne_zero (f : Field) : UInt8.ofNat f.val.length ≠ 0 := by
  intro he
  have h1 := congrArg UInt8.toNat he
  rw [f.length_toNat] at h1
  have := f.property.1
  simp only [UInt8.toNat_zero] at h1
  omega

theorem takeField_done {e : ε} {bs : List UInt8} {f : Field} {rest : List UInt8} :
    takeField e bs = done f rest ↔ bs = f.encode ++ rest := by
  unfold Field.encode
  constructor
  · intro h
    cases bs with
    | nil => cases h
    | cons l bs =>
      by_cases hl : l = 0
      · rw [hl, takeField_zero] at h
        cases h
      · by_cases hlen : bs.length < l.toNat
        · rw [takeField_short hl hlen] at h
          cases h
        · obtain ⟨g, hg, hgl, he⟩ := takeField_enough (e := e) hl hlen
          rw [he, done.injEq] at h
          obtain ⟨rfl, rfl⟩ := h
          rw [hgl, hg, UInt8.ofNat_toNat, List.cons_append, List.take_append_drop]
  · rintro rfl
    obtain ⟨g, hg, -, he⟩ := @takeField_enough ε e _ (f.val ++ rest) f.length_ne_zero
      (by rw [f.length_toNat, List.length_append]; omega)
    rw [f.length_toNat, List.take_left] at hg
    rw [f.length_toNat, List.drop_left] at he
    rw [List.cons_append, he, Subtype.ext hg]

theorem takeField_failed {e e' : ε} {bs rest : List UInt8} :
    takeField e bs = failed e' rest ↔ bs = 0 :: rest ∧ e' = e := by
  constructor
  · intro h
    cases bs with
    | nil => cases h
    | cons l bs =>
      by_cases hl : l = 0
      · rw [hl, takeField_zero] at h
        cases h
        exact ⟨by rw [hl], rfl⟩
      · by_cases hlen : bs.length < l.toNat
        · rw [takeField_short hl hlen] at h
          cases h
        · obtain ⟨g, -, -, he⟩ := takeField_enough (e := e) hl hlen
          rw [he] at h
          cases h
  · rintro ⟨rfl, rfl⟩
    rfl

end Socks5d.Lib.Readers
