import Socks5d.Mng
import Socks5d.Lib.Words
import Mathlib.Data.Nat.Digits.Defs

/-! # Numbers in commands

The numbers of the protocol, and what `parse_nonnegative` takes for one: `strtol`
takes a sign before the digits, the protocol has none. -/
namespace Socks5d
open Lib.Words

/-- The token is a `UINT` and denotes `n`: one or more decimal digits. -/
structure Uint (t : Bytes) (n : Nat) : Prop where
  nonempty : t ≠ []
  digits : ∀ x ∈ t, 48 ≤ x.toNat ∧ x.toNat ≤ 57
  value : n = Nat.ofDigits 10 (t.map fun x => x.toNat - 48).reverse
  bound : n ≤ 2147483647

/-- A sign before a `UINT`; behind a minus it is zero. -/
def SignedUint (t : Bytes) (n : Nat) : Prop :=
  ∃ d, Uint d n ∧ (t = 43 :: d ∨ t = 45 :: d ∧ n = 0)

theorem digitsValue_eq (ds : Bytes) :
    digitsValue ds = Nat.ofDigits 10 (ds.map fun x => x.toNat - 48).reverse := by
  induction ds using List.reverseRecOn with
  | nil => rfl
  | append_singleton ds d ih =>
    have hfold : digitsValue (ds ++ [d]) = 10 * digitsValue ds + (d.toNat - 48) :=
      List.foldl_append
    rw [hfold, ih, List.map_append, List.reverse_append, List.map_singleton, List.reverse_singleton,
      List.singleton_append, Nat.ofDigits_cons, Nat.add_comm]

theorem isdigit_iff (x : UInt8) : isdigit x = true ↔ 48 ≤ x.toNat ∧ x.toNat ≤ 57 := by
  unfold isdigit
  rw [Bool.and_eq_true, decide_eq_true_iff, decide_eq_true_iff]
  exact Iff.rfl

theorem Uint.reads {t : Bytes} {n : Nat} (h : Uint t n) : digitsValue t = n := by
  rw [h.value, digitsValue_eq]

theorem Uint.head {x : UInt8} {d : Bytes} {n : Nat} (h : Uint (x :: d) n) : x ≠ 43 ∧ x ≠ 45 := by
  have hx := h.digits x List.mem_cons_self
  constructor <;> (rintro rfl; exact absurd hx (by decide))

/-- The digits behind the sign. -/
theorem unsigned_iff (d : Bytes) (negative : Prop) [Decidable negative] {v : Int} :
    (if d = [] ∨ d.any (fun c => !isdigit c) = true then none
      else if negative ∧ 0 < digitsValue d then none
      else if int32Max < digitsValue d then none else some (digitsValue d : Int)) = some v ↔
      ∃ n : Nat, v = n ∧ Uint d n ∧ (negative → n = 0) := by
  have hdigits : ¬ (d = [] ∨ d.any (fun c => !isdigit c) = true) ↔
      d ≠ [] ∧ ∀ x ∈ d, 48 ≤ x.toNat ∧ x.toNat ≤ 57 := by
    rw [not_or, Bool.not_eq_true, List.any_eq_false]
    simp [isdigit_iff]
  constructor
  · intro h
    split at h
    · cases h
    · next hd =>
      split at h
      · cases h
      · next hneg =>
        split at h
        · cases h
        · next hmax =>
          cases h
          obtain ⟨h1, h2⟩ := hdigits.mp hd
          exact ⟨_, rfl, ⟨h1, h2, digitsValue_eq d, Nat.not_lt.mp hmax⟩, fun hn => by
            by_contra h0
            exact hneg ⟨hn, Nat.pos_of_ne_zero h0⟩⟩
  · rintro ⟨n, rfl, hu, hneg⟩
    have hno : ¬ (negative ∧ 0 < digitsValue d) := by
      rintro ⟨hn, hpos⟩
      rw [hu.reads, hneg hn] at hpos
      exact Nat.lt_irrefl 0 hpos
    have hmax : ¬ int32Max < digitsValue d := Nat.not_lt.mpr (hu.reads ▸ hu.bound)
    rw [if_neg (hdigits.mpr ⟨hu.nonempty, hu.digits⟩), if_neg hno, if_neg hmax, hu.reads]

/-- What `parse_nonnegative` accepts of a token. -/
theorem parseNonnegative_iff {t : Bytes} (h : IsWord isspace t) {v : Int} :
    parseNonnegative t = some v ↔ ∃ n : Nat, v = n ∧ (Uint t n ∨ SignedUint t n) := by
  obtain ⟨hne, hplain⟩ := h
  have hbody : t.dropWhile isspace = t := by
    cases t with
    | nil => rfl
    | cons x xs => rw [List.dropWhile_cons_of_neg (by rw [hplain x List.mem_cons_self]; decide)]
  unfold parseNonnegative
  rw [hbody]
  cases t with
  | nil => exact absurd rfl hne
  | cons x d =>
    dsimp only
    by_cases hsign : (x :: d).headD 0 = 43 ∨ (x :: d).headD 0 = 45
    · rw [if_pos hsign, unsigned_iff]
      rw [List.headD_cons] at hsign ⊢
      refine exists_congr fun n => and_congr_right fun _ => ⟨fun hu => Or.inr ⟨d, hu.1, ?_⟩, ?_⟩
      · rcases hsign with rfl | rfl
        · exact Or.inl rfl
        · exact Or.inr ⟨rfl, hu.2 rfl⟩
      · rintro (hu | ⟨d', hu, he | ⟨he, h0⟩⟩)
        · rcases hsign with rfl | rfl
          · exact absurd rfl hu.head.1
          · exact absurd rfl hu.head.2
        · cases he
          exact ⟨hu, fun hx => absurd hx (by decide)⟩
        · cases he
          exact ⟨hu, fun _ => h0⟩
    · rw [if_neg hsign, unsigned_iff]
      rw [List.headD_cons] at hsign ⊢
      obtain ⟨hplus, hminus⟩ := not_or.mp hsign
      refine exists_congr fun n => and_congr_right fun _ => ⟨fun hu => Or.inl hu.1, ?_⟩
      rintro (hu | ⟨d', hu, he | ⟨he, h0⟩⟩)
      · exact ⟨hu, fun hx => absurd hx hminus⟩
      · cases he
        exact absurd rfl hplus
      · cases he
        exact absurd rfl hminus

end Socks5d
