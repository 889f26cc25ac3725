import Mathlib.Data.List.TakeWhile
import Mathlib.Data.List.Basic

/-! # Strings that end at a zero byte

A C string is read up to its first zero byte; memory past the end of a list
reads as zero. The bounded copy and comparison of `<string.h>` are given as
the loops they are, with the equations a proof uses instead of them. -/
namespace Socks5d.Lib.CString

abbrev Str := List UInt8

/-- The characters of the string that starts at the first byte. -/
def cstr (m : Str) : Str := m.takeWhile (· != 0)

@[simp] theorem cstr_nil : cstr [] = [] := rfl

theorem cstr_cons (x : UInt8) (xs : Str) : cstr (x :: xs) = if x = 0 then [] else x :: cstr xs := by
  by_cases h : x = 0 <;> simp [cstr, h]

theorem cstr_eq_self {m : Str} (h : (0 : UInt8) ∉ m) : cstr m = m :=
  List.takeWhile_eq_self_iff.mpr fun x hx => by
    simp only [bne_iff_ne, ne_eq]
    exact fun h0 => h (h0 ▸ hx)

theorem zero_notMem_cstr (m : Str) : (0 : UInt8) ∉ cstr m := fun h => by
  simpa using List.mem_takeWhile_imp h

@[simp] theorem cstr_cstr (m : Str) : cstr (cstr m) = cstr m := cstr_eq_self (zero_notMem_cstr m)

theorem cstr_length_le (m : Str) : (cstr m).length ≤ m.length := (List.takeWhile_prefix _).length_le

/-- A string followed by zero bytes is that string. -/
theorem cstr_append_zeros {m : Str} (h : (0 : UInt8) ∉ m) (n : Nat) :
    cstr (m ++ List.replicate n 0) = m := by
  induction m with
  | nil => cases n <;> simp [cstr, List.replicate_succ]
  | cons x xs ih =>
    have hx : x ≠ 0 := fun h0 => h (by simp [h0])
    rw [List.cons_append, cstr_cons, if_neg hx, ih fun hm => h (List.mem_cons_of_mem _ hm)]

/-- What stands behind a zero byte is not read. -/
theorem cstr_append_zero (m rest : Str) : cstr (m ++ 0 :: rest) = cstr m := by
  induction m with
  | nil => rfl
  | cons x xs ih => rw [List.cons_append, cstr_cons, cstr_cons, ih]

/-- `strncmp(a, b, n) == 0`. -/
def strncmpEq : Nat → Str → Str → Bool
  | 0, _, _ => true
  | n + 1, a, b =>
    a.headD 0 == b.headD 0 && (a.headD 0 == 0 || strncmpEq n a.tail b.tail)

/-- The comparison sees the first `n` characters of either string. -/
theorem strncmpEq_iff : ∀ (n : Nat) (a b : Str),
    strncmpEq n a b = true ↔ (cstr a).take n = (cstr b).take n
  | 0, a, b => by simp [strncmpEq]
  | n + 1, [], [] => by simp [strncmpEq]
  | n + 1, [], y :: ys => by
    by_cases hy : y = 0
    · simp [strncmpEq, hy, cstr_cons]
    · have hy' : ¬ (0 : UInt8) = y := fun h => hy h.symm
      simp [strncmpEq, hy, hy', cstr_cons]
  | n + 1, x :: xs, [] => by
    by_cases hx : x = 0
    · simp [strncmpEq, hx, cstr_cons]
    · simp [strncmpEq, hx, cstr_cons]
  | n + 1, x :: xs, y :: ys => by
    have ih := strncmpEq_iff n xs ys
    by_cases hx : x = 0
    · by_cases hy : y = 0
      · simp [strncmpEq, hx, hy, cstr_cons]
      · have hy' : ¬ (0 : UInt8) = y := fun h => hy h.symm
        simp [strncmpEq, hx, hy, hy', cstr_cons]
    · by_cases hy : y = 0
      · simp [strncmpEq, hx, hy, cstr_cons]
      · simp [strncmpEq, hx, hy, cstr_cons, ih]

/-- The comparison does not see more than the strings. -/
theorem strncmpEq_congr {a a' b b' : Str} (n : Nat) (ha : cstr a = cstr a') (hb : cstr b = cstr b') :
    strncmpEq n a b = strncmpEq n a' b' := by
  rw [Bool.eq_iff_iff, strncmpEq_iff, strncmpEq_iff, ha, hb]

/-- The array of `n + 1` bytes left by `strncpy(dst, src, n); dst[n] = '\0'`. -/
def copyBounded (n : Nat) (src : Str) : Str :=
  (cstr src).take n ++ List.replicate (n + 1 - ((cstr src).take n).length) 0

theorem cstr_copyBounded (n : Nat) (src : Str) : cstr (copyBounded n src) = (cstr src).take n :=
  cstr_append_zeros (fun h => zero_notMem_cstr src (List.mem_of_mem_take h)) _

end Socks5d.Lib.CString
