import Socks5d.Users
import Socks5d.Lib.Slots
import Socks5d.Lib.Machines

/-! # What the user store is a table of

The entries in use are slots with a name and a password. Insertion keeps the
first 255 characters of either string; a lookup sees the first 256. A name no
longer than 255 is therefore found under what was stored for it, and a longer
one is found under nothing. -/
namespace Socks5d
open Lib.CString Lib.Slots Lib.Machines

/-- What is kept of a string. -/
def stored (s : Str) : Str := (cstr s).take (nameLen - 1)

/-- What a lookup compares. -/
def sought (s : Str) : Str := (cstr s).take nameLen

/-- A string that fits. -/
def Fits (s : Str) : Prop := (cstr s).length < nameLen

instance (s : Str) : Decidable (Fits s) := inferInstanceAs (Decidable (_ < _))

theorem stored_length (s : Str) : (stored s).length < nameLen :=
  Nat.lt_of_le_of_lt (List.length_take_le _ _) (by decide)

theorem sought_fits {s : Str} (h : Fits s) : sought s = cstr s := List.take_of_length_le (Nat.le_of_lt h)

theorem stored_fits {s : Str} (h : Fits s) : stored s = cstr s :=
  List.take_of_length_le (Nat.le_sub_one_of_lt h)

theorem sought_eq_stored {s : Str} (h : Fits s) : sought s = stored s :=
  (sought_fits h).trans (stored_fits h).symm

/-- What is stored fits, and a string sought under it is that string. -/
theorem fits_of_sought {s : Str} (h : (sought s).length < nameLen) : Fits s := by
  unfold sought at h
  rw [List.length_take] at h
  unfold Fits
  omega

namespace Users

/-- The arrays as `users.c` leaves them: every string ends inside its array. -/
structure Wf (u : Users) : Prop where
  size : u.entries.length = usersMax
  room : u.count ≤ usersMax
  ended : ∀ e ∈ u.entries, Fits e.name ∧ Fits e.pass

/-- Names and passwords, in the order of the entries. -/
def table (u : Users) : List (Str × Str) :=
  (u.entries.take u.count).map fun e => (cstr e.name, cstr e.pass)

theorem wf_create : usersCreate.Wf where
  size := rfl
  room := Nat.zero_le _
  ended e he := by
    rw [List.eq_of_mem_replicate he]
    decide

section Table
variable {u : Users} {name pass : Str} {i : Nat}

theorem Wf.table_length (h : u.Wf) : u.table.length = u.count := by
  unfold table
  rw [List.length_map, List.length_take, h.size, Nat.min_eq_left h.room]

theorem Wf.table_getElem (h : u.Wf) (hi : i < u.count) : u.table[i]? =
    some (cstr (u.entries.getD i .zero).name, cstr (u.entries.getD i .zero).pass) := by
  have hlt : i < u.entries.length := h.size ▸ Nat.lt_of_lt_of_le hi h.room
  unfold table
  rw [List.getElem?_map, List.getElem?_take_of_lt hi, List.getD_eq_getElem?_getD,
    List.getElem?_eq_getElem hlt]
  rfl

/-- The strings in the table have no zero byte and fit. -/
theorem Wf.mem_table (h : u.Wf) {e : Str × Str} (he : e ∈ u.table) :
    (cstr e.1 = e.1 ∧ e.1.length < nameLen) ∧ cstr e.2 = e.2 ∧ e.2.length < nameLen := by
  obtain ⟨d, hd, rfl⟩ := List.mem_map.mp he
  obtain ⟨h1, h2⟩ := h.ended d (List.mem_of_mem_take hd)
  exact ⟨⟨cstr_cstr _, h1⟩, cstr_cstr _, h2⟩

theorem Wf.mem_keys (h : u.Wf) {k : Str} (hk : k ∈ keys u.table) : cstr k = k ∧ k.length < nameLen := by
  obtain ⟨v, hv⟩ := Lib.Slots.mem_keys.mp hk
  exact (h.mem_table hv).1

theorem Wf.findUser (h : u.Wf) (name : Str) : u.findUser name = slot u.table (sought name) := by
  refine (slot_map fun e he => ?_).symm
  have hfits := (h.ended e (List.mem_of_mem_take he)).1
  rw [strncmpEq_iff, List.take_of_length_le (Nat.le_of_lt hfits)]
  rfl

/-! ## The operations -/

theorem Wf.check_iff (h : u.Wf) : u.usersCheck name pass = true ↔
    value u.table (sought name) = some (sought pass) := by
  unfold usersCheck
  rw [h.findUser]
  cases hs : slot u.table (sought name) with
  | none => simp [value_none.mpr (slot_none.mp hs)]
  | some i =>
    obtain ⟨a, w, b, ht, rfl, ha⟩ := slot_split hs
    have hi : a.length < u.count := by
      rw [← h.table_length, ht, List.length_append, List.length_cons]
      omega
    have hget := h.table_getElem hi
    rw [ht, List.getElem?_append_right (Nat.le_refl _), Nat.sub_self, List.getElem?_cons_zero] at hget
    have hw : w = cstr (u.entries.getD a.length .zero).pass := congrArg Prod.snd (Option.some.inj hget)
    have hfits : w.length < nameLen :=
      (h.mem_table (e := (sought name, w)) (ht ▸ List.mem_append_right a List.mem_cons_self)).2.2
    dsimp only
    rw [ht, value_split ha, strncmpEq_iff, ← hw, Option.some_inj,
      List.take_of_length_le (show w.length ≤ passLen from Nat.le_of_lt hfits)]
    rfl

theorem Wf.add_found (h : u.Wf) (pass : Str) (hs : slot u.table (sought name) = some i) :
    (u.usersAdd name pass).2 = true ∧
      (u.usersAdd name pass).1.table = revalue u.table i (stored pass) := by
  unfold usersAdd
  rw [h.findUser, hs]
  refine ⟨rfl, ?_⟩
  unfold table revalue
  refine List.ext_getElem? fun j => ?_
  simp only [List.getElem?_map, List.getElem?_modify, List.getElem?_take]
  split
  · cases u.entries[j]? with
    | none => rfl
    | some e =>
      have hpass : cstr (copyBounded (passLen - 1) pass) = stored pass := cstr_copyBounded _ _
      by_cases hj : i = j
      · simp only [hj, if_true, Option.map_some, Option.map_eq_map, hpass]
      · simp only [if_neg hj, Option.map_some, Option.map_eq_map]
  · rfl

theorem Wf.add_fresh (h : u.Wf) (pass : Str) (hs : slot u.table (sought name) = none)
    (hroom : u.count < usersMax) :
    (u.usersAdd name pass).2 = true ∧
      (u.usersAdd name pass).1.table = u.table ++ [(stored name, stored pass)] := by
  unfold usersAdd
  rw [h.findUser, hs]
  dsimp only
  rw [if_neg (Nat.not_le.mpr hroom)]
  refine ⟨rfl, ?_⟩
  unfold table
  dsimp only
  have hlt : u.count < u.entries.length := h.size ▸ hroom
  rw [List.take_add_one, List.getElem?_set_self hlt, List.take_set_of_le (Nat.le_refl _),
    List.map_append]
  show _ ++ [(cstr (copyBounded _ name), cstr (copyBounded _ pass))] = _
  rw [cstr_copyBounded, cstr_copyBounded]
  rfl

theorem Wf.add_full (h : u.Wf) (pass : Str) (hs : slot u.table (sought name) = none) (hfull : u.count = usersMax) :
    u.usersAdd name pass = (u, false) := by
  unfold usersAdd
  rw [h.findUser, hs]
  exact if_pos (Nat.le_of_eq hfull.symm)

theorem Wf.del_missing (h : u.Wf) (hs : slot u.table (sought name) = none) :
    u.usersDel name = (u, false) := by
  unfold usersDel
  rw [h.findUser, hs]

theorem slot_lt {t : List (Str × Str)} {k : Str} (hs : slot t k = some i) : i < t.length := by
  obtain ⟨a, w, b, rfl, rfl, -⟩ := slot_split hs
  rw [List.length_append, List.length_cons]
  omega

theorem Wf.del_found (h : u.Wf) (hs : slot u.table (sought name) = some i) :
    (u.usersDel name).2 = true ∧ (u.usersDel name).1.table = vacate u.table i := by
  have hi : i < u.count := h.table_length ▸ slot_lt hs
  have hlast : u.table.getLast? = some (cstr (u.entries.getD (u.count - 1) .zero).name,
      cstr (u.entries.getD (u.count - 1) .zero).pass) := by
    rw [List.getLast?_eq_getElem?, h.table_length]
    exact h.table_getElem (by omega)
  unfold usersDel vacate
  rw [h.findUser, hs, hlast]
  refine ⟨rfl, ?_⟩
  dsimp only
  rw [List.dropLast_eq_take, List.length_set, h.table_length]
  unfold table
  dsimp only
  rw [List.take_set_of_le (Nat.le_refl _), ← List.map_set, ← List.map_take, List.take_set, List.take_set,
    List.take_take, Nat.min_eq_left (Nat.sub_le _ _)]

/-- `users_add` adds at most the name it is given, at the end. -/
theorem Wf.keys_usersAdd (h : u.Wf) (name pass : Str) :
    keys (u.usersAdd name pass).1.table = keys u.table ∨
      keys (u.usersAdd name pass).1.table = keys u.table ++ [stored name] := by
  cases hs : slot u.table (sought name) with
  | some i =>
    left
    rw [(h.add_found pass hs).2, keys_revalue]
  | none =>
    by_cases hroom : u.count < usersMax
    · right
      rw [(h.add_fresh pass hs hroom).2, keys, List.map_append]
      rfl
    · left
      rw [h.add_full pass hs (Nat.le_antisymm h.room (Nat.not_lt.mp hroom))]

/-- `users_del` adds no name, and takes none but the one it is given. -/
theorem Wf.keys_usersDel (h : u.Wf) (name : Str) :
    (∀ k ∈ keys (u.usersDel name).1.table, k ∈ keys u.table) ∧
      ∀ k ∈ keys u.table, k = sought name ∨ k ∈ keys (u.usersDel name).1.table := by
  cases hs : slot u.table (sought name) with
  | some i =>
    rw [(h.del_found hs).2]
    exact ⟨fun k => mem_keys_of_vacate hs, fun k => mem_keys_vacate hs⟩
  | none =>
    rw [h.del_missing hs]
    exact ⟨fun k hk => hk, fun k hk => Or.inr hk⟩

theorem Wf.usersAdd (h : u.Wf) (name pass : Str) : (u.usersAdd name pass).1.Wf := by
  have hcopy : ∀ s : Str, Fits (copyBounded (nameLen - 1) s) := fun s => by
    unfold Fits
    rw [cstr_copyBounded]
    exact stored_length s
  unfold Users.usersAdd
  cases u.findUser name with
  | some i =>
    refine ⟨by rw [List.length_modify]; exact h.size, h.room, fun e he => ?_⟩
    obtain ⟨j, hj, rfl⟩ := List.mem_iff_getElem.mp he
    rw [List.length_modify] at hj
    obtain ⟨h1, h2⟩ := h.ended _ (List.getElem_mem hj)
    rw [List.getElem_modify]
    split
    · exact ⟨h1, hcopy pass⟩
    · exact ⟨h1, h2⟩
  | none =>
    dsimp only
    split
    · exact h
    · next hroom =>
      refine ⟨by rw [List.length_set]; exact h.size, Nat.not_le.mp hroom, fun e he => ?_⟩
      rcases List.mem_or_eq_of_mem_set he with he | rfl
      · exact h.ended e he
      · exact ⟨hcopy name, hcopy pass⟩

theorem Wf.usersDel (h : u.Wf) (name : Str) : (u.usersDel name).1.Wf := by
  have hzero : Fits UserEntry.zero.name ∧ Fits UserEntry.zero.pass := by decide
  unfold Users.usersDel
  cases u.findUser name with
  | none => exact h
  | some i =>
    refine ⟨by rw [List.length_set, List.length_set]; exact h.size,
      Nat.le_trans (Nat.sub_le _ _) h.room, fun e he => ?_⟩
    rcases List.mem_or_eq_of_mem_set he with he | rfl
    · rcases List.mem_or_eq_of_mem_set he with he | rfl
      · exact h.ended e he
      · rw [List.getD_eq_getElem?_getD]
        cases hget : u.entries[u.count - 1]? with
        | none => exact hzero
        | some e => exact h.ended e (List.mem_of_getElem? hget)
    · exact hzero

end Table
end Users
end Socks5d
