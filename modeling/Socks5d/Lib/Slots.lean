import Mathlib.Data.Finmap
import Mathlib.Data.List.Perm.Basic

/-! # Finite maps kept in slots

A table holds its keys and values in slots. A key is looked up by its first
slot, a value is replaced where it stands, and a slot is vacated by moving the
last one into it. As long as no key stands in two slots this is a finite map. -/
namespace Socks5d.Lib.Slots

variable {K V : Type}

def keys (t : List (K × V)) : List K := t.map Prod.fst

def revalue (t : List (K × V)) (i : Nat) (v : V) : List (K × V) := t.modify i fun e => (e.1, v)

/-- The last slot moves to slot `i`. -/
def vacate (t : List (K × V)) (i : Nat) : List (K × V) :=
  match t.getLast? with
  | none => t
  | some e => (t.set i e).dropLast

@[simp] theorem keys_nil : keys ([] : List (K × V)) = [] := rfl

theorem mem_keys {t : List (K × V)} {k : K} : k ∈ keys t ↔ ∃ v, (k, v) ∈ t := by
  unfold keys
  rw [List.mem_map]
  exact ⟨fun ⟨e, he, hk⟩ => ⟨e.2, hk ▸ he⟩, fun ⟨v, hv⟩ => ⟨(k, v), hv, rfl⟩⟩

theorem revalue_split (a b : List (K × V)) (e : K × V) (v : V) :
    revalue (a ++ e :: b) a.length v = a ++ (e.1, v) :: b := by
  unfold revalue
  rw [List.modify_eq_take_cons_drop (by simp), List.take_left, List.drop_append]
  simp

theorem keys_revalue (t : List (K × V)) (i : Nat) (v : V) : keys (revalue t i v) = keys t := by
  unfold keys revalue
  refine List.ext_getElem? fun j => ?_
  rw [List.getElem?_map, List.getElem?_map, List.getElem?_modify]
  cases t[j]? with
  | none => rfl
  | some e => by_cases hj : i = j <;> simp [hj]

/-- Vacating a slot removes what was in it. -/
theorem vacate_perm {t : List (K × V)} {i : Nat} (h : i < t.length) :
    (vacate t i).Perm (t.eraseIdx i) := by
  induction t using List.reverseRecOn with
  | nil => cases h
  | append_singleton l e =>
    unfold vacate
    rw [List.getLast?_concat]
    dsimp only
    rw [List.length_append, List.length_singleton] at h
    rcases Nat.lt_succ_iff_lt_or_eq.mp h with hlt | rfl
    · rw [List.set_append_left _ _ hlt, List.dropLast_concat, List.eraseIdx_append_of_lt_length hlt]
      exact (List.set_perm_cons_eraseIdx hlt e).trans (List.perm_append_singleton e _).symm
    · rw [List.set_append_right _ _ (Nat.le_refl _), Nat.sub_self, List.set_cons_zero,
        List.dropLast_concat, List.eraseIdx_append_of_length_le (Nat.le_refl _)]
      simp

/-! ## Looking a key up -/

section Lookup
variable [DecidableEq K] {t : List (K × V)} {k : K} {i : Nat}

/-- The first slot of a key. -/
def slot (t : List (K × V)) (k : K) : Option Nat := t.findIdx? fun e => e.1 == k

/-- What is in it. -/
def value (t : List (K × V)) (k : K) : Option V := (t.find? fun e => e.1 == k).map Prod.snd

/-- A search for a key among what the slots are made from. -/
theorem slot_map {E : Type} {l : List E} {f : E → K × V} {p : E → Bool}
    (h : ∀ e ∈ l, p e = true ↔ (f e).1 = k) : slot (l.map f) k = l.findIdx? p := by
  unfold slot
  induction l with
  | nil => rfl
  | cons e l ih =>
    have he : p e = ((f e).1 == k) := by rw [Bool.eq_iff_iff, h e List.mem_cons_self, beq_iff_eq]
    rw [List.map_cons, List.findIdx?_cons, List.findIdx?_cons, he,
      ih fun d hd => h d (List.mem_cons_of_mem _ hd)]

theorem slot_none : slot t k = none ↔ k ∉ keys t := by
  unfold slot keys
  rw [List.findIdx?_eq_none_iff]
  simp only [beq_eq_false_iff_ne, List.mem_map, not_exists, not_and]

theorem slot_split (h : slot t k = some i) :
    ∃ a w b, t = a ++ (k, w) :: b ∧ a.length = i ∧ k ∉ keys a := by
  obtain ⟨hi, hk, hbefore⟩ := List.findIdx?_eq_some_iff_getElem.mp h
  have hk : t[i].1 = k := eq_of_beq hk
  refine ⟨t.take i, t[i].2, t.drop (i + 1), ?_, List.length_take_of_le (Nat.le_of_lt hi), ?_⟩
  · rw [← hk]
    exact (List.take_append_drop i t).symm.trans (by rw [List.drop_eq_getElem_cons hi])
  · intro hm
    obtain ⟨e, he, hek⟩ := List.mem_map.mp hm
    obtain ⟨j, hj, rfl⟩ := List.mem_iff_getElem.mp he
    rw [List.length_take] at hj
    rw [List.getElem_take] at hek
    exact hbefore j (by omega) (by rw [hek, beq_self_eq_true])

theorem value_none : value t k = none ↔ k ∉ keys t := by
  unfold value keys
  rw [Option.map_eq_none_iff, List.find?_eq_none]
  simp only [beq_iff_eq, List.mem_map, not_exists, not_and]

/-- The value of a key is that of its first slot. -/
theorem value_split {a b : List (K × V)} {w : V} (h : k ∉ keys a) :
    value (a ++ (k, w) :: b) k = some w := by
  have hno : a.find? (fun e => e.1 == k) = none := Option.map_eq_none_iff.mp (value_none.mpr h)
  unfold value
  rw [List.find?_append, hno, Option.none_or, List.find?_cons_of_pos (by rw [beq_self_eq_true])]
  rfl

/-- The value of another key is found behind what is not it. -/
theorem value_skip {a b : List (K × V)} {k' : K} {w : V} (h : k' ≠ k) :
    value (a ++ (k', w) :: b) k = value (a ++ b) k := by
  have hne : (k' == k) = false := beq_eq_false_iff_ne.mpr h
  unfold value
  rw [List.find?_append, List.find?_append, List.find?_cons_of_neg (by simp [hne])]

theorem value_mem {v : V} (h : value t k = some v) : (k, v) ∈ t := by
  obtain ⟨e, he, rfl⟩ := Option.map_eq_some_iff.mp h
  have hk := List.find?_some he
  have hm := List.mem_of_find?_eq_some he
  rwa [← eq_of_beq hk]

/-- Without a key in two slots, what stands in a slot is what is found. -/
theorem value_iff (h : (keys t).Nodup) {v : V} : value t k = some v ↔ (k, v) ∈ t := by
  refine ⟨value_mem, fun hm => ?_⟩
  obtain ⟨a, b, rfl⟩ := List.append_of_mem hm
  refine value_split fun ha => ?_
  unfold keys at h ha
  rw [List.map_append, List.map_cons] at h
  exact (List.nodup_append.mp h).2.2 _ ha _ List.mem_cons_self rfl

/-- Vacating the slot of a key leaves what is not in it. -/
theorem vacate_split (hi : slot t k = some i) :
    ∃ a w b, t = a ++ (k, w) :: b ∧ k ∉ keys a ∧ (vacate t i).Perm (a ++ b) := by
  obtain ⟨a, w, b, rfl, rfl, ha⟩ := slot_split hi
  have herase : (a ++ (k, w) :: b).eraseIdx a.length = a ++ b := by
    rw [List.eraseIdx_append_of_length_le (Nat.le_refl _), Nat.sub_self]
    rfl
  exact ⟨a, w, b, rfl, ha, herase ▸ vacate_perm (by simp)⟩

/-- Vacating adds no key. -/
theorem mem_keys_of_vacate (hi : slot t k = some i) {k' : K} (hk : k' ∈ keys (vacate t i)) :
    k' ∈ keys t := by
  obtain ⟨a, w, b, rfl, -, hp⟩ := vacate_split hi
  have hm := (hp.map Prod.fst).mem_iff.mp hk
  unfold keys
  rw [List.map_append, List.map_cons, List.mem_append, List.mem_cons]
  rw [List.map_append, List.mem_append] at hm
  exact hm.imp_right Or.inr

/-- Vacating a slot takes no key but its own. -/
theorem mem_keys_vacate (hi : slot t k = some i) {k' : K} (hk : k' ∈ keys t) :
    k' = k ∨ k' ∈ keys (vacate t i) := by
  obtain ⟨a, w, b, rfl, -, hp⟩ := vacate_split hi
  have hm := (hp.map Prod.fst).mem_iff (a := k')
  unfold keys at hk ⊢
  rw [hm, List.map_append, List.mem_append]
  rw [List.map_append, List.map_cons, List.mem_append, List.mem_cons] at hk
  rcases hk with hk | hk | hk
  · exact Or.inr (Or.inl hk)
  · exact Or.inl hk
  · exact Or.inr (Or.inr hk)

/-- Without a key in two slots, vacating its slot is the end of it. -/
theorem keys_vacate (h : (keys t).Nodup) (hi : slot t k = some i) :
    (keys (vacate t i)).Nodup ∧ k ∉ keys (vacate t i) := by
  obtain ⟨a, w, b, rfl, -, hp⟩ := vacate_split hi
  have hkeys := hp.map Prod.fst
  unfold keys at h ⊢
  rw [List.map_append, List.map_cons] at h
  rw [List.map_append] at hkeys
  obtain ⟨hk, hnodup⟩ := List.nodup_cons.mp (List.nodup_middle.mp h)
  exact ⟨hkeys.nodup_iff.mpr hnodup, fun hm => hk (hkeys.mem_iff.mp hm)⟩

end Lookup

/-! ## Tables and maps -/

/-- The table holds the map. -/
structure Represents [DecidableEq K] (t : List (K × V)) (m : Finmap fun _ : K => V) : Prop where
  nodup : (keys t).Nodup
  lookup : ∀ k, m.lookup k = value t k

section Represents
variable [DecidableEq K] {t t' : List (K × V)} {m : Finmap fun _ : K => V} {k : K} {i : Nat}

theorem represents_nil : Represents ([] : List (K × V)) ∅ := ⟨List.nodup_nil, fun _ => rfl⟩

theorem Represents.mem (h : Represents t m) : k ∈ m ↔ k ∈ keys t := by
  rw [← Finmap.lookup_isSome, h.lookup, Option.isSome_iff_ne_none, Ne, value_none, not_not]

theorem Represents.keys (h : Represents t m) : m.keys = (Slots.keys t).toFinset := by
  ext k
  rw [Finmap.mem_keys, h.mem, List.mem_toFinset]

theorem Represents.card (h : Represents t m) : m.keys.card = t.length := by
  rw [h.keys, List.toFinset_card_of_nodup h.nodup, Slots.keys, List.length_map]

theorem Represents.perm (h : Represents t m) (hp : t'.Perm t) : Represents t' m := by
  have hnodup : (Slots.keys t').Nodup := (hp.map Prod.fst).nodup_iff.mpr h.nodup
  refine ⟨hnodup, fun k => ?_⟩
  rw [h.lookup]
  refine Option.ext fun v => ?_
  rw [value_iff h.nodup, value_iff hnodup, hp.mem_iff]

theorem Represents.revalue (h : Represents t m) (hi : slot t k = some i) (v : V) :
    Represents (revalue t i v) (m.insert k v) := by
  have hnodup := h.nodup
  refine ⟨keys_revalue t i v ▸ hnodup, fun k' => ?_⟩
  obtain ⟨a, w, b, rfl, rfl, ha⟩ := slot_split hi
  rw [revalue_split]
  by_cases hk : k' = k
  · subst hk
    rw [Finmap.lookup_insert, value_split ha]
  · rw [Finmap.lookup_insert_of_ne _ hk, h.lookup, value_skip (Ne.symm hk), value_skip (Ne.symm hk)]

theorem Represents.append (h : Represents t m) (hk : k ∉ Slots.keys t) (v : V) :
    Represents (t ++ [(k, v)]) (m.insert k v) := by
  refine ⟨?_, fun k' => ?_⟩
  · have hnodup := h.nodup
    unfold Slots.keys at hnodup hk ⊢
    rw [List.map_append]
    exact hnodup.append (List.nodup_singleton k) (List.disjoint_singleton.mpr hk)
  · by_cases hk' : k' = k
    · subst hk'
      rw [Finmap.lookup_insert, value_split hk]
    · rw [Finmap.lookup_insert_of_ne _ hk', h.lookup, value_skip (Ne.symm hk'), List.append_nil]

theorem Represents.vacate (h : Represents t m) (hi : slot t k = some i) :
    Represents (vacate t i) (m.erase k) := by
  obtain ⟨hnodup, hgone⟩ := keys_vacate h.nodup hi
  obtain ⟨a, w, b, rfl, -, hp⟩ := vacate_split hi
  have hab : (Slots.keys (a ++ b)).Nodup := (hp.map Prod.fst).nodup_iff.mp hnodup
  refine Represents.perm ⟨hab, fun k' => ?_⟩ hp
  by_cases hk : k' = k
  · subst hk
    have hout : k' ∉ Slots.keys (a ++ b) := fun hm => hgone ((hp.map Prod.fst).mem_iff.mpr hm)
    rw [Finmap.lookup_erase, value_none.mpr hout]
  · rw [Finmap.lookup_erase_ne hk, h.lookup, value_skip (Ne.symm hk)]

/-- A key that is in no slot is not in the map. -/
theorem Represents.missing (h : Represents t m) (hk : k ∉ Slots.keys t) :
    Represents t (m.erase k) := by
  refine ⟨h.nodup, fun k' => ?_⟩
  by_cases hk' : k' = k
  · subst hk'
    rw [Finmap.lookup_erase, value_none.mpr hk]
  · rw [Finmap.lookup_erase_ne hk', h.lookup]

end Represents

end Socks5d.Lib.Slots
