import Socks5d.UserTable

/-! # The user store over every sequence of calls

With names and passwords that fit, the store is a map of at most ten names. A
name that does not fit is stored cut, and found under nothing: added over a
name it is cut to, it puts that name into the store twice. -/
namespace Socks5d
open Lib.CString Lib.Slots Lib.Machines

/-- A call of `users.h` that is answered by true or false. -/
inductive UserCall where
  | add (name pass : Str)
  | del (name : Str)
  | check (name pass : Str)
  deriving DecidableEq

namespace UserCall

def onStore (u : Users) : UserCall → Users × Bool
  | add name pass => u.usersAdd name pass
  | del name => u.usersDel name
  | check name pass => (u, u.usersCheck name pass)

/-- The calls on a map with room for ten names. -/
def onMap (m : Finmap fun _ : Str => Str) : UserCall → (Finmap fun _ : Str => Str) × Bool
  | add name pass =>
    if name ∈ m ∨ m.keys.card < usersMax then (m.insert name pass, true) else (m, false)
  | del name => (m.erase name, decide (name ∈ m))
  | check name pass => (m, decide (m.lookup name = some pass))

def strings : UserCall → List Str
  | add name pass => [name, pass]
  | del name => [name]
  | check name pass => [name, pass]

theorem wf {u : Users} (h : u.Wf) (call : UserCall) : (call.onStore u).1.Wf := by
  cases call with
  | add name pass => exact h.usersAdd name pass
  | del name => exact h.usersDel name
  | check name pass => exact h

end UserCall

/-- The store after a sequence of calls on a new one. -/
abbrev usersAfter (calls : List UserCall) : Users := (run (fun u c => c.onStore u) usersCreate calls).1

abbrev usersAnswers (calls : List UserCall) : List Bool :=
  (run (fun u c => c.onStore u) usersCreate calls).2

abbrev mapAfter (calls : List UserCall) : Finmap fun _ : Str => Str :=
  (run (fun m c => c.onMap m) ∅ calls).1

abbrev mapAnswers (calls : List UserCall) : List Bool := (run (fun m c => c.onMap m) ∅ calls).2

theorem usersAfter_wf (calls : List UserCall) : (usersAfter calls).Wf :=
  run_always (fun _ c h => c.wf h) Users.wf_create calls

/-! ## A bounded map -/

/-- A C string of at most 255 characters. -/
def Whole (s : Str) : Prop := (0 : UInt8) ∉ s ∧ s.length < nameLen

instance (s : Str) : Decidable (Whole s) := inferInstanceAs (Decidable (_ ∧ _))

theorem Whole.sought {s : Str} (h : Whole s) : Socks5d.sought s = s := by
  unfold Socks5d.sought
  rw [cstr_eq_self h.1, List.take_of_length_le (Nat.le_of_lt h.2)]

theorem Whole.stored {s : Str} (h : Whole s) : Socks5d.stored s = s := by
  unfold Socks5d.stored
  rw [cstr_eq_self h.1, List.take_of_length_le (Nat.le_sub_one_of_lt h.2)]

/-- The store holds the map. -/
structure Holds (u : Users) (m : Finmap fun _ : Str => Str) : Prop where
  wf : u.Wf
  represents : Represents u.table m

section Holds
variable {u : Users} {m : Finmap fun _ : Str => Str}

theorem Holds.card (h : Holds u m) : m.keys.card = u.count :=
  h.represents.card.trans h.wf.table_length

theorem Holds.step (h : Holds u m) {call : UserCall} (hs : ∀ s ∈ call.strings, Whole s) :
    Holds (call.onStore u).1 (call.onMap m).1 ∧ (call.onStore u).2 = (call.onMap m).2 := by
  have hwf := call.wf h.wf
  cases call with
  | add name pass =>
    have hname := hs name List.mem_cons_self
    have hpass := hs pass (List.mem_cons_of_mem _ List.mem_cons_self)
    unfold UserCall.onStore UserCall.onMap at *
    dsimp only at hwf ⊢
    cases hi : slot u.table (sought name) with
    | some i =>
      have hin : name ∈ m := by
        by_contra hout
        rw [h.represents.mem, ← slot_none, ← hname.sought, hi] at hout
        cases hout
      obtain ⟨h1, h2⟩ := h.wf.add_found pass hi
      rw [hname.sought] at hi
      rw [if_pos (Or.inl hin)]
      refine ⟨⟨hwf, ?_⟩, h1⟩
      rw [h2, hpass.stored]
      exact h.represents.revalue hi pass
    | none =>
      have hout : name ∉ m := by rwa [h.represents.mem, ← slot_none, ← hname.sought]
      by_cases hroom : u.count < usersMax
      · obtain ⟨h1, h2⟩ := h.wf.add_fresh pass hi hroom
        rw [if_pos (Or.inr (h.card ▸ hroom))]
        refine ⟨⟨hwf, ?_⟩, h1⟩
        rw [h2, hname.stored, hpass.stored]
        exact h.represents.append (h.represents.mem.not.mp hout) pass
      · have hfull : u.count = usersMax := Nat.le_antisymm h.wf.room (Nat.not_lt.mp hroom)
        rw [h.wf.add_full _ hi hfull, if_neg (not_or.mpr ⟨hout, h.card ▸ hroom⟩)]
        exact ⟨h, rfl⟩
  | del name =>
    have hname := hs name List.mem_cons_self
    unfold UserCall.onStore UserCall.onMap at *
    dsimp only at hwf ⊢
    cases hi : slot u.table (sought name) with
    | some i =>
      obtain ⟨h1, h2⟩ := h.wf.del_found hi
      rw [hname.sought] at hi
      have hin : name ∈ m := by
        by_contra hout
        rw [h.represents.mem, ← slot_none, hi] at hout
        cases hout
      refine ⟨⟨hwf, ?_⟩, h1.trans (decide_eq_true hin).symm⟩
      rw [h2]
      exact h.represents.vacate hi
    | none =>
      have hout : name ∉ keys u.table := by rwa [← slot_none, ← hname.sought]
      rw [h.wf.del_missing hi]
      exact ⟨⟨h.wf, h.represents.missing hout⟩,
        (decide_eq_false (h.represents.mem.not.mpr hout)).symm⟩
  | check name pass =>
    have hname := hs name List.mem_cons_self
    have hpass := hs pass (List.mem_cons_of_mem _ List.mem_cons_self)
    refine ⟨h, ?_⟩
    show u.usersCheck name pass = decide (m.lookup name = some pass)
    rw [Bool.eq_iff_iff, h.wf.check_iff, decide_eq_true_iff, h.represents.lookup, hname.sought,
      hpass.sought]

theorem Holds.names (h : Holds u m) : ∃ names : List Str, names.Nodup ∧
    (∀ name, name ∈ names ↔ name ∈ m) ∧ names.length = u.usersCount ∧
      ∀ i : Int, (u.usersGetName i).map cstr = if i < 0 then none else names[i.toNat]? := by
  refine ⟨keys u.table, h.represents.nodup, fun _ => h.represents.mem.symm, ?_, fun i => ?_⟩
  · exact List.length_map _ |>.trans h.wf.table_length
  · have hlen := h.wf.table_length
    unfold Users.usersGetName
    by_cases hneg : i < 0
    · rw [if_pos (Or.inl hneg), if_pos hneg]
      rfl
    · rw [if_neg hneg]
      unfold keys
      rw [List.getElem?_map]
      by_cases hout : i ≥ u.count
      · rw [if_pos (Or.inr hout), List.getElem?_eq_none (by omega)]
        rfl
      · rw [if_neg (not_or.mpr ⟨hneg, hout⟩), h.wf.table_getElem (by omega)]
        rfl

end Holds

/-- With strings that fit, the store and the map answer every sequence of calls
alike, and afterwards the store holds the map: its size, its names, its passwords. -/
theorem store_refines_map {calls : List UserCall}
    (h : ∀ call ∈ calls, ∀ s ∈ call.strings, Whole s) :
    let u := usersAfter calls
    let m := mapAfter calls
    usersAnswers calls = mapAnswers calls ∧
      u.usersCount = m.keys.card ∧ m.keys.card ≤ usersMax ∧
      (∀ name pass, Whole name → Whole pass →
        (u.usersCheck name pass = true ↔ m.lookup name = some pass)) ∧
      ∃ names : List Str, names.Nodup ∧ (∀ name, name ∈ names ↔ name ∈ m) ∧
        names.length = u.usersCount ∧
        ∀ i : Int, (u.usersGetName i).map cstr = if i < 0 then none else names[i.toNat]? := by
  have hstep : ∀ u m (call : UserCall), Holds u m → (∀ s ∈ call.strings, Whole s) →
      Holds (call.onStore u).1 (call.onMap m).1 ∧ (call.onStore u).2 = (call.onMap m).2 :=
    fun _ _ _ hr hs => hr.step hs
  obtain ⟨hholds, hanswers⟩ := run_refines hstep ⟨Users.wf_create, represents_nil⟩ h
  refine ⟨hanswers, hholds.card.symm, hholds.card ▸ hholds.wf.room, fun name pass hn hp => ?_,
    hholds.names⟩
  rw [hholds.wf.check_iff, hn.sought, hp.sought, hholds.represents.lookup]

/-- A slot is reused for a shorter name and a shorter password. -/
def UserCall.reusing : List UserCall :=
  [.add [97, 110, 97] [108, 111, 110, 103], .del [97, 110, 97], .add [98] [112],
    .check [97, 110, 97] [112], .check [98] [112]]

theorem store_refines_map_reusing :
    usersAnswers UserCall.reusing = mapAnswers UserCall.reusing ∧
      usersAnswers UserCall.reusing = [true, true, true, false, true] :=
  ⟨(store_refines_map (by decide)).1, by decide +kernel⟩

/-! ## Names that do not fit -/

/-- An addition that does not cut a name down to one that is there. -/
def Uncut (u : Users) : UserCall → Prop
  | .add name _ => Fits name ∨ stored name ∉ keys u.table
  | _ => True

instance (u : Users) : ∀ call, Decidable (Uncut u call)
  | .add _ _ => inferInstanceAs (Decidable (_ ∨ _))
  | .del _ => isTrue trivial
  | .check _ _ => isTrue trivial

/-- No name is there twice. -/
structure Unique (u : Users) : Prop where
  wf : u.Wf
  nodup : (keys u.table).Nodup

theorem slot_of_mem {t : List (Str × Str)} {k : Str} (hk : k ∈ keys t) : ∃ i, slot t k = some i :=
  Option.ne_none_iff_exists'.mp fun hs => slot_none.mp hs hk

theorem Unique.step {u : Users} (h : Unique u) {call : UserCall} (hc : Uncut u call) :
    Unique (call.onStore u).1 := by
  refine ⟨call.wf h.wf, ?_⟩
  cases call with
  | add name pass =>
    show (keys (u.usersAdd name pass).1.table).Nodup
    cases hi : slot u.table (sought name) with
    | some i =>
      rw [(h.wf.add_found _ hi).2, keys_revalue]
      exact h.nodup
    | none =>
      by_cases hroom : u.count < usersMax
      · have hout : stored name ∉ keys u.table := by
          rcases hc with hfits | hout
          · rwa [← sought_eq_stored hfits, ← slot_none]
          · exact hout
        rw [(h.wf.add_fresh _ hi hroom).2, keys, List.map_append]
        exact h.nodup.append (List.nodup_singleton _) (List.disjoint_singleton.mpr hout)
      · rw [h.wf.add_full _ hi (Nat.le_antisymm h.wf.room (Nat.not_lt.mp hroom))]
        exact h.nodup
  | del name =>
    show (keys (u.usersDel name).1.table).Nodup
    cases hi : slot u.table (sought name) with
    | some i =>
      rw [(h.wf.del_found hi).2]
      exact (keys_vacate h.nodup hi).1
    | none =>
      rw [h.wf.del_missing hi]
      exact h.nodup
  | check name pass => exact h.nodup

/-- A name comes into the store by its addition only. -/
theorem absent_step {u : Users} (h : u.Wf) {k : Str} (hk : k ∉ keys u.table) {call : UserCall}
    (hc : ∀ name pass, call = .add name pass → stored name ≠ k) :
    k ∉ keys (call.onStore u).1.table := by
  cases call with
  | add name pass =>
    show k ∉ keys (u.usersAdd name pass).1.table
    cases hi : slot u.table (sought name) with
    | some i => rwa [(h.add_found _ hi).2, keys_revalue]
    | none =>
      by_cases hroom : u.count < usersMax
      · rw [(h.add_fresh _ hi hroom).2, keys, List.map_append, List.mem_append]
        refine not_or.mpr ⟨hk, fun hm => ?_⟩
        exact hc name pass rfl (List.mem_singleton.mp hm).symm
      · rwa [h.add_full _ hi (Nat.le_antisymm h.room (Nat.not_lt.mp hroom))]
  | del name =>
    show k ∉ keys (u.usersDel name).1.table
    cases hi : slot u.table (sought name) with
    | some i =>
      rw [(h.del_found hi).2]
      exact fun hm => hk (mem_keys_of_vacate hi hm)
    | none => rwa [h.del_missing hi]
  | check name pass => exact hk

/-- As long as no name is cut down to one that is there: no name is there twice,
an addition of one that is there replaces its password, and one that was deleted
is accepted with no password until it is added again. -/
theorem names_unique {calls : List UserCall}
    (h : Throughout (fun u c => c.onStore u) Uncut usersCreate calls) :
    let u := usersAfter calls
    (keys u.table).Nodup ∧
      (∀ name pass, Uncut u (.add name pass) → stored name ∈ keys u.table →
        (u.usersAdd name pass).2 = true ∧ (u.usersAdd name pass).1.usersCount = u.usersCount ∧
          ∃ i, slot u.table (stored name) = some i ∧
            (u.usersAdd name pass).1.table = revalue u.table i (stored pass)) ∧
      ∀ name, (u.usersDel name).2 = true → ∀ later,
        (∀ name' pass, UserCall.add name' pass ∈ later → stored name' ≠ stored name) → ∀ pass,
        (run (fun u c => c.onStore u) (u.usersDel name).1 later).1.usersCheck name pass = false := by
  have hu : Unique (usersAfter calls) :=
    run_invariant (fun _ _ hs hc => hs.step hc) ⟨Users.wf_create, List.nodup_nil⟩ h
  refine ⟨hu.nodup, fun name pass hc hin => ?_, fun name hdel later hlater pass => ?_⟩
  · have hfits : Fits name := hc.resolve_right (not_not.mpr hin)
    obtain ⟨i, hi⟩ := slot_of_mem hin
    obtain ⟨h1, h2⟩ := hu.wf.add_found pass ((sought_eq_stored hfits).symm ▸ hi)
    refine ⟨h1, ?_, i, hi, h2⟩
    rw [Users.usersCount, ← (hu.wf.usersAdd name pass).table_length, h2, revalue, List.length_modify,
      hu.wf.table_length]
    rfl
  · cases hi : slot (usersAfter calls).table (sought name) with
    | none =>
      rw [hu.wf.del_missing hi] at hdel
      cases hdel
    | some i =>
      -- a name that was found is short enough to be stored whole
      obtain ⟨a, w, b, ht, -, -⟩ := slot_split hi
      have hin : sought name ∈ keys (usersAfter calls).table :=
        Lib.Slots.mem_keys.mpr ⟨w, ht ▸ List.mem_append_right a List.mem_cons_self⟩
      have hsame := sought_eq_stored (fits_of_sought (hu.wf.mem_keys hin).2)
      have hgone := (keys_vacate hu.nodup hi).2
      rw [← (hu.wf.del_found hi).2, hsame] at hgone
      have hstep : ∀ (u : Users) (call : UserCall), (u.Wf ∧ stored name ∉ keys u.table) →
          (∀ n p, call = .add n p → stored n ≠ stored name) →
          (call.onStore u).1.Wf ∧ stored name ∉ keys (call.onStore u).1.table :=
        fun u call hs hc => ⟨call.wf hs.1, absent_step hs.1 hs.2 hc⟩
      have hinv := run_invariant hstep ⟨hu.wf.usersDel name, hgone⟩
        (throughout_of_forall fun c hm _ n p he => hlater n p (he ▸ hm))
      rw [← Bool.not_eq_true, hinv.1.check_iff, hsame, value_none.mpr hinv.2]
      intro hsome
      cases hsome

theorem names_unique_replaced :
    (keys (usersAfter [.add [97] [120], .add [97] [121]]).table).Nodup :=
  (names_unique (by decide +kernel)).1

/-- A name of 256 characters, twice. -/
def UserCall.cut : List UserCall :=
  [.add (List.replicate nameLen 97) [120], .add (List.replicate nameLen 97) [121]]

/-- Its first 255 characters are there twice, and accepted after their deletion. -/
theorem names_twice :
    ¬ (keys (usersAfter UserCall.cut).table).Nodup ∧ (usersAfter UserCall.cut).usersCount = 2 ∧
      ((usersAfter UserCall.cut).usersDel (List.replicate (nameLen - 1) 97)).2 = true ∧
      ((usersAfter UserCall.cut).usersDel (List.replicate (nameLen - 1) 97)).1.usersCheck
        (List.replicate (nameLen - 1) 97) [121] = true := by
  decide +kernel

end Socks5d
