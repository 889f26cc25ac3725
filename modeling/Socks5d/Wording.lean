import Socks5d.Tokens
import Socks5d.UserTable

/-! # What a response is made of

Every text `mng.c` answers with is one line, but for the list of users: a name
given when the server starts can hold a line feed. -/
namespace Socks5d
open Lib.CString Lib.Words Lib.Slots

/-- A response: text without a line feed, then one. -/
def OneLine (r : Bytes) : Prop := r.getLast? = some 10 ∧ 10 ∉ r.dropLast

instance (r : Bytes) : Decidable (OneLine r) := inferInstanceAs (Decidable (_ ∧ _))

theorem oneLine_snoc {t : Bytes} : OneLine (t ++ [10]) ↔ 10 ∉ t := by
  unfold OneLine
  rw [List.dropLast_concat]
  exact and_iff_right (by simp)

theorem OneLine.ne_nil {r : Bytes} (h : OneLine r) : r ≠ [] := by
  rintro rfl
  cases h.1

theorem lf_notMem_digits (n : Nat) : (10 : UInt8) ∉ decimal n := by
  simp only [decimal, lit, List.mem_map, not_exists, not_and]
  intro c hc
  have hd : c.isDigit = true :=
    Nat.isDigit_of_mem_toDigits (by decide) (Nat.le_refl 10) (by simpa [Nat.repr] using hc)
  simp only [Char.isDigit, Bool.and_eq_true, decide_eq_true_eq, ge_iff_le, UInt32.le_iff_toNat_le] at hd
  intro h10
  have h1 : c.toNat % 256 = 10 := by simpa using congrArg UInt8.toNat h10
  have h2 : c.toNat = c.val.toNat := rfl
  have h3 : 48 ≤ c.val.toNat ∧ c.val.toNat ≤ 57 := hd
  omega

theorem lf_notMem_decimalInt (n : Int) : (10 : UInt8) ∉ decimalInt n := by
  have hd : ∀ m : Nat, (10 : UInt8) ∉ lit m.repr := lf_notMem_digits
  have hr : toString n = if 0 ≤ n then n.toNat.repr else "-" ++ (-n).toNat.repr :=
    Int.repr_eq_if
  unfold decimalInt
  rw [hr]
  split
  · exact hd _
  · have := hd (-n).toNat
    simp only [lit, String.toList_append, List.map_append, List.mem_append, not_or] at this ⊢
    exact ⟨by decide, this⟩

/-! ## Names -/

/-- No name of the store holds a line feed. -/
def Users.Plain (u : Users) : Prop := ∀ name ∈ keys u.table, (10 : UInt8) ∉ name

theorem lf_notMem_cstr {s : Str} (h : (10 : UInt8) ∉ s) : (10 : UInt8) ∉ cstr s :=
  fun hm => h ((List.takeWhile_prefix _).subset hm)

/-- A token holds no line feed. -/
theorem nextToken_clean {cursor t : Bytes} (h : (nextToken cursor).1 = some t) : (10 : UInt8) ∉ t := by
  rw [(nextToken_words cursor).1] at h
  intro hm
  exact absurd ((mem_words (List.mem_of_mem_head? h)).plain 10 hm) (by decide)

section Plain
variable {u : Users} {name : Str}

theorem Users.Wf.plain_add (h : u.Wf) (hn : (10 : UInt8) ∉ name) (pass : Str) :
    (u.usersAdd name pass).1.Plain ↔ u.Plain := by
  unfold Users.Plain
  rcases h.keys_usersAdd name pass with he | he
  · rw [he]
  · have hstored : (10 : UInt8) ∉ stored name := fun hm => lf_notMem_cstr hn (List.mem_of_mem_take hm)
    rw [he, List.forall_mem_append]
    exact and_iff_left (by simpa using hstored)

theorem Users.Wf.plain_del (h : u.Wf) (hn : (10 : UInt8) ∉ name) :
    (u.usersDel name).1.Plain ↔ u.Plain := by
  obtain ⟨hsub, hcover⟩ := h.keys_usersDel name
  refine ⟨fun hp k hk => ?_, fun hp k hk => hp k (hsub k hk)⟩
  rcases hcover k hk with rfl | hk
  · exact fun hm => lf_notMem_cstr hn (List.mem_of_mem_take hm)
  · exact hp k hk

/-- The store is there, and `tidy` says whether its names are plain. -/
def Stocked (tidy : Prop) (us : Option Users) : Prop :=
  ∃ u, us = some u ∧ u.Wf ∧ (u.Plain ↔ tidy)

theorem Stocked.add {tidy : Prop} (h : Stocked tidy (some u)) (hn : (10 : UInt8) ∉ name) (pass : Str) :
    Stocked tidy (some (u.usersAdd name pass).1) := by
  obtain ⟨_, ⟨⟩, hwf, ht⟩ := h
  exact ⟨_, rfl, hwf.usersAdd name pass, (hwf.plain_add hn pass).trans ht⟩

theorem Stocked.del {tidy : Prop} (h : Stocked tidy (some u)) (hn : (10 : UInt8) ∉ name) :
    Stocked tidy (some (u.usersDel name).1) := by
  obtain ⟨_, ⟨⟩, hwf, ht⟩ := h
  exact ⟨_, rfl, hwf.usersDel name, (hwf.plain_del hn).trans ht⟩

end Plain

/-! ## Texts -/

namespace Mng

theorem statsText_line (m : Metrics) : OneLine (statsText m) := by
  refine oneLine_snoc.mpr ?_
  simp only [List.mem_append, not_or, decimal64]
  simp only [lf_notMem_digits, not_false_eq_true, and_true]
  decide

theorem configText_line (cfg : Config) : OneLine (configText cfg) := by
  refine oneLine_snoc.mpr ?_
  simp only [List.mem_append, not_or]
  simp only [lf_notMem_decimalInt, not_false_eq_true, and_true]
  decide

section Users
variable {u : Users}

theorem userNames_eq (h : u.Wf) : userNames u = keys u.table := by
  have hlen : (keys u.table).length = u.count := (List.length_map _).trans h.table_length
  refine List.ext_getElem? fun i => ?_
  unfold userNames Users.usersCount
  by_cases hi : i < u.count
  · have hget : u.usersGetName (i : Int) = some (u.entries.getD i .zero).name := by
      unfold Users.usersGetName
      rw [if_neg (by omega)]
      rfl
    rw [List.getElem?_map, List.getElem?_range hi, Option.map_some, hget, keys, List.getElem?_map,
      h.table_getElem hi]
    rfl
  · rw [List.getElem?_eq_none (by simpa using hi), List.getElem?_eq_none (by omega)]

/-- Ten names fit into the response. -/
theorem usersText_length (h : u.Wf) : (usersText u).length + 1 < mngWriteSize := by
  have hnames : ∀ name ∈ keys u.table, name.length ≤ 255 := fun name hn =>
    Nat.le_of_lt_succ (h.mem_keys hn).2
  have hlen : (keys u.table).length ≤ 10 := by
    rw [keys, List.length_map, h.table_length]
    exact h.room
  have htext := @length_intercalate_le _ 44 255 _ hnames
  have hstart : (lit "+OK users=").length = 10 := by decide +kernel
  unfold usersText
  rw [userNames_eq h, List.length_append, hstart]
  unfold mngWriteSize
  omega

/-- The list of the users is one line exactly when their names are plain. -/
theorem usersText_line (h : u.Wf) : OneLine (usersText u ++ [10]) ↔ u.Plain := by
  rw [oneLine_snoc]
  unfold usersText Users.Plain
  rw [userNames_eq h, List.mem_append, not_or]
  constructor
  · rintro ⟨-, htext⟩ name hname hm
    exact htext (mem_intercalate_of_mem hname hm)
  · intro hp
    refine ⟨by decide, fun hm => ?_⟩
    rcases mem_intercalate hm with hm | ⟨name, hname, hm⟩
    · revert hm; decide
    · exact hp name hname hm

end Users
end Mng
end Socks5d
