import Socks5d.Server
import Mathlib.Algebra.GroupWithZero.Nat
import Mathlib.Data.List.Range

/-! # The array under the selector's table

`selector.c` keeps its items in an array that is indexed by the descriptor and
that grows on demand, where `Selector` is a map. Here the array is modelled as
the code handles it, an access outside of it included, and shown to do what the
map does. -/
namespace Socks5d

/-- `FD_UNUSED` -/
def fdUnused : Int := -1

/-- `struct item`. The memory of a slot that is free holds anything but a used `fd`. -/
structure ItemSlot where
  fd : Int
  interest : Interest
  handler : Option Handler
  data : Ptr
  deriving DecidableEq, Repr

/-- Memory set to zero. -/
def ItemSlot.zero : ItemSlot := ⟨0, opNoop, none, 0⟩

/-- `ITEM_USED` -/
def ItemSlot.itemUsed (i : ItemSlot) : Bool := fdUnused != i.fd

def ItemSlot.itemInit (i : ItemSlot) : ItemSlot := { i with fd := fdUnused }

/-- `struct fdselector`, without what only `selector_select` uses. -/
structure FdSelector where
  /-- `none` is `NULL`. -/
  fds : Option (List ItemSlot)
  fdSize : Nat
  maxFd : Nat
  masterR : Fd → Bool
  masterW : Fd → Bool

/-- The loop of `next_capacity`. -/
def bitsOf (n : Nat) : Nat := if n = 0 then 0 else bitsOf (n >>> 1) + 1
termination_by n
decreasing_by rw [Nat.shiftRight_eq_div_pow]; omega

def nextCapacity (n : Nat) : Nat :=
  let tmp := 2 ^ bitsOf n
  let tmp := if tmp > itemsMaxSize then itemsMaxSize else tmp
  tmp + 1

/-- `realloc` of an array to `size` elements; `fresh` is what the new memory holds. -/
def reallocItems (fds : List ItemSlot) (size : Nat) (fresh : Nat → ItemSlot) : List ItemSlot :=
  (List.range size).map fun i => fds.getD i (fresh i)

def itemsInit (fds : List ItemSlot) (last : Nat) : List ItemSlot :=
  fds.mapIdx fun i item => if last ≤ i then item.itemInit else item

/-- `sizeof(struct item)` and `SIZE_MAX` on a 64-bit platform. -/
def elementSize : Nat := 24
def sizeMax : Nat := 2 ^ 64 - 1

namespace FdSelector

/-- `selector_new` before `ensure_capacity`. -/
def zero : FdSelector := ⟨none, 0, 0, fun _ => false, fun _ => false⟩

/-- `ensure_capacity`. `mem` is the allocator's answer: `none` for `NULL`, or
what the memory it adds holds. -/
def ensureCapacity (mem : Option (Nat → ItemSlot)) (n : Nat) (a : FdSelector) :
    FdSelector × SelectorStatus :=
  if n < a.fdSize then (a, .success)
  else if n > itemsMaxSize then (a, .maxfd)
  else
    let newSize := nextCapacity n
    match a.fds with
    | none =>
      -- `calloc`
      match mem with
      | none => (a, .enomem)
      | some _ =>
        ({ a with
           fds := some (itemsInit (List.replicate newSize ItemSlot.zero) 0)
           fdSize := newSize }, .success)
    | some fds =>
      if newSize > sizeMax / elementSize then (a, .enomem)
      else
        match mem with
        | none => (a, .enomem)
        | some fresh =>
          ({ a with
             fds := some (itemsInit (reallocItems fds newSize fresh) a.fdSize)
             fdSize := newSize }, .success)

/-- `selector_new` -/
def selectorNew (mem : Option (Nat → ItemSlot)) (initialElements : Nat) : Option FdSelector :=
  match zero.ensureCapacity mem initialElements with
  | (a, .success) => some a
  | _ => none

/-- `*(s->fds + fd)`, or `none` when that is outside the array. -/
def item (a : FdSelector) (fd : Fd) : Option ItemSlot := a.fds.bind (·[fd]?)

def setItem (a : FdSelector) (fd : Fd) (i : ItemSlot) : FdSelector :=
  { a with fds := a.fds.map (·.set fd i) }

def itemsUpdateFdsetForFd (a : FdSelector) (i : ItemSlot) : FdSelector :=
  let fd := i.fd.toNat
  { a with
    masterR := Function.update a.masterR fd (i.itemUsed && i.interest.read)
    masterW := Function.update a.masterW fd (i.itemUsed && i.interest.write) }

/-- One turn of the loop of `items_max_fd`. -/
def maxFdTurn (a : FdSelector) (max : Nat) (i : Nat) : Option Nat :=
  (a.item i).map fun item => if item.itemUsed = true ∧ item.fd > (max : Int) then item.fd.toNat else max

def itemsMaxFd (a : FdSelector) : Option Nat := (List.range (a.maxFd + 1)).foldlM a.maxFdTurn 0

/-- `selector_register` once there is room: the slot of `fd`. -/
def occupy (fd : Fd) (h : Handler) (i : Interest) (data : Ptr) (a : FdSelector) :
    Option (FdSelector × SelectorStatus) :=
  (a.item fd).map fun item =>
    if item.itemUsed then (a, .fdinuse)
    else
      let item : ItemSlot := ⟨fd, i, some h, data⟩
      let a := a.setItem fd item
      let a := { a with maxFd := if fd > a.maxFd then fd else a.maxFd }
      (a.itemsUpdateFdsetForFd item, .success)

/-- `selector_register`; `none` is an access outside the array. -/
def selectorRegister (mem : Option (Nat → ItemSlot)) (fd : Fd) (h : Handler) (i : Interest)
    (data : Ptr) (a : FdSelector) : Option (FdSelector × SelectorStatus) :=
  if invalidFd fd then some (a, .iargs)
  else
    match if fd > a.fdSize then a.ensureCapacity mem fd else (a, .success) with
    | (a, .success) => a.occupy fd h i data
    | (a, st) => some (a, st)

/-- `selector_unregister_fd`, without the close callback. -/
def selectorUnregisterFd (fd : Fd) (a : FdSelector) : Option (FdSelector × SelectorStatus) :=
  if invalidFd fd then some (a, .iargs)
  else
    (a.item fd).bind fun item =>
      if item.itemUsed then
        let item := { item with interest := opNoop }
        let a := (a.setItem fd item).itemsUpdateFdsetForFd item
        let a := a.setItem fd ItemSlot.zero.itemInit
        a.itemsMaxFd.map fun n => ({ a with maxFd := n }, .success)
      else some (a, .iargs)

def selectorSetInterest (fd : Fd) (i : Interest) (a : FdSelector) :
    Option (FdSelector × SelectorStatus) :=
  if invalidFd fd then some (a, .iargs)
  else
    (a.item fd).map fun item =>
      if item.itemUsed then
        let item := { item with interest := i }
        ((a.setItem fd item).itemsUpdateFdsetForFd item, .success)
      else (a, .iargs)

end FdSelector

/-! ## The capacity -/

theorem bitsOf_pos {n : Nat} (h : n ≠ 0) : bitsOf n = bitsOf (n / 2) + 1 := by
  rw [bitsOf, if_neg h, Nat.shiftRight_eq_div_pow, Nat.pow_one]

theorem lt_two_pow_bitsOf (n : Nat) : n < 2 ^ bitsOf n := by
  induction n using Nat.strong_induction_on with
  | _ n ih =>
    by_cases h : n = 0
    · subst h; exact Nat.pos_of_ne_zero (by simp)
    · have hhalf := ih (n / 2) (Nat.div_lt_self (Nat.pos_of_ne_zero h) (by decide))
      rw [bitsOf_pos h, Nat.pow_succ]
      omega

theorem bitsOf_le {n k : Nat} (h : n < 2 ^ k) : bitsOf n ≤ k := by
  induction k generalizing n with
  | zero =>
    have hn : n = 0 := Nat.lt_one_iff.mp h
    rw [hn, bitsOf]
    exact Nat.le_refl 0
  | succ k ih =>
    by_cases hn : n = 0
    · rw [hn, bitsOf]
      exact Nat.zero_le _
    · rw [bitsOf_pos hn]
      exact Nat.succ_le_succ (ih (by rw [Nat.pow_succ] at h; omega))

/-- The capacity for `n` leaves room for index `n`, and a table never has more
than 1025 slots. -/
theorem lt_nextCapacity {n : Nat} (h : n ≤ itemsMaxSize) : n < nextCapacity n := by
  have := lt_two_pow_bitsOf n
  unfold nextCapacity
  dsimp only
  split <;> omega

theorem nextCapacity_le (n : Nat) : nextCapacity n ≤ itemsMaxSize + 1 := by
  unfold nextCapacity
  dsimp only
  split <;> omega

/-- From half the maximum on, a table is made as large as it can get. -/
theorem nextCapacity_eq {n : Nat} (h : 512 ≤ n) : nextCapacity n = itemsMaxSize + 1 := by
  have hbits : 2 ^ 10 ≤ 2 ^ bitsOf n := by
    refine Nat.pow_le_pow_right (by decide) ?_
    exact (Nat.pow_lt_pow_iff_right (by decide)).mp
      (Nat.lt_of_le_of_lt (show 2 ^ 9 ≤ n from h) (lt_two_pow_bitsOf n))
  have hmax : 2 ^ 10 = itemsMaxSize := rfl
  unfold nextCapacity
  dsimp only
  split <;> omega

theorem nextCapacity_lt {n : Nat} (h : n < 512) : nextCapacity n < itemsMaxSize := by
  have hbits : 2 ^ bitsOf n ≤ 2 ^ 9 := Nat.pow_le_pow_right (by decide) (bitsOf_le h)
  have hmax : 2 ^ 10 = itemsMaxSize := rfl
  unfold nextCapacity
  dsimp only
  split <;> omega

/-! ## What the array stands for -/

/-- What a slot holds for its descriptor: `FD_UNUSED`, or the item under the
descriptor's own number. -/
def ItemSlot.Holds (i : ItemSlot) (fd : Fd) : Option Item → Prop
  | none => i.fd = fdUnused
  | some it => i = ⟨fd, it.interest, some it.handler, it.data⟩

/-- The array stands for the map: a slot for each descriptor below `fdSize`,
nothing beyond, and the other fields alike. -/
structure FdSelector.Related (a : FdSelector) (s : Selector) : Prop where
  inside : ∀ fd, fd < a.fdSize → ∃ i, a.item fd = some i ∧ i.Holds fd (s.fds fd)
  outside : ∀ fd, a.fdSize ≤ fd → a.item fd = none ∧ s.fds fd = none
  maxFd : a.maxFd = s.maxFd
  maxFd_lt : s.maxFd < a.fdSize
  masterR : a.masterR = s.masterR
  masterW : a.masterW = s.masterW

section Items
variable {a : FdSelector} {s : Selector} {fd g : Fd} {i : ItemSlot} {it : Item} {o : Option Item}

theorem ItemSlot.Holds.used (h : i.Holds fd o) : i.itemUsed = o.isSome := by
  cases o with
  | none =>
    have hi : i.fd = fdUnused := h
    rw [itemUsed, hi, Option.isSome_none, bne_self_eq_false]
  | some it =>
    have hi : i = ⟨fd, it.interest, some it.handler, it.data⟩ := h
    have hne : fdUnused ≠ (fd : Int) := by unfold fdUnused; omega
    rw [hi, itemUsed, Option.isSome_some, bne_iff_ne]
    exact hne

theorem ItemSlot.Holds.fd_eq (h : i.Holds fd (some it)) : i.fd = fd :=
  congrArg ItemSlot.fd (h : i = ⟨fd, it.interest, some it.handler, it.data⟩)

namespace FdSelector

theorem item_setItem (h : (a.item fd).isSome) :
    (a.setItem fd i).item g = if g = fd then some i else a.item g := by
  unfold item setItem at *
  cases hl : a.fds with
  | none => rw [hl] at h; cases h
  | some l =>
    rw [hl, Option.bind_some] at h
    rw [Option.map_some, Option.bind_some, Option.bind_some, List.getElem?_set]
    have hlt : fd < l.length := by
      rw [Option.isSome_iff_exists] at h
      obtain ⟨j, hj⟩ := h
      exact (List.getElem?_eq_some_iff.mp hj).1
    by_cases hg : g = fd
    · rw [if_pos hg, if_pos hg.symm, if_pos hlt]
    · rw [if_neg hg, if_neg (Ne.symm hg)]

/-- One slot rewritten, on both sides. -/
theorem Related.setItem (h : a.Related s) (hlt : fd < a.fdSize) (hi : i.Holds fd o) :
    (∀ g, g < a.fdSize → ∃ j, (a.setItem fd i).item g = some j ∧
      j.Holds g (Function.update s.fds fd o g)) ∧
    ∀ g, a.fdSize ≤ g → (a.setItem fd i).item g = none ∧ Function.update s.fds fd o g = none := by
  have hsome : (a.item fd).isSome := by
    obtain ⟨j, hj, -⟩ := h.inside fd hlt
    rw [hj]; rfl
  refine ⟨fun g hg => ?_, fun g hg => ?_⟩
  · rw [item_setItem hsome]
    by_cases hgf : g = fd
    · subst hgf
      rw [if_pos rfl, Function.update_self]
      exact ⟨i, rfl, hi⟩
    · rw [if_neg hgf, Function.update_of_ne hgf]
      exact h.inside g hg
  · have hgf : g ≠ fd := Nat.ne_of_gt (Nat.lt_of_lt_of_le hlt hg)
    rw [item_setItem hsome, if_neg hgf, Function.update_of_ne hgf]
    exact h.outside g hg

/-- The two ways of finding the largest descriptor in use. -/
theorem Related.itemsMaxFd (h : a.Related s) : a.itemsMaxFd = some s.itemsMaxFd := by
  have hfold : ∀ (l : List Nat) (m : Nat), (∀ n ∈ l, n < a.fdSize) →
      l.foldlM a.maxFdTurn m =
        some (l.foldl (fun m n => if (s.fds n).isSome ∧ n > m then n else m) m) := by
    intro l
    induction l with
    | nil => intro m _; rfl
    | cons n l ih =>
      intro m hl
      obtain ⟨i, hi, hh⟩ := h.inside n (hl n (by simp))
      have hturn : a.maxFdTurn m n = some (if (s.fds n).isSome ∧ n > m then n else m) := by
        rw [maxFdTurn, hi, Option.map_some, hh.used]
        cases hs : s.fds n with
        | none => simp
        | some it =>
          rw [hs] at hh
          simp [hh.fd_eq]
      rw [List.foldlM_cons, hturn, List.foldl_cons]
      exact ih _ fun k hk => hl k (List.mem_cons_of_mem _ hk)
  unfold FdSelector.itemsMaxFd Selector.itemsMaxFd
  rw [h.maxFd]
  exact hfold _ 0 fun n hn => lt_of_le_of_lt (Nat.lt_succ_iff.mp (List.mem_range.mp hn)) h.maxFd_lt

end FdSelector
end Items

/-! ## The operations -/

/-- A call of the table's interface. `mem` is what the allocator has for it. -/
inductive TableOp
  | register (mem : Option (Nat → ItemSlot)) (fd : Fd) (h : Handler) (i : Interest) (data : Ptr)
  | unregister (fd : Fd)
  | setInterest (fd : Fd) (i : Interest)

namespace TableOp

def fd : TableOp → Fd
  | .register _ fd _ _ _ | .unregister fd | .setInterest fd _ => fd

def mem : TableOp → Option (Nat → ItemSlot)
  | .register mem _ _ _ _ => mem
  | .unregister _ | .setInterest _ _ => none

/-- The call on the array. -/
def onArray : TableOp → FdSelector → Option (FdSelector × SelectorStatus)
  | .register mem fd h i data, a => a.selectorRegister mem fd h i data
  | .unregister fd, a => a.selectorUnregisterFd fd
  | .setInterest fd i, a => a.selectorSetInterest fd i

/-- The call on the map. -/
def onMap : TableOp → Selector → Selector × SelectorStatus
  | .register _ fd h i data, s => s.selectorRegister fd h i data
  | .unregister fd, s =>
    if invalidFd fd then (s, .iargs)
    else match s.fds fd with
      | none => (s, .iargs)
      | some _ => (s.dropItem fd, .success)
  | .setInterest fd i, s => s.selectorSetInterest fd i

/-- The call stays inside an array of `n` slots, or makes it large enough. -/
def Within (n : Nat) : TableOp → Prop
  | .register _ fd _ _ _ => invalidFd fd = false → fd ≠ n
  | .unregister fd | .setInterest fd _ => invalidFd fd = false → fd < n

/-- The array is too small, and there is no memory for a larger one. -/
def Starved (n : Nat) : TableOp → Prop
  | .register mem fd _ _ _ => invalidFd fd = false ∧ n < fd ∧ mem = none
  | .unregister _ | .setInterest _ _ => False

end TableOp

section Operations
variable {a : FdSelector} {s : Selector} {fd : Fd}

theorem invalidFd_false (h : invalidFd fd = false) : fd < itemsMaxSize := by
  unfold invalidFd at h
  exact Nat.lt_of_not_le (of_decide_eq_false h)

theorem Selector.itemsMaxFd_le (s : Selector) : s.itemsMaxFd ≤ s.maxFd := by
  have hfold : ∀ (l : List Nat) (m : Nat), m ≤ s.maxFd → (∀ n ∈ l, n ≤ s.maxFd) →
      l.foldl (fun m n => if (s.fds n).isSome ∧ n > m then n else m) m ≤ s.maxFd := by
    intro l
    induction l with
    | nil => intro m hm _; exact hm
    | cons n l ih =>
      intro m hm hl
      refine ih _ ?_ fun k hk => hl k (List.mem_cons_of_mem _ hk)
      dsimp only
      split
      · exact hl n (by simp)
      · exact hm
  exact hfold _ 0 (Nat.zero_le _) fun n hn => Nat.lt_succ_iff.mp (List.mem_range.mp hn)

namespace FdSelector

theorem item_itemsInit {fds : List ItemSlot} (last : Nat) (g : Fd) :
    (itemsInit fds last)[g]? =
      (fds[g]?).map fun item => if last ≤ g then item.itemInit else item := by
  rw [itemsInit, List.getElem?_mapIdx]

theorem getElem?_reallocItems (fds : List ItemSlot) (size : Nat) (fresh : Nat → ItemSlot) (g : Nat) :
    (reallocItems fds size fresh)[g]? = if g < size then some (fds.getD g (fresh g)) else none := by
  rw [reallocItems, List.getElem?_map]
  by_cases hg : g < size
  · rw [List.getElem?_range hg, if_pos hg]; rfl
  · rw [List.getElem?_eq_none (by rw [List.length_range]; omega), if_neg hg]; rfl

/-- Growing keeps what the array stands for. -/
theorem Related.grow (h : a.Related s) {l : List ItemSlot} (hl : a.fds = some l) {size : Nat}
    (hs : a.fdSize < size) (fresh : Nat → ItemSlot) :
    Related { a with fds := some (itemsInit (reallocItems l size fresh) a.fdSize), fdSize := size } s := by
  have hitem : ∀ g, a.item g = l[g]? := fun g => by rw [item, hl, Option.bind_some]
  refine ⟨fun g hg => ?_, fun g hg => ?_, h.maxFd, Nat.lt_trans h.maxFd_lt hs, h.masterR, h.masterW⟩
  · simp only [item, Option.bind_some, item_itemsInit, getElem?_reallocItems, if_pos hg,
      Option.map_some, Option.some.injEq, exists_eq_left']
    by_cases hold : a.fdSize ≤ g
    · rw [if_pos hold, (h.outside g hold).2]
      exact rfl
    · obtain ⟨i, hi, hh⟩ := h.inside g (Nat.lt_of_not_le hold)
      rw [if_neg hold, List.getD_eq_getElem?_getD, ← hitem, hi, Option.getD_some]
      exact hh
  · refine ⟨?_, (h.outside g (Nat.le_trans (Nat.le_of_lt hs) hg)).2⟩
    simp only [item, Option.bind_some, item_itemsInit, getElem?_reallocItems,
      if_neg (Nat.not_lt.mpr hg), Option.map_none]

theorem Related.fds_some (h : a.Related s) : ∃ l, a.fds = some l := by
  obtain ⟨i, hi, -⟩ := h.inside s.maxFd h.maxFd_lt
  cases hl : a.fds with
  | none => rw [item, hl] at hi; cases hi
  | some l => exact ⟨l, rfl⟩

/-- `ensure_capacity` for a descriptor the table has no room for. -/
theorem Related.ensureCapacity (h : a.Related s) (hv : invalidFd fd = false) (hf : a.fdSize < fd) :
    a.ensureCapacity none fd = (a, .enomem) ∧
    ∀ fresh, ∃ a', a.ensureCapacity (some fresh) fd = (a', .success) ∧ a'.Related s ∧
      a'.fdSize = nextCapacity fd := by
  obtain ⟨l, hl⟩ := h.fds_some
  have hle : fd ≤ itemsMaxSize := Nat.le_of_lt (invalidFd_false hv)
  have hsize : ¬ nextCapacity fd > sizeMax / elementSize := by
    have := nextCapacity_le fd
    have hbig : itemsMaxSize + 1 ≤ sizeMax / elementSize := by decide
    omega
  have hgrow : a.fdSize < nextCapacity fd := Nat.lt_trans hf (lt_nextCapacity hle)
  have hlt : ¬ fd < a.fdSize := Nat.not_lt.mpr (Nat.le_of_lt hf)
  have hmax : ¬ fd > itemsMaxSize := Nat.not_lt.mpr hle
  refine ⟨?_, fun fresh => ⟨_, ?_, h.grow hl hgrow fresh, rfl⟩⟩ <;>
    simp only [FdSelector.ensureCapacity, if_neg hlt, if_neg hmax, hl, if_neg hsize]

/-- The second half of `selector_register`, in a table with a slot for `fd`. -/
theorem Related.occupy (h : a.Related s) (hv : invalidFd fd = false) (hf : fd < a.fdSize)
    (hd : Handler) (i : Interest) (data : Ptr) :
    ∃ a', a.occupy fd hd i data = some (a', (s.selectorRegister fd hd i data).2) ∧
      a'.Related (s.selectorRegister fd hd i data).1 ∧ a'.fdSize = a.fdSize := by
  obtain ⟨slot, hslot, hh⟩ := h.inside fd hf
  unfold FdSelector.occupy Selector.selectorRegister
  rw [hv, hslot, Option.map_some, hh.used]
  cases hs : s.fds fd with
  | some it => exact ⟨a, rfl, h, rfl⟩
  | none =>
    obtain ⟨hin, hout⟩ := h.setItem (i := ⟨fd, i, some hd, data⟩) (o := some ⟨i, hd, data⟩) hf rfl
    refine ⟨_, rfl, ⟨hin, hout, ?_, ?_, ?_, ?_⟩, rfl⟩
    · exact congrArg (fun n => if fd > n then fd else n) h.maxFd
    · show (if fd > s.maxFd then fd else s.maxFd) < a.fdSize
      split
      · exact hf
      · exact h.maxFd_lt
    · exact congrArg (fun m => Function.update m fd i.read) h.masterR
    · exact congrArg (fun m => Function.update m fd i.write) h.masterW

/-- The interest of an item in use, and the master sets with it. -/
theorem Related.rewrite (h : a.Related s) (hf : fd < a.fdSize) (it : Item) (i : Interest) :
    let slot : ItemSlot := ⟨fd, i, some it.handler, it.data⟩
    Related ((a.setItem fd slot).itemsUpdateFdsetForFd slot)
      (Selector.itemsUpdateFdsetForFd
        { s with fds := Function.update s.fds fd (some { it with interest := i }) } fd i) := by
  obtain ⟨hin, hout⟩ := h.setItem (i := ⟨fd, i, some it.handler, it.data⟩)
    (o := some { it with interest := i }) hf rfl
  refine ⟨hin, hout, h.maxFd, h.maxFd_lt, ?_, ?_⟩
  · exact congrArg (fun m => Function.update m fd i.read) h.masterR
  · exact congrArg (fun m => Function.update m fd i.write) h.masterW

theorem Related.setInterest (h : a.Related s) (hv : invalidFd fd = false) (hf : fd < a.fdSize)
    (i : Interest) :
    ∃ a', a.selectorSetInterest fd i = some (a', (s.selectorSetInterest fd i).2) ∧
      a'.Related (s.selectorSetInterest fd i).1 ∧ a'.fdSize = a.fdSize := by
  obtain ⟨slot, hslot, hh⟩ := h.inside fd hf
  unfold FdSelector.selectorSetInterest Selector.selectorSetInterest
  rw [hv, hslot]
  simp only [Option.map_some, hh.used, Bool.false_eq_true, if_false]
  cases hs : s.fds fd with
  | none => exact ⟨a, rfl, h, rfl⟩
  | some it =>
    rw [hs] at hh
    cases (hh : slot = ⟨fd, it.interest, some it.handler, it.data⟩)
    exact ⟨_, rfl, h.rewrite hf it i, rfl⟩

theorem Related.free (h : a.Related s) (hf : fd < a.fdSize) :
    (a.setItem fd ItemSlot.zero.itemInit).Related
      { s with fds := Function.update s.fds fd none } := by
  obtain ⟨hin, hout⟩ := h.setItem (i := ItemSlot.zero.itemInit) (o := none) hf rfl
  exact ⟨hin, hout, h.maxFd, h.maxFd_lt, h.masterR, h.masterW⟩

theorem Related.unregister (h : a.Related s) (hv : invalidFd fd = false) (hf : fd < a.fdSize) :
    ∃ a', a.selectorUnregisterFd fd = some (a', ((TableOp.unregister fd).onMap s).2) ∧
      a'.Related ((TableOp.unregister fd).onMap s).1 ∧ a'.fdSize = a.fdSize := by
  obtain ⟨slot, hslot, hh⟩ := h.inside fd hf
  simp only [FdSelector.selectorUnregisterFd, TableOp.onMap, hv, hslot, Option.bind_some, hh.used,
    Bool.false_eq_true, if_false]
  cases hs : s.fds fd with
  | none => exact ⟨a, rfl, h, rfl⟩
  | some it =>
    rw [hs] at hh
    cases (hh : slot = ⟨fd, it.interest, some it.handler, it.data⟩)
    simp only [Option.isSome_some, if_true]
    -- the item loses its interest, then its slot is freed, then the maximum is taken anew
    have h2 := (h.rewrite hf it opNoop).free hf
    simp only [Selector.itemsUpdateFdsetForFd, Function.update_idem] at h2
    rw [h2.itemsMaxFd]
    refine ⟨_, rfl, ⟨h2.inside, h2.outside, rfl, ?_, h2.masterR, h2.masterW⟩, rfl⟩
    exact Nat.lt_of_le_of_lt (Selector.itemsMaxFd_le _) h2.maxFd_lt

end FdSelector

namespace TableOp

/-- What a call on the array comes to. It leaves the array exactly when it is
not within it; it fails for want of memory exactly when it is starved; in every
other case it does what the map does. -/
inductive Outcome (op : TableOp) (a : FdSelector) (s : Selector) : Prop
  | outside (hw : ¬ op.Within a.fdSize) (he : op.onArray a = none)
  | starved (hw : op.Within a.fdSize) (hs : op.Starved a.fdSize) (he : op.onArray a = some (a, .enomem))
  | done (hw : op.Within a.fdSize) (hs : ¬ op.Starved a.fdSize) (a' : FdSelector)
      (he : op.onArray a = some (a', (op.onMap s).2)) (hr : a'.Related (op.onMap s).1)
      (hn : a.fdSize ≤ a'.fdSize)

theorem onArray_invalid {op : TableOp} (h : invalidFd op.fd = true) (a : FdSelector) (s : Selector) :
    op.onArray a = some (a, .iargs) ∧ op.onMap s = (s, .iargs) := by
  cases op <;> exact ⟨if_pos h, if_pos h⟩

theorem Outcome.of_invalid {op : TableOp} (hr : a.Related s) (h : invalidFd op.fd = true) :
    op.Outcome a s := by
  obtain ⟨ha, hm⟩ := onArray_invalid h a s
  have hne : invalidFd op.fd ≠ false := by rw [h]; decide
  refine .done ?_ ?_ a ?_ (by rw [hm]; exact hr) (Nat.le_refl _)
  · cases op <;> exact fun hv => absurd hv hne
  · cases op with
    | register => exact fun hs => hne hs.1
    | _ => exact id
  · rw [ha, hm]

/-- `selector_register` takes the size of the array for one of its indices. -/
theorem register_outcome (h : a.Related s) (hv : invalidFd fd = false)
    (mem : Option (Nat → ItemSlot)) (hd : Handler) (i : Interest) (data : Ptr) :
    (register mem fd hd i data).Outcome a s := by
  have hreg : (register mem fd hd i data).onArray a =
      match if fd > a.fdSize then a.ensureCapacity mem fd else (a, .success) with
      | (a, .success) => a.occupy fd hd i data
      | (a, st) => some (a, st) := if_neg (by rw [hv]; decide)
  rcases Nat.lt_trichotomy fd a.fdSize with hlt | heq | hgt
  · obtain ⟨a', he, hr, hn⟩ := h.occupy hv hlt hd i data
    rw [if_neg (Nat.lt_asymm hlt)] at hreg
    exact .done (fun _ => Nat.ne_of_lt hlt) (fun hs => Nat.lt_asymm hlt hs.2.1) a' (hreg.trans he)
      hr hn.ge
  · have hout : a.occupy fd hd i data = none := by
      rw [FdSelector.occupy, (h.outside fd heq.ge).1, Option.map_none]
    rw [if_neg (Nat.not_lt.mpr heq.le)] at hreg
    exact .outside (fun hw => hw hv heq) (hreg.trans hout)
  · obtain ⟨hnone, hsome⟩ := h.ensureCapacity hv hgt
    rw [if_pos hgt] at hreg
    cases mem with
    | none =>
      rw [hnone] at hreg
      exact .starved (fun _ => Nat.ne_of_gt hgt) ⟨hv, hgt, rfl⟩ hreg
    | some fresh =>
      obtain ⟨a1, he1, hr1, hn1⟩ := hsome fresh
      rw [he1] at hreg
      have hf1 : fd < a1.fdSize := by
        rw [hn1]; exact lt_nextCapacity (Nat.le_of_lt (invalidFd_false hv))
      obtain ⟨a', he, hr, hn⟩ := hr1.occupy hv hf1 hd i data
      refine .done (fun _ => Nat.ne_of_gt hgt) (fun hs => by cases hs.2.2) a' (hreg.trans he) hr ?_
      rw [hn]; exact Nat.le_of_lt (Nat.lt_trans hgt hf1)

theorem onArray_outcome (op : TableOp) (h : a.Related s) : op.Outcome a s := by
  by_cases hv : invalidFd op.fd = false
  · cases op with
    | register mem fd hd i data => exact register_outcome h hv mem hd i data
    | unregister fd =>
      by_cases hlt : fd < a.fdSize
      · obtain ⟨a', he, hr, hn⟩ := h.unregister hv hlt
        exact .done (fun _ => hlt) id a' he hr hn.ge
      · refine .outside (fun hw => hlt (hw hv)) ?_
        have hne : ¬ invalidFd fd = true := ne_of_eq_of_ne hv Bool.false_ne_true
        have hnone := (h.outside fd (Nat.le_of_not_lt hlt)).1
        rw [onArray, FdSelector.selectorUnregisterFd, if_neg hne, hnone,
          Option.bind_none]
    | setInterest fd i =>
      by_cases hlt : fd < a.fdSize
      · obtain ⟨a', he, hr, hn⟩ := h.setInterest hv hlt i
        exact .done (fun _ => hlt) id a' he hr hn.ge
      · refine .outside (fun hw => hlt (hw hv)) ?_
        have hne : ¬ invalidFd fd = true := ne_of_eq_of_ne hv Bool.false_ne_true
        have hnone := (h.outside fd (Nat.le_of_not_lt hlt)).1
        rw [onArray, FdSelector.selectorSetInterest, if_neg hne, hnone,
          Option.map_none]
  · exact .of_invalid h (by rwa [Bool.not_eq_false] at hv)

/-- The map never runs out of memory. -/
theorem onMap_ne_enomem (op : TableOp) (s : Selector) : (op.onMap s).2 ≠ .enomem := by
  cases op with
  | register mem fd hd i data =>
    show (s.selectorRegister fd hd i data).2 ≠ _
    unfold Selector.selectorRegister
    split
    · exact SelectorStatus.noConfusion
    · split <;> exact SelectorStatus.noConfusion
  | unregister fd =>
    unfold onMap
    dsimp only
    split
    · exact SelectorStatus.noConfusion
    · split <;> exact SelectorStatus.noConfusion
  | setInterest fd i =>
    show (s.selectorSetInterest fd i).2 ≠ _
    unfold Selector.selectorSetInterest
    split
    · exact SelectorStatus.noConfusion
    · split <;> exact SelectorStatus.noConfusion

end TableOp
end Operations

/-! ## Runs -/

/-- Calls in a row, with their results. -/
def FdSelector.calls : FdSelector → List TableOp → Option (FdSelector × List SelectorStatus)
  | a, [] => some (a, [])
  | a, op :: ops =>
    match op.onArray a with
    | none => none
    | some (a', st) => (a'.calls ops).map fun r => (r.1, st :: r.2)

/-- A run of the map with the results given: a call that got no memory did nothing. -/
inductive Selector.Performs : Selector → List TableOp → List SelectorStatus → Selector → Prop
  | nil (s : Selector) : Selector.Performs s [] [] s
  | enomem {s s' : Selector} {op : TableOp} {ops : List TableOp} {sts : List SelectorStatus}
      {n : Nat} (hs : op.Starved n) (h : Selector.Performs s ops sts s') :
      Selector.Performs s (op :: ops) (.enomem :: sts) s'
  | call {s s' : Selector} {op : TableOp} {ops : List TableOp} {sts : List SelectorStatus}
      (h : Selector.Performs (op.onMap s).1 ops sts s') :
      Selector.Performs s (op :: ops) ((op.onMap s).2 :: sts) s'

section Runs
variable {a : FdSelector} {s : Selector}

theorem FdSelector.selectorNew_spec {mem : Option (Nat → ItemSlot)} {n : Nat}
    (h : FdSelector.selectorNew mem n = some a) :
    a.Related Socks5d.selectorNew ∧ a.fdSize = nextCapacity n := by
  have hlt : ¬ n < FdSelector.zero.fdSize := Nat.not_lt_zero n
  unfold FdSelector.selectorNew FdSelector.ensureCapacity at h
  rw [if_neg hlt] at h
  split at h
  · next he =>
    split at he
    · cases he
    · cases mem with
      | none => cases he
      | some fresh =>
        cases he
        cases h
        have hpos : 0 < nextCapacity n := Nat.succ_pos _
        refine ⟨⟨fun fd hf => ?_, fun fd hf => ⟨?_, rfl⟩, rfl, hpos, rfl, rfl⟩, rfl⟩
        · refine ⟨ItemSlot.zero.itemInit, ?_, rfl⟩
          rw [FdSelector.item, Option.bind_some, item_itemsInit, List.getElem?_replicate, if_pos hf]
          rfl
        · rw [FdSelector.item, Option.bind_some, item_itemsInit, List.getElem?_replicate,
            if_neg (Nat.not_lt.mpr hf)]
          rfl
  · cases h

/-- The calls up to the first that leaves the array do what the map does. -/
theorem FdSelector.Related.calls (h : a.Related s) (ops : List TableOp) :
    (a.calls ops = none ↔ ∃ pre op post a' sts, ops = pre ++ op :: post ∧
      a.calls pre = some (a', sts) ∧ ¬ op.Within a'.fdSize) ∧
    ∀ a' sts, a.calls ops = some (a', sts) →
      ∃ s', s.Performs ops sts s' ∧ a'.Related s' ∧ a.fdSize ≤ a'.fdSize := by
  induction ops generalizing a s with
  | nil =>
    refine ⟨⟨fun hn => (by cases hn), fun hn => ?_⟩, fun a' sts hc => ?_⟩
    · obtain ⟨pre, op, post, -, -, he, -⟩ := hn
      cases pre <;> cases he
    · cases hc
      exact ⟨s, .nil s, h, Nat.le_refl _⟩
  | cons op ops ih =>
    -- a call that returns hands over to the rest of the calls
    have hnext : ∀ {a1 : FdSelector} {st : SelectorStatus} {s1 : Selector},
        op.Within a.fdSize → op.onArray a = some (a1, st) → a1.Related s1 → a.fdSize ≤ a1.fdSize →
        (∀ {sts : List SelectorStatus} {s' : Selector}, s1.Performs ops sts s' →
          s.Performs (op :: ops) (st :: sts) s') →
        (a.calls (op :: ops) = none ↔ ∃ pre op' post a' sts, op :: ops = pre ++ op' :: post ∧
          a.calls pre = some (a', sts) ∧ ¬ op'.Within a'.fdSize) ∧
        ∀ a' sts, a.calls (op :: ops) = some (a', sts) →
          ∃ s', s.Performs (op :: ops) sts s' ∧ a'.Related s' ∧ a.fdSize ≤ a'.fdSize := by
      intro a1 st s1 hw he hr hn hp
      obtain ⟨ihn, ihs⟩ := ih hr
      have hc : ∀ l, a.calls (op :: l) = (a1.calls l).map fun r => (r.1, st :: r.2) := fun l => by
        rw [FdSelector.calls, he]
      refine ⟨?_, fun a' sts hs => ?_⟩
      · rw [hc, Option.map_eq_none_iff, ihn]
        constructor
        · rintro ⟨pre, op', post, a', sts, hops, hpre, hout⟩
          exact ⟨op :: pre, op', post, a', st :: sts, by rw [hops]; rfl, by rw [hc, hpre]; rfl, hout⟩
        · rintro ⟨pre, op', post, a', sts, hops, hpre, hout⟩
          cases pre with
          | nil =>
            cases hops
            cases hpre
            exact absurd hw hout
          | cons op'' pre =>
            cases hops
            rw [hc, Option.map_eq_some_iff] at hpre
            obtain ⟨r, hpre, hr⟩ := hpre
            cases hr
            exact ⟨pre, op', post, r.1, r.2, rfl, hpre, hout⟩
      · rw [hc, Option.map_eq_some_iff] at hs
        obtain ⟨r, hs, hr'⟩ := hs
        cases hr'
        obtain ⟨s', hp', hrel, hle⟩ := ihs r.1 r.2 hs
        exact ⟨s', hp hp', hrel, Nat.le_trans hn hle⟩
    cases op.onArray_outcome h with
    | outside hw he =>
      have hc : a.calls (op :: ops) = none := by rw [FdSelector.calls, he]
      refine ⟨⟨fun _ => ⟨[], op, ops, a, [], rfl, rfl, hw⟩, fun _ => hc⟩, fun a' sts hs => ?_⟩
      rw [hc] at hs
      cases hs
    | starved hw hs he => exact hnext hw he h (Nat.le_refl _) fun hp => .enomem hs hp
    | done hw hs a' he hr hn => exact hnext hw he hr hn fun hp => .call hp

theorem FdSelector.selectorNew_some (fresh : Nat → ItemSlot) {n : Nat} (h : n ≤ itemsMaxSize) :
    ∃ a, FdSelector.selectorNew (some fresh) n = some a := by
  have hlt : ¬ n < FdSelector.zero.fdSize := Nat.not_lt_zero n
  unfold FdSelector.selectorNew FdSelector.ensureCapacity
  rw [if_neg hlt, if_neg (Nat.not_lt.mpr h)]
  exact ⟨_, rfl⟩

/-- A table with room for every valid descriptor is never left. -/
theorem TableOp.within_of_full {n : Nat} (h : itemsMaxSize ≤ n) (op : TableOp) : op.Within n := by
  have hlt : ∀ {fd : Fd}, invalidFd fd = false → fd < n := fun hv =>
    Nat.lt_of_lt_of_le (invalidFd_false hv) h
  cases op with
  | register => exact fun hv => Nat.ne_of_lt (hlt hv)
  | unregister => exact hlt
  | setInterest => exact hlt

/-- A table made for `n` descriptors does, call by call, what the map does, until
a call leaves the array: an item is asked for beyond it, or one is registered
for the index that is its size. No sequence of calls can do that exactly when
the table was made for 512 descriptors or more. -/
theorem item_array_refines {mem : Option (Nat → ItemSlot)} {n : Nat}
    (h : FdSelector.selectorNew mem n = some a) :
    (∀ ops, (a.calls ops = none ↔ ∃ pre op post a' sts, ops = pre ++ op :: post ∧
        a.calls pre = some (a', sts) ∧ ¬ op.Within a'.fdSize) ∧
      ∀ a' sts, a.calls ops = some (a', sts) →
        ∃ s', selectorNew.Performs ops sts s' ∧ a'.Related s') ∧
    ((∀ ops, a.calls ops ≠ none) ↔ 512 ≤ n) := by
  obtain ⟨hr, hsize⟩ := FdSelector.selectorNew_spec h
  refine ⟨fun ops => ⟨(hr.calls ops).1, fun a' sts hc => ?_⟩, ?_⟩
  · obtain ⟨s', hp, hr', -⟩ := (hr.calls ops).2 a' sts hc
    exact ⟨s', hp, hr'⟩
  constructor
  · intro hall
    refine Nat.le_of_not_lt fun hn => ?_
    have hfd := nextCapacity_lt hn
    have hv : invalidFd (nextCapacity n) = false := decide_eq_false (Nat.not_le.mpr hfd)
    refine hall [.register none (nextCapacity n) .socks5 opRead 0] (((hr.calls _).1).mpr ?_)
    exact ⟨[], _, [], a, [], rfl, rfl, fun hw => hw hv hsize.symm⟩
  · intro hn ops hnone
    obtain ⟨pre, op, post, a', sts, -, hpre, hout⟩ := ((hr.calls ops).1).mp hnone
    obtain ⟨-, -, -, hle⟩ := (hr.calls pre).2 a' sts hpre
    rw [hsize, nextCapacity_eq hn] at hle
    exact hout (TableOp.within_of_full (Nat.le_of_succ_le hle) op)

/-- A table made for four descriptors, which has slots up to index 8. -/
theorem item_array_refines_four : ∃ a,
    FdSelector.selectorNew (some fun _ => .zero) 4 = some a ∧ ¬ ∀ ops, a.calls ops ≠ none := by
  obtain ⟨a, ha⟩ := FdSelector.selectorNew_some (fun _ => .zero) (n := 4) (by decide)
  exact ⟨a, ha, fun hall => absurd ((item_array_refines ha).2.mp hall) (by decide)⟩

end Runs

end Socks5d
