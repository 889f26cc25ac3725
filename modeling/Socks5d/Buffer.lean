import Socks5d.Lib.Incremental

/-! # The cursor buffer

`buffer.c`: a block of memory with a read and a write cursor. Pointers are
offsets from `data`. An `assert` that fails is recorded in `asserted`, which
ends the process at the next point the event loop looks at it. -/
namespace Socks5d

abbrev Bytes := List UInt8

structure Buffer where
  data : Bytes
  limit : Nat
  read : Nat
  write : Nat
  /-- No `assert` of the buffer code has failed. -/
  asserted : Bool := true
  deriving DecidableEq, Repr

namespace Buffer

def bufferReset (b : Buffer) : Buffer := { b with read := 0, write := 0 }

def bufferInit (n : Nat) (data : Bytes) : Buffer :=
  bufferReset { data := data, limit := n, read := 0, write := 0 }

def bufferCanWrite (b : Buffer) : Bool := b.write < b.limit

/-- The free space `buffer_write_ptr` reports. -/
def bufferWritePtr (b : Buffer) : Nat := b.limit - b.write

def bufferCanRead (b : Buffer) : Bool := b.read < b.write

/-- The bytes `buffer_read_ptr` points at. -/
def bufferReadPtr (b : Buffer) : Bytes := (b.data.drop b.read).take (b.write - b.read)

/-- Memory with `bs` copied over the bytes from `i` on. -/
def overwrite (m : Bytes) (i : Nat) (bs : Bytes) : Bytes :=
  m.take i ++ bs ++ m.drop (i + bs.length)

def bufferCompact (b : Buffer) : Buffer :=
  if b.read = 0 then b
  else if b.read = b.write then { b with read := 0, write := 0 }
  else
    { b with data := overwrite b.data 0 (bufferReadPtr b), read := 0, write := b.write - b.read }

def bufferWriteAdv (b : Buffer) (n : Nat) : Buffer :=
  { b with write := b.write + n, asserted := b.asserted && b.write + n ≤ b.limit }

def bufferReadAdv (b : Buffer) (n : Nat) : Buffer :=
  let b := { b with read := b.read + n, asserted := b.asserted && b.read + n ≤ b.write }
  if b.read = b.write then bufferCompact b else b

/-- The bytes a caller copies to the write pointer. -/
def store (b : Buffer) (bs : Bytes) : Buffer := { b with data := overwrite b.data b.write bs }

def bufferRead (b : Buffer) : UInt8 × Buffer :=
  if bufferCanRead b then (b.data.getD b.read 0, bufferReadAdv b 1) else (0, b)

/-- A buffer between two operations: the cursors are in order and at the start
whenever they meet. -/
structure WF (b : Buffer) : Prop where
  mem : b.data.length = b.limit
  readLe : b.read ≤ b.write
  writeLe : b.write ≤ b.limit
  rest : b.read = b.write → b.read = 0
  asserted : b.asserted = true

/-- What a buffer holds, as a queue of bytes. -/
abbrev unread (b : Buffer) : Bytes := bufferReadPtr b

theorem bufferInit_wf {n : Nat} {data : Bytes} (h : data.length = n) : WF (bufferInit n data) :=
  ⟨h, Nat.le_refl _, Nat.zero_le _, fun _ => rfl, rfl⟩

@[simp] theorem bufferInit_unread (n : Nat) (data : Bytes) : (bufferInit n data).unread = [] := by
  simp [bufferInit, bufferReset, bufferReadPtr]

@[simp] theorem bufferInit_limit (n : Nat) (data : Bytes) : (bufferInit n data).limit = n := rfl

theorem WF.unread_length {b : Buffer} (h : WF b) : b.unread.length = b.write - b.read := by
  have := h.mem; have := h.writeLe
  simp only [bufferReadPtr, List.length_take, List.length_drop]
  omega

theorem WF.canRead_iff {b : Buffer} (h : WF b) : bufferCanRead b = true ↔ b.unread ≠ [] := by
  have hl := h.unread_length
  rw [← List.length_pos_iff, hl]
  simp only [bufferCanRead, decide_eq_true_eq]
  omega

theorem WF.canRead_false {b : Buffer} (h : WF b) : bufferCanRead b = false ↔ b.unread = [] := by
  rw [← Bool.not_eq_true, h.canRead_iff, not_not]

theorem overwrite_length {m bs : Bytes} {i : Nat} (h : i + bs.length ≤ m.length) :
    (overwrite m i bs).length = m.length := by
  simp only [overwrite, List.length_append, List.length_take, List.length_drop]
  omega

@[simp] theorem store_limit (b : Buffer) (bs : Bytes) : (b.store bs).limit = b.limit := rfl
@[simp] theorem bufferWriteAdv_limit (b : Buffer) (n : Nat) :
    (b.bufferWriteAdv n).limit = b.limit := rfl

/-- Filling the free space: the caller copies `bs` to the write pointer and
advances by its length. -/
theorem WF.fill {b : Buffer} (h : WF b) {bs : Bytes} (hbs : bs.length ≤ b.bufferWritePtr)
    (hne : bs ≠ []) : WF ((b.store bs).bufferWriteAdv bs.length) := by
  have h0 := List.length_pos_iff.mpr hne
  have := h.mem; have := h.readLe; have := h.writeLe
  simp only [bufferWritePtr] at hbs
  refine ⟨?_, ?_, ?_, ?_, ?_⟩
  · exact (overwrite_length (by omega)).trans h.mem
  · simp only [bufferWriteAdv, store]; omega
  · simp only [bufferWriteAdv, store]; omega
  · intro he; simp only [bufferWriteAdv, store] at he; omega
  · simp only [bufferWriteAdv, store, h.asserted, Bool.true_and, decide_eq_true_eq]; omega

theorem WF.fill_unread {b : Buffer} (h : WF b) (bs : Bytes) :
    ((b.store bs).bufferWriteAdv bs.length).unread = b.unread ++ bs := by
  have hm := h.mem; have hr := h.readLe; have hw := h.writeLe
  simp only [bufferReadPtr, bufferWriteAdv, store, overwrite]
  have ht : (b.data.take b.write).length = b.write := by
    rw [List.length_take]; omega
  rw [List.append_assoc, List.drop_append_of_le_length (by omega),
    show b.write + bs.length - b.read = (b.write - b.read) + bs.length by omega]
  have hd : ((b.data.take b.write).drop b.read).length = b.write - b.read := by
    rw [List.length_drop, ht]
  rw [← hd, List.take_length_add_append, List.take_left' rfl, hd, List.drop_take]

theorem WF.compact_limit (b : Buffer) : (bufferCompact b).limit = b.limit := by
  unfold bufferCompact; split_ifs <;> rfl

theorem WF.compact_unread {b : Buffer} (h : WF b) : (bufferCompact b).unread = b.unread := by
  have hm := h.mem; have hr := h.readLe; have hw := h.writeLe
  unfold bufferCompact
  split_ifs with h0 he
  · rfl
  · simp [bufferReadPtr, he]
  · have hl := h.unread_length
    simp only [overwrite, List.take_zero, List.nil_append, bufferReadPtr, List.drop_zero,
      Nat.sub_zero] at hl ⊢
    rw [List.take_append_of_le_length (by omega), List.take_of_length_le (by omega)]

theorem WF.compact {b : Buffer} (h : WF b) : WF (bufferCompact b) := by
  have hm := h.mem; have hr := h.readLe; have hw := h.writeLe
  have hl : b.bufferReadPtr.length = b.write - b.read := h.unread_length
  unfold bufferCompact
  split_ifs with h0 he
  · exact h
  · exact ⟨hm, Nat.le_refl _, Nat.zero_le _, fun _ => rfl, h.asserted⟩
  · refine ⟨?_, ?_, ?_, ?_, h.asserted⟩
    · exact (overwrite_length (by omega)).trans hm
    · exact Nat.zero_le _
    · show b.write - b.read ≤ b.limit
      omega
    · intro _; rfl

/-- Taking `n` bytes from the read pointer. -/
theorem WF.readAdv {b : Buffer} (h : WF b) {n : Nat} (hn : n ≤ b.unread.length) :
    WF (b.bufferReadAdv n) := by
  have hm := h.mem; have hr := h.readLe; have hw := h.writeLe
  rw [h.unread_length] at hn
  have ha : (b.asserted && decide (b.read + n ≤ b.write)) = true := by
    rw [h.asserted, Bool.true_and, decide_eq_true_eq]; omega
  unfold bufferReadAdv
  simp only
  split
  · next he =>
    unfold bufferCompact
    split_ifs with h0
    · exact ⟨hm, Nat.le_of_eq he, hw, fun _ => h0, ha⟩
    · exact ⟨hm, Nat.le_refl _, Nat.zero_le _, fun _ => rfl, ha⟩
  · next he => exact ⟨hm, by simp only; omega, hw, fun e => absurd e he, ha⟩

theorem WF.readAdv_unread {b : Buffer} (h : WF b) (n : Nat) :
    (b.bufferReadAdv n).unread = b.unread.drop n := by
  have hr := h.readLe
  have hl := h.unread_length
  unfold bufferReadAdv
  simp only
  split
  · next he =>
    rw [List.drop_of_length_le (by omega)]
    unfold bufferCompact
    split_ifs <;> simp [bufferReadPtr, he]
  · simp only [bufferReadPtr, List.drop_take, List.drop_drop]
    rw [Nat.sub_sub]

@[simp] theorem bufferReadAdv_limit (b : Buffer) (n : Nat) : (b.bufferReadAdv n).limit = b.limit := by
  unfold bufferReadAdv
  simp only
  split
  · rw [WF.compact_limit]
  · rfl

theorem WF.bufferRead {b : Buffer} (h : WF b) {x : UInt8} {xs : Bytes} (hu : b.unread = x :: xs) :
    bufferRead b = (x, b.bufferReadAdv 1) := by
  have hc : b.bufferCanRead = true := h.canRead_iff.mpr (by rw [hu]; simp)
  have hx : b.data.getD b.read 0 = x := by
    have h1 : b.unread[0]? = some x := by rw [hu]; rfl
    simp only [bufferReadPtr, List.getElem?_take, List.getElem?_drop, Nat.add_zero] at h1
    split at h1
    · rw [List.getD_eq_getElem?_getD, h1]; rfl
    · cases h1
  unfold Buffer.bufferRead
  rw [if_pos hc, hx]

/-! ## The parsers' loop -/

section Consume
variable {σ : Type} (step : σ → UInt8 → σ) (stop : σ → Bool)

/-- `while (buffer_can_read(b)) { p = step(p, buffer_read(b)); if stop(p) break; }`,
the shape of the three parsers. Every turn takes one byte, so the number of
bytes held bounds the turns. -/
def consumeLoop : Nat → Buffer → σ → Buffer × σ
  | 0, b, p => (b, p)
  | n + 1, b, p =>
    if bufferCanRead b then
      let r := bufferRead b
      let p := step p r.1
      if stop p then (r.2, p) else consumeLoop n r.2 p
    else (b, p)

def consume (b : Buffer) (p : σ) : Buffer × σ := consumeLoop step stop (b.write - b.read) b p

variable {step stop}
open Lib.Incremental

theorem consumeLoop_spec : ∀ (n : Nat) (b : Buffer) (p : σ), WF b → b.unread.length ≤ n →
    WF (consumeLoop step stop n b p).1 ∧
      (consumeLoop step stop n b p).1.limit = b.limit ∧
      (consumeLoop step stop n b p).1.unread = (feed step stop p b.unread).2 ∧
      (consumeLoop step stop n b p).2 = (feed step stop p b.unread).1
  | 0, b, p, h, hn => by
    have : b.unread = [] := List.length_eq_zero_iff.mp (Nat.le_zero.mp hn)
    simp [consumeLoop, h, this]
  | n + 1, b, p, h, hn => by
    unfold consumeLoop
    cases hu : b.unread with
    | nil => simp [h.canRead_false.mpr hu, h, hu]
    | cons x xs =>
      have hc : b.bufferCanRead = true := h.canRead_iff.mpr (by rw [hu]; simp)
      have h1 : 1 ≤ b.unread.length := by rw [hu]; simp
      have hrest : (b.bufferReadAdv 1).unread = xs := by rw [h.readAdv_unread, hu]; rfl
      simp only [hc, if_true, h.bufferRead hu, feed_cons]
      split
      · exact ⟨h.readAdv h1, by simp, hrest, rfl⟩
      · have ih := consumeLoop_spec n (b.bufferReadAdv 1) (step p x) (h.readAdv h1)
          (by rw [hrest]; rw [hu] at hn; simpa using hn)
        rw [hrest] at ih
        simpa using ih

/-- A parser's loop over a buffer is `feed` over what the buffer holds. -/
theorem consume_spec {b : Buffer} (h : WF b) (p : σ) :
    WF (consume step stop b p).1 ∧ (consume step stop b p).1.limit = b.limit ∧
      (consume step stop b p).1.unread = (feed step stop p b.unread).2 ∧
      (consume step stop b p).2 = (feed step stop p b.unread).1 :=
  consumeLoop_spec _ b p h (h.unread_length ▸ Nat.le_refl _)

end Consume

end Buffer
end Socks5d
