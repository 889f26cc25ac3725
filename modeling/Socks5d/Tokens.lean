import Socks5d.Mng
import Socks5d.Lib.Words

/-! # The words of a line

`mng.c` takes a line apart with `next_token`. What it gets this way are the
words of the line, which ends at its first zero byte. -/
namespace Socks5d
open Lib.CString Lib.Words

theorem nextToken_words (s : Bytes) : (nextToken s).1 = (words isspace s).head? ∧
    words isspace (nextToken s).2 = (words isspace s).tail := by
  rw [← words_dropWhile s]
  have hhead := List.head?_dropWhile_not isspace s
  unfold nextToken
  generalize s.dropWhile isspace = t at hhead ⊢
  cases t with
  | nil => exact ⟨rfl, rfl⟩
  | cons x xs =>
    have hx : isspace x = false := by simpa using hhead
    rw [words_takeWhile hx]
    exact ⟨rfl, rfl⟩

theorem nextToken_spec (s : Bytes) : ∃ rest, nextToken s = ((words isspace s).head?, rest) ∧
    words isspace rest = (words isspace s).tail := by
  obtain ⟨h1, h2⟩ := nextToken_words s
  exact ⟨(nextToken s).2, Prod.ext h1 rfl, h2⟩

theorem nextToken_cons {s w : Bytes} {ws : List Bytes} (h : words isspace s = w :: ws) :
    ∃ rest, nextToken s = (some w, rest) ∧ words isspace rest = ws := by
  obtain ⟨rest, h1, h2⟩ := nextToken_spec s
  rw [h] at h1 h2
  exact ⟨rest, h1, h2⟩

theorem nextToken_nil {s : Bytes} (h : words isspace s = []) :
    ∃ rest, nextToken s = (none, rest) := by
  obtain ⟨rest, h1, -⟩ := nextToken_spec s
  rw [h] at h1
  exact ⟨rest, h1⟩

/-- What `handle_line` reads first, and what is left of the line for the command. -/
theorem nextToken_line (line : Bytes) : ∃ rest,
    nextToken (trimRight (cstr line)) = ((words isspace (cstr line)).head?, rest) ∧
      words isspace rest = (words isspace (cstr line)).tail := by
  have htrim : words isspace (trimRight (cstr line)) = words isspace (cstr line) :=
    words_rdropWhile _
  rw [← htrim]
  exact nextToken_spec _

namespace Mng

/-- The command word of a line. -/
def command (line : Bytes) : Option Bytes := (words isspace (cstr line)).head?

/-- The argument of an `AUTH` line that has exactly one. -/
def offered (line : Bytes) : Option Bytes :=
  match words isspace (cstr line) with
  | [cmd, secret] => if cmd = lit "AUTH" then some secret else none
  | _ => none

/-- `QUIT` without an argument -/
def quits (line : Bytes) : Bool := words isspace (cstr line) = [lit "QUIT"]

theorem offered_of {line cmd : Bytes} (hc : command line = some cmd) (hne : cmd ≠ lit "AUTH") :
    offered line = none := by
  unfold command at hc
  unfold offered
  split
  · next word _ hw =>
    rw [hw] at hc
    cases hc
    rw [if_neg hne]
  · rfl

theorem offered_words {line secret : Bytes} (h : offered line = some secret) :
    words isspace (cstr line) = [lit "AUTH", secret] := by
  unfold offered at h
  split at h
  · next hw =>
    split at h
    · next hc =>
      rw [hw, hc, Option.some.inj h]
    · cases h
  · cases h

end Mng
end Socks5d
