import Socks5d.Mng
import Socks5d.Lib.Words

/-! # The command-line client

`client/main.c` makes one line of the management protocol of its arguments. A
`Request` is what the arguments ask for, and what the server takes a line for. -/
namespace Socks5d
open Lib.CString Lib.Words

/-- `COMMAND_SIZE` -/
def commandSize : Nat := 1024

/-- `build_command`: the line, if there is a command of that form and
`snprintf` had room for it. -/
def buildCommand (argv : List Str) (outLen : Nat) : Option Bytes :=
  let out :=
    match argv.map cstr with
    | [a0] =>
      if a0 = lit "stats" then some (lit "STATS\n")
      else if a0 = lit "users" then some (lit "USERS\n")
      else none
    | [a0, a1, a2, a3] =>
      if a0 = lit "user" ∧ a1 = lit "set" then
        some (lit "USER SET " ++ a2 ++ lit " " ++ a3 ++ lit "\n")
      else if a0 = lit "config" ∧ a1 = lit "set" then
        some (lit "CONFIG SET " ++ a2 ++ lit " " ++ a3 ++ lit "\n")
      else none
    | [a0, a1, a2] =>
      if a0 = lit "user" ∧ a1 = lit "delete" then some (lit "USER DELETE " ++ a2 ++ lit "\n")
      else none
    | [a0, a1] =>
      if a0 = lit "config" ∧ a1 = lit "get" then some (lit "CONFIG GET\n") else none
    | _ => none
  out.filter fun s => 0 < s.length ∧ s.length < outLen

/-! ## Requests -/

inductive Request
  | stats
  | users
  | userSet (name pass : Bytes)
  | userDelete (name : Bytes)
  | configGet
  | configSet (keyName value : Bytes)
  deriving DecidableEq, Repr

namespace Request

def arguments : Request → List Bytes
  | stats | users | configGet => []
  | userSet name pass => [name, pass]
  | userDelete name => [name]
  | configSet keyName value => [keyName, value]

/-- The words that say what is requested. -/
def keywords : Request → List Bytes
  | stats => [lit "STATS"]
  | users => [lit "USERS"]
  | userSet _ _ => [lit "USER", lit "SET"]
  | userDelete _ => [lit "USER", lit "DELETE"]
  | configGet => [lit "CONFIG", lit "GET"]
  | configSet _ _ => [lit "CONFIG", lit "SET"]

/-- The line of a request, without its end. -/
def line (q : Request) : Bytes := [32].intercalate (q.keywords ++ q.arguments)

end Request

/-- What the arguments of the client ask for. -/
def requested (argv : List Str) : Option Request :=
  match argv.map cstr with
  | [a0] =>
    if a0 = lit "stats" then some .stats else if a0 = lit "users" then some .users else none
  | [a0, a1, a2, a3] =>
    if a0 = lit "user" ∧ a1 = lit "set" then some (.userSet a2 a3)
    else if a0 = lit "config" ∧ a1 = lit "set" then some (.configSet a2 a3)
    else none
  | [a0, a1, a2] => if a0 = lit "user" ∧ a1 = lit "delete" then some (.userDelete a2) else none
  | [a0, a1] => if a0 = lit "config" ∧ a1 = lit "get" then some .configGet else none
  | _ => none

/-- The client sends the line of the request, with its arguments as they are. -/
theorem buildCommand_line {argv : List Str} {n : Nat} {bs : Bytes} (h : buildCommand argv n = some bs) :
    ∃ q, requested argv = some q ∧ bs = q.line ++ [10] ∧ bs.length < n ∧
      q.arguments = (argv.drop 2).map cstr := by
  obtain ⟨hout, hlen⟩ := Option.filter_eq_some_iff.mp h
  have hlen : bs.length < n := (of_decide_eq_true hlen).2
  have hdrop : (argv.drop 2).map cstr = (argv.map cstr).drop 2 := List.map_drop
  unfold requested
  rw [hdrop]
  generalize argv.map cstr = args at hout ⊢
  split at hout
  · next a0 =>
    split at hout
    · next h0 => cases hout; exact ⟨.stats, by simp [h0], rfl, hlen, rfl⟩
    · split at hout
      · next h0 => cases hout; exact ⟨.users, by simp [h0, lit], rfl, hlen, rfl⟩
      · cases hout
  · next a0 a1 a2 a3 =>
    split at hout
    · next h0 =>
      cases hout
      exact ⟨.userSet a2 a3, by simp [h0], by simp [Request.line, Request.keywords,
        Request.arguments, List.intercalate_cons_cons, lit], hlen, rfl⟩
    · next h1 =>
      split at hout
      · next h0 =>
        cases hout
        exact ⟨.configSet a2 a3, by rw [if_neg h1, if_pos h0], by simp [Request.line,
          Request.keywords, Request.arguments, List.intercalate_cons_cons, lit], hlen, rfl⟩
      · cases hout
  · next a0 a1 a2 =>
    split at hout
    · next h0 =>
      cases hout
      exact ⟨.userDelete a2, by simp [h0], by simp [Request.line, Request.keywords,
        Request.arguments, List.intercalate_cons_cons, lit], hlen, rfl⟩
    · cases hout
  · next a0 a1 =>
    split at hout
    · next h0 =>
      cases hout
      exact ⟨.configGet, by simp [h0], rfl, hlen, rfl⟩
    · cases hout
  · cases hout

end Socks5d
