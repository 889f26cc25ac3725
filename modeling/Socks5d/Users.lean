import Socks5d.Lib.CString

/-! # The user store

`users.c`: ten entries of two 256-byte arrays. Lookup compares the caller's
string with the stored array; insertion stores a copy cut at 255 bytes. -/
namespace Socks5d
open Lib.CString

def nameLen : Nat := 256
def passLen : Nat := 256
def usersMax : Nat := 10

structure UserEntry where
  name : Str
  pass : Str
  deriving DecidableEq, Repr

def UserEntry.zero : UserEntry := ⟨List.replicate nameLen 0, List.replicate passLen 0⟩

structure Users where
  entries : List UserEntry
  count : Nat
  deriving DecidableEq, Repr

def usersCreate : Users := ⟨List.replicate usersMax .zero, 0⟩

namespace Users

def findUser (u : Users) (name : Str) : Option Nat :=
  (u.entries.take u.count).findIdx? fun e => strncmpEq nameLen e.name name

def usersAdd (u : Users) (name pass : Str) : Users × Bool :=
  match findUser u name with
  | some idx =>
    ({ u with entries := u.entries.modify idx fun e => { e with pass := copyBounded (passLen - 1) pass } },
      true)
  | none =>
    if u.count ≥ usersMax then (u, false)
    else
      ({ entries := u.entries.set u.count
           ⟨copyBounded (nameLen - 1) name, copyBounded (passLen - 1) pass⟩,
         count := u.count + 1 }, true)

def usersDel (u : Users) (name : Str) : Users × Bool :=
  match findUser u name with
  | none => (u, false)
  | some idx =>
    ({ entries := (u.entries.set idx (u.entries.getD (u.count - 1) .zero)).set (u.count - 1) .zero,
       count := u.count - 1 }, true)

def usersCheck (u : Users) (name pass : Str) : Bool :=
  match findUser u name with
  | none => false
  | some idx => strncmpEq passLen (u.entries.getD idx .zero).pass pass

def usersGetName (u : Users) (i : Int) : Option Str :=
  if i < 0 ∨ i ≥ u.count then none else some (u.entries.getD i.toNat .zero).name

def usersCount (u : Users) : Nat := u.count

end Users
end Socks5d
