import Socks5d.Selector

/-! # The state machine engine

`stm.c`: a table of handlers per state, the jump between states with the
arrival and departure hooks, and `abort()` where a state lacks the handler an
event needs. `C` is what the handlers work on, `S` the enumeration of states
(so an identifier past `max_state` cannot be written down). -/
namespace Socks5d

structure StateDefinition (C S : Type) where
  onArrival : Option (Fd → C → C) := none
  onDeparture : Option (Fd → C → C) := none
  onReadReady : Option (Fd → C → C × S) := none
  onWriteReady : Option (Fd → C → C × S) := none
  onBlockReady : Option (Fd → C → C × S) := none

structure StateMachine (C S : Type) where
  initial : S
  states : S → StateDefinition C S
  /-- `stm->current`, `none` before the first event. -/
  current : C → Option S
  setCurrent : S → C → C
  abort : C → C

namespace StateMachine
variable {C S : Type} [DecidableEq S] (m : StateMachine C S)

/-- `if (hook != NULL) hook(state, key);` -/
def runHook (hook : Option (Fd → C → C)) (fd : Fd) (c : C) : C :=
  match hook with
  | some f => f fd c
  | none => c

def handleFirst (fd : Fd) (c : C) : C :=
  match m.current c with
  | some _ => c
  | none => runHook (m.states m.initial).onArrival fd (m.setCurrent m.initial c)

def jump (next : S) (fd : Fd) (c : C) : C :=
  if m.current c = some next then c
  else
    let c := match m.current c with
      | some st => runHook (m.states st).onDeparture fd c
      | none => c
    runHook (m.states next).onArrival fd (m.setCurrent next c)

/-- The body shared by `stm_handler_read`, `stm_handler_write` and
`stm_handler_block`; `event` picks the handler. -/
def stmHandler (event : StateDefinition C S → Option (Fd → C → C × S)) (fd : Fd) (c : C) : C × S :=
  let c := m.handleFirst fd c
  let st := (m.current c).getD m.initial
  match event (m.states st) with
  | none => (m.abort c, st)
  | some h =>
    let r := h fd c
    (m.jump r.2 fd r.1, r.2)

def stmHandlerRead : Fd → C → C × S := m.stmHandler (·.onReadReady)
def stmHandlerWrite : Fd → C → C × S := m.stmHandler (·.onWriteReady)
def stmHandlerBlock : Fd → C → C × S := m.stmHandler (·.onBlockReady)

def stmState (c : C) : S := (m.current c).getD m.initial

end StateMachine
end Socks5d
