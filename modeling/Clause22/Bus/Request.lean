import Clause22.Error
import Clause22.Wire

/-! A management bus: whatever carries whole transactions between a client and the PHYs. Register
addresses here are the indices that a frame carries. What can be asked of a bus is also given as data, for
users that choose their transactions step by step. -/

namespace Clause22

/-- A request to a bus that may be refused or fail, and changes the bus either way. -/
abbrev Access (β α : Type) := ExceptT Error (StateM β) α

/-- An outcome that is known without the bus. -/
def Access.known (outcome : Except Error α) : Access β α :=
  fun bus => (outcome, bus)

class Bus (β : Type) where
  read : (phy reg : Nat) → Access β Word
  write : (phy reg : Nat) → Word → Access β Unit
  isBusy : β → Bool

inductive Request
  | read (phy reg : Nat)
  | write (phy reg : Nat) (value : Word)
  | isBusy
deriving DecidableEq

inductive Reply
  | word (outcome : Except Error Word)
  | done (outcome : Except Error Unit)
  | busy (busy : Bool)

def Reply.failure? : Reply → Option Error
  | .word (.error cause) => some cause
  | .done (.error cause) => some cause
  | _ => none

def Request.serve [Bus β] : Request → β → Reply × β
  | .read phy reg, bus =>
    let (outcome, bus) := Bus.read phy reg bus
    (.word outcome, bus)
  | .write phy reg value, bus =>
    let (outcome, bus) := Bus.write phy reg value bus
    (.done outcome, bus)
  | .isBusy, bus => (.busy (Bus.isBusy bus), bus)

end Clause22
