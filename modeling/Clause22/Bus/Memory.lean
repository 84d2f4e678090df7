import Clause22.Bus.Request

/-! A bus without lines: a table of words, and a log of all that was asked of it. -/

namespace Clause22

inductive BusEvent
  | read (phy reg : Nat)
  | write (phy reg : Nat) (value : Word)
deriving DecidableEq

structure MemoryBus where
  /-- The words written or set so far. -/
  word : (phy reg : Nat) → Option Word := fun _ _ => none
  events : Array BusEvent := #[]
  /-- A busy bus refuses every transaction. -/
  busy : Bool := false

namespace MemoryBus

def set (bus : MemoryBus) (phy reg : Nat) (value : Word) : MemoryBus :=
  { bus with
    word := fun somePhy someReg =>
      if somePhy = phy ∧ someReg = reg then some value else bus.word somePhy someReg }

def writes (bus : MemoryBus) : List (Nat × Nat × Word) :=
  bus.events.toList.filterMap fun
    | .write phy reg value => some (phy, reg, value)
    | .read .. => none

def clearLog (bus : MemoryBus) : MemoryBus :=
  { bus with events := #[] }

/-- A register never written reads as zero. -/
def read (phy reg : Nat) (bus : MemoryBus) : Except Error Word × MemoryBus :=
  if bus.busy then (.error (.io .busBusy), bus)
  else (.ok ((bus.word phy reg).getD 0), { bus with events := bus.events.push (.read phy reg) })

def write (phy reg : Nat) (value : Word) (bus : MemoryBus) : Except Error Unit × MemoryBus :=
  if bus.busy then (.error (.io .busBusy), bus)
  else
    (.ok (), { bus.set phy reg value with events := bus.events.push (.write phy reg value) })

instance : Bus MemoryBus where
  read phy reg := fun bus => bus.read phy reg
  write phy reg value := fun bus => bus.write phy reg value
  isBusy := busy

end MemoryBus
end Clause22
