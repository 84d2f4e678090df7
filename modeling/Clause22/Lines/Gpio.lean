import Clause22.Lines.Scripted

/-! The lines on two general-purpose pins. The data pin is open-drain under a pull-up, so a released
line is one that is driven high. It is set before the clock pin, so data is stable when the clock
rises. -/

namespace Clause22

/-- A clock pin and a data pin. Any call may fail. -/
class Pins (π : Type) where
  setData : (level : Bool) → π → Bool × π
  setClock : (level : Bool) → π → Bool × π
  readData : π → Option Bool × π
  wait : Nat → π → π

structure GpioLines (π : Type) where
  pins : π

namespace GpioLines
variable {π : Type} [Pins π]

/-- A failed data pin leaves the clock pin alone. -/
def drive (word : LineWord) (lines : GpioLines π) : Bool × GpioLines π :=
  match Pins.setData (Wire.dataReleased word) lines.pins with
  | (false, pins) => (false, ⟨pins⟩)
  | (true, pins) =>
    let (done, pins) := Pins.setClock (Wire.high Wire.clock word) pins
    (done, ⟨pins⟩)

def sample (lines : GpioLines π) : Option LineWord × GpioLines π :=
  let (level, pins) := Pins.readData lines.pins
  (level.map fun level => if level then Wire.dataIn else 0, ⟨pins⟩)

instance : Lines (GpioLines π) where
  drive := drive
  sample := sample
  wait nanoseconds lines := ⟨Pins.wait nanoseconds lines.pins⟩

end GpioLines

inductive PinEvent
  | data (level done : Bool)
  | clock (level done : Bool)
  | read (done : Bool)
  | wait
deriving DecidableEq

/-- The pin and its level, or `w`; a failed call is marked. -/
def PinEvent.render : PinEvent → String
  | .data level done => (if level then "D1" else "D0") ++ (if done then "" else "!")
  | .clock level done => (if level then "C1" else "C0") ++ (if done then "" else "!")
  | .read done => if done then "D?" else "D?!"
  | .wait => "w"

/-- Pins that answer from a prepared list of levels, fail by plan, and log every call. -/
structure ScriptedPins where
  /-- The levels still to be read. Without one left, the pull-up wins. -/
  reads : List Bool := []
  faults : FaultPlan := {}
  log : Array PinEvent := #[]
deriving DecidableEq

namespace ScriptedPins

def setData (level : Bool) (pins : ScriptedPins) : Bool × ScriptedPins :=
  let (done, faults) := pins.faults.attempt
  (done, { pins with faults, log := pins.log.push (.data level done) })

def setClock (level : Bool) (pins : ScriptedPins) : Bool × ScriptedPins :=
  let (done, faults) := pins.faults.attempt
  (done, { pins with faults, log := pins.log.push (.clock level done) })

/-- A failed call takes no level from the list. -/
def readData (pins : ScriptedPins) : Option Bool × ScriptedPins :=
  let (done, faults) := pins.faults.attempt
  let log := pins.log.push (.read done)
  if done then
    (some (pins.reads.headD true), { reads := pins.reads.tail, faults, log })
  else
    (none, { pins with faults, log })

instance : Pins ScriptedPins where
  setData := setData
  setClock := setClock
  readData := readData
  wait _ pins := { pins with log := pins.log.push .wait }

end ScriptedPins
end Clause22
