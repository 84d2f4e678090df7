import Clause22.Lines.Basic
import Clause22.Register

/-! What a station is told about its bus, and the station itself: lines together with the half period of its
clock, and the bit-level operations that it performs on them. -/

namespace Clause22

/-- A PHY that answers a read pulls the data line low in the second turnaround cycle. -/
inductive TurnaroundCheck
  /-- Clocks the turnaround without looking; a missing PHY reads as all ones. -/
  | ignore
  /-- Samples the second cycle and reports a missing PHY. -/
  | verify
deriving DecidableEq

structure Config where
  /-- The time of one wait, in nanoseconds. -/
  halfPeriod : Nat := Wire.defaultHalfPeriod
  turnaround : TurnaroundCheck := .ignore
  /-- The register of the base bank that selects the page, if the extended bank is in use. -/
  pageSelect : Option Nat := none
  resetRegister : RegisterAddress := .base 0
  resetField : String := "reset"
deriving DecidableEq

namespace Config

/-- Refuses a page select register that no frame can address. -/
def validate (config : Config) : Except ConfigError Unit :=
  if config.pageSelect.any (Wire.maxRegisterIndex < ·) then
    .error .invalidRegisterAddress
  else
    .ok ()

end Config

structure Station (σ : Type) where
  lines : σ
  /-- The time of one wait, in nanoseconds. -/
  halfPeriod : Nat

namespace Station
variable {σ : Type} [Lines σ]

def perform (script : Script) (station : Station σ) : Except IoError (List LineWord) × Station σ :=
  let (samples, lines) := script.play station.halfPeriod station.lines
  (samples, { station with lines })

def carryOut (script : Script) (station : Station σ) : Except IoError Unit × Station σ :=
  let (samples, station) := station.perform script
  (samples.map fun _ => (), station)

def wait (station : Station σ) : Station σ :=
  { station with lines := Lines.wait station.halfPeriod station.lines }

def drive (lines : LineWord) (station : Station σ) : Except IoError Unit × Station σ :=
  station.carryOut [.drive lines]

def sample (station : Station σ) : Except IoError LineWord × Station σ :=
  match Lines.sample station.lines with
  | (some word, lines) => (.ok word, { station with lines })
  | (none, lines) => (.error .transport, { station with lines })

def writeBit (value enabled : Bool) (station : Station σ) : Except IoError Unit × Station σ :=
  station.carryOut (Script.writeBit value enabled)

def readBit (station : Station σ) : Except IoError Bool × Station σ :=
  let (samples, station) := station.perform Script.readBit
  (samples.map fun samples => (Script.received samples).any id, station)

def writeBits (word : BitVec 32) (count : Nat) (station : Station σ) : Except IoError Unit × Station σ :=
  station.carryOut (Script.writeBits word count)

def readBits (count : Nat) (station : Station σ) : Except IoError (BitVec 32) × Station σ :=
  let (samples, station) := station.perform (Script.readBits count)
  (samples.map fun samples => .ofNat 32 (Bits.toNat (Script.received samples)), station)

def releaseCycles (cycles : Nat) (station : Station σ) : Except IoError Unit × Station σ :=
  station.carryOut (Script.releaseCycles cycles)

/-- Whether the line was high just before the last cycle; without a cycle it was not. -/
def releaseCyclesSampled (cycles : Nat) (station : Station σ) : Except IoError Bool × Station σ :=
  let (samples, station) := station.perform (Script.releaseCyclesSampled cycles)
  (samples.map fun samples => (Script.received samples).any id, station)

end Station
end Clause22
