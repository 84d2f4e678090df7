import Clause22.Bus.Request
import Clause22.Frame

/-! The frame engine: a bus made of a station. It starts a frame only from idle. A failed attempt
abandons the frame and leaves the engine in the phase of the failure, busy until it recovers. -/

namespace Clause22

/-- How many transactions have ended in each way, modulo 2^32. -/
structure Stats where
  reads : UInt32 := 0
  writes : UInt32 := 0
  recoveries : UInt32 := 0
  noResponse : UInt32 := 0
deriving DecidableEq

structure Engine (σ : Type) where
  station : Station σ
  turnaround : TurnaroundCheck
  phase : Phase := .idle
  stats : Stats := {}

/-- Refuses addresses that do not fit in five bits, the PHY's first. -/
def validateAddress (phy reg : Nat) : Except ConfigError Unit :=
  if Wire.maxPhyAddress < phy then .error .invalidPhyAddress
  else if Wire.maxRegisterIndex < reg then .error .invalidRegisterAddress
  else .ok ()

namespace Engine

def create (lines : σ) (config : Config) : Engine σ where
  station := ⟨lines, config.halfPeriod⟩
  turnaround := config.turnaround

def isBusy (engine : Engine σ) : Bool :=
  engine.phase ≠ .idle

/-- Whether a transaction may start. A refused one does not touch the lines. -/
def ready (phy reg : Nat) (engine : Engine σ) : Except Error Unit := do
  (validateAddress phy reg).mapError .config
  if engine.isBusy then throw (.io .busBusy)

variable [Lines σ]

/-- Performs the segments of a frame in turn, each in its phase, and returns to idle. -/
def transmit : List Segment → Engine σ → Except IoError (List LineWord) × Engine σ
  | [], engine => (.ok [], { engine with phase := .idle })
  | segment :: rest, engine =>
    match engine.station.perform segment.script with
    | (.error cause, station) => (.error cause, { engine with station, phase := segment.phase })
    | (.ok first, station) =>
      let (later, engine) := transmit rest { engine with station, phase := segment.phase }
      (later.map (first ++ ·), engine)

def tallyRead (outcome : Except IoError Word) (stats : Stats) : Stats :=
  match outcome with
  | .ok _ => { stats with reads := stats.reads + 1 }
  | .error _ => { stats with noResponse := stats.noResponse + 1 }

/-- Runs one read frame. A missing PHY is reported after the whole frame. -/
def read (phy reg : Nat) (engine : Engine σ) : Except Error Word × Engine σ :=
  match engine.ready phy reg with
  | .error cause => (.error cause, engine)
  | .ok () =>
    match engine.transmit (Frame.read engine.turnaround phy reg) with
    | (.error cause, engine) => (.error (.io cause), engine)
    | (.ok samples, engine) =>
      let outcome := Frame.answer engine.turnaround samples
      (outcome.mapError .io, { engine with stats := tallyRead outcome engine.stats })

def write (phy reg : Nat) (value : Word) (engine : Engine σ) : Except Error Unit × Engine σ :=
  match engine.ready phy reg with
  | .error cause => (.error cause, engine)
  | .ok () =>
    match engine.transmit (Frame.write phy reg value) with
    | (.error cause, engine) => (.error (.io cause), engine)
    | (.ok _, engine) => (.ok (), { engine with stats.writes := engine.stats.writes + 1 })

/-- Brings every PHY back to the start of a frame, from any phase. -/
def recover (engine : Engine σ) : Except IoError Unit × Engine σ :=
  match engine.transmit Frame.recovery with
  | (.error cause, engine) => (.error cause, engine)
  | (.ok _, engine) => (.ok (), { engine with stats.recoveries := engine.stats.recoveries + 1 })

instance : Bus (Engine σ) where
  read phy reg := fun engine => engine.read phy reg
  write phy reg value := fun engine => engine.write phy reg value
  isBusy := isBusy

end Engine
end Clause22
