import Clause22.Lines.Basic
import Clause22.Phy.Basic

/-! A PHY on the bench: wired to the lines, with a log of all that happens on them and a fault that
can be switched on. -/

namespace Clause22

structure Bench where
  phy : Phy
  /-- The word driven last. -/
  lines : LineWord := 0
  drives : Array LineWord := #[]
  samples : Nat := 0
  /-- The bits that the station drove at rising clock edges. -/
  driven : Array Bool := #[]
  /-- The number of rising clock edges with the line released. -/
  released : Nat := 0
  /-- Pin operations fail while the log holds so many or more. -/
  failAt : Option Nat := none

namespace Bench

/-- The pin operations that succeeded since the log was cleared. -/
def operations (bench : Bench) : Nat :=
  bench.drives.size + bench.samples

def permits (bench : Bench) : Bool :=
  bench.failAt.all (bench.operations < ·)

/-- Makes pin operations fail as soon as the log holds `count` more. The limit stays when the log is cleared, and
must fit in the word that counts the operations. -/
def failAfter (count : Nat) (bench : Bench) : Bench :=
  { bench with failAt := some (bench.operations + count) }

def heal (bench : Bench) : Bench :=
  { bench with failAt := none }

/-- Puts a word into a register of the PHY, past the bus. -/
def setRegister (page index : Nat) (value : Word) (bench : Bench) : Bench :=
  { bench with phy.registers := bench.phy.registers.set page index value }

/-- Forgets what was logged. The registers, the decoder and the fault stay. -/
def clearLog (bench : Bench) : Bench :=
  { bench with drives := #[], samples := 0, driven := #[], released := 0, phy.events := #[] }

/-- Shows an edge to the PHY and logs it. -/
def observe (bench : Bench) : Option Edge → Bench
  | none => bench
  | some (.driven bit) =>
    { bench with phy := bench.phy.onEdge (.driven bit), driven := bench.driven.push bit }
  | some .released =>
    { bench with phy := bench.phy.onEdge .released, released := bench.released + 1 }

def drive (word : LineWord) (bench : Bench) : Bool × Bench :=
  if bench.permits then
    let edge := Edge.between? bench.lines word
    (true, { bench.observe edge with lines := word, drives := bench.drives.push word })
  else
    (false, bench)

/-- The data line is high when neither side pulls it down. -/
def sample (bench : Bench) : Option LineWord × Bench :=
  if bench.permits then
    let level := Wire.dataReleased bench.lines && bench.phy.decoder.level
    (some (if level then Wire.dataIn else 0), { bench with samples := bench.samples + 1 })
  else
    (none, bench)

instance : Lines Bench where
  drive := drive
  sample := sample
  wait _ bench := bench

end Bench
end Clause22
