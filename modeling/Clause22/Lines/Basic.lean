import Clause22.Error
import Clause22.Wire

/-! The management lines, and what a station does with them. A script lists line actions in order and
never looks at a sample, so it fixes in advance all that the lines see until an attempt fails. A bit changes
on the line while the clock is low. Half a period is waited before the clock falls, and before it rises to
send a bit or to release the line. A bit is read the other way round: the clock rises right after the sample, and
the wait comes once it has fallen. A released cycle does not wait there, so the clock rises for the first bit
read after one as soon as it has fallen. -/

namespace Clause22

/-- Anything that holds the two lines. An attempt to drive or to sample may fail; a wait cannot. -/
class Lines (σ : Type) where
  /-- Sets the driven levels, or answers `false`. -/
  drive : LineWord → σ → Bool × σ
  /-- Reads the sampled levels. -/
  sample : σ → Option LineWord × σ
  /-- Lets a number of nanoseconds pass. -/
  wait : Nat → σ → σ

inductive Action
  | drive (lines : LineWord)
  | sample
  /-- Settles for one half period of the clock. -/
  | wait
deriving DecidableEq

abbrev Script := List Action

/-- Carries out a script and collects its samples. The first failed attempt ends it. -/
def Script.play [Lines σ] (halfPeriod : Nat) : Script → σ → Except IoError (List LineWord) × σ
  | [], lines => (.ok [], lines)
  | .drive word :: rest, lines =>
    match Lines.drive word lines with
    | (true, lines) => play halfPeriod rest lines
    | (false, lines) => (.error .transport, lines)
  | .sample :: rest, lines =>
    match Lines.sample lines with
    | (some word, lines) =>
      let (samples, lines) := play halfPeriod rest lines
      (samples.map (word :: ·), lines)
    | (none, lines) => (.error .transport, lines)
  | .wait :: rest, lines => play halfPeriod rest (Lines.wait halfPeriod lines)

namespace Script

/-- Puts a bit on the line and raises and lowers the clock under it. -/
def writeBit (value enabled : Bool) : Script :=
  let data := (if enabled then Wire.outputEnable else 0) ||| (if value then Wire.dataOut else 0)
  [.drive data, .wait, .drive (data ||| Wire.clock), .wait, .drive data]

/-- Samples a bit and then clocks with the output released. -/
def readBit : Script :=
  [.sample, .drive Wire.clock, .wait, .drive 0, .wait]

def releaseCycle : Script :=
  [.wait, .drive Wire.clock, .wait, .drive 0]

/-- Sends the low `count` bits of a word, at most 32, most significant first. -/
def writeBits (word : BitVec 32) (count : Nat) : Script :=
  (Bits.send word count).flatMap (writeBit · true)

def readBits (count : Nat) : Script :=
  (List.replicate (min count 32) readBit).flatten

def releaseCycles (cycles : Nat) : Script :=
  (List.replicate cycles releaseCycle).flatten

/-- Samples just before the last of the released cycles, where a PHY that answers a read holds the
data line low. -/
def releaseCyclesSampled : Nat → Script
  | 0 => []
  | cycles + 1 => releaseCycles cycles ++ .sample :: releaseCycle

def received (samples : List LineWord) : List Bool :=
  samples.map (Wire.high Wire.dataIn)

end Script
end Clause22
