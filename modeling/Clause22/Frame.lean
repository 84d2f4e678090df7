import Clause22.Station

/-! Clause 22 frames. Both kinds open with 32 ones, a start, an opcode and two addresses. A write
then drives a turnaround and the data; a read releases the line for both. Two released cycles end the
frame. A frame is cut into segments, so that an abandoned one can say how far it came. -/

namespace Clause22

inductive Phase
  | idle
  | preamble
  | start
  | opcode
  | phyAddress
  | regAddress
  | turnaround
  | dataOut
  | dataIn
  | trailingTurnaround
deriving DecidableEq

/-- A part of a frame that belongs to one phase. -/
structure Segment where
  phase : Phase
  script : Script
deriving DecidableEq

namespace Frame

def preamble : Script :=
  .drive Wire.outputEnable :: Script.writeBits Wire.preamble Wire.preambleBits

def header (opcode : BitVec 32) (phy reg : Nat) : List Segment :=
  [⟨.preamble, preamble⟩,
    ⟨.start, Script.writeBits Wire.start Wire.shortBits⟩,
    ⟨.opcode, Script.writeBits opcode Wire.shortBits⟩,
    ⟨.phyAddress, Script.writeBits (.ofNat 32 phy) Wire.addressBits⟩,
    ⟨.regAddress, Script.writeBits (.ofNat 32 reg) Wire.addressBits⟩]

def trailer : Segment :=
  ⟨.trailingTurnaround, Script.releaseCycles Wire.turnaroundCycles⟩

def write (phy reg : Nat) (value : Word) : List Segment :=
  header Wire.opWrite phy reg ++
    [⟨.turnaround, Script.writeBits Wire.turnaround Wire.shortBits⟩,
      ⟨.dataOut, Script.writeBits (value.setWidth 32) Wire.dataBits⟩,
      trailer]

/-- The released turnaround of a read. -/
def turnaround : TurnaroundCheck → Script
  | .ignore => Script.releaseCycles Wire.turnaroundCycles
  | .verify => Script.releaseCyclesSampled Wire.turnaroundCycles

def read (check : TurnaroundCheck) (phy reg : Nat) : List Segment :=
  header Wire.opRead phy reg ++
    [⟨.turnaround, turnaround check⟩, ⟨.dataIn, Script.readBits Wire.dataBits⟩, trailer]

/-- Sends a preamble outside a frame and then releases the line, after which every PHY hunts, wherever it
was. -/
def recovery : List Segment :=
  [⟨.preamble, preamble ++ Script.releaseCycles Wire.turnaroundCycles⟩]

def word (samples : List LineWord) : Word :=
  .ofNat 16 (Bits.toNat (Script.received samples))

/-- The outcome of a read from its samples. A checked turnaround is the first of them, and high if no
PHY pulled the line down. -/
def answer : TurnaroundCheck → List LineWord → Except IoError Word
  | .ignore, samples => .ok (word samples)
  | .verify, samples =>
    if (Script.received (samples.take 1)).any id then .error .noResponse else .ok (word (samples.drop 1))

end Frame
end Clause22
