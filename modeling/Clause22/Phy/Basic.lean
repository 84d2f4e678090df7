import Clause22.Wire

/-! A PHY that listens to the bus. It sees only the rising edges of the clock, each with the bit that
the station drives or with the line released. From these it decodes frames, answers reads of its own
address, and stores writes to it. -/

namespace Clause22

/-- One index, the page select register, is shared by all pages; every other index names a register of the current
page. -/
structure PagedRegisters where
  /-- The index of the page select register, in a PHY that has pages. -/
  pageSelect : Option Nat := none
  page : Nat := 0
  /-- The word at each index of each page; a register never written holds zero. -/
  word : (page index : Nat) → Word := fun _ _ => 0

namespace PagedRegisters

def set (registers : PagedRegisters) (page index : Nat) (value : Word) : PagedRegisters :=
  { registers with
    word := fun somePage someIndex =>
      if somePage = page ∧ someIndex = index then value else registers.word somePage someIndex }

def load (registers : PagedRegisters) (index : Nat) : Word :=
  if registers.pageSelect = some index then registers.word 0 index
  else registers.word registers.page index

/-- A write to the page select register goes to page 0 and switches to the page in its low byte. -/
def store (registers : PagedRegisters) (index : Nat) (value : Word) : PagedRegisters :=
  if registers.pageSelect = some index then
    { registers.set 0 index value with page := value.toNat % 256 }
  else
    registers.set registers.page index value

end PagedRegisters

inductive Edge
  | driven (bit : Bool)
  | released
deriving DecidableEq

/-- The edge between two successive line words, if the clock rose. -/
def Edge.between? (before after : LineWord) : Option Edge :=
  if !Wire.high Wire.clock before && Wire.high Wire.clock after then
    if Wire.high Wire.outputEnable after then some (.driven (Wire.high Wire.dataOut after))
    else some .released
  else
    none

/-- The parts of a frame before its turnaround, as numbers. -/
structure Header where
  start : Nat
  opcode : Nat
  phy : Nat
  reg : Nat
deriving DecidableEq

def Header.ofBits (bits : List Bool) : Header :=
  let (start, bits) := bits.splitAt Wire.shortBits
  let (opcode, bits) := bits.splitAt Wire.shortBits
  let (phy, reg) := bits.splitAt Wire.addressBits
  ⟨Bits.toNat start, Bits.toNat opcode, Bits.toNat phy, Bits.toNat reg⟩

inductive Decoder
  /-- Counts consecutive ones. -/
  | hunt (ones : Nat)
  /-- Collects the start, the opcode and the addresses. -/
  | header (bits : List Bool)
  /-- Answers a read with a word, or stays silent, and counts released edges. -/
  | reading (phy reg : Nat) (answer : Option Word) (edges : Nat)
  /-- Collects the turnaround and the data of a write. -/
  | writing (phy reg : Nat) (bits : List Bool)
deriving DecidableEq

inductive PhyEvent
  | read (phy reg : Nat) (value : Word)
  | write (phy reg : Nat) (value : Word)
deriving DecidableEq

structure Phy where
  /-- The address that it answers to; nothing answers at `none`. -/
  address : Option Nat
  registers : PagedRegisters := {}
  decoder : Decoder := .hunt 0
  events : Array PhyEvent := #[]

namespace Decoder

/-- The length of a header, from the first start bit to the last address bit. -/
def headerBits : Nat := 2 * Wire.shortBits + 2 * Wire.addressBits

/-- The length of what follows the header of a write. -/
def tailBits : Nat := Wire.shortBits + Wire.dataBits

/-- Released edges of a read until its last data bit is out. -/
def dataEdges : Nat := Wire.turnaroundCycles + Wire.dataBits

/-- Released edges of a whole read. -/
def readEdges : Nat := dataEdges + Wire.turnaroundCycles

/-- A zero after a whole preamble is the first bit of a header. -/
def hunting (ones : Nat) (bit : Bool) : Decoder :=
  if bit then .hunt (ones + 1)
  else if Wire.preambleBits ≤ ones then .header [false]
  else .hunt 0

/-- The level that a PHY puts on the line. It pulls down the second turnaround cycle of a read, then
sends the word, most significant bit first, and otherwise leaves the line to the pull-up. -/
def level : Decoder → Bool
  | .reading _ _ (some word) edges =>
    if edges = 0 then true
    else if edges = 1 then false
    else if edges < dataEdges then word.getLsbD (dataEdges - 1 - edges)
    else true
  | _ => true

end Decoder

namespace Phy

def answersTo (phy : Phy) (target : Nat) : Bool :=
  phy.address = some target

/-- What a whole header asks for. The word of a read is fetched here. -/
def decodeHeader (phy : Phy) (bits : List Bool) : Decoder :=
  let header := Header.ofBits bits
  if header.start ≠ Wire.start.toNat then
    .hunt 0
  else if header.opcode = Wire.opRead.toNat then
    let answer := if phy.answersTo header.phy then some (phy.registers.load header.reg) else none
    .reading header.phy header.reg answer 0
  else if header.opcode = Wire.opWrite.toNat then
    .writing header.phy header.reg []
  else
    .hunt 0

/-- Stores the word of a whole write, if it was for this PHY and its turnaround was in order. -/
def finishWrite (phy : Phy) (target reg : Nat) (bits : List Bool) : Phy :=
  let value : Word := .ofNat 16 (Bits.toNat (bits.drop Wire.shortBits))
  if Bits.toNat (bits.take Wire.shortBits) = Wire.turnaround.toNat ∧ phy.answersTo target then
    { phy with
      registers := phy.registers.store reg value
      decoder := .hunt 0
      events := phy.events.push (.write target reg value) }
  else
    { phy with decoder := .hunt 0 }

/-- A driven bit during a read means that the station took the line back. -/
def onDriven (bit : Bool) (phy : Phy) : Phy :=
  match phy.decoder with
  | .hunt ones => { phy with decoder := .hunting ones bit }
  | .reading .. => { phy with decoder := .hunting 0 bit }
  | .header bits =>
    let bits := bits ++ [bit]
    if bits.length = Decoder.headerBits then { phy with decoder := phy.decodeHeader bits }
    else { phy with decoder := .header bits }
  | .writing target reg bits =>
    let bits := bits ++ [bit]
    if bits.length = Decoder.tailBits then phy.finishWrite target reg bits
    else { phy with decoder := .writing target reg bits }

/-- A released edge outside a read ends whatever was being received. -/
def onReleased (phy : Phy) : Phy :=
  match phy.decoder with
  | .reading target reg answer edges =>
    { phy with
      events :=
        match answer with
        | some word =>
          if edges + 1 = Decoder.dataEdges then phy.events.push (.read target reg word) else phy.events
        | none => phy.events
      decoder :=
        if Decoder.readEdges ≤ edges + 1 then .hunt 0 else .reading target reg answer (edges + 1) }
  | _ => { phy with decoder := .hunt 0 }

def onEdge (phy : Phy) : Edge → Phy
  | .driven bit => phy.onDriven bit
  | .released => phy.onReleased

end Phy
end Clause22
