/-! The management bus as it appears on two lines: which bit of a line word is which signal, and
the fixed parts of a Clause 22 frame with their lengths in bits. A run of bits is a list in the order of
transmission, most significant bit first, and stands for the number that it spells. -/

namespace Clause22

/-- The levels of the lines at one moment. -/
abbrev LineWord := BitVec 8

/-- The content of a register. -/
abbrev Word := BitVec 16

namespace Wire

/-- The management clock, in a driven word. -/
def clock : LineWord := 0x01

/-- The station drives the data line, in a driven word. -/
def outputEnable : LineWord := 0x02

/-- The level that the station drives, in a driven word. -/
def dataOut : LineWord := 0x04

/-- The level of the data line, in a sampled word. -/
def dataIn : LineWord := 0x01

/-- Whether any signal of the mask is high in a line word. -/
def high (mask lines : LineWord) : Bool :=
  lines &&& mask != 0

/-- The data line has a pull-up, so it is low only while the station enables its output and drives
a zero. -/
def dataReleased (lines : LineWord) : Bool :=
  !high outputEnable lines || high dataOut lines

def preamble : BitVec 32 := 0xFFFFFFFF
def preambleBits : Nat := 32

def start : BitVec 32 := 0b01
def opRead : BitVec 32 := 0b10
def opWrite : BitVec 32 := 0b01

/-- What the station drives between the addresses and the data of a write. -/
def turnaround : BitVec 32 := 0b10

/-- The length of the start, opcode and turnaround parts. -/
def shortBits : Nat := 2
def addressBits : Nat := 5
def dataBits : Nat := 16

/-- Released clock cycles before the data of a read and after every frame. -/
def turnaroundCycles : Nat := 2

def maxPhyAddress : Nat := 31
def maxRegisterIndex : Nat := 31

/-- The time of one wait, in nanoseconds, on a bus that asks for no other. -/
def defaultHalfPeriod : Nat := 1000

end Wire

/-- At least `width` lowercase digits, with zeros in front. -/
def hex (width number : Nat) : String :=
  String.ofList ((Nat.toDigits 16 number).leftpad width '0')

namespace Bits

/-- The number spelled by a run of bits. -/
def toNat (bits : List Bool) : Nat :=
  bits.foldl (fun number bit => 2 * number + bit.toNat) 0

/-- The low `count` bits of a word, least significant first. -/
def low (word : BitVec width) (count : Nat) : List Bool :=
  (List.range count).map word.getLsbD

/-- The low `count` bits of a word in reverse order; the bits above them are dropped. -/
def reverse (word : BitVec 32) (count : Nat) : BitVec 32 :=
  BitVec.ofNat 32 (toNat (low word (min count 32)))

/-- The low `count` bits of a word, at most 32, in the order in which they are sent. The word is
reversed once and then shifted out from its low end. -/
def send (word : BitVec 32) (count : Nat) : List Bool :=
  low (reverse word (min count 32)) (min count 32)

end Bits
end Clause22
