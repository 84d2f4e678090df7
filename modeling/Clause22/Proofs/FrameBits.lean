import Clause22.Proofs.WireEdges

/-! The bits of frames, written out. Each part of a frame is a number of fixed length, sent with its most
significant bit first, so a part can be told from its bits and its bits from the part. -/

namespace Clause22

namespace Bits

/-- The low `count` bits of a number, most significant first. -/
def spell (count number : Nat) : List Bool :=
  ((List.range count).map number.testBit).reverse

@[simp] theorem length_spell (count number : Nat) : (spell count number).length = count := by
  simp [spell]

theorem send_ofNat {count : Nat} (short : count ≤ 32) (number : Nat) :
    send (.ofNat 32 number) count = spell count number := by
  rw [send_eq, Nat.min_eq_left short, low, spell]
  congr 1
  refine List.map_congr_left fun index inside => ?_
  have early : index < 32 := Nat.lt_of_lt_of_le (List.mem_range.mp inside) short
  rw [BitVec.getLsbD_ofNat, decide_eq_true early, Bool.true_and]

theorem spell_toNat (bits : List Bool) : spell bits.length (toNat bits) = bits := by
  have known : (List.range bits.length).map (toNat bits).testBit = bits.reverse := by
    apply List.ext_getElem (by simp)
    intro index first last
    have spelled := testBit_toNat_reverse bits.reverse index
    rw [List.reverse_reverse, List.getD_eq_getElem?_getD, List.getElem?_eq_getElem last, Option.getD_some] at spelled
    rw [List.getElem_map, List.getElem_range, spelled]
  rw [spell, known, List.reverse_reverse]

theorem spell_known {bits : List Bool} {count : Nat} (known : bits.length = count) :
    spell count (toNat bits) = bits := by
  rw [← known, spell_toNat]

theorem exists_parts (first rest : Nat) {bits : List Bool} (whole : bits.length = first + rest) :
    ∃ front back, bits = front ++ back ∧ front.length = first ∧ back.length = rest := by
  refine ⟨bits.take first, bits.drop first, (List.take_append_drop ..).symm, ?_, ?_⟩
  · rw [List.length_take, whole, Nat.min_eq_left (Nat.le_add_right ..)]
  · rw [List.length_drop, whole, Nat.add_sub_cancel_left]

theorem toNat_lt (bits : List Bool) : toNat bits < 1 <<< bits.length := by
  suffices reversed : toNat bits.reverse.reverse < 1 <<< bits.reverse.length by simpa using reversed
  induction bits.reverse with
  | nil => decide
  | cons bit rest ih =>
    have unit := Bool.toNat_lt bit
    rw [List.reverse_cons, toNat_concat, List.length_cons, Nat.shiftLeft_succ]
    omega

end Bits

namespace Frame

def readStream (phy reg : Nat) : List Bool :=
  List.replicate 32 true ++ [false, true] ++ [true, false] ++ Bits.spell 5 phy ++ Bits.spell 5 reg

def writeStream (phy reg : Nat) (value : Word) : List Bool :=
  List.replicate 32 true ++ [false, true] ++ [false, true] ++ Bits.spell 5 phy ++ Bits.spell 5 reg ++
    [true, false] ++ Bits.spell 16 value.toNat

@[simp] theorem length_readStream (phy reg : Nat) : (readStream phy reg).length = 46 := by
  simp [readStream]

@[simp] theorem length_writeStream (phy reg : Nat) (value : Word) : (writeStream phy reg value).length = 64 := by
  simp [writeStream]

theorem readStream_eq (phy reg : Nat) : ones ++ headerBits Wire.opRead phy reg = readStream phy reg := by
  have start : Bits.send Wire.start Wire.shortBits = [false, true] := by decide
  have opcode : Bits.send Wire.opRead Wire.shortBits = [true, false] := by decide
  have short : Wire.addressBits ≤ 32 := by decide
  simp only [headerBits, start, opcode, Bits.send_ofNat short, readStream, List.append_assoc]
  rfl

theorem writeStream_eq (phy reg : Nat) (value : Word) : burst phy reg value = writeStream phy reg value := by
  have start : Bits.send Wire.start Wire.shortBits = [false, true] := by decide
  have opcode : Bits.send Wire.opWrite Wire.shortBits = [false, true] := by decide
  have turnaround : Bits.send Wire.turnaround Wire.shortBits = [true, false] := by decide
  have address : Wire.addressBits ≤ 32 := by decide
  have data : Wire.dataBits ≤ 32 := by decide
  simp only [burst, headerBits, tailBits, start, opcode, turnaround, Bits.send_ofNat address,
    ← BitVec.ofNat_toNat, Bits.send_ofNat data, writeStream, List.append_assoc]
  rfl

end Frame
end Clause22
