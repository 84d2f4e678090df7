import Clause22.Proofs.DecoderRuns

/-! A hunting PHY understands whole frames: it stores the word of a write to its address, and the
samples of a read are the word that it holds. -/

namespace Clause22

private theorem toNat_send_address {address : Nat} (valid : address ≤ 31) :
    Bits.toNat (Bits.send (.ofNat 32 address) Wire.addressBits) = address := by
  rw [Bits.toNat_send]
  simp only [Wire.addressBits, Nat.reduceLeDiff, Nat.min_eq_left, BitVec.toNat_setWidth, BitVec.toNat_ofNat]
  omega

private theorem splitAt_send (word : BitVec 32) {count : Nat} (short : count ≤ 32) (rest : List Bool) :
    (Bits.send word count ++ rest).splitAt count = (Bits.send word count, rest) := by
  have length : (Bits.send word count).length = count := by rw [Bits.length_send, Nat.min_eq_left short]
  rw [List.splitAt_eq, List.take_left' length, List.drop_left' length]

namespace Frame

@[simp] theorem length_headerBits (opcode : BitVec 32) (phy reg : Nat) :
    (headerBits opcode phy reg).length = Decoder.headerBits := by
  simp [headerBits, Decoder.headerBits, Wire.shortBits, Wire.addressBits]

@[simp] theorem length_tailBits (value : Word) : (tailBits value).length = Decoder.tailBits := by
  simp [tailBits, Decoder.tailBits, Wire.shortBits, Wire.dataBits]

/-- A header opens with a zero, which ends the hunt. -/
theorem headerBits_eq_cons (opcode : BitVec 32) (phy reg : Nat) :
    headerBits opcode phy reg = false :: (headerBits opcode phy reg).tail := rfl

theorem ofBits_headerBits (opcode : BitVec 32) {phy reg : Nat} (validPhy : phy ≤ Wire.maxPhyAddress)
    (validReg : reg ≤ Wire.maxRegisterIndex) :
    Header.ofBits (headerBits opcode phy reg) = ⟨Wire.start.toNat, (opcode.setWidth 2).toNat, phy, reg⟩ := by
  have start : Bits.toNat (Bits.send Wire.start Wire.shortBits) = Wire.start.toNat := by decide
  have operation : Bits.toNat (Bits.send opcode Wire.shortBits) = (opcode.setWidth 2).toNat := Bits.toNat_send ..
  have short : Wire.shortBits ≤ 32 := by decide
  have five : Wire.addressBits ≤ 32 := by decide
  simp only [Header.ofBits, headerBits, List.append_assoc, splitAt_send _ short, splitAt_send _ five, start, operation,
    toNat_send_address validPhy, toNat_send_address validReg]

end Frame

namespace Phy

def reply (phy : Phy) (target reg : Nat) : Option Word :=
  if phy.answersTo target then some (phy.registers.load reg) else none

def answered (phy : Phy) (target reg : Nat) : Phy :=
  { phy with
    decoder := .hunt 0
    events :=
      match phy.reply target reg with
      | some value => phy.events.push (.read target reg value)
      | none => phy.events }

def written (phy : Phy) (target reg : Nat) (value : Word) : Phy :=
  if phy.answersTo target then
    { phy with
      registers := phy.registers.store reg value
      decoder := .hunt 0
      events := phy.events.push (.write target reg value) }
  else
    { phy with decoder := .hunt 0 }

@[simp] theorem written_decoder (phy : Phy) (target reg : Nat) (value : Word) :
    (phy.written target reg value).decoder = .hunt 0 := by
  simp only [written]
  split <;> rfl

theorem shift_opening {phy : Phy} {ones : Nat} (hunting : phy.decoder = .hunt ones)
    (opcode : BitVec 32) (target reg : Nat) :
    phy.shift (Frame.ones ++ Frame.headerBits opcode target reg) =
      { phy with decoder := phy.decodeHeader (Frame.headerBits opcode target reg) } := by
  have length := Frame.length_headerBits opcode target reg
  rw [Frame.headerBits_eq_cons, List.length_cons] at length
  have preamble : Wire.preambleBits ≤ ones + Wire.preambleBits := Nat.le_add_left _ _
  rw [shift_append, shift_ones hunting, Frame.headerBits_eq_cons, shift_cons]
  simp only [onDriven, Decoder.hunting, Bool.false_eq_true, if_false, if_pos preamble]
  have opened : { phy with decoder := .header [false] : Phy }.decoder = .header [false] := rfl
  rw [shift_header opened (by intro empty; rw [empty] at length; cases length)
    (by simp only [List.length_singleton]; omega)]
  rfl

variable {phy : Phy} {target reg : Nat} (validPhy : target ≤ Wire.maxPhyAddress)
  (validReg : reg ≤ Wire.maxRegisterIndex)

include validPhy validReg

theorem decodeHeader_read :
    phy.decodeHeader (Frame.headerBits Wire.opRead target reg) = .reading target reg (phy.reply target reg) 0 := by
  simp only [decodeHeader, Frame.ofBits_headerBits _ validPhy validReg]
  rfl

theorem decodeHeader_write :
    phy.decodeHeader (Frame.headerBits Wire.opWrite target reg) = .writing target reg [] := by
  simp only [decodeHeader, Frame.ofBits_headerBits _ validPhy validReg]
  rfl

omit validPhy validReg

theorem finishWrite_tailBits (value : Word) :
    phy.finishWrite target reg (Frame.tailBits value) = phy.written target reg value := by
  have length : (Bits.send Wire.turnaround Wire.shortBits).length = Wire.shortBits := Bits.length_send ..
  have turnaround : Bits.toNat (Bits.send Wire.turnaround Wire.shortBits) = Wire.turnaround.toNat := by decide
  have spelled : BitVec.ofNat 16 (Bits.toNat (Bits.send (value.setWidth 32) Wire.dataBits)) = value := by
    rw [Bits.toNat_send]
    apply BitVec.eq_of_toNat_eq
    simpa [Wire.dataBits] using value.isLt
  simp only [finishWrite, Frame.tailBits, List.take_left' length, List.drop_left' length, turnaround, spelled,
    true_and, written]

include validPhy validReg in
/-- A hunting PHY stores the word of a write to its address and ignores every other write. -/
theorem shift_burst {ones : Nat} (hunting : phy.decoder = .hunt ones) (value : Word) :
    phy.shift (Frame.burst target reg value) = phy.written target reg value := by
  rw [Frame.burst, shift_append, shift_opening hunting, decodeHeader_write validPhy validReg,
    shift_tail rfl (by intro empty; cases congrArg List.length empty) (by simp), List.nil_append,
    ← finishWrite_tailBits]
  rfl

theorem hear_idle (hunting : phy.decoder = .hunt 0) (cycles : Nat) :
    phy.hear (List.replicate cycles .released) = phy := by
  induction cycles with
  | zero => rfl
  | succ cycles ih =>
    have same : phy.onEdge .released = phy := by
      simp only [onEdge, onReleased, hunting]
      rw [← hunting]
    rw [List.replicate_succ, hear_cons, same, ih]

include validPhy validReg in
theorem hear_write {ones : Nat} (hunting : phy.decoder = .hunt ones) (value : Word) :
    phy.hear ((Frame.burst target reg value).map .driven ++ List.replicate Wire.turnaroundCycles .released) =
      phy.written target reg value := by
  rw [hear_append, hear_driven, shift_burst validPhy validReg hunting value, hear_idle (written_decoder ..)]

theorem hear_released {answer : Option Word} {edges count : Nat}
    (reading : phy.decoder = .reading target reg answer edges) (short : edges + count < Decoder.dataEdges) :
    phy.hear (List.replicate count .released) =
      { phy with decoder := .reading target reg answer (edges + count) } := by
  induction count generalizing phy edges with
  | zero => simp [← reading]
  | succ count ih =>
    have early : ¬ edges + 1 = Decoder.dataEdges := by omega
    have unfinished : ¬ Decoder.readEdges ≤ edges + 1 := by
      simp only [Decoder.readEdges]
      omega
    rw [List.replicate_succ, hear_cons, onEdge, onReleased, reading]
    simp only [if_neg early, if_neg unfinished]
    rw [ih rfl (by omega), Nat.add_right_comm]
    cases answer <;> rfl

include validPhy validReg in
theorem hear_read {ones : Nat} (hunting : phy.decoder = .hunt ones) :
    phy.hear ((Frame.ones ++ Frame.headerBits Wire.opRead target reg).map .driven ++
      List.replicate Decoder.readEdges .released) = phy.answered target reg := by
  have edges : List.replicate Decoder.readEdges Edge.released =
      List.replicate 17 .released ++ [.released, .released, .released] := rfl
  rw [hear_append, hear_driven, shift_opening hunting, decodeHeader_read validPhy validReg, edges, hear_append,
    hear_released rfl (by decide)]
  simp only [hear_cons, hear_nil, onEdge, onReleased, answered]
  cases phy.reply target reg <;> rfl

end Phy
end Clause22
