import Clause22.Proofs.FrameDecoding

/-! The samples of a read frame. A PHY that answers pulls the turnaround low and then puts its word on
the line bit by bit; a line that nothing pulls down reads as ones. -/

namespace Clause22

namespace Script

theorem edges_readBit {lines : LineWord} (low : Low lines) :
    edges readBit lines = [.released] ∧ levels readBit lines = 0 := by
  have rising : Edge.between? lines Wire.clock = some .released := by
    simp only [Edge.between?, low]
    rfl
  exact ⟨congrArg (·.toList ++ []) rising, rfl⟩

theorem edges_readBits {count : Nat} (short : count ≤ 32) {lines : LineWord} (low : Low lines) :
    (readBits count).edges lines = List.replicate count .released ∧ Low ((readBits count).levels lines) := by
  rw [readBits, Nat.min_eq_left short]
  clear short
  induction count generalizing lines with
  | zero => exact ⟨rfl, low⟩
  | succ count ih =>
    rw [List.replicate_succ, List.flatten_cons, edges_append, levels_append, (edges_readBit low).1,
      (edges_readBit low).2]
    exact ⟨congrArg _ (ih rfl).1, (ih rfl).2⟩

theorem levels_releaseCycles (cycles : Nat) (lines : LineWord) :
    (releaseCycles (cycles + 1)).levels lines = 0 := by
  induction cycles generalizing lines with
  | zero => rfl
  | succ cycles ih =>
    rw [releaseCycles, List.replicate_succ, List.flatten_cons, levels_append]
    exact ih _

theorem edges_turnaround (check : TurnaroundCheck) {lines : LineWord} (low : Low lines) :
    (Frame.turnaround check).edges lines = List.replicate Wire.turnaroundCycles .released ∧
      (Frame.turnaround check).levels lines = 0 := by
  cases check with
  | ignore => exact ⟨edges_releaseCycles _ low, levels_releaseCycles 1 lines⟩
  | verify =>
    have first := edges_releaseCycles 1 low
    have middle := levels_releaseCycles 0 lines
    rw [Frame.turnaround, Wire.turnaroundCycles, releaseCyclesSampled, edges_append, levels_append, first, middle]
    exact ⟨rfl, rfl⟩

end Script

namespace Frame

/-- The released part of a read: turnaround, data and trailer. -/
def releasedPart (check : TurnaroundCheck) : Script :=
  turnaround check ++ (Script.readBits Wire.dataBits ++ Script.releaseCycles Wire.turnaroundCycles)

theorem script_read (check : TurnaroundCheck) (phy reg : Nat) :
    script (read check phy reg) =
      .drive Wire.outputEnable :: (Script.sendBits (ones ++ headerBits Wire.opRead phy reg) ++ releasedPart check) := by
  have header := script_header Wire.opRead phy reg
  simp only [script] at header
  simp only [script, read, List.flatMap_append, header, trailer, releasedPart,
    List.flatMap_cons, List.flatMap_nil, List.cons_append, List.append_nil]

theorem edges_releasedPart (check : TurnaroundCheck) {lines : LineWord} (low : Script.Low lines) :
    (releasedPart check).edges lines = List.replicate Decoder.readEdges .released := by
  have short : Wire.dataBits ≤ 32 := by decide
  have released : Script.Low 0 := rfl
  have data := Script.edges_readBits short released
  rw [releasedPart, Script.edges_append, (Script.edges_turnaround check low).1, (Script.edges_turnaround check low).2,
    Script.edges_append, data.1, Script.edges_releaseCycles _ data.2]
  rfl

theorem edges_read (check : TurnaroundCheck) (phy reg : Nat) (lines : LineWord) :
    (script (read check phy reg)).edges lines =
      (ones ++ headerBits Wire.opRead phy reg).map .driven ++ List.replicate Decoder.readEdges .released := by
  rw [script_read, edges_enable, Script.edges_append, Script.edges_sendBits,
    edges_releasedPart check (Script.low_sendBits _ rfl)]

end Frame

namespace Bench

theorem heard_sendBits (bits : List Bool) (bench : Bench) : heard (Script.sendBits bits) bench = [] := by
  induction bits generalizing bench with
  | nil => rfl
  | cons bit bits ih =>
    rw [Script.sendBits, List.flatMap_cons, heard_append]
    exact ih _

theorem heard_releaseCycles (cycles : Nat) (bench : Bench) : heard (Script.releaseCycles cycles) bench = [] := by
  induction cycles generalizing bench with
  | zero => rfl
  | succ cycles ih =>
    rw [Script.releaseCycles, List.replicate_succ, List.flatten_cons, heard_append]
    exact ih _

theorem high_sampled {bench : Bench} (released : Wire.dataReleased bench.lines = true) :
    Wire.high Wire.dataIn bench.sampled = bench.phy.decoder.level := by
  rw [sampled, released, Bool.true_and]
  cases bench.phy.decoder.level <;> rfl

theorem received_readBits {bench : Bench} {target reg edges count : Nat} {answer : Option Word}
    (lines : bench.lines = 0) (reading : bench.phy.decoder = .reading target reg answer edges)
    (short : edges + count ≤ Decoder.dataEdges) :
    Script.received (heard (Script.readBits count) bench) =
      (List.range count).map fun index => (Decoder.reading target reg answer (edges + index)).level := by
  have capped : min count 32 = count := by
    simp only [Decoder.dataEdges, Wire.turnaroundCycles, Wire.dataBits] at short
    omega
  rw [Script.readBits, capped]
  clear capped
  induction count generalizing bench edges with
  | zero => rfl
  | succ count ih =>
    have low : Script.Low bench.lines := by rw [lines]; rfl
    have next : (bench.after Script.readBit).phy.decoder = .reading target reg answer (edges + 1) := by
      have unfinished : ¬ Decoder.readEdges ≤ edges + 1 := by
        simp only [Decoder.readEdges, Wire.turnaroundCycles]
        omega
      rw [after_phy, (Script.edges_readBit low).1]
      simp only [Phy.hear_cons, Phy.hear_nil, Phy.onEdge, Phy.onReleased, reading, if_neg unfinished]
    have settled : (bench.after Script.readBit).lines = 0 := by rw [after_lines, (Script.edges_readBit low).2]
    have first : heard Script.readBit bench = [bench.sampled] := rfl
    have rest := ih settled next (by omega)
    simp only [Script.received] at rest ⊢
    rw [List.replicate_succ, List.flatten_cons, heard_append, List.map_append, first, rest,
      List.map_singleton, high_sampled (by rw [lines]; rfl), reading, List.range_succ_eq_map, List.map_cons,
      List.map_map, List.singleton_append, Nat.add_zero]
    congr 1
    exact List.map_congr_left fun index _ => by
      rw [Function.comp_apply, show edges + 1 + index = edges + index.succ by omega]

theorem word_data {bench : Bench} {target reg : Nat} {answer : Option Word} (lines : bench.lines = 0)
    (reading : bench.phy.decoder = .reading target reg answer Wire.turnaroundCycles) :
    Frame.word (heard (Script.readBits Wire.dataBits ++ Script.releaseCycles Wire.turnaroundCycles) bench) =
      answer.getD 0xFFFF := by
  have slots : Wire.turnaroundCycles + Wire.dataBits ≤ Decoder.dataEdges := by decide
  have received := received_readBits lines reading slots
  rw [Frame.word, heard_append, heard_releaseCycles, List.append_nil, received]
  cases answer with
  | none =>
    have slots : ((List.range Wire.dataBits).map fun index =>
        (Decoder.reading target reg none (Wire.turnaroundCycles + index)).level) =
          List.replicate Wire.dataBits true := rfl
    rw [slots]
    decide
  | some word =>
    have slots : ((List.range Wire.dataBits).map fun index =>
        (Decoder.reading target reg (some word) (Wire.turnaroundCycles + index)).level) =
          (Bits.low word Wire.dataBits).reverse := rfl
    rw [slots, Bits.toNat_reverse_low]
    apply BitVec.eq_of_toNat_eq
    simp [Wire.dataBits]

end Bench

/-- What a station reports of a read, given the answer of the bus. -/
def Frame.report : TurnaroundCheck → Option Word → Except IoError Word
  | _, some word => .ok word
  | .ignore, none => .ok 0xFFFF
  | .verify, none => .error .noResponse

namespace Bench

theorem answer_releasedPart (check : TurnaroundCheck) {bench : Bench} {target reg : Nat} {answer : Option Word}
    (low : Script.Low bench.lines) (reading : bench.phy.decoder = .reading target reg answer 0) :
    Frame.answer check (heard (Frame.releasedPart check) bench) = Frame.report check answer := by
  have lines : (bench.after (Frame.turnaround check)).lines = 0 := by
    rw [after_lines, (Script.edges_turnaround check low).2]
  have decoder : (bench.after (Frame.turnaround check)).phy.decoder =
      .reading target reg answer Wire.turnaroundCycles := by
    rw [after_phy, (Script.edges_turnaround check low).1, Phy.hear_released reading (by decide)]
    rfl
  have data := word_data lines decoder
  rw [Frame.releasedPart, heard_append]
  cases check with
  | ignore =>
    have silent : heard (Frame.turnaround .ignore) bench = [] := heard_releaseCycles _ bench
    rw [silent, List.nil_append, Frame.answer, data]
    cases answer <;> rfl
  | verify =>
    have pulled : (bench.after (Script.releaseCycles 1)).phy.decoder = .reading target reg answer 1 := by
      rw [after_phy, Script.edges_releaseCycles 1 low, Phy.hear_released reading (by decide)]
    have released : Wire.dataReleased (bench.after (Script.releaseCycles 1)).lines = true := by
      rw [after_lines, Script.levels_releaseCycles]
      rfl
    have first : heard (Frame.turnaround .verify) bench = [(bench.after (Script.releaseCycles 1)).sampled] := rfl
    rw [first, List.singleton_append, Frame.answer]
    simp only [List.take_succ_cons, List.take_zero, List.drop_succ_cons, List.drop_zero, data, Script.received,
      List.map_cons, List.map_nil, high_sampled released, pulled]
    cases answer <;> rfl

variable {bench : Bench} {target reg ones : Nat} (hunting : bench.phy.decoder = .hunt ones)
  (validPhy : target ≤ Wire.maxPhyAddress) (validReg : reg ≤ Wire.maxRegisterIndex)

include hunting validPhy validReg

theorem answer_read (check : TurnaroundCheck) :
    Frame.answer check (heard (Frame.script (Frame.read check target reg)) bench) =
      Frame.report check (bench.phy.reply target reg) := by
  let opening : Script :=
    .drive Wire.outputEnable :: Script.sendBits (Frame.ones ++ Frame.headerBits Wire.opRead target reg)
  have low : Script.Low (bench.after opening).lines := by
    rw [after_lines]
    exact Script.low_sendBits _ rfl
  have reading : (bench.after opening).phy.decoder = .reading target reg (bench.phy.reply target reg) 0 := by
    rw [after_phy, Frame.edges_enable, Script.edges_sendBits,
      Phy.hear_driven, Phy.shift_opening hunting,
      Phy.decodeHeader_read validPhy validReg]
  have silent : heard opening bench = [] := heard_sendBits _ _
  rw [Frame.script_read, ← List.cons_append, heard_append, silent, List.nil_append]
  exact answer_releasedPart check low reading

theorem after_read (check : TurnaroundCheck) :
    (bench.after (Frame.script (Frame.read check target reg))).phy = bench.phy.answered target reg := by
  rw [after_phy, Frame.edges_read]
  exact Phy.hear_read validPhy validReg hunting

theorem after_write (value : Word) :
    (bench.after (Frame.script (Frame.write target reg value))).phy = bench.phy.written target reg value := by
  rw [after_phy, Frame.script_write, Frame.edges_burst]
  exact Phy.hear_write validPhy validReg hunting value

end Bench
end Clause22
