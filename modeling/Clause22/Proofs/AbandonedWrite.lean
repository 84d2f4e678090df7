import Clause22.Proofs.FrameCuts
import Clause22.Proofs.Resynchronisation

/-! A write that the transport breaks off, and the recovery after it. A PHY that has the turnaround takes
the ones of the recovery for the rest of the data, and stores a word that nobody wrote. -/

namespace Clause22

/-- The word that a PHY stores when ones follow the first bits of a write. -/
def Frame.flooded (value : Word) (received : Nat) : Word :=
  value ||| (0xFFFF : Word) >>> (received - 48)

theorem Frame.flooded_whole (value : Word) {received : Nat} (whole : 64 ≤ received) :
    flooded value received = value := by
  rw [flooded, BitVec.ushiftRight_eq_zero (by omega), BitVec.or_zero]

/-- Ones in place of the bits that were not sent are the bits of another word. -/
theorem Frame.send_flooded (value : Word) {sent : Nat} (short : sent ≤ Wire.dataBits) :
    (Bits.send (value.setWidth 32) Wire.dataBits).take sent ++ List.replicate (Wire.dataBits - sent) true =
      Bits.send ((value ||| (0xFFFF : Word) >>> sent).setWidth 32) Wire.dataBits := by
  have width : min Wire.dataBits 32 = Wire.dataBits := by decide
  have reversed : List.replicate (Wire.dataBits - sent) true ++
      (Bits.low (value.setWidth 32) Wire.dataBits).drop (Wire.dataBits - sent) =
        Bits.low ((value ||| (0xFFFF : Word) >>> sent).setWidth 32) Wire.dataBits := by
    apply List.ext_getElem (by simp [Wire.dataBits])
    intro index first last
    simp only [Bits.length_low, Wire.dataBits] at last short
    have filled : ((0xFFFF : Word) >>> sent).getLsbD index = decide (sent + index < 16) := by
      have ones : (0xFFFF : Word) = BitVec.allOnes 16 := rfl
      rw [BitVec.getLsbD_ushiftRight, ones, BitVec.getLsbD_allOnes]
    simp only [Bits.low, List.getElem_append, List.length_replicate, List.getElem_replicate, List.getElem_drop,
      List.getElem_map, List.getElem_range, Wire.dataBits, BitVec.getLsbD_setWidth, BitVec.getLsbD_or, filled]
    split
    next early => simp; omega
    next late =>
      have spent : decide (sent + index < 16) = false := decide_eq_false (by omega)
      have same : 16 - sent + (index - (16 - sent)) = index := by omega
      rw [same, spent, Bool.or_false]
  rw [Bits.send_eq, Bits.send_eq, width, ← reversed, List.reverse_append, List.reverse_replicate, List.take_reverse,
    Bits.length_low]

theorem Frame.tailBits_flooded (value : Word) {sent : Nat} (short : sent ≤ Wire.dataBits) :
    (tailBits value).take (sent + 2) ++ List.replicate (Decoder.tailBits - (sent + 2)) true =
      tailBits (flooded value (sent + 48)) := by
  have turnaround : (Bits.send Wire.turnaround Wire.shortBits).length = 2 := Bits.length_send ..
  have missing : Decoder.tailBits - (sent + 2) = Wire.dataBits - sent := Nat.add_sub_add_right Wire.dataBits 2 sent
  rw [tailBits, List.take_append, turnaround, Nat.add_sub_cancel, List.take_of_length_le (by omega), List.append_assoc,
    missing, send_flooded value short]
  rfl

namespace Phy

theorem settle_hunting {phy : Phy} {ones : Nat} (hunting : phy.decoder = .hunt ones) :
    phy.settle = { phy with decoder := .hunt 0 } := by
  rw [settle, hunting]

variable {phy : Phy} {target reg ones : Nat} (hunting : phy.decoder = .hunt ones)

include hunting

private theorem settle_header {opcode : BitVec 32} {count : Nat} (short : count < Decoder.headerBits) :
    (phy.shift (Frame.ones ++ (Frame.headerBits opcode target reg).take count)).settle =
      { phy with decoder := .hunt 0 } := by
  have hunts := shift_ones hunting Wire.preambleBits
  rw [shift_append, hunts]
  cases count with
  | zero => rfl
  | succ count =>
    have preamble : Wire.preambleBits ≤ ones + Wire.preambleBits := Nat.le_add_left _ _
    have bounded : ((Frame.headerBits opcode target reg).tail.take count).length ≤ count := List.length_take_le ..
    rw [Frame.headerBits_eq_cons, List.take_succ_cons, shift_cons]
    simp only [onDriven, Decoder.hunting, Bool.false_eq_true, if_false, if_pos preamble]
    have opened : { phy with decoder := .header [false] : Phy }.decoder = .header [false] := rfl
    rw [shift_header_part opened (by simp only [List.length_singleton]; omega)]
    rfl

theorem settle_opening (opcode : BitVec 32) {received : Nat} (early : received < 46) :
    (phy.shift ((Frame.ones ++ Frame.headerBits opcode target reg).take received)).settle =
      { phy with decoder := .hunt 0 } := by
  by_cases preamble : received ≤ 32
  · have within : received ≤ Frame.ones.length := by rwa [List.length_replicate]
    rw [List.take_append_of_le_length within, List.take_replicate, shift_ones hunting]
    rfl
  · have header : received - 32 < Decoder.headerBits := by
      simp only [Decoder.headerBits, Wire.shortBits, Wire.addressBits]
      omega
    rw [List.take_append, List.take_of_length_le (by simp [Wire.preambleBits]; omega), List.length_replicate]
    exact settle_header hunting header

variable (validPhy : target ≤ Wire.maxPhyAddress) (validReg : reg ≤ Wire.maxRegisterIndex)

include validPhy validReg

private theorem shift_opened :
    phy.shift (Frame.ones ++ Frame.headerBits Wire.opWrite target reg) =
      { phy with decoder := .writing target reg [] } := by
  rw [shift_opening hunting, decodeHeader_write validPhy validReg]

/-- The tail of a write that breaks off is filled up with ones, which only a turnaround that came
through survives. -/
private theorem settle_tail {value : Word} {count : Nat} (short : count < Decoder.tailBits) :
    (phy.shift (Frame.ones ++ Frame.headerBits Wire.opWrite target reg ++ (Frame.tailBits value).take count)).settle =
      if count < 2 then { phy with decoder := .hunt 0 }
      else phy.written target reg (Frame.flooded value (count + 46)) := by
  have length : ((Frame.tailBits value).take count).length = count := by
    rw [List.length_take, Frame.length_tailBits, Nat.min_eq_left (Nat.le_of_lt short)]
  rw [shift_append, shift_opened hunting validPhy validReg, shift_tail_part rfl (by rw [length]; simpa using short),
    List.nil_append]
  simp only [settle, length]
  split
  next early =>
    have spoiled : (Frame.tailBits value).take count ++ List.replicate (Decoder.tailBits - count) true =
        List.replicate (Wire.dataBits + 2) true := by
      rcases count with _ | _ | count
      · rfl
      · rfl
      · exact absurd early (Nat.not_lt.mpr (Nat.le_add_left 2 count))
    rw [spoiled, finishWrite_spoiled]
  next late =>
    obtain ⟨sent, rfl⟩ := Nat.exists_eq_add_of_le' (Nat.not_lt.mp late)
    have within : sent ≤ Wire.dataBits := Nat.le_of_lt (Nat.lt_of_add_lt_add_right short)
    rw [Frame.tailBits_flooded value within, finishWrite_tailBits]
    rfl

theorem settle_burst (value : Word) (received : Nat) :
    (phy.shift ((Frame.burst target reg value).take received)).settle =
      if received < 48 then { phy with decoder := .hunt 0 }
      else phy.written target reg (Frame.flooded value received) := by
  have opening : (Frame.ones ++ Frame.headerBits Wire.opWrite target reg).length = 46 := by
    simp [Decoder.headerBits, Wire.preambleBits, Wire.shortBits, Wire.addressBits]
  -- The cut falls into the opening, behind the last bit, or into the tail.
  by_cases opened : received < 46
  · rw [if_pos (Nat.lt_trans opened (by decide)), Frame.burst, List.take_append_of_le_length (by omega)]
    exact settle_opening hunting Wire.opWrite opened
  · by_cases whole : 64 ≤ received
    · rw [List.take_of_length_le (by simpa using whole), shift_burst validPhy validReg hunting,
        settle_hunting (written_decoder ..), if_neg (by omega), Frame.flooded_whole value whole,
        ← written_decoder phy target reg value]
    · obtain ⟨count, rfl⟩ := Nat.exists_eq_add_of_le (Nat.not_lt.mp opened)
      rw [Frame.burst, List.take_append, opening, Nat.add_sub_cancel_left, List.take_of_length_le (by omega),
        settle_tail hunting validPhy validReg (by simp [Decoder.tailBits, Wire.shortBits, Wire.dataBits]; omega),
        Nat.add_comm 46 count]
      have turnaround : count + 46 < 48 ↔ count < 2 := by omega
      simp only [turnaround]

end Phy

/-- No word but the given one went to the PHY. -/
structure Phy.AbortedCleanly (before after : Phy) (target reg : Nat) (value : Word) : Prop where
  registers : after.registers = before.registers ∨ after.registers = (before.written target reg value).registers
  logged : ∃ events, after.events = before.events ++ events ∧
    ∀ phy index word, .write phy index word ∈ events → word = value

namespace Phy

theorem abortedCleanly_hunting (phy : Phy) (decoder : Decoder) (target reg : Nat) (value : Word) :
    phy.AbortedCleanly { phy with decoder } target reg value :=
  ⟨.inl rfl, #[], by simp, by simp⟩

theorem abortedCleanly_written (phy : Phy) (target reg : Nat) (value stored : Word) :
    phy.AbortedCleanly (phy.written target reg stored) target reg value ↔
      ¬ phy.answersTo target ∨ stored = value := by
  by_cases here : phy.answersTo target
  · constructor
    · intro ⟨_, events, logged, own⟩
      rw [written, if_pos here, ← Array.append_singleton, Array.append_right_inj] at logged
      exact .inr (own target reg stored (by simp [← logged]))
    · rintro (elsewhere | rfl)
      · exact absurd here elsewhere
      · refine ⟨.inr rfl, #[.write target reg stored], ?_, by simp⟩
        rw [written, if_pos here, Array.append_singleton]
  · rw [written, if_neg here]
    simp only [here, not_false_eq_true, true_or, Bool.false_eq_true, abortedCleanly_hunting]

end Phy

namespace Engine

section Cut

theorem after_cut {engine : Engine Bench} {ones target reg : Nat}
    (hunting : engine.bench.phy.decoder = .hunt ones) (fits : Addressable target reg) (value : Word) (count : Nat) :
    let bench := engine.bench.failAfter count
    (bench.after (bench.reach (Frame.script (Frame.write target reg value)))).phy.settle =
      if count < 144 then { engine.bench.phy with decoder := .hunt 0 }
      else engine.bench.phy.written target reg (Frame.flooded value (count / 3)) := by
  intro bench
  have reached : bench.reach (Frame.script (Frame.write target reg value)) = _ := Bench.reach_failAfter
  have settled := Phy.settle_burst hunting fits.phy fits.reg value (count / 3)
  have idle : (engine.bench.phy.shift ((Frame.burst target reg value).take (count / 3))).hear
      ((List.replicate Wire.turnaroundCycles .released).take ((count - 192) / 2)) =
        engine.bench.phy.shift ((Frame.burst target reg value).take (count / 3)) := by
    by_cases driven : count < 194
    · have none : (count - 192) / 2 = 0 := by omega
      rw [none, List.take_zero, Phy.hear_nil]
    · rw [List.take_of_length_le (by rw [Frame.length_burst]; omega), Phy.shift_burst fits.phy fits.reg hunting,
        List.take_replicate, Phy.hear_idle (Phy.written_decoder ..)]
  rw [reached, Bench.after_phy, Frame.edges_write_upTo, Phy.hear_append]
  have turnaround : count / 3 < 48 ↔ count < 144 := by omega
  simp only [turnaround] at settled
  exact (congrArg Phy.settle idle).trans settled

variable {engine : Engine Bench} {target reg ones : Nat} (idle : engine.phase = .idle)
  (hunting : engine.bench.phy.decoder = .hunt ones) (fits : Addressable target reg) (value : Word) (count : Nat)

private theorem lasts_write_iff :
    (engine.bench.failAfter count).Lasts (Frame.script (Frame.write target reg value)) ↔ 197 ≤ count := by
  rw [Bench.lasts_failAfter, Frame.attempts_write]

include idle fits

theorem write_abandoned_iff {outcome : Except Error Unit} {abandoned : Engine Bench}
    (writes : ((Step.failAfter count).perform engine).write target reg value = (outcome, abandoned)) :
    outcome = .error (.io .transport) ↔ count < 197 := by
  have ready : ((Step.failAfter count).perform engine).ready target reg = .ok () := ready_ok idle fits
  by_cases lasts : 197 ≤ count
  · rw [write_lasting ready value ((lasts_write_iff value count).mpr lasts)] at writes
    cases writes
    simp only [reduceCtorEq, false_iff, Nat.not_lt]
    exact lasts
  · obtain ⟨_, -, failed⟩ := write_failing ready value (mt (lasts_write_iff value count).mp lasts)
    rw [failed] at writes
    cases writes
    exact iff_of_true rfl (Nat.not_le.mp lasts)

include hunting

theorem recover_abandoned (cut : count < 197) {outcome : Except Error Unit} {abandoned : Engine Bench}
    (writes : ((Step.failAfter count).perform engine).write target reg value = (outcome, abandoned)) :
    ∃ recovered, (Step.heal.perform abandoned).recover = (.ok (), recovered) ∧
      recovered.bench.phy =
        if count < 144 then { engine.bench.phy with decoder := .hunt 0 }
        else engine.bench.phy.written target reg (Frame.flooded value (count / 3)) := by
  have ready : ((Step.failAfter count).perform engine).ready target reg = .ok () := ready_ok idle fits
  obtain ⟨_, -, failed⟩ := write_failing ready value (mt (lasts_write_iff value count).mp (Nat.not_le.mpr cut))
  have seen : abandoned.bench = (engine.bench.failAfter count).after
      ((engine.bench.failAfter count).reach (Frame.script (Frame.write target reg value))) := by
    rw [failed] at writes
    cases writes
    rfl
  have underway : (engine.bench.failAfter count).phy.decoder.Underway := (attuned_of_hunting hunting).underway
  obtain ⟨recovered, succeeds, settled⟩ := recover_healed abandoned (seen ▸ underway_after underway _)
  refine ⟨recovered, succeeds, ?_⟩
  rw [settled, seen]
  exact after_cut hunting fits value count

end Cut

/-- Recovery is a clean abort of a write unless the turnaround came through, the PHY is the one written
to, and ones in place of the missing bits make another word of the value. -/
theorem recover_abandoned_write {start abandoned : Engine Bench} {ones : Nat}
    (hunting : start.bench.phy.decoder = .hunt ones) (steps : List Step) (idle : (start.run steps).phase = .idle)
    {target reg : Nat} (fits : Addressable target reg) (value : Word) (count : Nat) {outcome : Except Error Unit}
    (writes : ((Step.failAfter count).perform (start.run steps)).write target reg value = (outcome, abandoned)) :
    let before := (start.run steps).bench.phy
    (outcome = .error (.io .transport) ↔ count < 197) ∧
    (count < 197 → ∃ recovered, (Step.heal.perform abandoned).recover = (.ok (), recovered) ∧
      recovered.bench.phy =
        (if count < 144 then { before with decoder := .hunt 0 }
        else before.written target reg (Frame.flooded value (count / 3))) ∧
      (before.AbortedCleanly recovered.bench.phy target reg value ↔
        count < 144 ∨ ¬ before.answersTo target ∨ Frame.flooded value (count / 3) = value)) := by
  intro before
  obtain ⟨_, hunting⟩ := (attuned_run (attuned_of_hunting hunting) steps).hunting idle
  refine ⟨write_abandoned_iff idle fits value count writes, fun cut => ?_⟩
  obtain ⟨recovered, succeeds, phy⟩ := recover_abandoned idle hunting fits value count cut writes
  refine ⟨recovered, succeeds, phy, ?_⟩
  rw [phy]
  split
  next early => exact iff_of_true (Phy.abortedCleanly_hunting ..) (.inl early)
  next late => exact (Phy.abortedCleanly_written ..).trans (by simp only [late, false_or])

/-- Five of the sixteen data bits came through. -/
theorem recover_abandoned_write_data :
    let start := Engine.create ({ phy := { address := some 0 } } : Bench) {}
    let before := start.run [.setRegister 0 2 0x8000]
    let abandoned := (((Step.failAfter 160).perform before).write 0 2 0x1234).2
    before.phase = .idle ∧
    ∃ recovered, (Step.heal.perform abandoned).recover = (.ok (), recovered) ∧
      recovered.bench.phy = before.bench.phy.written 0 2 0x17FF ∧
      ¬ before.bench.phy.AbortedCleanly recovered.bench.phy 0 2 0x1234 := by
  intro start before abandoned
  have hunting : start.bench.phy.decoder = .hunt 0 := rfl
  have fits : Addressable 0 2 := by decide
  have flooded : Frame.flooded 0x1234 (160 / 3) = 0x17FF := by decide
  obtain ⟨recovered, succeeds, phy, clean⟩ :=
    (recover_abandoned_write hunting [.setRegister 0 2 0x8000] rfl fits 0x1234 160 rfl).2 (by decide)
  refine ⟨rfl, recovered, succeeds, phy.trans ?_, mt clean.mp ?_⟩
  · rw [if_neg (by decide), flooded]
  · rw [flooded]
    decide

/-- The PHY holds the very word that is written, and ends with another. -/
theorem recover_floods_register :
    let phy : Phy := { address := some 0, registers := { word := fun _ _ => 0x8000 } }
    let engine := Engine.create ({ phy } : Bench) {}
    ∃ abandoned recovered,
      ((Step.failAfter 150).perform engine).write 0 0 0x8000 = (.error (.io .transport), abandoned) ∧
      (Step.heal.perform abandoned).recover = (.ok (), recovered) ∧
      recovered.bench.phy.registers.load 0 = 0xBFFF ∧
      recovered.bench.phy.events = #[.write 0 0 0xBFFF] ∧
      ¬ engine.bench.phy.AbortedCleanly recovered.bench.phy 0 0 0x8000 := by
  intro phy engine
  have idle : engine.phase = .idle := rfl
  have hunting : engine.bench.phy.decoder = .hunt 0 := rfl
  have fits : Addressable 0 0 := by decide
  have flooded : Frame.flooded 0x8000 (150 / 3) = 0xBFFF := by decide
  have fails := (write_abandoned_iff idle fits 0x8000 150 rfl).mpr (by decide)
  obtain ⟨recovered, succeeds, stored⟩ := recover_abandoned idle hunting fits 0x8000 150 (by decide) rfl
  rw [if_neg (by decide), flooded] at stored
  refine ⟨_, recovered, Prod.ext fails rfl, succeeds, ?_, ?_, ?_⟩
  · rw [stored]
    decide
  · rw [stored]
    rfl
  · rw [stored, Phy.abortedCleanly_written]
    decide

end Engine
end Clause22
