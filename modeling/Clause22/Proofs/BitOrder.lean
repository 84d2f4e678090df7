import Clause22.Proofs.RecordedEdges
import Clause22.Proofs.ScriptTrace

/-! The order of bits on the wire. A word leaves most significant bit first, shifted out of the low end of its
reversal, and comes back by appending at the low end. However many bits are asked for, what is read of what was
written is the word cut to the bits that were sent. -/

namespace Clause22

namespace Bits

theorem reverse_low (word : BitVec width) (count : Nat) :
    (low word count).reverse = (List.range count).map fun slot => word.getLsbD (count - 1 - slot) := by
  apply List.ext_getElem (by simp)
  intro slot first last
  simp [low]

/-- Reversing mirrors the bits that are kept. The word that they spell has room for all of them. -/
theorem getLsbD_reverse (word : BitVec 32) (count index : Nat) :
    (reverse word count).getLsbD index =
      (decide (index < min count 32) && word.getLsbD (min count 32 - 1 - index)) := by
  have spelled := testBit_toNat_reverse (low word (min count 32)).reverse index
  rw [List.reverse_reverse, reverse_low] at spelled
  rw [reverse, BitVec.getLsbD_ofNat, spelled]
  by_cases inside : index < min count 32
  · have room : index < 32 := by omega
    simp [inside, room]
  · simp [inside]

theorem reverse_reverse (word : BitVec 32) (count : Nat) :
    reverse (reverse word count) count = (word.setWidth (min count 32)).setWidth 32 := by
  apply BitVec.eq_of_getLsbD_eq
  intro index room
  rw [getLsbD_reverse, getLsbD_reverse, BitVec.getLsbD_setWidth, BitVec.getLsbD_setWidth]
  by_cases inside : index < min count 32
  · have mirrored : min count 32 - 1 - index < min count 32 := by omega
    have restored : min count 32 - 1 - (min count 32 - 1 - index) = index := by omega
    rw [restored]
    simp [inside, mirrored, room]
  · simp [inside]

end Bits

namespace Script

theorem readBits_capped (count : Nat) : readBits (min count 32) = readBits count := by
  rw [readBits, readBits, Nat.min_eq_left (Nat.min_le_right ..)]

theorem samplings_readBits_capped (count : Nat) : (readBits count).count .sample = min count 32 := by
  rw [← readBits_capped, samplings_readBits (Nat.min_le_right ..)]

theorem received_eq (samples : List LineWord) : received samples = samples.map (·.getLsbD 0) :=
  List.map_congr_left fun sample _ => Wire.high_dataIn sample

theorem edges_drivenBits (halfPeriod : Nat) (bits : List Bool) (levels : LineWord) :
    edges ((bits.flatMap (WireForm.drivenBit halfPeriod)).map Attempt.action) levels = bits.map .driven := by
  rw [← trace_sendBits halfPeriod bits [], map_action_trace, edges_sendBits]

end Script

namespace Station

variable {σ : Type} [Lines σ] {station : Station (Recorded σ)} {samples : List LineWord}

theorem perform_supplied (supplies : Lines.Supplies station.halfPeriod samples station.lines.lines) {script : Script}
    {asked : Nat} (counted : script.count .sample = asked) (enough : asked ≤ samples.length) :
    let taken := samples.take asked
    ∃ lines, station.perform script = (.ok taken, { station with lines }) ∧
      perform script ⟨station.lines.lines, station.halfPeriod⟩ = (.ok taken, ⟨lines.lines, station.halfPeriod⟩) ∧
      lines.log = station.lines.log ++ script.trace station.halfPeriod taken ∧
      Lines.Supplies station.halfPeriod (samples.drop asked) lines.lines := by
  subst counted
  obtain ⟨lines, played, still, recorded⟩ := Script.play_supplied enough supplies
  have plain := Script.play_recorded station.halfPeriod script station.lines
  rw [played] at plain
  refine ⟨lines, ?_, ?_, recorded, still⟩
  · rw [perform, played]
  · rw [perform, plain]

theorem writeBits_supplied (supplies : Lines.Supplies station.halfPeriod samples station.lines.lines)
    (word : BitVec 32) (count : Nat) :
    ∃ lines, station.writeBits word count = (.ok (), { station with lines }) ∧
      writeBits word count ⟨station.lines.lines, station.halfPeriod⟩ = (.ok (), ⟨lines.lines, station.halfPeriod⟩) ∧
      lines.log = station.lines.log ++ (Bits.send word count).flatMap (WireForm.drivenBit station.halfPeriod) := by
  have none : (Script.writeBits word count).count .sample = 0 := Script.samplings_sendBits _
  obtain ⟨lines, performed, plain, recorded, -⟩ := perform_supplied supplies none (Nat.zero_le _)
  have traced := Script.trace_sendBits station.halfPeriod (Bits.send word count) (samples.take 0)
  refine ⟨lines, ?_, ?_, recorded.trans (congrArg _ traced)⟩
  · rw [writeBits, carryOut, performed]
    rfl
  · rw [writeBits, carryOut, plain]
    rfl

/-- What is read is spelled by the samples taken, the first of them in the highest place. -/
theorem readBits_supplied (supplies : Lines.Supplies station.halfPeriod samples station.lines.lines) {count : Nat}
    (enough : min count 32 ≤ samples.length) :
    let taken := samples.take (min count 32)
    let word := BitVec.ofNat 32 (Bits.toNat (taken.map (·.getLsbD 0)))
    ∃ lines, station.readBits count = (.ok word, { station with lines }) ∧
      readBits count ⟨station.lines.lines, station.halfPeriod⟩ = (.ok word, ⟨lines.lines, station.halfPeriod⟩) ∧
      lines.log = station.lines.log ++ taken.flatMap (WireForm.sampledBit station.halfPeriod) ∧
      Lines.Supplies station.halfPeriod (samples.drop (min count 32)) lines.lines := by
  intro taken word
  obtain ⟨lines, performed, plain, recorded, still⟩ :=
    perform_supplied supplies (Script.samplings_readBits_capped count) enough
  have whole : taken.length = min count 32 := by rw [List.length_take, Nat.min_eq_left enough]
  have traced := Script.trace_readBits station.halfPeriod (whole ▸ Nat.min_le_right count 32)
  rw [whole, Script.readBits_capped] at traced
  have spelled : BitVec.ofNat 32 (Bits.toNat (Script.received taken)) = word := by rw [Script.received_eq]
  refine ⟨lines, ?_, ?_, recorded.trans (congrArg _ traced), still⟩
  · rw [readBits, performed, ← spelled]
    rfl
  · rw [readBits, plain, ← spelled]
    rfl

/-- Reversing mirrors the low bits, so doing it twice leaves them as they were. On lines that fail no drive a word is
written as just these bits, most significant bit first. On lines that supply samples which spell them they are read
back; the reading takes as many samples as there are bits, and looks only at the level of the data line in them. -/
theorem bits_round_trip (word : BitVec 32) (count : Nat) :
    let taken := min count 32
    let spelled := (List.range taken).map fun slot => word.getLsbD (taken - 1 - slot)
    let low := (word.setWidth taken).setWidth 32
    (∀ index, (Bits.reverse word count).getLsbD index =
      if index < taken then word.getLsbD (taken - 1 - index) else false) ∧
    Bits.reverse (Bits.reverse word count) count = low ∧
    (∀ {σ : Type} [Lines σ] {halfPeriod : Nat} {lines : σ}, Lines.Supplies halfPeriod [] lines →
      ∃ after : Recorded σ,
        writeBits word count ⟨lines, halfPeriod⟩ = (.ok (), ⟨after.lines, halfPeriod⟩) ∧
        writeBits word count ⟨Recorded.mk lines [], halfPeriod⟩ = (.ok (), ⟨after, halfPeriod⟩) ∧
        after.log = spelled.flatMap (WireForm.drivenBit halfPeriod) ∧
        ∀ levels, Script.edges (after.log.map Attempt.action) levels = spelled.map .driven) ∧
    ∀ {σ : Type} [Lines σ] {halfPeriod : Nat} {lines : σ} {samples : List LineWord},
      Lines.Supplies halfPeriod samples lines → (samples.take taken).map (·.getLsbD 0) = spelled →
      ∃ after : Recorded σ,
        readBits count ⟨lines, halfPeriod⟩ = (.ok low, ⟨after.lines, halfPeriod⟩) ∧
        readBits count ⟨Recorded.mk lines [], halfPeriod⟩ = (.ok low, ⟨after, halfPeriod⟩) ∧
        after.log = (samples.take taken).flatMap (WireForm.sampledBit halfPeriod) ∧
        Lines.Supplies halfPeriod (samples.drop taken) after.lines := by
  intro taken spelled low
  have sent : Bits.send word count = spelled := (Bits.send_eq word count).trans (Bits.reverse_low word taken)
  refine ⟨fun index => ?_, Bits.reverse_reverse word count, ?_, ?_⟩
  · rw [Bits.getLsbD_reverse]
    by_cases inside : index < taken <;> simp [taken, inside]
  · intro σ _ halfPeriod lines supplies
    obtain ⟨after, watched, plain, recorded⟩ :=
      @writeBits_supplied σ _ ⟨Recorded.mk lines [], halfPeriod⟩ [] supplies word count
    rw [sent] at recorded
    refine ⟨after, plain, watched, recorded, fun levels => ?_⟩
    rw [recorded]
    exact Script.edges_drivenBits halfPeriod spelled levels
  · intro σ _ halfPeriod lines samples supplies known
    have enough : taken ≤ samples.length := by
      have whole := congrArg List.length known
      simp only [spelled, List.length_map, List.length_take, List.length_range] at whole
      omega
    obtain ⟨after, watched, plain, recorded, still⟩ :=
      @readBits_supplied σ _ ⟨Recorded.mk lines [], halfPeriod⟩ samples supplies count enough
    have restored : BitVec.ofNat 32 (Bits.toNat ((samples.take taken).map (·.getLsbD 0))) = low := by
      rw [known, ← sent, Bits.toNat_send, BitVec.ofNat_toNat]
    rw [restored] at watched plain
    exact ⟨after, plain, watched, recorded, still⟩

/-- More bits asked for than a word has, and samples with other bits set. -/
theorem bits_round_trip_capped :
    let word : BitVec 32 := 0x80000003
    let samples : List LineWord := 0xFF :: (List.replicate 29 0xFE ++ [0x03, 0x01, 0x55])
    let bench : Bench := { phy := { address := some 3 } }
    let supplied : ScriptedLines := { samples }
    Bits.reverse word 200 = 0xC0000001 ∧
    Lines.Supplies 1000 [] bench ∧ (writeBits word 200 ⟨bench, 1000⟩).1 = .ok () ∧
    Lines.Supplies 1000 samples supplied ∧
    (samples.take 32).map (·.getLsbD 0) = (List.range 32).map (fun slot => word.getLsbD (31 - slot)) ∧
    (readBits 200 ⟨supplied, 1000⟩).1 = .ok word := by
  intro word samples bench supplied
  have healthy : bench.failAt = none := rfl
  have silent : Lines.Supplies 1000 [] bench := (Bench.reliable_of_healthy healthy 1000).supplies
  have answered : Lines.Supplies 1000 samples supplied := @ScriptedLines.supplies 1000 supplied ⟨rfl, rfl⟩
  have spelled : (samples.take 32).map (·.getLsbD 0) = (List.range 32).map (fun slot => word.getLsbD (31 - slot)) := by
    decide
  obtain ⟨-, -, writing, reading⟩ := bits_round_trip word 200
  obtain ⟨_, written, -⟩ := writing silent
  obtain ⟨_, read, -⟩ := reading answered spelled
  exact ⟨by decide, silent, congrArg Prod.fst written, answered, spelled, congrArg Prod.fst read⟩

end Station
end Clause22
