import Clause22.Proofs.CallHistory
import Clause22.Proofs.FrameBits
import Clause22.Proofs.FrameSamples
import Clause22.Proofs.ScriptTrace

/-! Frames attempt by attempt. On lines that never fail, the drives, samples and waits of a frame are fixed by
its addresses and its data, and a read answers what its samples spell. -/

namespace Clause22

def Attempt.isWait : Attempt → Bool
  | .wait _ => true
  | _ => false

namespace WireForm

section

variable (halfPeriod : Nat)

/-- A bit on the line, under a high clock, and under a low one again. -/
def drivenBit (bit : Bool) : List Attempt :=
  let data : LineWord := if bit then 0b110 else 0b010
  [.drive data true, .wait halfPeriod, .drive (data ||| 0b001) true, .wait halfPeriod, .drive data true]

def releasedCycle : List Attempt :=
  [.wait halfPeriod, .drive 0b001 true, .wait halfPeriod, .drive 0b000 true]

def sampledBit (sample : LineWord) : List Attempt :=
  [.sample (some sample), .drive 0b001 true, .wait halfPeriod, .drive 0b000 true, .wait halfPeriod]

/-- What a station drives: the output is enabled, and bits follow. -/
def opening (bits : List Bool) : List Attempt :=
  .drive 0b010 true :: bits.flatMap (drivenBit halfPeriod)

def burst (bits : List Bool) : List Attempt :=
  opening halfPeriod bits ++ releasedCycle halfPeriod ++ releasedCycle halfPeriod

/-- A read after its header. A turnaround that is checked is sampled between its two cycles. -/
def answering (turnaround : Option LineWord) (data : List LineWord) : List Attempt :=
  releasedCycle halfPeriod ++ turnaround.toList.map (fun sample => .sample (some sample)) ++
    releasedCycle halfPeriod ++ data.flatMap (sampledBit halfPeriod) ++
    releasedCycle halfPeriod ++ releasedCycle halfPeriod

end

variable {halfPeriod : Nat}

theorem waits_opening (bits : List Bool) : (opening halfPeriod bits).countP Attempt.isWait = 2 * bits.length := by
  rw [opening, List.countP_cons_of_neg (by decide)]
  induction bits with
  | nil => rfl
  | cons bit bits ih =>
    have two : (drivenBit halfPeriod bit).countP Attempt.isWait = 2 := rfl
    rw [List.flatMap_cons, List.countP_append, two, ih, List.length_cons, Nat.mul_succ, Nat.add_comm]

theorem waits_burst (bits : List Bool) : (burst halfPeriod bits).countP Attempt.isWait = 2 * bits.length + 4 := by
  rw [burst, List.countP_append, List.countP_append, waits_opening]
  rfl

theorem waits_answering (turnaround : Option LineWord) (data : List LineWord) :
    (answering halfPeriod turnaround data).countP Attempt.isWait = 8 + 2 * data.length := by
  have cycle : (releasedCycle halfPeriod).countP Attempt.isWait = 2 := rfl
  have checked :
      (turnaround.toList.map fun sample => Attempt.sample (some sample)).countP Attempt.isWait = 0 := by
    cases turnaround <;> rfl
  have sampled : (data.flatMap (sampledBit halfPeriod)).countP Attempt.isWait = 2 * data.length := by
    induction data with
    | nil => rfl
    | cons sample data ih =>
      have two : (sampledBit halfPeriod sample).countP Attempt.isWait = 2 := rfl
      rw [List.flatMap_cons, List.countP_append, two, ih, List.length_cons, Nat.mul_succ, Nat.add_comm]
  simp only [answering, List.countP_append, cycle, checked, sampled]
  omega

theorem released_answering {turnaround : Option LineWord} {data : List LineWord} {lines : LineWord} {done : Bool}
    (driven : .drive lines done ∈ answering halfPeriod turnaround data) :
    Wire.high Wire.outputEnable lines = false := by
  have cycle : .drive lines done ∈ releasedCycle halfPeriod → Wire.high Wire.outputEnable lines = false := by
    simp only [releasedCycle, List.mem_cons, Attempt.drive.injEq, reduceCtorEq, List.not_mem_nil, or_false, false_or]
    rintro (⟨rfl, -⟩ | ⟨rfl, -⟩) <;> rfl
  have data : .drive lines done ∈ data.flatMap (sampledBit halfPeriod) →
      Wire.high Wire.outputEnable lines = false := by
    simp only [List.mem_flatMap, sampledBit, List.mem_cons, Attempt.drive.injEq, reduceCtorEq, List.not_mem_nil,
      or_false, false_or]
    rintro ⟨-, -, ⟨rfl, -⟩ | ⟨rfl, -⟩⟩ <;> rfl
  simp only [answering, List.mem_append, List.mem_map, reduceCtorEq, and_false, exists_false, or_false] at driven
  rcases driven with (((first | second) | bits) | third) | fourth
  · exact cycle first
  · exact cycle second
  · exact data bits
  · exact cycle third
  · exact cycle fourth

end WireForm

namespace Script

variable (halfPeriod : Nat)

theorem samplings_sendBits (bits : List Bool) : (sendBits bits).count .sample = 0 := by
  induction bits with
  | nil => rfl
  | cons bit bits ih =>
    have none : (writeBit bit true).count .sample = 0 := by cases bit <;> rfl
    rw [sendBits, List.flatMap_cons, List.count_append, none]
    exact (Nat.zero_add _).trans ih

theorem trace_sendBits (bits : List Bool) (samples : List LineWord) :
    (sendBits bits).trace halfPeriod samples = bits.flatMap (WireForm.drivenBit halfPeriod) := by
  induction bits generalizing samples with
  | nil => rfl
  | cons bit bits ih =>
    have driven : (writeBit bit true).trace halfPeriod samples = WireForm.drivenBit halfPeriod bit := by
      cases bit <;> rfl
    rw [sendBits, List.flatMap_cons, trace_append, driven]
    exact congrArg _ (ih _)

theorem samplings_readBits {count : Nat} (short : count ≤ 32) : (readBits count).count .sample = count := by
  rw [readBits, Nat.min_eq_left short]
  clear short
  induction count with
  | zero => rfl
  | succ count ih =>
    have one : readBit.count .sample = 1 := rfl
    rw [List.replicate_succ, List.flatten_cons, List.count_append, one, ih, Nat.add_comm]

theorem trace_readBits {data : List LineWord} (short : data.length ≤ 32) :
    (readBits data.length).trace halfPeriod data = data.flatMap (WireForm.sampledBit halfPeriod) := by
  rw [readBits, Nat.min_eq_left short]
  clear short
  induction data with
  | nil => rfl
  | cons sample data ih =>
    rw [List.length_cons, List.replicate_succ, List.flatten_cons, trace_append, List.flatMap_cons]
    exact congrArg _ ih

theorem trace_burst (bits : List Bool) (samples : List LineWord) :
    trace halfPeriod (.drive Wire.outputEnable :: (sendBits bits ++ releaseCycles Wire.turnaroundCycles)) samples =
      WireForm.burst halfPeriod bits := by
  rw [trace, trace_append, trace_sendBits, WireForm.burst, WireForm.opening, List.append_assoc]
  rfl

theorem trace_releasedPart (check : TurnaroundCheck) {samples : List LineWord}
    (taken : samples.length = (Frame.releasedPart check).count .sample) :
    ∃ turnaround data, samples = turnaround.toList ++ data ∧ turnaround.isSome = decide (check = .verify) ∧
      data.length = 16 ∧
      (Frame.releasedPart check).trace halfPeriod samples = WireForm.answering halfPeriod turnaround data := by
  have short : Wire.dataBits ≤ 32 := by decide
  have sixteen := samplings_readBits short
  have rest (data : List LineWord) (whole : data.length = 16) :
      (readBits Wire.dataBits ++ releaseCycles Wire.turnaroundCycles).trace halfPeriod data =
        data.flatMap (WireForm.sampledBit halfPeriod) ++ WireForm.releasedCycle halfPeriod ++
          WireForm.releasedCycle halfPeriod := by
    have bits : Wire.dataBits = data.length := whole.symm
    rw [trace_append, bits, trace_readBits halfPeriod (bits ▸ short), List.append_assoc]
    rfl
  have counted : (readBits Wire.dataBits ++ releaseCycles Wire.turnaroundCycles).count .sample = 16 := by
    rw [List.count_append, sixteen]
    rfl
  cases check with
  | ignore =>
    have none : (Frame.turnaround .ignore).count .sample = 0 := rfl
    rw [Frame.releasedPart, List.count_append, none, counted] at taken
    refine ⟨.none, samples, rfl, rfl, taken, ?_⟩
    rw [Frame.releasedPart, trace_append, none, List.drop_zero, rest samples taken]
    simp only [WireForm.answering, List.append_assoc]
    rfl
  | verify =>
    have one : (Frame.turnaround .verify).count .sample = 1 := rfl
    rw [Frame.releasedPart, List.count_append, one, counted] at taken
    obtain ⟨sample, data, rfl⟩ := List.exists_cons_of_length_pos (by omega : 0 < samples.length)
    have whole : data.length = 16 := by simpa using taken
    refine ⟨some sample, data, rfl, rfl, whole, ?_⟩
    rw [Frame.releasedPart, trace_append, one, List.drop_succ_cons, List.drop_zero, rest data whole]
    simp only [WireForm.answering, List.append_assoc]
    rfl

end Script

namespace Frame

variable (halfPeriod : Nat)

theorem trace_recovery (samples : List LineWord) :
    (script recovery).trace halfPeriod samples = WireForm.burst halfPeriod (List.replicate 32 true) := by
  rw [script_recovery, Script.trace_burst]
  rfl

theorem trace_write (phy reg : Nat) (value : Word) (samples : List LineWord) :
    (script (write phy reg value)).trace halfPeriod samples =
      WireForm.burst halfPeriod (writeStream phy reg value) := by
  rw [script_write, Script.trace_burst, writeStream_eq]

theorem trace_read (check : TurnaroundCheck) (phy reg : Nat) {samples : List LineWord}
    (taken : samples.length = (script (read check phy reg)).count .sample) :
    ∃ turnaround data, samples = turnaround.toList ++ data ∧ turnaround.isSome = decide (check = .verify) ∧
      data.length = 16 ∧ (script (read check phy reg)).trace halfPeriod samples =
        WireForm.opening halfPeriod (readStream phy reg) ++ WireForm.answering halfPeriod turnaround data := by
  rw [script_read, List.count_cons_of_ne (by nofun), List.count_append, Script.samplings_sendBits,
    Nat.zero_add] at taken
  obtain ⟨turnaround, data, rfl, checked, whole, traced⟩ := Script.trace_releasedPart halfPeriod check taken
  refine ⟨turnaround, data, rfl, checked, whole, ?_⟩
  rw [script_read, Script.trace, Script.trace_append, Script.trace_sendBits, Script.samplings_sendBits,
    List.drop_zero, traced, readStream_eq]
  rfl

end Frame

theorem Wire.high_dataIn (sample : LineWord) : Wire.high Wire.dataIn sample = sample.getLsbD 0 := by
  have bit : sample &&& Wire.dataIn = _ := BitVec.and_one_eq_setWidth_ofBool_getLsbD
  rw [Wire.high, bit]
  cases sample.getLsbD 0 <;> rfl

theorem Frame.getLsbD_word {data : List LineWord} (whole : data.length = 16) {slot : Nat} (inside : slot < 16) :
    (Frame.word data).getLsbD (15 - slot) = (data.getD slot 0).getLsbD 0 := by
  have spelled := Bits.testBit_toNat_reverse (Script.received data).reverse (15 - slot)
  have last : 15 - slot < data.length := by omega
  have mirrored : data.length - 1 - (15 - slot) = slot := by omega
  have present : slot < data.length := by omega
  rw [List.reverse_reverse] at spelled
  rw [Frame.word, BitVec.getLsbD_ofNat, decide_eq_true (by omega : 15 - slot < 16), Bool.true_and, spelled]
  simp [Script.received, List.getD_eq_getElem?_getD, last, mirrored, present, Wire.high_dataIn]

theorem Frame.answer_taken {check : TurnaroundCheck} {turnaround : Option LineWord} (data : List LineWord)
    (checked : turnaround.isSome = decide (check = .verify)) :
    Frame.answer check (turnaround.toList ++ data) =
      if turnaround.any (·.getLsbD 0) then .error .noResponse else .ok (Frame.word data) := by
  cases check with
  | ignore =>
    cases turnaround with
    | none => rfl
    | some sample => cases checked
  | verify =>
    cases turnaround with
    | none => cases checked
    | some sample => simp [Frame.answer, Script.received, Wire.high_dataIn]

theorem Bench.reliable_of_healthy {bench : Bench} (healthy : bench.failAt = none) (halfPeriod : Nat) :
    Lines.Reliable halfPeriod bench :=
  fun script => ⟨_, _, play_lasting halfPeriod (lasts_of_healthy healthy script)⟩

namespace Engine

variable {σ : Type} [Lines σ]

section Reliable

variable {engine : Engine (Recorded σ)}
  (reliable : Lines.Reliable engine.station.halfPeriod engine.station.lines.lines)

include reliable

private theorem transmit_recorded (segments : List Segment) :
    ∃ samples lines, engine.transmit segments =
        (.ok samples, { engine with station.lines := lines, phase := .idle }) ∧
      samples.length = (Frame.script segments).count .sample ∧
      lines.log =
        engine.station.lines.log ++ (Frame.script segments).trace engine.station.halfPeriod samples := by
  obtain ⟨samples, lines, played, -, taken, recorded⟩ := Script.play_reliable reliable (Frame.script segments)
  exact ⟨samples, lines, transmit_ok played, taken, recorded⟩

theorem recover_recorded : ∃ done, engine.recover = (.ok (), done) ∧ done.station.lines.log =
    engine.station.lines.log ++ WireForm.burst engine.station.halfPeriod (List.replicate 32 true) := by
  obtain ⟨samples, lines, sent, -, recorded⟩ := transmit_recorded reliable Frame.recovery
  rw [Frame.trace_recovery] at recorded
  rw [recover]
  simp only [sent]
  exact ⟨_, rfl, recorded⟩

variable {phy reg : Nat} (ready : engine.ready phy reg = .ok ())

include ready

theorem write_recorded (value : Word) : ∃ done, engine.write phy reg value = (.ok (), done) ∧
    done.station.lines.log = engine.station.lines.log ++
      WireForm.burst engine.station.halfPeriod (Frame.writeStream phy reg value) := by
  obtain ⟨samples, lines, sent, -, recorded⟩ := transmit_recorded reliable (Frame.write phy reg value)
  rw [Frame.trace_write] at recorded
  rw [write, ready]
  simp only [sent]
  exact ⟨_, rfl, recorded⟩

theorem read_recorded : ∃ turnaround data done,
    turnaround.isSome = decide (engine.turnaround = .verify) ∧ data.length = 16 ∧
    engine.read phy reg =
      (if turnaround.any (·.getLsbD 0) then .error (.io .noResponse) else .ok (Frame.word data), done) ∧
    done.station.lines.log = engine.station.lines.log ++
      (WireForm.opening engine.station.halfPeriod (Frame.readStream phy reg) ++
        WireForm.answering engine.station.halfPeriod turnaround data) := by
  obtain ⟨samples, lines, sent, taken, recorded⟩ :=
    transmit_recorded reliable (Frame.read engine.turnaround phy reg)
  obtain ⟨turnaround, data, rfl, checked, whole, traced⟩ :=
    Frame.trace_read engine.station.halfPeriod engine.turnaround phy reg taken
  rw [traced] at recorded
  have reply := congrArg (Except.mapError Error.io) (Frame.answer_taken data checked)
  rw [apply_ite (Except.mapError Error.io)] at reply
  rw [read, ready]
  simp only [sent]
  exact ⟨turnaround, data, _, checked, whole, Prod.ext reply rfl, recorded⟩

end Reliable

/-- The record of an idle engine's frames on lines that never fail. Half periods are waited 132 times in a frame
of either kind, a read no longer drives the line once its header is out, and its data samples spell its word. An
engine without a record answers the same. -/
theorem frames_recorded {engine : Engine (Recorded σ)}
    (reliable : Lines.Reliable engine.station.halfPeriod engine.station.lines.lines) (idle : engine.phase = .idle) :
    let halfPeriod := engine.station.halfPeriod
    let log := engine.station.lines.log
    (∀ phy reg value, phy ≤ 31 → reg ≤ 31 →
      let frame := WireForm.burst halfPeriod (Frame.writeStream phy reg value)
      (∃ done, engine.write phy reg value = (.ok (), done) ∧ done.station.lines.log = log ++ frame) ∧
      frame.countP Attempt.isWait = 132) ∧
    (∀ phy reg, phy ≤ 31 → reg ≤ 31 → ∃ turnaround data word done,
      let header := WireForm.opening halfPeriod (Frame.readStream phy reg)
      let rest := WireForm.answering halfPeriod turnaround data
      turnaround.isSome = decide (engine.turnaround = .verify) ∧ data.length = 16 ∧
      (∀ slot < 16, word.getLsbD (15 - slot) = (data.getD slot 0).getLsbD 0) ∧
      engine.read phy reg =
        (if turnaround.any (·.getLsbD 0) then .error (.io .noResponse) else .ok word, done) ∧
      done.station.lines.log = log ++ (header ++ rest) ∧
      (∀ lines driven, .drive lines driven ∈ rest → Wire.high Wire.outputEnable lines = false) ∧
      (header ++ rest).countP Attempt.isWait = 132) ∧
    (∃ done, engine.recover = (.ok (), done) ∧
      done.station.lines.log = log ++ WireForm.burst halfPeriod (List.replicate 32 true)) ∧
    ∀ calls, (history calls engine).map Exchange.plain = history calls engine.plain := by
  intro halfPeriod log
  refine ⟨fun phy reg value phyFits regFits => ⟨?_, ?_⟩, fun phy reg phyFits regFits => ?_,
    recover_recorded reliable, fun calls => history_plain calls engine⟩
  · exact write_recorded reliable (ready_ok idle ⟨phyFits, regFits⟩) value
  · rw [WireForm.waits_burst, Frame.length_writeStream]
  · obtain ⟨turnaround, data, done, checked, whole, read, recorded⟩ :=
      read_recorded reliable (ready_ok idle ⟨phyFits, regFits⟩)
    refine ⟨turnaround, data, Frame.word data, done, checked, whole,
      fun slot inside => Frame.getLsbD_word whole inside, read, recorded,
      fun lines driven member => WireForm.released_answering member, ?_⟩
    rw [List.countP_append, WireForm.waits_opening, WireForm.waits_answering, Frame.length_readStream, whole]

/-- A bench without a fault never fails. -/
theorem frames_recorded_bench :
    let engine := create (Recorded.mk ({ phy := { address := some 3 } } : Bench) []) { turnaround := .verify }
    Lines.Reliable engine.station.halfPeriod engine.station.lines.lines ∧ engine.phase = .idle ∧
    ∃ done, engine.write 3 4 0x8001 = (.ok (), done) ∧ done.station.lines.log.length = 329 := by
  intro engine
  have healthy : engine.station.lines.lines.failAt = none := rfl
  have reliable := Bench.reliable_of_healthy healthy engine.station.halfPeriod
  obtain ⟨writes, -, -⟩ := frames_recorded reliable rfl
  obtain ⟨⟨done, written, recorded⟩, -⟩ := writes 3 4 0x8001 (by decide) (by decide)
  have long : (WireForm.burst 1000 (Frame.writeStream 3 4 0x8001)).length = 329 := by decide +kernel
  exact ⟨reliable, rfl, done, written, (congrArg List.length recorded).trans long⟩

end Engine
end Clause22
