import Clause22.Proofs.FaultTruncation

/-! The check of the turnaround. It takes one sample between the two released cycles and leaves the frame as it was:
the same drives and waits, and the same data, whatever the sample says. -/

namespace Clause22

section Samples

variable {check : TurnaroundCheck} {turnaround : Option LineWord}
  (checked : turnaround.isSome = decide (check = .verify)) (phy reg : Nat)

include checked

theorem Frame.samplings_read : (script (read check phy reg)).count .sample = turnaround.toList.length + 16 := by
  have released : (releasedPart check).count .sample = turnaround.toList.length + 16 := by
    cases check with
    | ignore =>
      cases turnaround with
      | none => rfl
      | some sample => cases checked
    | verify =>
      cases turnaround with
      | none => cases checked
      | some sample => rfl
  rw [script_read, List.count_cons_of_ne (by nofun), List.count_append, Script.samplings_sendBits, Nat.zero_add,
    released]

theorem Frame.trace_parted (halfPeriod : Nat) {data : List LineWord} (whole : data.length = 16) :
    (script (read check phy reg)).trace halfPeriod (turnaround.toList ++ data) =
      WireForm.opening halfPeriod (readStream phy reg) ++ WireForm.answering halfPeriod turnaround data := by
  have taken : (turnaround.toList ++ data).length = (script (read check phy reg)).count .sample := by
    rw [samplings_read checked, List.length_append, whole]
  obtain ⟨other, rest, same, -, alsoWhole, traced⟩ := trace_read halfPeriod check phy reg taken
  obtain ⟨first, rfl⟩ := List.append_inj' same (whole.trans alsoWhole.symm)
  obtain rfl : turnaround = other := by
    cases turnaround <;> cases other <;> cases first <;> rfl
  exact traced

end Samples

namespace Script

def sumOfBytes? (first second : UInt8) : Option UInt8 :=
  if first.toNat + second.toNat < 256 then some (first + second) else none

/-- The cycles from an index on, counted in bytes: the one that the count follows is the last, and sampled before. -/
def countedFrom? (cycles : UInt8) : (left : Nat) → (index : UInt8) → Option Script
  | 0, _ => some []
  | left + 1, index => do
    let next ← sumOfBytes? index 1
    let rest ← countedFrom? cycles left next
    return (if next = cycles then [.sample] else []) ++ releaseCycle ++ rest

theorem countedFrom?_eq (cycles : UInt8) {left : Nat} {index : UInt8} (reaches : index.toNat + left = cycles.toNat) :
    countedFrom? cycles left index = some (releaseCyclesSampled left) := by
  induction left generalizing index with
  | zero => rfl
  | succ left ih =>
    have bound : cycles.toNat < 256 := cycles.toNat_lt
    have room : index.toNat + (1 : UInt8).toNat < 256 := by
      rw [UInt8.toNat_one]
      omega
    have next : (index + 1).toNat = index.toNat + 1 := (UInt8.toNat_add ..).trans (Nat.mod_eq_of_lt room)
    have later : countedFrom? cycles left (index + 1) = some (releaseCyclesSampled left) := ih (by omega)
    simp only [countedFrom?, sumOfBytes?, if_pos room, later, Option.bind_eq_bind, Option.bind_some]
    cases left with
    | zero =>
      have last : index + 1 = cycles := UInt8.toNat_inj.mp (next.trans reaches)
      rw [if_pos last]
      rfl
    | succ left =>
      have more : index + 1 ≠ cycles := fun same => by
        rw [← same, next] at reaches
        omega
      rw [if_neg more]
      rfl

variable (halfPeriod : Nat)

theorem samplings_releaseCycles (cycles : Nat) : (releaseCycles cycles).count .sample = 0 := by
  induction cycles with
  | zero => rfl
  | succ cycles ih =>
    rw [releaseCycles, List.replicate_succ, List.flatten_cons, List.count_append]
    exact (Nat.zero_add _).trans ih

theorem trace_releaseCycles (cycles : Nat) (samples : List LineWord) :
    (releaseCycles cycles).trace halfPeriod samples =
      (List.replicate cycles (WireForm.releasedCycle halfPeriod)).flatten := by
  induction cycles generalizing samples with
  | zero => rfl
  | succ cycles ih =>
    rw [releaseCycles, List.replicate_succ, List.flatten_cons, trace_append, List.replicate_succ, List.flatten_cons]
    exact congrArg _ (ih _)

theorem samplings_releaseCyclesSampled (cycles : Nat) : (releaseCyclesSampled (cycles + 1)).count .sample = 1 := by
  rw [releaseCyclesSampled, List.count_append, samplings_releaseCycles]
  rfl

theorem trace_releaseCyclesSampled (cycles : Nat) (sample : LineWord) :
    (releaseCyclesSampled (cycles + 1)).trace halfPeriod [sample] =
      (List.replicate cycles (WireForm.releasedCycle halfPeriod)).flatten ++
        .sample (some sample) :: WireForm.releasedCycle halfPeriod := by
  rw [releaseCyclesSampled, trace_append, trace_releaseCycles, samplings_releaseCycles]
  rfl

end Script

namespace Engine

variable {σ : Type} [Lines σ]

theorem read_supplied {engine : Engine (Recorded σ)} {turnaround : Option LineWord} {data : List LineWord}
    (supplies : Lines.Supplies engine.station.halfPeriod (turnaround.toList ++ data) engine.station.lines.lines)
    (checked : turnaround.isSome = decide (engine.turnaround = .verify)) (enough : 16 ≤ data.length)
    {phy reg : Nat} (ready : engine.ready phy reg = .ok ()) :
    let outcome := if turnaround.any (·.getLsbD 0) then .error .noResponse else .ok (Frame.word (data.take 16))
    ∃ lines, engine.read phy reg = (outcome.mapError .io,
        { engine with station.lines := lines, phase := .idle, stats := tallyRead outcome engine.stats }) ∧
      lines.log = engine.station.lines.log ++ (WireForm.opening engine.station.halfPeriod (Frame.readStream phy reg) ++
        WireForm.answering engine.station.halfPeriod turnaround (data.take 16)) ∧
      Lines.Supplies engine.station.halfPeriod (data.drop 16) lines.lines := by
  intro outcome
  have count := Frame.samplings_read checked phy reg
  have whole : (data.take 16).length = 16 := by rw [List.length_take, Nat.min_eq_left enough]
  have fits : (Frame.script (Frame.read engine.turnaround phy reg)).count .sample ≤
      (turnaround.toList ++ data).length := by
    rw [count, List.length_append]
    exact Nat.add_le_add_left enough _
  obtain ⟨lines, played, still, recorded⟩ := Script.play_supplied fits supplies
  rw [count, List.take_length_add_append] at played recorded
  rw [count, List.drop_length_add_append] at still
  rw [Frame.trace_parted checked phy reg _ whole] at recorded
  refine ⟨lines, ?_, recorded, still⟩
  rw [read, ready]
  simp only [transmit_ok played, Frame.answer_taken _ checked]
  rfl

theorem read_attempted {engine : Engine σ} {turnaround : Option LineWord} {data : List LineWord}
    (supplies : Lines.Supplies engine.station.halfPeriod (turnaround.toList ++ data) engine.station.lines)
    (checked : turnaround.isSome = decide (engine.turnaround = .verify)) (enough : 16 ≤ data.length)
    {phy reg : Nat} (ready : engine.ready phy reg = .ok ()) :
    let outcome := if turnaround.any (·.getLsbD 0) then .error .noResponse else .ok (Frame.word (data.take 16))
    ∃ after, engine.read phy reg = (outcome.mapError .io, after) ∧ after.phase = .idle ∧
      after.stats = tallyRead outcome engine.stats ∧
      engine.attempted engine.station.lines (.read phy reg) =
        WireForm.opening engine.station.halfPeriod (Frame.readStream phy reg) ++
          WireForm.answering engine.station.halfPeriod turnaround (data.take 16) := by
  intro outcome
  let watched := engine.onLines (Recorded.mk engine.station.lines [])
  obtain ⟨lines, read, recorded, -⟩ :=
    @read_supplied σ _ watched turnaround data supplies checked enough phy reg ready
  have served : (Call.read phy reg).serve watched = (.word (outcome.mapError .io), _) :=
    congrArg (fun answer => (Reply.word answer.1, answer.2)) read
  obtain ⟨reply, after⟩ := Prod.ext_iff.mp (served ▸ serve_plain (.read phy reg) watched)
  refine ⟨_, Prod.ext (Reply.word.inj reply) after, rfl, rfl, ?_⟩
  rw [attempted, served]
  exact recorded

end Engine

namespace Station

variable {σ : Type} [Lines σ] {station : Station (Recorded σ)} {samples : List LineWord}

theorem releaseCycles_supplied (supplies : Lines.Supplies station.halfPeriod samples station.lines.lines)
    (cycles : Nat) :
    ∃ lines, station.releaseCycles cycles = (.ok (), { station with lines }) ∧ lines.log =
      station.lines.log ++ (List.replicate cycles (WireForm.releasedCycle station.halfPeriod)).flatten := by
  have none := Script.samplings_releaseCycles cycles
  obtain ⟨lines, played, -, recorded⟩ := Script.play_supplied (none ▸ Nat.zero_le _) supplies
  rw [Script.trace_releaseCycles] at recorded
  refine ⟨lines, ?_, recorded⟩
  rw [releaseCycles, carryOut, perform]
  simp only [played]
  rfl

theorem releaseCyclesSampled_supplied {sample : LineWord}
    (supplies : Lines.Supplies station.halfPeriod (sample :: samples) station.lines.lines) (cycles : Nat) :
    ∃ lines, station.releaseCyclesSampled (cycles + 1) = (.ok (sample.getLsbD 0), { station with lines }) ∧
      lines.log = station.lines.log ++
        ((List.replicate cycles (WireForm.releasedCycle station.halfPeriod)).flatten ++
          .sample (some sample) :: WireForm.releasedCycle station.halfPeriod) := by
  have one := Script.samplings_releaseCyclesSampled cycles
  have enough : (Script.releaseCyclesSampled (cycles + 1)).count .sample ≤ (sample :: samples).length := by
    rw [one]
    exact Nat.succ_le_succ (Nat.zero_le _)
  obtain ⟨lines, played, -, recorded⟩ := Script.play_supplied enough supplies
  rw [one, List.take_succ_cons, List.take_zero] at played recorded
  rw [Script.trace_releaseCyclesSampled] at recorded
  refine ⟨lines, ?_, recorded⟩
  rw [releaseCyclesSampled, perform]
  simp only [played, Except.map, Script.received, List.map_cons, List.map_nil, List.any_cons, List.any_nil, id,
    Bool.or_false, Wire.high_dataIn]

end Station

namespace Engine

variable {σ τ : Type} [Lines σ] [Lines τ]

/-- Give the lines of an engine that checks the turnaround one sample before those of an engine that does not. Their
reads make the same drives and waits, and the check takes that sample between its two released cycles. It decides
only whether the word is answered, once the whole frame is out. Released cycles of any other number are alike too,
and counting them in bytes does not overflow. -/
theorem turnaround_transparent {halfPeriod : Nat} {turnaround : LineWord} {data : List LineWord}
    {checked : σ} {unchecked : τ} (supplied : Lines.Supplies halfPeriod (turnaround :: data) checked)
    (alsoSupplied : Lines.Supplies halfPeriod data unchecked) :
    let cycle := WireForm.releasedCycle halfPeriod
    (∀ stats phy reg, phy ≤ 31 → reg ≤ 31 → 16 ≤ data.length →
      let verifying : Engine σ := ⟨⟨checked, halfPeriod⟩, .verify, .idle, stats⟩
      let ignoring : Engine τ := ⟨⟨unchecked, halfPeriod⟩, .ignore, .idle, stats⟩
      let header := WireForm.opening halfPeriod (Frame.readStream phy reg)
      let answer := (data.take 16).flatMap (WireForm.sampledBit halfPeriod)
      let absent := turnaround.getLsbD 0
      let tallied := { stats with reads := stats.reads + 1 }
      ∃ word verified ignored,
        verifying.read phy reg = (if absent then .error (.io .noResponse) else .ok word, verified) ∧
        ignoring.read phy reg = (.ok word, ignored) ∧
        (∀ slot < 16, word.getLsbD (15 - slot) = (data.getD slot 0).getLsbD 0) ∧
        verifying.attempted checked (.read phy reg) =
          header ++ cycle ++ .sample (some turnaround) :: (cycle ++ answer ++ cycle ++ cycle) ∧
        ignoring.attempted unchecked (.read phy reg) = header ++ cycle ++ (cycle ++ answer ++ cycle ++ cycle) ∧
        verified.phase = .idle ∧ ignored.phase = .idle ∧ ignored.stats = tallied ∧
        verified.stats = if absent then { stats with noResponse := stats.noResponse + 1 } else tallied) ∧
    ∀ cycles : UInt8,
      let sampling := Station.releaseCyclesSampled cycles.toNat ⟨Recorded.mk checked [], halfPeriod⟩
      let releasing := Station.releaseCycles cycles.toNat ⟨Recorded.mk unchecked [], halfPeriod⟩
      Script.countedFrom? cycles cycles.toNat 0 = some (Script.releaseCyclesSampled cycles.toNat) ∧
      releasing.1 = .ok () ∧
      releasing.2.lines.log = (List.replicate cycles.toNat cycle).flatten ∧
      (cycles = 0 → sampling.1 = .ok false ∧ sampling.2.lines.log = []) ∧
      (cycles ≠ 0 → sampling.1 = .ok (turnaround.getLsbD 0) ∧ ∃ earlier,
        releasing.2.lines.log = earlier ++ cycle ∧
        sampling.2.lines.log = earlier ++ .sample (some turnaround) :: cycle) := by
  intro cycle
  refine ⟨fun stats phy reg phyFits regFits enough => ?_, fun cycles => ?_⟩
  · intro verifying ignoring header answer absent tallied
    have fits : Addressable phy reg := ⟨phyFits, regFits⟩
    obtain ⟨verified, read, verifiedIdle, verifiedStats, recorded⟩ :=
      @read_attempted σ _ verifying (some turnaround) data supplied rfl enough phy reg (ready_ok rfl fits)
    obtain ⟨ignored, alsoRead, ignoredIdle, ignoredStats, alsoRecorded⟩ :=
      @read_attempted τ _ ignoring none data alsoSupplied rfl enough phy reg (ready_ok rfl fits)
    have whole : (data.take 16).length = 16 := by rw [List.length_take, Nat.min_eq_left enough]
    refine ⟨Frame.word (data.take 16), verified, ignored, ?_, alsoRead, fun slot inside => ?_, ?_, ?_, verifiedIdle,
      ignoredIdle, ignoredStats, ?_⟩
    · rw [read, Option.any_some, apply_ite (Except.mapError Error.io)]
      rfl
    · rw [Frame.getLsbD_word whole inside, List.getD_eq_getElem?_getD, List.getElem?_take_of_lt inside,
        List.getD_eq_getElem?_getD]
    · simp only [recorded, WireForm.answering, header, cycle, answer, verifying, Option.toList_some, List.map_cons,
        List.map_nil, List.append_assoc, List.cons_append, List.nil_append]
    · simp only [alsoRecorded, WireForm.answering, header, cycle, answer, ignoring, Option.toList_none, List.map_nil,
        List.append_assoc, List.nil_append]
    · rw [verifiedStats, Option.any_some, apply_ite (tallyRead · verifying.stats)]
      rfl
  · intro sampling releasing
    obtain ⟨free, released, recorded⟩ := @Station.releaseCycles_supplied τ _
      ⟨Recorded.mk unchecked [], halfPeriod⟩ data alsoSupplied cycles.toNat
    have record : releasing.2.lines.log = (List.replicate cycles.toNat cycle).flatten :=
      (congrArg (·.2.lines.log) released).trans recorded
    have counted : Script.countedFrom? cycles cycles.toNat 0 = some (Script.releaseCyclesSampled cycles.toNat) :=
      Script.countedFrom?_eq cycles (Nat.zero_add cycles.toNat)
    refine ⟨counted, congrArg Prod.fst released, record, fun zero => ?_, fun some => ?_⟩
    · subst zero
      exact ⟨rfl, rfl⟩
    · obtain ⟨count, same⟩ := Nat.exists_eq_succ_of_ne_zero fun zero => some (UInt8.toNat_inj.mp zero)
      obtain ⟨busy, sampled, alsoRecorded⟩ := @Station.releaseCyclesSampled_supplied σ _
        ⟨Recorded.mk checked [], halfPeriod⟩ data turnaround supplied count
      have whole : sampling = _ := (congrArg (Station.releaseCyclesSampled · _) same).trans sampled
      refine ⟨congrArg Prod.fst whole, (List.replicate count cycle).flatten, ?_, ?_⟩
      · rw [record, same, List.replicate_succ', List.flatten_concat]
      · rw [whole]
        exact alsoRecorded

/-- A turnaround that is high, before data that spell 0xA001. -/
theorem turnaround_transparent_absent :
    let data : List LineWord := [1, 0, 1, 0, 0, 0, 0, 0, 0, 0, 0, 0, 0, 0, 0, 1]
    let checked : ScriptedLines := { samples := 1 :: data }
    let unchecked : ScriptedLines := { samples := data }
    let verifying := create checked { turnaround := .verify }
    let ignoring := create unchecked {}
    Lines.Supplies 1000 (1 :: data) checked ∧ Lines.Supplies 1000 data unchecked ∧
    (verifying.read 3 4).1 = .error (.io .noResponse) ∧ (ignoring.read 3 4).1 = .ok 0xA001 ∧
    (verifying.attempted checked (.read 3 4)).length = (ignoring.attempted unchecked (.read 3 4)).length + 1 ∧
    Script.countedFrom? 255 255 0 = some (Script.releaseCyclesSampled 255) := by
  intro data checked unchecked verifying ignoring
  have supplied : Lines.Supplies 1000 (1 :: data) checked := @ScriptedLines.supplies 1000 checked ⟨rfl, rfl⟩
  have alsoSupplied : Lines.Supplies 1000 data unchecked := @ScriptedLines.supplies 1000 unchecked ⟨rfl, rfl⟩
  obtain ⟨reads, cycles⟩ := turnaround_transparent supplied alsoSupplied
  obtain ⟨word, verified, ignored, silent, read, -, checkedLog, log, -⟩ :=
    reads {} 3 4 (by decide) (by decide) (Nat.le_refl 16)
  have answered : (ignoring.read 3 4).1 = .ok 0xA001 := by rfl
  refine ⟨supplied, alsoSupplied, congrArg Prod.fst silent, answered, ?_, (cycles 255).1⟩
  rw [show verifying.attempted checked (.read 3 4) = _ from checkedLog,
    show ignoring.attempted unchecked (.read 3 4) = _ from log]
  simp only [List.length_append, List.length_cons, Nat.add_assoc]

end Engine
end Clause22
