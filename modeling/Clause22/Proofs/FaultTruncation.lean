import Clause22.Proofs.WireForm

/-! Calls cut short by a fault. Lines that fail leave the record that lines without a fault would have left, up to
the attempt that failed, and the engine in the phase of the frame to which that attempt belongs. -/

namespace Clause22

namespace Attempt

/-- Whether an attempt succeeded. A wait is no attempt. -/
def done? : Attempt → Option Bool
  | .drive _ done => some done
  | .sample answer => some answer.isSome
  | .wait _ => none

def answer? : Attempt → Option LineWord
  | .sample answer => answer
  | _ => none

def failed : Attempt → Attempt
  | .drive lines _ => .drive lines false
  | .sample _ => .sample none
  | .wait nanoseconds => .wait nanoseconds

end Attempt

def Action.refused? : Action → Option Attempt
  | .drive lines => some (.drive lines false)
  | .sample => some (.sample none)
  | .wait => none

theorem Action.refused_outcome {action : Action} {refused : Attempt} (marked : action.refused? = some refused) :
    refused.done? = some false ∧ refused.answer? = none := by
  cases action <;> cases marked <;> exact ⟨rfl, rfl⟩

namespace Script

/-- Where a failed attempt has stopped a script, and what was sampled before it. -/
structure Breach (script : Script) where
  carried : Script
  action : Action
  left : Script
  taken : List LineWord
  refused : Attempt
  whole : script = carried ++ action :: left
  supplied : taken.length = carried.count .sample
  marked : action.refused? = some refused

section Trace

variable (halfPeriod : Nat)

def Breach.log {script : Script} (breach : Breach script) : List Attempt :=
  breach.carried.trace halfPeriod breach.taken ++ [breach.refused]

theorem trace_extended {script : Script} {samples : List LineWord} (supplied : samples.length = script.count .sample)
    (more : List LineWord) : script.trace halfPeriod (samples ++ more) = script.trace halfPeriod samples := by
  induction script generalizing samples with
  | nil => rfl
  | cons action rest ih =>
    cases action with
    | drive word => exact congrArg (Attempt.drive word true :: ·) (ih supplied)
    | wait => exact congrArg (Attempt.wait halfPeriod :: ·) (ih supplied)
    | sample =>
      rw [List.count_cons_self] at supplied
      obtain ⟨sample, samples, rfl⟩ := List.exists_cons_of_length_eq_add_one supplied
      exact congrArg (Attempt.sample (some sample) :: ·) (ih (Nat.succ.inj supplied))

theorem trace_joined {first : Script} {samples : List LineWord} (supplied : samples.length = first.count .sample)
    (rest : Script) (more : List LineWord) :
    (first ++ rest).trace halfPeriod (samples ++ more) =
      first.trace halfPeriod samples ++ rest.trace halfPeriod more := by
  rw [trace_append, trace_extended halfPeriod supplied, List.drop_left' supplied]

theorem trace_supplied {script : Script} {samples : List LineWord} (supplied : samples.length = script.count .sample) :
    false ∉ (script.trace halfPeriod samples).filterMap Attempt.done? ∧
      (script.trace halfPeriod samples).filterMap Attempt.answer? = samples := by
  induction script generalizing samples with
  | nil =>
    cases List.length_eq_zero_iff.mp supplied
    exact ⟨List.not_mem_nil, rfl⟩
  | cons action rest ih =>
    cases action with
    | drive word =>
      obtain ⟨done, answers⟩ := ih supplied
      exact ⟨List.not_mem_cons_of_ne_of_not_mem nofun done, answers⟩
    | wait => exact ih supplied
    | sample =>
      rw [List.count_cons_self] at supplied
      obtain ⟨sample, samples, rfl⟩ := List.exists_cons_of_length_eq_add_one supplied
      obtain ⟨done, answers⟩ := ih (Nat.succ.inj supplied)
      exact ⟨List.not_mem_cons_of_ne_of_not_mem nofun done, congrArg (sample :: ·) answers⟩

theorem attempts_trace (script : Script) (samples : List LineWord) :
    ((script.trace halfPeriod samples).filterMap Attempt.done?).length = script.attempts := by
  induction script generalizing samples with
  | nil => rfl
  | cons action rest ih =>
    cases action with
    | wait => exact ih samples
    | drive word => exact congrArg (· + 1) (ih samples)
    | sample => exact congrArg (· + 1) (ih samples.tail)

/-- Without the fault, the attempt that failed would have been followed by the rest of the script. -/
theorem trace_refused {action : Action} {refused : Attempt} (marked : action.refused? = some refused) (left : Script)
    (samples : List LineWord) :
    ∃ attempt after, trace halfPeriod (action :: left) samples = attempt :: after ∧ attempt.failed = refused ∧
      attempt.done?.isSome = true := by
  cases action <;> cases marked <;> exact ⟨_, _, rfl, rfl, rfl⟩

end Trace

variable {σ : Type} [Lines σ]

theorem play_breached {halfPeriod : Nat} {script : Script} {before after : Recorded σ} {cause : IoError}
    (played : script.play halfPeriod before = (.error cause, after)) :
    ∃ breach : Breach script, after.log = before.log ++ breach.log halfPeriod := by
  induction script generalizing before with
  | nil => cases played
  | cons action rest ih =>
    cases action with
    | wait =>
      rw [play] at played
      obtain ⟨breach, recorded⟩ := ih played
      exact ⟨{ breach with carried := .wait :: breach.carried, whole := congrArg _ breach.whole },
        recorded.trans (List.append_assoc ..)⟩
    | drive word =>
      rcases driven : Lines.drive word before.lines with ⟨_ | _, next⟩
      · simp only [play, Recorded.drive_eq, driven] at played
        cases played
        exact ⟨⟨[], .drive word, rest, [], _, rfl, rfl, rfl⟩, rfl⟩
      · simp only [play, Recorded.drive_eq, driven] at played
        obtain ⟨breach, recorded⟩ := ih played
        exact ⟨{ breach with carried := .drive word :: breach.carried, whole := congrArg _ breach.whole },
          recorded.trans (List.append_assoc ..)⟩
    | sample =>
      rcases sampled : Lines.sample before.lines with ⟨_ | word, next⟩
      · simp only [play, Recorded.sample_eq, sampled] at played
        cases played
        exact ⟨⟨[], .sample, rest, [], _, rfl, rfl, rfl⟩, rfl⟩
      · simp only [play, Recorded.sample_eq, sampled] at played
        rcases later : play halfPeriod rest (Recorded.mk next (before.log ++ [.sample (some word)]))
          with ⟨_ | others, last⟩
        · rw [later] at played
          cases played
          obtain ⟨breach, recorded⟩ := ih later
          have supplied : (word :: breach.taken).length = (Action.sample :: breach.carried).count .sample := by
            rw [List.length_cons, breach.supplied, List.count_cons_self]
          exact ⟨{ breach with
              carried := .sample :: breach.carried
              taken := word :: breach.taken
              whole := congrArg _ breach.whole
              supplied },
            recorded.trans (List.append_assoc ..)⟩
        · rw [later] at played
          cases played

theorem play_limited (halfPeriod : Nat) {script : Script} {number : Nat} (inside : number < script.attempts)
    {lines : ScriptedLines} (healthy : lines.faults.failing = [])
    (limited : lines.faults.limit = some (lines.faults.attempts + number))
    (enough : script.count .sample ≤ lines.samples.length) (log : List Attempt) :
    ∃ after attempts, script.play halfPeriod (Recorded.mk lines log) = (.error .transport, after) ∧
      after.log = log ++ attempts ∧
      attempts.filterMap Attempt.done? = List.replicate number true ++ [false] ∧
      attempts.filterMap Attempt.answer? <+: lines.samples := by
  induction script generalizing number lines log with
  | nil => cases inside
  | cons action rest ih =>
    have permits : lines.faults.attempt.1 = decide (0 < number) := by
      simp [FaultPlan.attempt, FaultPlan.permits, healthy, limited]
    -- An attempt that passes brings the limit one attempt closer.
    have closer {left : Nat} (more : number = left + 1) :
        lines.faults.attempt.2.limit = some (lines.faults.attempt.2.attempts + left) := by
      rw [FaultPlan.attempt, limited, more]
      exact congrArg some (Nat.add_right_comm lines.faults.attempts left 1)
    cases action with
    | wait =>
      obtain ⟨after, attempts, played, recorded, outcomes, answers⟩ :=
        @ih number inside (Lines.wait halfPeriod lines) healthy limited enough (log ++ [.wait halfPeriod])
      exact ⟨after, .wait halfPeriod :: attempts, played, recorded.trans (List.append_assoc ..), outcomes, answers⟩
    | drive word =>
      cases number with
      | zero =>
        have driven : Lines.drive word lines = (false, (Lines.drive word lines).2) := Prod.ext permits rfl
        refine ⟨⟨(Lines.drive word lines).2, log ++ [.drive word false]⟩, [.drive word false], ?_, rfl, rfl, List.nil_prefix⟩
        rw [play, Recorded.drive_eq, driven]
      | succ number =>
        have driven : Lines.drive word lines = (true, (Lines.drive word lines).2) := Prod.ext permits rfl
        obtain ⟨after, attempts, played, recorded, outcomes, answers⟩ :=
          @ih number (Nat.lt_of_succ_lt_succ inside) (Lines.drive word lines).2 healthy (closer rfl) enough
            (log ++ [.drive word true])
        refine ⟨after, .drive word true :: attempts, ?_, recorded.trans (List.append_assoc ..),
          congrArg (true :: ·) outcomes, answers⟩
        rw [play, Recorded.drive_eq, driven]
        exact played
    | sample =>
      rw [List.count_cons_self] at enough
      cases number with
      | zero =>
        have sampled : Lines.sample lines = (none, (Lines.sample lines).2) := by
          rw [ScriptedLines.sample_refused permits]
        refine ⟨⟨(Lines.sample lines).2, log ++ [.sample none]⟩, [.sample none], ?_, rfl, rfl, List.nil_prefix⟩
        rw [play, Recorded.sample_eq, sampled]
      | succ number =>
        obtain ⟨samples, faults, events⟩ := lines
        obtain ⟨first, samples, rfl⟩ := List.exists_cons_of_length_pos (Nat.lt_of_lt_of_le (Nat.succ_pos _) enough)
        have sampled := @ScriptedLines.sample_permitted first samples faults events permits
        obtain ⟨after, attempts, played, recorded, outcomes, answers⟩ :=
          @ih number (Nat.lt_of_succ_lt_succ inside) ⟨samples, faults.attempt.2, events.push (.sample true)⟩ healthy
            (closer rfl) (Nat.le_of_succ_le_succ enough) (log ++ [.sample (some first)])
        refine ⟨after, .sample (some first) :: attempts, ?_, recorded.trans (List.append_assoc ..),
          congrArg (true :: ·) outcomes, (List.prefix_cons_inj first).mpr answers⟩
        rw [play, Recorded.sample_eq, sampled]
        simp only [played]
        rfl

end Script

/-- The part of a record that belongs to one phase. -/
structure Stretch where
  phase : Phase
  log : List Attempt

/-- A record ends with the attempt of this number of a frame, failed, in the phase to which it belongs. -/
def Truncates (frame : List Stretch) (number : Nat) (phase : Phase) (log : List Attempt) : Prop :=
  ∃ earlier before attempt rest later,
    frame = earlier ++ ⟨phase, before ++ attempt :: rest⟩ :: later ∧
    attempt.done? = some true ∧
    ((earlier.flatMap Stretch.log ++ before).filterMap Attempt.done?).length = number ∧
    log = earlier.flatMap Stretch.log ++ before ++ [attempt.failed]

namespace Frame

variable (halfPeriod : Nat)

theorem script_cons (segment : Segment) (rest : List Segment) :
    script (segment :: rest) = segment.script ++ script rest := rfl

/-- The record of a frame that is carried out, cut where its phase changes. -/
def record : List Segment → List LineWord → List Stretch
  | [], _ => []
  | segment :: rest, samples =>
    ⟨segment.phase, segment.script.trace halfPeriod samples⟩ ::
      record rest (samples.drop (segment.script.count .sample))

theorem flatMap_record (segments : List Segment) (samples : List LineWord) :
    (record halfPeriod segments samples).flatMap Stretch.log = (script segments).trace halfPeriod samples := by
  induction segments generalizing samples with
  | nil => rfl
  | cons segment rest ih => rw [record, List.flatMap_cons, ih, script_cons, Script.trace_append]

theorem record_append (first rest : List Segment) (samples : List LineWord) :
    record halfPeriod (first ++ rest) samples =
      record halfPeriod first samples ++ record halfPeriod rest (samples.drop ((script first).count .sample)) := by
  induction first generalizing samples with
  | nil => rfl
  | cons segment first ih =>
    rw [List.cons_append, record, ih, record, List.drop_drop, script_cons, List.count_append, List.cons_append]

/-- Where a failed attempt has stopped a frame. -/
structure Breach (segments : List Segment) where
  earlier : List Segment
  segment : Segment
  later : List Segment
  taken : List LineWord
  point : segment.script.Breach
  whole : segments = earlier ++ segment :: later
  supplied : taken.length = (script earlier).count .sample

variable {halfPeriod} {segments : List Segment}

def Breach.before (halfPeriod : Nat) (breach : Breach segments) : List Attempt :=
  (script breach.earlier).trace halfPeriod breach.taken ++ breach.point.carried.trace halfPeriod breach.point.taken

def Breach.log (halfPeriod : Nat) (breach : Breach segments) : List Attempt :=
  breach.before halfPeriod ++ [breach.point.refused]

theorem Breach.before_supplied (breach : Breach segments) :
    false ∉ (breach.before halfPeriod).filterMap Attempt.done? ∧
      (breach.before halfPeriod).filterMap Attempt.answer? = breach.taken ++ breach.point.taken := by
  obtain ⟨earlier, heard⟩ := Script.trace_supplied halfPeriod breach.supplied
  obtain ⟨carried, sampled⟩ := Script.trace_supplied halfPeriod breach.point.supplied
  rw [Breach.before, List.filterMap_append, List.filterMap_append, heard, sampled]
  exact ⟨fun failed => (List.mem_append.mp failed).elim earlier carried, rfl⟩

theorem Breach.outcomes (breach : Breach segments) :
    (breach.log halfPeriod).filterMap Attempt.done? =
      (breach.before halfPeriod).filterMap Attempt.done? ++ [false] := by
  rw [Breach.log, List.filterMap_append, List.filterMap_cons_some (Action.refused_outcome breach.point.marked).1,
    List.filterMap_nil]

theorem Breach.first (breach : Breach segments) :
    ((breach.log halfPeriod).filterMap Attempt.done?).findIdx? (· = false) =
      some ((breach.before halfPeriod).filterMap Attempt.done?).length := by
  have none : ((breach.before halfPeriod).filterMap Attempt.done?).findIdx? (· = false) = none := by
    rw [List.findIdx?_eq_none_iff]
    intro done member
    exact decide_eq_false fun failed => breach.before_supplied.1 (failed ▸ member)
  rw [breach.outcomes, List.findIdx?_append, none]
  simp

theorem Breach.answers (breach : Breach segments) :
    (breach.log halfPeriod).filterMap Attempt.answer? = breach.taken ++ breach.point.taken := by
  rw [Breach.log, List.filterMap_append, List.filterMap_cons_none (Action.refused_outcome breach.point.marked).2,
    List.filterMap_nil, List.append_nil, breach.before_supplied.2]

/-- Without the fault, the attempt that failed would have belonged to the same phase. -/
theorem Breach.truncates (breach : Breach segments) {samples : List LineWord}
    (supplied : samples.length = (script segments).count .sample)
    (same : breach.taken ++ breach.point.taken <+: samples) :
    Truncates (record halfPeriod segments samples) ((breach.before halfPeriod).filterMap Attempt.done?).length
      breach.segment.phase (breach.log halfPeriod) := by
  obtain ⟨earlier, segment, later, taken, point, rfl, opened⟩ := breach
  -- Up to the fault the frame has seen the samples that it would have seen without it, so it has left the same trace.
  obtain ⟨more, rfl⟩ := same
  obtain ⟨attempt, rest, traced, failed, counts⟩ := Script.trace_refused halfPeriod point.marked point.left more
  have before : (record halfPeriod earlier (taken ++ point.taken ++ more)).flatMap Stretch.log =
      (script earlier).trace halfPeriod taken := by
    rw [flatMap_record, List.append_assoc, Script.trace_extended halfPeriod opened]
  have during : segment.script.trace halfPeriod (point.taken ++ more) =
      point.carried.trace halfPeriod point.taken ++ attempt :: rest := by
    have spelled := congrArg (Script.trace halfPeriod · (point.taken ++ more)) point.whole
    rw [spelled, Script.trace_joined halfPeriod point.supplied, traced]
  have cut : record halfPeriod (earlier ++ segment :: later) (taken ++ point.taken ++ more) =
      record halfPeriod earlier (taken ++ point.taken ++ more) ++
        ⟨segment.phase, point.carried.trace halfPeriod point.taken ++ attempt :: rest⟩ ::
          record halfPeriod later ((point.taken ++ more).drop (segment.script.count .sample)) := by
    rw [record_append, record, List.append_assoc, List.drop_left' opened, during]
  refine ⟨_, _, attempt, rest, _, cut, ?_, ?_, ?_⟩
  · obtain ⟨done, counted⟩ := Option.isSome_iff_exists.mp counts
    cases done with
    | true => exact counted
    | false =>
      have whole := (Script.trace_supplied halfPeriod supplied).1
      rw [← flatMap_record, cut] at whole
      exact absurd (List.mem_filterMap.mpr ⟨attempt, by simp, counted⟩) whole
  · rw [before, Breach.before]
  · rw [before, failed]
    rfl

end Frame

namespace Engine

variable {σ : Type} [Lines σ]

theorem transmit_breached {segments : List Segment} {before after : Engine (Recorded σ)} {cause : IoError}
    (sent : before.transmit segments = (.error cause, after)) :
    ∃ breach : Frame.Breach segments, cause = .transport ∧
      after.station.lines.log = before.station.lines.log ++ breach.log before.station.halfPeriod ∧
      after.phase = breach.segment.phase ∧ after.stats = before.stats := by
  induction segments generalizing before with
  | nil => cases sent
  | cons segment rest ih =>
    rw [transmit, Station.perform] at sent
    rcases played : segment.script.play before.station.halfPeriod before.station.lines with ⟨_ | samples, lines⟩
    · simp only [played] at sent
      cases sent
      obtain ⟨point, recorded⟩ := Script.play_breached played
      exact ⟨⟨[], segment, rest, [], point, rfl, rfl⟩, Script.play_error played, recorded, rfl, rfl⟩
    · obtain ⟨supplied, opened⟩ := Script.log_played played
      let next := { before with station := ⟨lines, before.station.halfPeriod⟩, phase := segment.phase }
      simp only [played] at sent
      rcases remaining : next.transmit rest with ⟨_ | later, last⟩
      · simp only [next] at remaining
        simp only [remaining] at sent
        cases sent
        obtain ⟨breach, transport, recorded, phase, stats⟩ := ih remaining
        -- What this segment sampled comes before what the later ones did.
        have enough : (samples ++ breach.taken).length = (Frame.script (segment :: breach.earlier)).count .sample := by
          rw [List.length_append, Frame.script_cons, List.count_append, supplied, breach.supplied]
        refine ⟨⟨segment :: breach.earlier, breach.segment, breach.later, _, breach.point, congrArg _ breach.whole,
          enough⟩, transport, ?_, phase, stats⟩
        have joined := Script.trace_joined before.station.halfPeriod supplied (Frame.script breach.earlier) breach.taken
        rw [← Frame.script_cons] at joined
        simp only [recorded, opened, Frame.Breach.log, Frame.Breach.before, joined, List.append_assoc]
      · simp only [next] at remaining
        simp only [remaining] at sent
        cases sent

theorem transmit_whole {segments : List Segment} {before after : Engine (Recorded σ)} {samples : List LineWord}
    (sent : before.transmit segments = (.ok samples, after)) :
    samples.length = (Frame.script segments).count .sample ∧
    after.station.lines.log =
      before.station.lines.log ++ (Frame.script segments).trace before.station.halfPeriod samples := by
  rcases played : (Frame.script segments).play before.station.halfPeriod before.station.lines
    with ⟨_ | others, lines⟩
  · obtain ⟨_, _, failed⟩ := transmit_error played
    rw [failed] at sent
    cases sent
  · rw [transmit_ok played] at sent
    cases sent
    exact Script.log_played played

end Engine

namespace WireForm

variable (halfPeriod : Nat)

def sent (bits : List Bool) : List Attempt :=
  bits.flatMap (drivenBit halfPeriod)

def header (opcode : List Bool) (phy reg : Nat) : List Stretch :=
  [⟨.preamble, opening halfPeriod (List.replicate 32 true)⟩,
    ⟨.start, sent halfPeriod [false, true]⟩,
    ⟨.opcode, sent halfPeriod opcode⟩,
    ⟨.phyAddress, sent halfPeriod (Bits.spell 5 phy)⟩,
    ⟨.regAddress, sent halfPeriod (Bits.spell 5 reg)⟩]

def trailer : Stretch :=
  ⟨.trailingTurnaround, releasedCycle halfPeriod ++ releasedCycle halfPeriod⟩

/-- The record of a call on lines without a fault that answer these samples, cut where its phase changes. -/
def frame (check : TurnaroundCheck) (samples : List LineWord) : Engine.Call → List Stretch
  | .read phy reg =>
    let checked := if check = .verify then 1 else 0
    header halfPeriod [true, false] phy reg ++
      [⟨.turnaround, releasedCycle halfPeriod ++ (samples.take checked).map (fun sample => .sample (some sample)) ++
          releasedCycle halfPeriod⟩,
        ⟨.dataIn, (samples.drop checked).flatMap (sampledBit halfPeriod)⟩,
        trailer halfPeriod]
  | .write phy reg value =>
    header halfPeriod [false, true] phy reg ++
      [⟨.turnaround, sent halfPeriod [true, false]⟩,
        ⟨.dataOut, sent halfPeriod (Bits.spell 16 value.toNat)⟩,
        trailer halfPeriod]
  | .recover => [⟨.preamble, burst halfPeriod (List.replicate 32 true)⟩]

end WireForm

namespace Frame

variable {halfPeriod : Nat}

theorem record_sent (phase : Phase) (word : BitVec 32) (count : Nat) (rest : List Segment) (samples : List LineWord) :
    record halfPeriod (⟨phase, Script.writeBits word count⟩ :: rest) samples =
      ⟨phase, WireForm.sent halfPeriod (Bits.send word count)⟩ :: record halfPeriod rest samples := by
  have spelled : Script.writeBits word count = Script.sendBits (Bits.send word count) := rfl
  rw [record, spelled, Script.trace_sendBits, Script.samplings_sendBits]
  rfl

theorem trace_preamble (rest : Script) (samples : List LineWord) :
    (preamble ++ rest).trace halfPeriod samples =
      WireForm.opening halfPeriod (List.replicate 32 true) ++ rest.trace halfPeriod samples := by
  have ones : Bits.send Wire.preamble Wire.preambleBits = List.replicate 32 true := by decide
  have spelled : preamble = .drive Wire.outputEnable :: Script.sendBits (List.replicate 32 true) := by
    rw [← ones]
    rfl
  rw [spelled, List.cons_append, Script.trace, Script.trace_append, Script.trace_sendBits, Script.samplings_sendBits]
  rfl

theorem record_preamble (rest : List Segment) (samples : List LineWord) :
    record halfPeriod (⟨.preamble, preamble⟩ :: rest) samples =
      ⟨.preamble, WireForm.opening halfPeriod (List.replicate 32 true)⟩ :: record halfPeriod rest samples := by
  have none : preamble.count .sample = 0 := by decide
  have opened : (preamble ++ []).trace halfPeriod samples = _ := trace_preamble [] samples
  rw [List.append_nil, Script.trace, List.append_nil] at opened
  rw [record, opened, none, List.drop_zero]

theorem record_header (opcode : BitVec 32) (phy reg : Nat) (rest : List Segment) (samples : List LineWord) :
    record halfPeriod (header opcode phy reg ++ rest) samples =
      WireForm.header halfPeriod (Bits.send opcode Wire.shortBits) phy reg ++ record halfPeriod rest samples := by
  have start : Bits.send Wire.start Wire.shortBits = [false, true] := by decide
  have short : Wire.addressBits ≤ 32 := by decide
  simp only [header, List.cons_append, List.nil_append, record_preamble, record_sent, start, Bits.send_ofNat short]
  rfl

theorem record_trailer (samples : List LineWord) :
    record halfPeriod [trailer] samples = [WireForm.trailer halfPeriod] := rfl

theorem record_answer (check : TurnaroundCheck) {samples : List LineWord}
    (supplied : samples.length = (releasedPart check).count .sample) :
    let checked := if check = .verify then 1 else 0
    record halfPeriod [⟨.turnaround, turnaround check⟩, ⟨.dataIn, Script.readBits Wire.dataBits⟩, trailer] samples =
      [⟨.turnaround, WireForm.releasedCycle halfPeriod ++
          (samples.take checked).map (fun sample => .sample (some sample)) ++ WireForm.releasedCycle halfPeriod⟩,
        ⟨.dataIn, (samples.drop checked).flatMap (WireForm.sampledBit halfPeriod)⟩,
        WireForm.trailer halfPeriod] := by
  intro checked
  have short : Wire.dataBits ≤ 32 := by decide
  have counted : (turnaround check).count .sample = checked := by cases check <;> rfl
  rw [releasedPart, List.count_append, List.count_append, counted, Script.samplings_readBits short] at supplied
  have enough : checked ≤ samples.length := supplied ▸ Nat.le_add_right ..
  have bits : Wire.dataBits = (samples.drop checked).length := by
    rw [List.length_drop, supplied]
    exact (Nat.add_sub_cancel_left ..).symm
  rw [record, record, record_trailer, counted, bits, Script.trace_readBits halfPeriod (bits ▸ short)]
  cases check with
  | ignore => rfl
  | verify =>
    -- A turnaround that is checked takes the first sample.
    obtain ⟨sample, data, rfl⟩ := List.exists_cons_of_length_pos enough
    rfl

theorem record_call (check : TurnaroundCheck) (call : Engine.Call) {samples : List LineWord}
    (supplied : samples.length = (script (call.segments check)).count .sample) :
    record halfPeriod (call.segments check) samples = WireForm.frame halfPeriod check samples call := by
  cases call with
  | read phy reg =>
    have opens : Action.drive Wire.outputEnable ≠ .sample := nofun
    rw [Engine.Call.segments, script_read, List.count_cons_of_ne opens, List.count_append, Script.samplings_sendBits,
      Nat.zero_add] at supplied
    have opcode : Bits.send Wire.opRead Wire.shortBits = [true, false] := by decide
    rw [Engine.Call.segments, read, record_header, record_answer check supplied, opcode]
    rfl
  | write phy reg value =>
    have opcode : Bits.send Wire.opWrite Wire.shortBits = [false, true] := by decide
    have turnaround : Bits.send Wire.turnaround Wire.shortBits = [true, false] := by decide
    have data : Wire.dataBits ≤ 32 := by decide
    rw [Engine.Call.segments, write, record_header, record_sent, record_sent, record_trailer, opcode, turnaround,
      ← BitVec.ofNat_toNat, Bits.send_ofNat data]
    rfl
  | recover =>
    rw [Engine.Call.segments, recovery, record, trace_preamble, record]
    rfl

end Frame

namespace Engine

def onLines (lines : τ) (engine : Engine σ) : Engine τ :=
  ⟨⟨lines, engine.station.halfPeriod⟩, engine.turnaround, engine.phase, engine.stats⟩

/-- The record that a call leaves when it is made over these lines. -/
def attempted [Lines τ] (lines : τ) (call : Call) (engine : Engine σ) : List Attempt :=
  (call.serve (engine.onLines (Recorded.mk lines []))).2.station.lines.log

variable {σ τ : Type} [Lines τ]

/-- A call that may start is cut short by a fault, or leaves its whole record. -/
theorem attempted_cases {engine : Engine σ} {call : Call}
    (startable : ∀ target ∈ call.target?, engine.phase = .idle ∧ Addressable target.1 target.2) (lines : τ) :
    (∃ breach : Frame.Breach (call.segments engine.turnaround),
      engine.attempted lines call = breach.log engine.station.halfPeriod ∧
      (call.serve (engine.onLines lines)).1 = call.failed (.io .transport) ∧
      (call.serve (engine.onLines lines)).2.phase = breach.segment.phase ∧
      (call.serve (engine.onLines lines)).2.stats = engine.stats) ∨
    ∃ samples : List LineWord, samples.length = (call.script engine).count .sample ∧
      engine.attempted lines call = (call.script engine).trace engine.station.halfPeriod samples := by
  let start := engine.onLines (Recorded.mk lines [])
  have ready : ∀ target ∈ call.target?, start.ready target.1 target.2 = .ok () :=
    fun target member => ready_ok (startable target member).1 (startable target member).2
  have watched : call.serve (engine.onLines lines) = ((call.serve start).1, (call.serve start).2.plain) :=
    serve_plain call start
  rcases sent : start.transmit (call.segments engine.turnaround) with ⟨cause | samples, after⟩
  · obtain ⟨breach, rfl, recorded, phase, stats⟩ := transmit_breached sent
    rw [Call.serve_abandoned ready sent] at watched
    refine .inl ⟨breach, ?_, ?_, ?_, ?_⟩
    · rw [attempted, Call.serve_abandoned ready sent]
      exact recorded
    · rw [watched]
    · rw [watched]
      exact phase
    · rw [watched]
      exact stats
  · obtain ⟨supplied, recorded⟩ := transmit_whole sent
    refine .inr ⟨samples, supplied, ?_⟩
    rw [attempted, Call.serve_finished ready sent]
    exact recorded

theorem attempted_limited {engine : Engine σ} {call : Call}
    (startable : ∀ target ∈ call.target?, engine.phase = .idle ∧ Addressable target.1 target.2)
    {samples : List LineWord} (enough : (call.script engine).count .sample ≤ samples.length) {number : Nat}
    (inside : number < (call.script engine).attempts) :
    let log := engine.attempted ({ samples, faults.limit := some number } : ScriptedLines) call
    log.filterMap Attempt.answer? <+: samples ∧
      (log.filterMap Attempt.done?).findIdx? (· = false) = some number := by
  intro log
  let lines : ScriptedLines := { samples, faults.limit := some number }
  let start := engine.onLines (Recorded.mk lines [])
  have ready : ∀ target ∈ call.target?, start.ready target.1 target.2 = .ok () :=
    fun target member => ready_ok (startable target member).1 (startable target member).2
  have limited : lines.faults.limit = some (lines.faults.attempts + number) := congrArg some (Nat.zero_add number).symm
  obtain ⟨after, attempts, played, recorded, outcomes, answers⟩ :=
    Script.play_limited engine.station.halfPeriod inside rfl limited enough []
  obtain ⟨segment, -, sent⟩ := @transmit_error _ _ (call.segments engine.turnaround) start _ _ played
  have same : log = attempts := by
    have served := congrArg (fun run => run.2.station.lines.log) (Call.serve_abandoned ready sent)
    exact served.trans recorded
  rw [same, outcomes, List.findIdx?_append]
  exact ⟨answers, by simp⟩

theorem attempted_supplied {engine : Engine σ} {call : Call}
    (startable : ∀ target ∈ call.target?, engine.phase = .idle ∧ Addressable target.1 target.2) {lines : τ}
    {samples : List LineWord} (supplies : Lines.Supplies engine.station.halfPeriod samples lines)
    (enough : (call.script engine).count .sample ≤ samples.length) :
    engine.attempted lines call =
      (call.script engine).trace engine.station.halfPeriod (samples.take ((call.script engine).count .sample)) := by
  let start := engine.onLines (Recorded.mk lines [])
  have ready : ∀ target ∈ call.target?, start.ready target.1 target.2 = .ok () :=
    fun target member => ready_ok (startable target member).1 (startable target member).2
  obtain ⟨after, played, -, recorded⟩ := @Script.play_supplied _ _ _ _ _ enough (Recorded.mk lines []) supplies
  have sent := @transmit_ok _ _ (call.segments engine.turnaround) start _ _ played
  have served := congrArg (fun run => run.2.station.lines.log) (Call.serve_finished ready sent)
  exact served.trans recorded

variable [Lines σ]

/-- Let a call that may start run into its first fault at some attempt, and make it also on lines without a fault
that answer the same samples. Its record is that of the other call up to and including the attempt, which is its
last. The engine is left in the phase in which the other call makes that attempt, and counts nothing. Whatever
attempt of the other call is chosen, there are lines on which it is the first to fail. -/
theorem faults_truncate (engine : Engine σ) (steady : τ) (call : Call)
    (startable : ∀ target ∈ call.target?, engine.phase = .idle ∧ Addressable target.1 target.2) :
    let log := engine.attempted engine.station.lines call
    let whole := engine.attempted steady call
    let frame := WireForm.frame engine.station.halfPeriod engine.turnaround (whole.filterMap Attempt.answer?) call
    false ∉ whole.filterMap Attempt.done? →
    (log.filterMap Attempt.answer? <+: whole.filterMap Attempt.answer? →
      ∀ number, (log.filterMap Attempt.done?).findIdx? (· = false) = some number →
        (call.serve engine).1 = call.failed (.io .transport) ∧
        (call.serve engine).2.stats = engine.stats ∧
        whole = frame.flatMap Stretch.log ∧
        Truncates frame number (call.serve engine).2.phase log) ∧
    ∀ number < (whole.filterMap Attempt.done?).length, ∃ lines : ScriptedLines,
      let cut := engine.attempted lines call
      cut.filterMap Attempt.answer? <+: whole.filterMap Attempt.answer? ∧
      (cut.filterMap Attempt.done?).findIdx? (· = false) = some number := by
  intro log whole frame carried
  obtain ⟨breach, recorded, -⟩ | ⟨samples, supplied, recorded⟩ := attempted_cases startable steady
  · have cutShort : whole = breach.log engine.station.halfPeriod := recorded
    rw [cutShort, breach.outcomes] at carried
    exact absurd List.mem_concat_self carried
  have finished : whole = (call.script engine).trace engine.station.halfPeriod samples := recorded
  have answers : whole.filterMap Attempt.answer? = samples := by
    rw [finished]
    exact (Script.trace_supplied _ supplied).2
  refine ⟨fun same number first => ?_, fun number inside => ?_⟩
  · have cut : Frame.record engine.station.halfPeriod (call.segments engine.turnaround) samples = frame := by
      rw [Frame.record_call engine.turnaround call supplied, ← answers]
    obtain ⟨breach, recorded, refused, phase, stats⟩ | ⟨taken, enough, recorded⟩ :=
      attempted_cases startable engine.station.lines
    · have cutShort : log = breach.log engine.station.halfPeriod := recorded
      have left : (call.serve engine).2.phase = breach.segment.phase := phase
      rw [cutShort, breach.first] at first
      rw [cutShort, breach.answers, answers] at same
      rw [left, ← cut, cutShort, ← Option.some.inj first, Frame.flatMap_record]
      exact ⟨refused, stats, finished, breach.truncates supplied same⟩
    · have unharmed : log = (call.script engine).trace engine.station.halfPeriod taken := recorded
      rw [unharmed] at first
      obtain ⟨inside, failed, -⟩ := List.findIdx?_eq_some_iff_getElem.mp first
      exact absurd (of_decide_eq_true failed ▸ List.getElem_mem inside) (Script.trace_supplied _ enough).1
  · rw [finished, Script.attempts_trace] at inside
    rw [answers]
    exact ⟨_, attempted_limited startable (Nat.le_of_eq supplied.symm) inside⟩

/-- A checked read whose third data sample fails, a write that fails in its last edge, and a recovery that fails from
the middle of a write. There are 139 attempts in a header, and three for each bit that is sent or read. -/
theorem faults_truncate_sampling :
    let struck (samples : List LineWord) (number : Nat) (phase : Phase) : Engine ScriptedLines :=
      { create { samples, faults.limit := some number } { turnaround := .verify } with phase }
    let left (samples : List LineWord) (number : Nat) (call : Call) (before after : Phase) : Prop :=
      let engine := struck samples number before
      (call.serve engine).2.phase = after ∧
      Truncates (WireForm.frame 1000 .verify samples call) number after (engine.attempted engine.station.lines call)
    left (0 :: List.replicate 16 1) 150 (.read 3 4) .idle .dataIn ∧
    left [] 196 (.write 3 4 0xBEEF) .idle .trailingTurnaround ∧ left [] 99 .recover .dataOut .preamble := by
  intro struck left
  have cut (samples : List LineWord) (number : Nat) (call : Call) (before after : Phase)
      (startable : ∀ target ∈ call.target?, before = .idle ∧ Addressable target.1 target.2)
      (supplied : samples.length = (call.script (struck samples number before)).count .sample)
      (inside : number < (call.script (struck samples number before)).attempts)
      (reached : (call.serve (struck samples number before)).2.phase = after) :
      left samples number call before after := by
    let engine := struck samples number before
    let steady : ScriptedLines := { samples }
    obtain ⟨shown, first⟩ := @attempted_limited _ engine _ startable _ (Nat.le_of_eq supplied.symm) _ inside
    have whole := @attempted_supplied _ _ _ engine _ startable steady samples
      (@ScriptedLines.supplies 1000 steady ⟨rfl, rfl⟩) (Nat.le_of_eq supplied.symm)
    rw [List.take_of_length_le (Nat.le_of_eq supplied)] at whole
    obtain ⟨carried, answers⟩ := Script.trace_supplied engine.station.halfPeriod supplied
    obtain ⟨truncated, -⟩ := faults_truncate engine steady call startable (by rw [whole]; exact carried)
    rw [whole, answers] at truncated
    obtain ⟨-, -, -, cut⟩ := truncated shown number first
    rw [reached] at cut
    exact ⟨reached, cut⟩
  refine ⟨cut _ _ _ _ _ ?_ ?_ ?_ ?_, cut _ _ _ _ _ ?_ ?_ ?_ ?_, cut _ _ _ _ _ ?_ ?_ ?_ ?_⟩
  all_goals decide +kernel

end Engine
end Clause22
