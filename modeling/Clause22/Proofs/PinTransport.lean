import Clause22.Lines.Gpio
import Clause22.Proofs.RecordedEdges

/-! The lines on two pins, told by the calls on the pins. A drive is two calls at most, and the engine sees no more of
them than whether the drive succeeded; so a run over pins is a run over lines without pins. The data pin is set
before the clock pin, so at a rising clock it already has the level of the bit. -/

namespace Clause22

/-- A call on a pin, and how it ended. -/
inductive PinCall
  | data (level done : Bool)
  | clock (level done : Bool)
  | read (level : Option Bool)
  | wait (nanoseconds : Nat)
deriving DecidableEq

namespace PinCall

def done : PinCall → Bool
  | .data _ done => done
  | .clock _ done => done
  | .read level => level.isSome
  | .wait _ => true

def delay? : PinCall → Option Nat
  | .wait nanoseconds => some nanoseconds
  | _ => none

end PinCall

/-- Any pins with a record of the calls on them. -/
structure RecordedPins (π : Type) where
  pins : π
  log : List PinCall := []

instance {π : Type} [Pins π] : Pins (RecordedPins π) where
  setData level recorded :=
    let (done, pins) := Pins.setData level recorded.pins
    (done, ⟨pins, recorded.log ++ [.data level done]⟩)
  setClock level recorded :=
    let (done, pins) := Pins.setClock level recorded.pins
    (done, ⟨pins, recorded.log ++ [.clock level done]⟩)
  readData recorded :=
    let (level, pins) := Pins.readData recorded.pins
    (level, ⟨pins, recorded.log ++ [.read level]⟩)
  wait nanoseconds recorded := ⟨Pins.wait nanoseconds recorded.pins, recorded.log ++ [.wait nanoseconds]⟩

/-- The levels of the data pin at which the clock pin rises, from the levels of both. -/
def RecordedPins.risingLevels : (data clock : Bool) → List PinCall → List Bool
  | _, _, [] => []
  | _, clock, .data level true :: rest => risingLevels level clock rest
  | data, clock, .clock level true :: rest => (if !clock && level then [data] else []) ++ risingLevels data level rest
  | data, clock, _ :: rest => risingLevels data clock rest

def Attempt.delay? : Attempt → Option Nat
  | .wait nanoseconds => some nanoseconds
  | _ => none

/-- What becomes of an attempt on the pins. -/
inductive PinStep
  /-- The data pin fails, and the clock pin is left alone. -/
  | stuck (lines : LineWord)
  | driven (lines : LineWord) (done : Bool)
  | sampled (level : Option Bool)
  | wait (nanoseconds : Nat)
deriving DecidableEq

namespace PinStep

/-- The data pin is set first. It is low only if the output is enabled and its bit clear. -/
def calls : PinStep → List PinCall
  | .stuck lines => [.data (!lines.getLsbD 1 || lines.getLsbD 2) false]
  | .driven lines done => [.data (!lines.getLsbD 1 || lines.getLsbD 2) true, .clock (lines.getLsbD 0) done]
  | .sampled level => [.read level]
  | .wait nanoseconds => [.wait nanoseconds]

/-- What a station sees of it. -/
def attempt : PinStep → Attempt
  | .stuck lines => .drive lines false
  | .driven lines done => .drive lines done
  | .sampled level => .sample (level.map fun high => if high then Wire.dataIn else 0)
  | .wait nanoseconds => .wait nanoseconds

theorem done_attempt (step : PinStep) : step.attempt.done?.all id = step.calls.all PinCall.done := by
  cases step with
  | stuck | wait => rfl
  | driven lines done => exact (Bool.and_true done).symm
  | sampled level => cases level <;> rfl

theorem delays_calls (steps : List PinStep) :
    (steps.flatMap calls).filterMap PinCall.delay? = (steps.map attempt).filterMap Attempt.delay? := by
  induction steps with
  | nil => rfl
  | cons step rest ih =>
    rw [List.flatMap_cons, List.filterMap_append, ih]
    cases step <;> rfl

theorem unharmed_attempts {steps : List PinStep} (done : ∀ call ∈ steps.flatMap calls, call.done = true) :
    Recorded.Unharmed (steps.map attempt) := by
  intro failed
  obtain ⟨attempt, member, refused⟩ := List.mem_filterMap.mp failed
  obtain ⟨step, made, rfl⟩ := List.mem_map.mp member
  have succeeded : step.calls.all PinCall.done = true :=
    List.all_eq_true.mpr fun call inside => done call (List.mem_flatMap_of_mem made inside)
  rw [← done_attempt, refused] at succeeded
  cases succeeded

theorem dataReleased_eq (lines : LineWord) : Wire.dataReleased lines = (!lines.getLsbD 1 || lines.getLsbD 2) := by
  decide +revert

theorem exists_levels (data clock : Bool) :
    ∃ lines : LineWord, Wire.dataReleased lines = data ∧ Wire.high Wire.clock lines = clock := by
  decide +revert

theorem high_clock (lines : LineWord) : Wire.high Wire.clock lines = lines.getLsbD 0 :=
  Wire.high_dataIn lines

end PinStep

/-- The level of the data line at an edge: a released line is pulled up. -/
def Edge.level : Edge → Bool
  | .driven bit => bit
  | .released => true

theorem Edge.level_between? (before after : LineWord) :
    (Edge.between? before after).toList.map Edge.level =
      if !Wire.high Wire.clock before && Wire.high Wire.clock after then [Wire.dataReleased after] else [] := by
  rw [Edge.between?, Wire.dataReleased]
  split
  · cases Wire.high Wire.outputEnable after <;> rfl
  · rfl

namespace RecordedPins

theorem risingLevels_calls {steps : List PinStep} (done : ∀ call ∈ steps.flatMap PinStep.calls, call.done = true)
    (lines : LineWord) :
    risingLevels (Wire.dataReleased lines) (Wire.high Wire.clock lines) (steps.flatMap PinStep.calls) =
      (Script.edges ((steps.map PinStep.attempt).map Attempt.action) lines).map Edge.level := by
  induction steps generalizing lines with
  | nil => rfl
  | cons step rest ih =>
    rw [List.flatMap_cons, List.forall_mem_append] at done
    cases step with
    | stuck word =>
      cases done.1 _ List.mem_cons_self
    | driven word succeeded =>
      obtain rfl : succeeded = true :=
        done.1 (.clock (word.getLsbD 0) succeeded) (List.mem_cons_of_mem _ List.mem_cons_self)
      simp only [List.flatMap_cons, PinStep.calls, ← PinStep.dataReleased_eq, ← PinStep.high_clock, List.cons_append,
        List.nil_append, risingLevels, List.map_cons, PinStep.attempt, Attempt.action, Script.edges, List.map_append,
        Edge.level_between?]
      exact congrArg _ (ih done.2 word)
    | sampled level => exact ih done.2 lines
    | wait nanoseconds => exact ih done.2 lines

end RecordedPins

namespace GpioLines

variable {π : Type}

/-- The record of the lines and that of their pins tell of the same steps. -/
def Told (lines : Recorded (GpioLines (RecordedPins π))) : Prop :=
  ∃ steps : List PinStep, lines.log = steps.map PinStep.attempt ∧ lines.lines.pins.log = steps.flatMap PinStep.calls

theorem Told.step {before after : Recorded (GpioLines (RecordedPins π))} (told : Told before) (step : PinStep)
    (attempted : after.log = before.log ++ [step.attempt])
    (called : after.lines.pins.log = before.lines.pins.log ++ step.calls) : Told after := by
  obtain ⟨steps, attempts, calls⟩ := told
  refine ⟨steps ++ [step], ?_, ?_⟩
  · rw [attempted, attempts, List.map_append, List.map_singleton]
  · rw [called, calls, List.flatMap_append, List.flatMap_singleton]

variable [Pins π]

def unrecorded (lines : GpioLines (RecordedPins π)) : GpioLines π :=
  ⟨lines.pins.pins⟩

theorem follows : Lines.Follows (unrecorded : GpioLines (RecordedPins π) → GpioLines π) := by
  refine ⟨fun word lines => ?_, fun _ => rfl, fun _ _ => rfl⟩
  rcases set : Pins.setData (Wire.dataReleased word) lines.pins.pins with ⟨_ | _, pins⟩
  · simp only [Lines.drive, drive, unrecorded, Pins.setData, set]
  · simp only [Lines.drive, drive, unrecorded, Pins.setData, Pins.setClock, set]

section Told

variable {lines : Recorded (GpioLines (RecordedPins π))} (told : Told lines)

include told

theorem told_drive (word : LineWord) : Told (Lines.drive word lines).2 := by
  rcases set : Pins.setData (Wire.dataReleased word) lines.lines.pins.pins with ⟨_ | _, pins⟩
  · refine told.step (.stuck word) ?_ ?_
    · simp only [Lines.drive, drive, Pins.setData, set, PinStep.attempt]
    · simp only [Lines.drive, drive, Pins.setData, set, PinStep.calls, ← PinStep.dataReleased_eq]
  · rcases clocked : Pins.setClock (Wire.high Wire.clock word) pins with ⟨done, last⟩
    refine told.step (.driven word done) ?_ ?_
    · simp only [Lines.drive, drive, Pins.setData, Pins.setClock, set, clocked, PinStep.attempt]
    · simp only [Lines.drive, drive, Pins.setData, Pins.setClock, set, clocked, PinStep.calls,
        ← PinStep.dataReleased_eq, ← PinStep.high_clock, List.append_assoc, List.singleton_append]

theorem told_sample : Told (Lines.sample lines).2 :=
  told.step (.sampled _) rfl rfl

theorem told_wait (nanoseconds : Nat) : Told (Lines.wait nanoseconds lines) :=
  told.step (.wait nanoseconds) rfl rfl

end Told

theorem told_play (halfPeriod : Nat) (script : Script) {lines : Recorded (GpioLines (RecordedPins π))}
    (told : Told lines) : Told (script.play halfPeriod lines).2 := by
  induction script generalizing lines with
  | nil => exact told
  | cons action rest ih =>
    cases action with
    | wait => exact ih (told_wait told halfPeriod)
    | drive word =>
      have next := told_drive told word
      rw [Script.play]
      rcases driven : Lines.drive word lines with ⟨_ | _, after⟩
      · rw [driven] at next
        exact next
      · rw [driven] at next
        exact ih next
    | sample =>
      have next := told_sample told
      rw [Script.play]
      rcases sampled : Lines.sample lines with ⟨_ | word, after⟩
      · rw [sampled] at next
        exact next
      · rw [sampled] at next
        exact ih next

end GpioLines

namespace Engine

open GpioLines

variable {π : Type} [Pins π]

theorem Call.Runs.told {call : Call} {before after : Engine (Recorded (GpioLines (RecordedPins π)))} {reply : Reply}
    (runs : call.Runs before reply after) (told : Told before.station.lines) : Told after.station.lines := by
  have played := told_play before.station.halfPeriod (call.script before) told
  cases runs with
  | refused => exact told
  | abandoned ready member failed =>
    rw [failed] at played
    exact played
  | finished ready finished =>
    rw [finished] at played
    exact played

theorem told_afterCalls (calls : List Call) {engine : Engine (Recorded (GpioLines (RecordedPins π)))}
    (told : Told engine.station.lines) : Told (afterCalls calls engine).station.lines := by
  induction calls generalizing engine with
  | nil => exact told
  | cons call rest ih => exact ih ((call.serve_runs engine).told told)

/-- A run over pins, with the calls that it makes on them, and what becomes of each of its attempts. The same calls over
lines without pins, whose drives and samples end as these attempts did, are replied to in the same way and leave the
same phases and counts; so do they over the pins without their record. As long as no call on the pins fails, the data
pin has the bit of the frame at every rising clock, and is high where the station has released the line. -/
theorem pins_realise_lines (pins : π) (config : Config) (calls : List Call) :
    let start := create (GpioLines.mk (RecordedPins.mk pins [])) config
    let log := (afterCalls calls start).station.lines.pins.log
    (history calls start).map (Exchange.mapLines GpioLines.unrecorded) =
      history calls (create (GpioLines.mk pins) config) ∧
    ∃ steps : List PinStep,
      let foretold := create (Recorded.foretold (steps.map PinStep.attempt) []) config
      log = steps.flatMap PinStep.calls ∧
      (afterCalls calls foretold).station.lines.log = steps.map PinStep.attempt ∧
      (history calls foretold).map Exchange.detached = (history calls start).map Exchange.detached ∧
      log.filterMap PinCall.delay? = (steps.map PinStep.attempt).filterMap Attempt.delay? ∧
      ((∀ call ∈ log, call.done = true) → ∀ data clock,
        RecordedPins.risingLevels data clock log = (calls.flatMap Call.edges).map Edge.level) := by
  intro start log
  refine ⟨history_following GpioLines.follows calls start, ?_⟩
  let watched := create (Recorded.mk (GpioLines.mk (RecordedPins.mk pins [])) []) config
  have alike : (history calls watched).map Exchange.plain = history calls start := history_plain calls watched
  have same : (afterCalls calls watched).plain = afterCalls calls start :=
    afterCalls_following Recorded.follows calls watched
  have told : Told (afterCalls calls watched).station.lines := told_afterCalls calls ⟨[], rfl, rfl⟩
  obtain ⟨steps, attempted, called⟩ := told
  have pinLog : log = steps.flatMap PinStep.calls := by
    rw [← called]
    exact congrArg (·.station.lines.pins.log) same.symm
  obtain ⟨attempts, grown, repeated⟩ := history_foretold calls watched
  obtain rfl : attempts = steps.map PinStep.attempt := by
    rw [← attempted, grown]
    rfl
  obtain ⟨served, record⟩ := repeated [] []
  rw [List.append_nil] at served record
  refine ⟨steps, pinLog, congrArg Recorded.log record, ?_, ?_, fun done data clock => ?_⟩
  · rw [← alike, List.map_map]
    exact served
  · rw [pinLog, PinStep.delays_calls]
  · rw [pinLog] at done
    have unharmed := PinStep.unharmed_attempts done
    rw [← attempted] at unharmed
    obtain ⟨others, recorded, edges⟩ := edges_afterCalls calls rfl unharmed
    obtain rfl : others = steps.map PinStep.attempt := by
      rw [← attempted, recorded]
      rfl
    obtain ⟨lines, rfl, rfl⟩ := PinStep.exists_levels data clock
    rw [pinLog, RecordedPins.risingLevels_calls done, edges]

/-- A recovery on pins that do not fail, and a read that no frame can carry. -/
theorem pins_realise_lines_recovery :
    let calls : List Call := [.recover, .read 40 2]
    let start := create (GpioLines.mk (RecordedPins.mk ({} : ScriptedPins) [])) {}
    let log := (afterCalls calls start).station.lines.pins.log
    (∀ call ∈ log, call.done = true) ∧ RecordedPins.risingLevels true true log = List.replicate 34 true := by
  intro calls start log
  obtain ⟨-, steps, -, -, -, -, rising⟩ := pins_realise_lines ({} : ScriptedPins) {} calls
  subst log start
  have done : ∀ call ∈ (afterCalls calls (create (GpioLines.mk (RecordedPins.mk ({} : ScriptedPins) []))
      {})).station.lines.pins.log, call.done = true := by decide +kernel
  exact ⟨done, (rising done true true).trans (by decide)⟩

end Engine
end Clause22
