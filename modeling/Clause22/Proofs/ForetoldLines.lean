import Clause22.Proofs.FaultTruncation

/-! Lines matter only through their answers. Lines that repeat the answers recorded on other lines serve the same
calls in the same way, and leave the same record. -/

namespace Clause22

def Attempt.driven? : Attempt → Option Bool
  | .drive _ done => some done
  | _ => none

def Attempt.sampled? : Attempt → Option (Option LineWord)
  | .sample answer => some answer
  | _ => none

/-- Lines whose drives succeed or fail, and whose samples answer, as is foretold. -/
structure ForetoldLines where
  drives : List Bool
  samples : List (Option LineWord)
deriving DecidableEq

namespace ForetoldLines

instance : Lines ForetoldLines where
  drive _ lines := (lines.drives.headD false, { lines with drives := lines.drives.tail })
  sample lines := (lines.samples.headD none, { lines with samples := lines.samples.tail })
  wait _ lines := lines

/-- Lines that repeat the answers of a record. -/
def ofRecord (attempts : List Attempt) : ForetoldLines :=
  ⟨attempts.filterMap Attempt.driven?, attempts.filterMap Attempt.sampled?⟩

end ForetoldLines

def Recorded.foretold (attempts log : List Attempt) : Recorded ForetoldLines :=
  ⟨.ofRecord attempts, log⟩

variable {σ : Type} [Lines σ]

private theorem Script.play_sample_foretold (halfPeriod : Nat) (rest : Script) (word : LineWord)
    (attempts log : List Attempt) :
    play halfPeriod (.sample :: rest) (Recorded.foretold (.sample (some word) :: attempts) log) =
      let (samples, lines) := rest.play halfPeriod (Recorded.foretold attempts (log ++ [.sample (some word)]))
      (samples.map (word :: ·), lines) := rfl

theorem Script.play_foretold (halfPeriod : Nat) (script : Script) (recorded : Recorded σ) :
    ∃ attempts, (script.play halfPeriod recorded).2.log = recorded.log ++ attempts ∧
      ∀ later log, script.play halfPeriod (Recorded.foretold (attempts ++ later) log) =
        ((script.play halfPeriod recorded).1, Recorded.foretold later (log ++ attempts)) := by
  induction script generalizing recorded with
  | nil => exact ⟨[], (List.append_nil _).symm, fun later log => by rw [List.append_nil]; rfl⟩
  | cons action rest ih =>
    cases action with
    | wait =>
      obtain ⟨attempts, grown, alike⟩ := ih (Lines.wait halfPeriod recorded)
      refine ⟨.wait halfPeriod :: attempts, grown.trans (List.append_assoc ..), fun later log => ?_⟩
      have repeated := alike later (log ++ [.wait halfPeriod])
      rw [List.append_assoc] at repeated
      exact repeated
    | drive word =>
      rcases driven : Lines.drive word recorded.lines with ⟨_ | _, next⟩
      · simp only [play, Recorded.drive_eq, driven]
        exact ⟨[.drive word false], rfl, fun later log => rfl⟩
      · simp only [play, Recorded.drive_eq, driven]
        obtain ⟨attempts, grown, alike⟩ := ih ⟨next, recorded.log ++ [.drive word true]⟩
        refine ⟨.drive word true :: attempts, grown.trans (List.append_assoc ..), fun later log => ?_⟩
        have repeated := alike later (log ++ [.drive word true])
        rw [List.append_assoc] at repeated
        exact repeated
    | sample =>
      rcases sampled : Lines.sample recorded.lines with ⟨_ | word, next⟩
      · simp only [play, Recorded.sample_eq, sampled]
        exact ⟨[.sample none], rfl, fun later log => rfl⟩
      · simp only [play, Recorded.sample_eq, sampled]
        obtain ⟨attempts, grown, alike⟩ := ih ⟨next, recorded.log ++ [.sample (some word)]⟩
        refine ⟨.sample (some word) :: attempts, grown.trans (List.append_assoc ..), fun later log => ?_⟩
        have repeated := alike later (log ++ [.sample (some word)])
        rw [List.append_assoc] at repeated
        rw [List.cons_append]
        refine (play_sample_foretold ..).trans ?_
        rw [repeated]
        rfl

namespace Engine

def Exchange.detached (exchange : Exchange σ) : Exchange Unit :=
  exchange.mapLines fun _ => ()

theorem transmit_foretold (segments : List Segment) (engine : Engine (Recorded σ)) :
    ∃ attempts, (engine.transmit segments).2.station.lines.log = engine.station.lines.log ++ attempts ∧
      ∀ later log, (engine.onLines (Recorded.foretold (attempts ++ later) log)).transmit segments =
        ((engine.transmit segments).1,
          (engine.transmit segments).2.onLines (Recorded.foretold later (log ++ attempts))) := by
  induction segments generalizing engine with
  | nil => exact ⟨[], (List.append_nil _).symm, fun later log => by rw [List.append_nil]; rfl⟩
  | cons segment rest ih =>
    obtain ⟨first, opened, alike⟩ := segment.script.play_foretold engine.station.halfPeriod engine.station.lines
    rcases played : segment.script.play engine.station.halfPeriod engine.station.lines with ⟨_ | samples, lines⟩
    · rw [played] at opened alike
      simp only [transmit, Station.perform, onLines, played]
      exact ⟨first, opened, fun later log => by simp only [alike]⟩
    · rw [played] at opened alike
      obtain ⟨others, grown, repeated⟩ := ih { engine with station.lines := lines, phase := segment.phase }
      simp only [onLines] at repeated
      simp only [transmit, Station.perform, onLines, played]
      refine ⟨first ++ others, ?_, fun later log => ?_⟩
      · rw [grown, opened, List.append_assoc]
      · rw [List.append_assoc]
        simp only [alike, repeated, List.append_assoc]

theorem Call.serve_foretold (call : Call) (engine : Engine (Recorded σ)) :
    ∃ attempts, (call.serve engine).2.station.lines.log = engine.station.lines.log ++ attempts ∧
      ∀ later log, call.serve (engine.onLines (Recorded.foretold (attempts ++ later) log)) =
        ((call.serve engine).1, (call.serve engine).2.onLines (Recorded.foretold later (log ++ attempts))) := by
  by_cases ready : ∀ target ∈ call.target?, engine.ready target.1 target.2 = .ok ()
  · have alike (lines : Recorded ForetoldLines) :
        ∀ target ∈ call.target?, (engine.onLines lines).ready target.1 target.2 = .ok () := ready
    obtain ⟨attempts, grown, repeated⟩ := transmit_foretold (call.segments engine.turnaround) engine
    rcases sent : engine.transmit (call.segments engine.turnaround) with ⟨cause | samples, after⟩
    · rw [sent] at grown repeated
      rw [serve_abandoned ready sent]
      exact ⟨attempts, grown, fun later log =>
        serve_abandoned (alike (Recorded.foretold (attempts ++ later) log)) (repeated later log)⟩
    · rw [sent] at grown repeated
      rw [serve_finished ready sent]
      exact ⟨attempts, grown, fun later log =>
        serve_finished (alike (Recorded.foretold (attempts ++ later) log)) (repeated later log)⟩
  · simp only [Classical.not_forall] at ready
    obtain ⟨⟨phy, reg⟩, target, refused⟩ := ready
    cases reason : engine.ready phy reg with
    | ok => exact absurd reason refused
    | error cause =>
      rw [serve_refused target reason]
      refine ⟨[], (List.append_nil _).symm, fun later log => ?_⟩
      have alike : (engine.onLines (Recorded.foretold later log)).ready phy reg = .error cause := reason
      rw [List.append_nil]
      exact serve_refused target alike

theorem history_foretold (calls : List Call) (engine : Engine (Recorded σ)) :
    ∃ attempts, (afterCalls calls engine).station.lines.log = engine.station.lines.log ++ attempts ∧
      ∀ later log,
        let foretold := engine.onLines (Recorded.foretold (attempts ++ later) log)
        (history calls foretold).map Exchange.detached = (history calls engine).map Exchange.detached ∧
        (afterCalls calls foretold).station.lines = Recorded.foretold later (log ++ attempts) := by
  induction calls generalizing engine with
  | nil => exact ⟨[], (List.append_nil _).symm, fun later log => ⟨rfl, by rw [List.append_nil]; rfl⟩⟩
  | cons call rest ih =>
    obtain ⟨first, opened, alike⟩ := call.serve_foretold engine
    obtain ⟨others, grown, repeated⟩ := ih (call.serve engine).2
    refine ⟨first ++ others, ?_, fun later log => ?_⟩
    · rw [afterCalls, List.foldl_cons, ← List.append_assoc, ← opened]
      exact grown
    · obtain ⟨same, last⟩ := repeated later (log ++ first)
      rw [List.append_assoc] at last
      rw [List.append_assoc]
      simp only [history, afterCalls, List.map_cons, List.foldl_cons, exchange, alike]
      exact ⟨by rw [same]; rfl, last⟩

end Engine
end Clause22
