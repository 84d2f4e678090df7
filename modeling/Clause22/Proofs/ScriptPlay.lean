import Clause22.Engine

/-! A script fixes what the lines see: playing two scripts in turn is playing them joined, and a frame
cut into segments plays as one script. The cut only decides the phase in which a failure leaves the engine. -/

namespace Clause22

namespace Script

variable {σ : Type} [Lines σ]

theorem play_append (halfPeriod : Nat) (first rest : Script) (lines : σ) :
    (first ++ rest).play halfPeriod lines =
      match first.play halfPeriod lines with
      | (.error cause, lines) => (.error cause, lines)
      | (.ok samples, lines) =>
        let (later, lines) := rest.play halfPeriod lines
        (later.map (samples ++ ·), lines) := by
  induction first generalizing lines with
  | nil =>
    simp only [List.nil_append, play]
    rcases rest.play halfPeriod lines with ⟨_ | later, lines⟩ <;> rfl
  | cons action first ih =>
    cases action with
    | wait => exact ih _
    | drive word =>
      simp only [List.cons_append, play]
      rcases Lines.drive word lines with ⟨_ | _, lines⟩
      · rfl
      · exact ih lines
    | sample =>
      simp only [List.cons_append, play]
      rcases Lines.sample lines with ⟨_ | word, lines⟩
      · rfl
      · simp only [ih lines]
        rcases play halfPeriod first lines with ⟨_ | samples, lines⟩
        · rfl
        · dsimp only [Except.map]
          rcases play halfPeriod rest lines with ⟨_ | later, last⟩ <;> rfl

/-- The attempts of a script: its drives and samples, but not its waits. -/
def attempts : Script → Nat
  | [] => 0
  | .wait :: rest => attempts rest
  | .drive _ :: rest => attempts rest + 1
  | .sample :: rest => attempts rest + 1

/-- What is carried out of a script when every attempt after the first `count` fails. -/
def upTo : Nat → Script → Script
  | _, [] => []
  | count, .wait :: rest => .wait :: upTo count rest
  | 0, _ => []
  | count + 1, action :: rest => action :: upTo count rest

@[simp] theorem attempts_append (first rest : Script) :
    (first ++ rest).attempts = first.attempts + rest.attempts := by
  induction first with
  | nil => simp [attempts]
  | cons action first ih => cases action <;> simp only [List.cons_append, attempts, ih] <;> omega

theorem attempts_cons (action : Action) (rest : Script) :
    attempts (action :: rest) = attempts [action] + rest.attempts :=
  attempts_append [action] rest

end Script

def Frame.script (segments : List Segment) : Script :=
  segments.flatMap Segment.script

namespace Engine

variable {σ : Type} [Lines σ]

theorem transmit_ok {segments : List Segment} {engine : Engine σ} {samples : List LineWord} {lines : σ}
    (played : (Frame.script segments).play engine.station.halfPeriod engine.station.lines = (.ok samples, lines)) :
    engine.transmit segments = (.ok samples, { engine with station.lines := lines, phase := .idle }) := by
  induction segments generalizing engine samples with
  | nil =>
    cases played
    rfl
  | cons segment rest ih =>
    rw [Frame.script, List.flatMap_cons, Script.play_append] at played
    simp only [transmit, Station.perform]
    rcases first : segment.script.play engine.station.halfPeriod engine.station.lines with ⟨_ | samples, middle⟩
    · rw [first] at played
      cases played
    · rw [first] at played
      dsimp only at played ⊢
      rcases remaining : Script.play engine.station.halfPeriod (rest.flatMap Segment.script) middle
        with ⟨_ | later, last⟩
      · rw [remaining] at played
        cases played
      · rw [remaining] at played
        cases played
        let next : Engine σ :=
          { engine with station := ⟨middle, engine.station.halfPeriod⟩, phase := segment.phase }
        have rest_played : (Frame.script rest).play next.station.halfPeriod next.station.lines = (.ok later, last) :=
          remaining
        rw [ih rest_played]
        rfl

theorem transmit_error {segments : List Segment} {engine : Engine σ} {cause : IoError} {lines : σ}
    (played : (Frame.script segments).play engine.station.halfPeriod engine.station.lines = (.error cause, lines)) :
    ∃ segment ∈ segments, engine.transmit segments =
      (.error cause, { engine with station.lines := lines, phase := segment.phase }) := by
  induction segments generalizing engine with
  | nil => cases played
  | cons segment rest ih =>
    rw [Frame.script, List.flatMap_cons, Script.play_append] at played
    simp only [transmit, Station.perform]
    rcases first : segment.script.play engine.station.halfPeriod engine.station.lines with ⟨_ | samples, middle⟩
    · rw [first] at played
      cases played
      exact ⟨segment, by simp, rfl⟩
    · rw [first] at played
      dsimp only at played ⊢
      rcases remaining : Script.play engine.station.halfPeriod (rest.flatMap Segment.script) middle
        with ⟨_ | later, last⟩
      · rw [remaining] at played
        cases played
        let next : Engine σ :=
          { engine with station := ⟨middle, engine.station.halfPeriod⟩, phase := segment.phase }
        have rest_played : (Frame.script rest).play next.station.halfPeriod next.station.lines = (.error cause, last) :=
          remaining
        obtain ⟨failed, member, same⟩ := ih rest_played
        exact ⟨failed, by simp [member], by rw [same]; rfl⟩
      · rw [remaining] at played
        cases played

end Engine
end Clause22
