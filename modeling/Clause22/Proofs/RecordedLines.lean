import Clause22.Proofs.ScriptPlay

/-! Any lines with a record of what happened on them. A part of some lines that answers every single attempt as the
whole does answers every frame as the whole does. So the record changes nothing: what holds of every recorded run
holds of the lines alone, and claims about attempts can be read off the record. -/

namespace Clause22

/-- A part of some lines that answers as they do and changes as it changes in them. -/
structure Lines.Follows {σ τ : Type} [Lines σ] [Lines τ] (part : σ → τ) : Prop where
  drive : ∀ word lines, Lines.drive word (part lines) = ((Lines.drive word lines).1, part (Lines.drive word lines).2)
  sample : ∀ lines, Lines.sample (part lines) = ((Lines.sample lines).1, part (Lines.sample lines).2)
  wait : ∀ nanoseconds lines, Lines.wait nanoseconds (part lines) = part (Lines.wait nanoseconds lines)

section Following

variable {σ τ : Type} [Lines σ] [Lines τ] {part : σ → τ}

theorem Script.play_following (follows : Lines.Follows part) (halfPeriod : Nat) (script : Script) (lines : σ) :
    script.play halfPeriod (part lines) =
      ((script.play halfPeriod lines).1, part (script.play halfPeriod lines).2) := by
  induction script generalizing lines with
  | nil => rfl
  | cons action rest ih =>
    cases action with
    | wait =>
      rw [play, follows.wait]
      exact ih _
    | drive word =>
      have alike := follows.drive word lines
      rcases driven : Lines.drive word lines with ⟨_ | _, next⟩
      · simp only [play, alike, driven]
      · simp only [play, alike, driven]
        exact ih next
    | sample =>
      have alike := follows.sample lines
      rcases sampled : Lines.sample lines with ⟨_ | word, next⟩
      · simp only [play, alike, sampled]
      · simp only [play, alike, sampled]
        rw [ih next]

namespace Engine

def mapLines (part : σ → τ) (engine : Engine σ) : Engine τ :=
  ⟨⟨part engine.station.lines, engine.station.halfPeriod⟩, engine.turnaround, engine.phase, engine.stats⟩

theorem transmit_following (follows : Lines.Follows part) (segments : List Segment) (engine : Engine σ) :
    (engine.mapLines part).transmit segments =
      ((engine.transmit segments).1, (engine.transmit segments).2.mapLines part) := by
  induction segments generalizing engine with
  | nil => rfl
  | cons segment rest ih =>
    have same := segment.script.play_following follows engine.station.halfPeriod engine.station.lines
    rcases played : segment.script.play engine.station.halfPeriod engine.station.lines with ⟨_ | samples, lines⟩
    · rw [played] at same
      simp only [transmit, Station.perform, mapLines, same, played]
    · rw [played] at same
      have later := ih { engine with station.lines := lines, phase := segment.phase }
      simp only [mapLines] at later
      simp only [transmit, Station.perform, mapLines, same, played, later]

end Engine

end Following

inductive Attempt
  | drive (lines : LineWord) (done : Bool)
  | sample (answer : Option LineWord)
  | wait (nanoseconds : Nat)
deriving DecidableEq

structure Recorded (σ : Type) where
  lines : σ
  log : List Attempt := []

variable {σ : Type} [Lines σ]

instance : Lines (Recorded σ) where
  drive word recorded :=
    let (done, lines) := Lines.drive word recorded.lines
    (done, ⟨lines, recorded.log ++ [.drive word done]⟩)
  sample recorded :=
    let (answer, lines) := Lines.sample recorded.lines
    (answer, ⟨lines, recorded.log ++ [.sample answer]⟩)
  wait nanoseconds recorded :=
    ⟨Lines.wait nanoseconds recorded.lines, recorded.log ++ [.wait nanoseconds]⟩

namespace Recorded

theorem follows : Lines.Follows (Recorded.lines : Recorded σ → σ) :=
  ⟨fun _ _ => rfl, fun _ => rfl, fun _ _ => rfl⟩

theorem drive_eq (word : LineWord) (recorded : Recorded σ) :
    Lines.drive word recorded =
      let (done, lines) := Lines.drive word recorded.lines
      (done, ⟨lines, recorded.log ++ [.drive word done]⟩) := rfl

theorem sample_eq (recorded : Recorded σ) :
    Lines.sample recorded =
      let (answer, lines) := Lines.sample recorded.lines
      (answer, ⟨lines, recorded.log ++ [.sample answer]⟩) := rfl

/-- The words driven, in order, each with whether its attempt succeeded. -/
def drives (recorded : Recorded σ) : List (LineWord × Bool) :=
  recorded.log.filterMap fun
    | .drive lines done => some (lines, done)
    | _ => none

end Recorded

namespace Script

def drives (script : Script) : List LineWord :=
  script.filterMap fun
    | .drive lines => some lines
    | _ => none

@[simp] theorem drives_append (first rest : Script) : (first ++ rest).drives = first.drives ++ rest.drives :=
  List.filterMap_append ..

theorem play_error {halfPeriod : Nat} {script : Script} {before after : σ} {cause : IoError}
    (played : script.play halfPeriod before = (.error cause, after)) : cause = .transport := by
  induction script generalizing before with
  | nil => cases played
  | cons action rest ih =>
    cases action with
    | wait => exact ih played
    | drive word =>
      rcases driven : Lines.drive word before with ⟨_ | _, next⟩
      · simp only [play, driven] at played
        cases played
        rfl
      · simp only [play, driven] at played
        exact ih played
    | sample =>
      rcases sampled : Lines.sample before with ⟨_ | word, next⟩
      · simp only [play, sampled] at played
        cases played
        rfl
      · rcases later : play halfPeriod rest next with ⟨_ | samples, last⟩
        · simp only [play, sampled, later] at played
          cases played
          exact ih later
        · simp only [play, sampled, later] at played
          cases played

theorem play_recorded (halfPeriod : Nat) (script : Script) (recorded : Recorded σ) :
    script.play halfPeriod recorded.lines =
      ((script.play halfPeriod recorded).1, (script.play halfPeriod recorded).2.lines) :=
  play_following Recorded.follows halfPeriod script recorded

theorem log_play (halfPeriod : Nat) (script : Script) (recorded : Recorded σ) :
    recorded.log <+: (script.play halfPeriod recorded).2.log := by
  induction script generalizing recorded with
  | nil => exact List.prefix_rfl
  | cons action rest ih =>
    cases action with
    | wait => exact (List.prefix_append ..).trans (ih ⟨_, _⟩)
    | drive word =>
      rcases driven : Lines.drive word recorded.lines with ⟨_ | _, next⟩
      · simp only [play, Recorded.drive_eq, driven]
        exact List.prefix_append ..
      · simp only [play, Recorded.drive_eq, driven]
        exact (List.prefix_append ..).trans (ih ⟨next, _⟩)
    | sample =>
      rcases sampled : Lines.sample recorded.lines with ⟨_ | word, next⟩
      · simp only [play, Recorded.sample_eq, sampled]
        exact List.prefix_append ..
      · simp only [play, Recorded.sample_eq, sampled]
        exact (List.prefix_append ..).trans (ih ⟨next, _⟩)

/-- A script that opens with a drive leaves a trace of it, even if the attempt fails. -/
theorem log_play_drive (halfPeriod : Nat) (word : LineWord) (rest : Script) (recorded : Recorded σ) :
    (play halfPeriod (.drive word :: rest) recorded).2.log ≠ recorded.log := by
  have first : ∃ done,
      recorded.log ++ [.drive word done] <+: (play halfPeriod (.drive word :: rest) recorded).2.log := by
    rcases driven : Lines.drive word recorded.lines with ⟨_ | _, next⟩
    · simp only [play, Recorded.drive_eq, driven]
      exact ⟨false, List.prefix_rfl⟩
    · simp only [play, Recorded.drive_eq, driven]
      exact ⟨true, log_play halfPeriod rest ⟨next, _⟩⟩
  intro unchanged
  obtain ⟨done, grown⟩ := first
  rw [unchanged] at grown
  have shorter := grown.length_le
  rw [List.length_append, List.length_singleton] at shorter
  exact Nat.not_succ_le_self _ shorter

theorem drives_play {halfPeriod : Nat} {script : Script} {before after : Recorded σ} {samples : List LineWord}
    (played : script.play halfPeriod before = (.ok samples, after)) :
    after.drives = before.drives ++ script.drives.map fun lines => (lines, true) := by
  induction script generalizing before samples with
  | nil =>
    cases played
    exact (List.append_nil _).symm
  | cons action rest ih =>
    cases action with
    | wait =>
      rw [play] at played
      rw [ih played]
      simp [Recorded.drives, drives, Lines.wait]
    | drive word =>
      rcases driven : Lines.drive word before.lines with ⟨_ | _, next⟩
      · simp only [play, Recorded.drive_eq, driven] at played
        cases played
      · simp only [play, Recorded.drive_eq, driven] at played
        rw [ih played]
        simp [Recorded.drives, drives]
    | sample =>
      rcases sampled : Lines.sample before.lines with ⟨_ | word, next⟩
      · simp only [play, Recorded.sample_eq, sampled] at played
        cases played
      · simp only [play, Recorded.sample_eq, sampled] at played
        rcases later : play halfPeriod rest (Recorded.mk next (before.log ++ [.sample (some word)]))
          with ⟨_ | samples, last⟩
        · rw [later] at played
          cases played
        · rw [later] at played
          cases played
          rw [ih later]
          simp [Recorded.drives, drives]

end Script
end Clause22
