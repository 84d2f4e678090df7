import Clause22.Lines.Scripted
import Clause22.Proofs.RecordedLines

/-! What a script leaves on record when no attempt fails: all of its actions in their order, each sample with
the levels that the lines answered. Where the samples are known before they are taken, what a script finds out is the
first of them, however its drives and waits are placed between them. -/

namespace Clause22

/-- Lines on which every script is carried out, so that no attempt ever fails. -/
def Lines.Reliable {σ : Type} [Lines σ] (halfPeriod : Nat) (lines : σ) : Prop :=
  ∀ script : Script, ∃ samples after, script.play halfPeriod lines = (.ok samples, after)

namespace Script

/-- The record of a whole script, given its samples. -/
def trace (halfPeriod : Nat) : Script → List LineWord → List Attempt
  | [], _ => []
  | .drive word :: rest, samples => .drive word true :: trace halfPeriod rest samples
  | .sample :: rest, samples => .sample samples.head? :: trace halfPeriod rest samples.tail
  | .wait :: rest, samples => .wait halfPeriod :: trace halfPeriod rest samples

theorem trace_append (halfPeriod : Nat) (first rest : Script) (samples : List LineWord) :
    (first ++ rest).trace halfPeriod samples =
      first.trace halfPeriod samples ++ rest.trace halfPeriod (samples.drop (first.count .sample)) := by
  induction first generalizing samples with
  | nil => rfl
  | cons action first ih =>
    cases action with
    | drive word => exact congrArg (Attempt.drive word true :: ·) (ih samples)
    | wait => exact congrArg (Attempt.wait halfPeriod :: ·) (ih samples)
    | sample =>
      have spent : List.count Action.sample (.sample :: first) = first.count .sample + 1 := List.count_cons_self
      rw [List.cons_append, trace, ih, spent, trace, List.cons_append, ← List.drop_one, List.drop_drop,
        Nat.add_comm 1]

variable {σ : Type} [Lines σ]

theorem log_played {halfPeriod : Nat} {script : Script} {before after : Recorded σ} {samples : List LineWord}
    (played : script.play halfPeriod before = (.ok samples, after)) :
    samples.length = script.count .sample ∧ after.log = before.log ++ script.trace halfPeriod samples := by
  induction script generalizing before samples with
  | nil =>
    cases played
    exact ⟨rfl, (List.append_nil _).symm⟩
  | cons action rest ih =>
    cases action with
    | wait =>
      rw [play] at played
      obtain ⟨taken, recorded⟩ := ih played
      exact ⟨taken, recorded.trans (List.append_assoc ..)⟩
    | drive word =>
      rcases driven : Lines.drive word before.lines with ⟨_ | _, next⟩
      · simp only [play, Recorded.drive_eq, driven] at played
        cases played
      · simp only [play, Recorded.drive_eq, driven] at played
        obtain ⟨taken, recorded⟩ := ih played
        exact ⟨taken, recorded.trans (List.append_assoc ..)⟩
    | sample =>
      rcases sampled : Lines.sample before.lines with ⟨_ | word, next⟩
      · simp only [play, Recorded.sample_eq, sampled] at played
        cases played
      · simp only [play, Recorded.sample_eq, sampled] at played
        rcases later : play halfPeriod rest (Recorded.mk next (before.log ++ [.sample (some word)]))
          with ⟨_ | others, last⟩
        · rw [later] at played
          cases played
        · rw [later] at played
          cases played
          obtain ⟨taken, recorded⟩ := ih later
          exact ⟨by rw [List.length_cons, taken, List.count_cons_self], recorded.trans (List.append_assoc ..)⟩

theorem reliable_played {halfPeriod : Nat} {script : Script} {before after : σ} {samples : List LineWord}
    (reliable : Lines.Reliable halfPeriod before) (played : script.play halfPeriod before = (.ok samples, after)) :
    Lines.Reliable halfPeriod after := by
  intro rest
  obtain ⟨others, last, whole⟩ := reliable (script ++ rest)
  rw [play_append, played] at whole
  rcases later : rest.play halfPeriod after with ⟨_ | samples, last⟩
  · simp only [later] at whole
    cases whole
  · exact ⟨samples, last, rfl⟩

/-- The record is made beside whatever the lines do by themselves. -/
theorem play_of_lines {halfPeriod : Nat} {script : Script} {recorded : Recorded σ} {samples : List LineWord}
    {lines : σ} (plain : script.play halfPeriod recorded.lines = (.ok samples, lines)) :
    ∃ after, script.play halfPeriod recorded = (.ok samples, after) ∧ after.lines = lines ∧
      samples.length = script.count .sample ∧ after.log = recorded.log ++ script.trace halfPeriod samples := by
  rw [play_recorded halfPeriod script recorded, Prod.ext_iff] at plain
  obtain ⟨carried, lines⟩ := plain
  have played : script.play halfPeriod recorded = (.ok samples, (script.play halfPeriod recorded).2) :=
    Prod.ext carried rfl
  exact ⟨_, played, lines, log_played played⟩

theorem play_reliable {halfPeriod : Nat} {recorded : Recorded σ}
    (reliable : Lines.Reliable halfPeriod recorded.lines) (script : Script) :
    ∃ samples after, script.play halfPeriod recorded = (.ok samples, after) ∧
      Lines.Reliable halfPeriod after.lines ∧ samples.length = script.count .sample ∧
      after.log = recorded.log ++ script.trace halfPeriod samples := by
  obtain ⟨samples, lines, plain⟩ := reliable script
  obtain ⟨after, played, rfl, taken, log⟩ := play_of_lines plain
  exact ⟨samples, after, played, reliable_played reliable plain, taken, log⟩

end Script

/-- Lines on which no attempt fails as long as these samples last, and which answer them in this order. -/
def Lines.Supplies {σ : Type} [Lines σ] (halfPeriod : Nat) (samples : List LineWord) (lines : σ) : Prop :=
  ∀ script : Script, script.count .sample ≤ samples.length →
    ∃ after, script.play halfPeriod lines = (.ok (samples.take (script.count .sample)), after)

namespace Script

variable {σ : Type} [Lines σ] {halfPeriod : Nat} {samples : List LineWord} {script : Script}
  (enough : script.count .sample ≤ samples.length)

include enough

theorem supplies_played {before after : σ} {taken : List LineWord}
    (supplies : Lines.Supplies halfPeriod samples before)
    (played : script.play halfPeriod before = (.ok taken, after)) :
    Lines.Supplies halfPeriod (samples.drop (script.count .sample)) after := by
  intro rest left
  have first : taken = samples.take (script.count .sample) := by
    obtain ⟨_, carried⟩ := supplies script enough
    cases played.symm.trans carried
    rfl
  rw [List.length_drop] at left
  have both : (script ++ rest).count .sample ≤ samples.length := by
    rw [List.count_append]
    omega
  obtain ⟨last, whole⟩ := supplies (script ++ rest) both
  rw [play_append, played, List.count_append, List.take_add, first] at whole
  rcases later : rest.play halfPeriod after with ⟨_ | others, reached⟩
  · simp only [later] at whole
    cases whole
  · simp only [later] at whole
    obtain ⟨joined, -⟩ := Prod.ext_iff.mp whole
    have same := List.append_cancel_left (Except.ok.inj joined)
    exact ⟨reached, by rw [same]⟩

theorem play_supplied {recorded : Recorded σ} (supplies : Lines.Supplies halfPeriod samples recorded.lines) :
    ∃ after, script.play halfPeriod recorded = (.ok (samples.take (script.count .sample)), after) ∧
      Lines.Supplies halfPeriod (samples.drop (script.count .sample)) after.lines ∧
      after.log = recorded.log ++ script.trace halfPeriod (samples.take (script.count .sample)) := by
  obtain ⟨lines, plain⟩ := supplies script enough
  obtain ⟨after, played, rfl, -, log⟩ := play_of_lines plain
  exact ⟨after, played, supplies_played enough supplies plain, log⟩

end Script

theorem Lines.Reliable.supplies {σ : Type} [Lines σ] {halfPeriod : Nat} {lines : σ}
    (reliable : Lines.Reliable halfPeriod lines) : Lines.Supplies halfPeriod [] lines := by
  intro script none
  obtain ⟨samples, after, plain⟩ := reliable script
  have watched : script.play halfPeriod (Recorded.mk lines []).lines = (.ok samples, after) := plain
  obtain ⟨-, -, -, taken, -⟩ := Script.play_of_lines watched
  obtain rfl : samples = [] := List.eq_nil_of_length_eq_zero (taken.trans (Nat.le_zero.mp none))
  exact ⟨after, by rw [plain, List.take_nil]⟩

theorem ScriptedLines.supplies (halfPeriod : Nat) {lines : ScriptedLines}
    (healthy : lines.faults.failing = [] ∧ lines.faults.limit = none) :
    Lines.Supplies halfPeriod lines.samples lines := by
  have permitted (plan : FaultPlan) (unplanned : plan.failing = [] ∧ plan.limit = none) : plan.permits = true := by
    simp [FaultPlan.permits, unplanned]
  intro script enough
  induction script generalizing lines with
  | nil => exact ⟨lines, rfl⟩
  | cons action rest ih =>
    cases action with
    | wait => exact @ih (Lines.wait halfPeriod lines) healthy enough
    | drive word =>
      obtain ⟨after, played⟩ := @ih (Lines.drive word lines).2 healthy enough
      have driven : Lines.drive word lines = (true, (Lines.drive word lines).2) :=
        Prod.ext (permitted lines.faults healthy) rfl
      refine ⟨after, ?_⟩
      rw [Script.play, driven]
      exact played
    | sample =>
      obtain ⟨samples, faults, log⟩ := lines
      rw [List.count_cons_self] at enough ⊢
      obtain ⟨first, samples, rfl⟩ := List.exists_cons_of_length_pos (Nat.lt_of_lt_of_le (Nat.succ_pos _) enough)
      have sampled := @ScriptedLines.sample_permitted first samples faults log (permitted faults healthy)
      obtain ⟨after, played⟩ :=
        @ih ⟨samples, faults.attempt.2, log.push (.sample true)⟩ healthy (Nat.le_of_succ_le_succ enough)
      refine ⟨after, ?_⟩
      rw [Script.play, sampled]
      simp only [played, List.take_succ_cons]
      rfl

end Clause22
