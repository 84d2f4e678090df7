import Clause22.Phy.Bench
import Clause22.Proofs.ScriptPlay

/-! A bench carries out a script action by action until its fault strikes. A fault therefore only cuts
the script short: the lines, the PHY and the logs are those of an undisturbed run of what came before. -/

namespace Clause22.Bench

def perform (bench : Bench) : Action → Bench
  | .drive word =>
    { bench.observe (Edge.between? bench.lines word) with lines := word, drives := bench.drives.push word }
  | .sample => { bench with samples := bench.samples + 1 }
  | .wait => bench

def after (bench : Bench) (script : Script) : Bench :=
  script.foldl perform bench

def sampled (bench : Bench) : LineWord :=
  if Wire.dataReleased bench.lines && bench.phy.decoder.level then Wire.dataIn else 0

def heard : Script → Bench → List LineWord
  | [], _ => []
  | .sample :: rest, bench => bench.sampled :: heard rest (bench.perform .sample)
  | action :: rest, bench => heard rest (bench.perform action)

@[simp] theorem after_nil (bench : Bench) : bench.after [] = bench := rfl

@[simp] theorem after_cons (bench : Bench) (action : Action) (rest : Script) :
    bench.after (action :: rest) = (bench.perform action).after rest := rfl

theorem heard_append (bench : Bench) (first rest : Script) :
    heard (first ++ rest) bench = heard first bench ++ heard rest (bench.after first) := by
  induction first generalizing bench with
  | nil => rfl
  | cons action first ih => cases action <;> simp [heard, ih]

section Frames

variable (bench : Bench)

@[simp] theorem observe_failAt (edge : Option Edge) : (bench.observe edge).failAt = bench.failAt := by
  rcases edge with _ | _ | _ <;> rfl

@[simp] theorem observe_samples (edge : Option Edge) : (bench.observe edge).samples = bench.samples := by
  rcases edge with _ | _ | _ <;> rfl

@[simp] theorem perform_failAt (action : Action) : (bench.perform action).failAt = bench.failAt := by
  cases action <;> simp [perform]

@[simp] theorem after_failAt (script : Script) : (bench.after script).failAt = bench.failAt := by
  induction script generalizing bench with
  | nil => rfl
  | cons action rest ih => simp [ih]

theorem perform_operations (action : Action) :
    (bench.perform action).operations = bench.operations + Script.attempts [action] := by
  cases action <;> simp [perform, operations, Script.attempts] <;> omega

end Frames

def Lasts (bench : Bench) (script : Script) : Prop :=
  ∀ limit ∈ bench.failAt, script.attempts ≤ limit - bench.operations

/-- What the fault lets a script do. -/
def reach (bench : Bench) (script : Script) : Script :=
  bench.failAt.elim script fun limit => script.upTo (limit - bench.operations)

theorem permits_iff (bench : Bench) :
    bench.permits = true ↔ ∀ limit ∈ bench.failAt, bench.operations < limit := by
  cases fault : bench.failAt <;> simp [permits, fault]

theorem lasts_of_healthy {bench : Bench} (healthy : bench.failAt = none) (script : Script) :
    bench.Lasts script := by
  simp [Lasts, healthy]

private theorem lasts_perform {bench : Bench} {action : Action} {rest : Script} :
    bench.Lasts (action :: rest) ↔ (bench.Lasts [action] ∧ (bench.perform action).Lasts rest) := by
  simp only [Lasts, perform_failAt, perform_operations, Script.attempts_cons action rest]
  constructor
  · intro lasts
    exact ⟨fun limit found => by have := lasts limit found; omega,
      fun limit found => by have := lasts limit found; omega⟩
  · intro ⟨first, later⟩ limit found
    have := first limit found
    have := later limit found
    omega

private theorem reach_perform {bench : Bench} {action : Action} (rest : Script) (lasts : bench.Lasts [action]) :
    bench.reach (action :: rest) = action :: (bench.perform action).reach rest := by
  cases fault : bench.failAt with
  | none => simp [reach, fault]
  | some limit =>
    have room := lasts limit fault
    have counted := perform_operations bench action
    simp only [reach, perform_failAt, fault, Option.elim_some, counted]
    cases action with
    | wait => simp [Script.upTo, Script.attempts]
    | drive _ | sample =>
      simp only [Script.attempts] at room ⊢
      obtain ⟨more, left⟩ := Nat.exists_eq_add_of_le' room
      have spent : limit - (bench.operations + (0 + 1)) = more := by omega
      rw [spent, left]
      rfl

private theorem permits_attempt {bench : Bench} {action : Action} (attempt : Script.attempts [action] = 1) :
    bench.permits = true ↔ bench.Lasts [action] := by
  simp only [permits_iff, Lasts, attempt]
  exact forall₂_congr fun limit _ => by omega

private theorem reach_refused {bench : Bench} {action : Action} (rest : Script)
    (refused : ¬ bench.Lasts [action]) : bench.reach (action :: rest) = [] := by
  simp only [Lasts, Classical.not_forall] at refused
  obtain ⟨limit, fault, beyond⟩ := refused
  simp only [Option.mem_def] at fault
  have spent : limit - bench.operations = 0 := by
    cases action <;> simp only [Script.attempts] at beyond <;> omega
  rw [reach, fault, Option.elim_some, spent]
  cases action with
  | wait => simp [Script.attempts] at beyond
  | drive _ | sample => rfl

private theorem drive_permitted {bench : Bench} {word : LineWord} (permitted : bench.Lasts [.drive word]) :
    Lines.drive word bench = (true, bench.perform (.drive word)) := by
  simp only [Lines.drive, drive, (permits_attempt rfl).mpr permitted, if_true, perform]

private theorem sample_permitted {bench : Bench} (permitted : bench.Lasts [.sample]) :
    Lines.sample bench = (some bench.sampled, bench.perform .sample) := by
  simp only [Lines.sample, sample, (permits_attempt rfl).mpr permitted, if_true, perform, sampled]

private theorem drive_refused {bench : Bench} {word : LineWord} (refused : ¬ bench.Lasts [.drive word]) :
    Lines.drive word bench = (false, bench) := by
  have denied : ¬ bench.permits = true := mt (permits_attempt rfl).mp refused
  exact if_neg denied

private theorem sample_refused {bench : Bench} (refused : ¬ bench.Lasts [.sample]) :
    Lines.sample bench = (none, bench) := by
  have denied : ¬ bench.permits = true := mt (permits_attempt rfl).mp refused
  exact if_neg denied

theorem play_lasting (halfPeriod : Nat) {script : Script} {bench : Bench} (lasts : bench.Lasts script) :
    script.play halfPeriod bench = (.ok (heard script bench), bench.after script) := by
  induction script generalizing bench with
  | nil => rfl
  | cons action rest ih =>
    obtain ⟨first, later⟩ := lasts_perform.mp lasts
    cases action with
    | wait => exact ih later
    | drive word =>
      rw [Script.play, drive_permitted first]
      exact ih later
    | sample =>
      rw [Script.play, sample_permitted first]
      simp only [ih later]
      rfl

theorem play_failing (halfPeriod : Nat) {script : Script} {bench : Bench} (fails : ¬ bench.Lasts script) :
    script.play halfPeriod bench = (.error .transport, bench.after (bench.reach script)) := by
  induction script generalizing bench with
  | nil => exact absurd (fun limit _ => Nat.zero_le _) fails
  | cons action rest ih =>
    by_cases first : bench.Lasts [action]
    · have later : ¬ (bench.perform action).Lasts rest := fun lasts => fails (lasts_perform.mpr ⟨first, lasts⟩)
      rw [reach_perform rest first, after_cons]
      cases action with
      | wait => exact ih later
      | drive word =>
        rw [Script.play, drive_permitted first]
        exact ih later
      | sample =>
        rw [Script.play, sample_permitted first]
        simp only [ih later]
        rfl
    · rw [reach_refused rest first, after_nil]
      cases action with
      | wait => exact absurd (fun limit _ => Nat.zero_le _) first
      | drive word => rw [Script.play, drive_refused first]
      | sample => rw [Script.play, sample_refused first]

end Clause22.Bench
