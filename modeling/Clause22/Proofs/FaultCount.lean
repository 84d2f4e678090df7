import Clause22.Proofs.BenchSteps

/-! The fault of a bench strikes by the length of its log. As long as the log is kept, that is after the operations
that were allowed. But the limit stays when the log is cleared, so clearing it lets as many operations pass as had
been logged when the fault was set, and those allowed once more. -/

namespace Clause22.Bench

def Step.leavesFault : Step → Bool
  | .failAfter _ | .heal => false
  | .attempt _ | .setRegister .. | .clearLog => true

def Step.isOperation : Step → Bool
  | .attempt action => action ≠ .wait
  | .setRegister .. | .failAfter _ | .heal | .clearLog => false

/-- The length of the log after a step, given that before it, if no operation fails. -/
def Step.log (length : Nat) : Step → Nat
  | .clearLog => 0
  | step => length + if step.isOperation then 1 else 0

def logged (length : Nat) (steps : List Step) : Nat :=
  steps.foldl Step.log length

theorem Step.log_kept {step : Step} (kept : step ≠ .clearLog) (length : Nat) :
    step.log length = length + if step.isOperation then 1 else 0 := by
  cases step with
  | clearLog => exact absurd rfl kept
  | attempt _ | setRegister _ _ _ | failAfter _ | heal => rfl

theorem logged_le (length : Nat) (steps : List Step) : logged length steps ≤ length + steps.countP Step.isOperation := by
  induction steps generalizing length with
  | nil => exact Nat.le_refl length
  | cons step rest ih =>
    have grown : step.log length ≤ length + if step.isOperation then 1 else 0 := by
      rcases Classical.em (step = .clearLog) with rfl | kept
      · exact Nat.zero_le _
      · exact Nat.le_of_eq (Step.log_kept kept length)
    have later : logged length (step :: rest) ≤ _ := ih (step.log length)
    rw [List.countP_cons]
    omega

theorem logged_uncleared (length : Nat) {steps : List Step} (uncleared : .clearLog ∉ steps) :
    logged length steps = length + steps.countP Step.isOperation := by
  induction steps generalizing length with
  | nil => rfl
  | cons step rest ih =>
    obtain ⟨other, still⟩ := not_or.mp (mt List.mem_cons.mpr uncleared)
    have later : logged length (step :: rest) = _ := ih (step.log length) still
    rw [later, Step.log_kept (Ne.symm other), List.countP_cons]
    omega

/-- A count, or none if it is beyond the largest number that a machine counts to. -/
def counted? (largest number : Nat) : Option Nat :=
  if number ≤ largest then some number else none

/-- Setting a fault adds twice: drives to samples, and then what is allowed. -/
def failAfter? (largest count : Nat) (bench : Bench) : Option Bench := do
  let operations ← counted? largest (bench.drives.size + bench.samples)
  let limit ← counted? largest (operations + count)
  return { bench with failAt := some limit }

theorem failAfter?_eq (largest count : Nat) (bench : Bench) :
    bench.failAfter? largest count =
      if bench.operations + count ≤ largest then some (bench.failAfter count) else none := by
  rw [failAfter?, counted?, ← operations]
  by_cases fits : bench.operations + count ≤ largest
  · have counts : bench.operations ≤ largest := Nat.le_trans (Nat.le_add_right ..) fits
    rw [if_pos fits, if_pos counts, Option.bind_eq_bind, Option.bind_some, counted?, if_pos fits]
    rfl
  · rw [if_neg fits]
    split
    · rw [Option.bind_eq_bind, Option.bind_some, counted?, if_neg fits]
      rfl
    · rfl

theorem attempt_permitted {bench : Bench} (permitted : bench.permits = true) (action : Action) :
    bench.attempt action = bench.perform action := by
  cases action with
  | drive word => exact congrArg Prod.snd (if_pos permitted)
  | sample => exact congrArg Prod.snd (if_pos permitted)
  | wait => rfl

theorem attempt_refused {bench : Bench} (refused : ¬ bench.permits = true) (action : Action) :
    bench.attempt action = bench := by
  cases action with
  | drive word => exact congrArg Prod.snd (if_neg refused)
  | sample => exact congrArg Prod.snd (if_neg refused)
  | wait => rfl

/-- While a fault is set, the log grows up to its limit and no further. -/
theorem operations_perform {bench : Bench} {limit length : Nat} (fault : bench.failAt = some limit)
    (counted : bench.operations = min length limit) {step : Step} (kept : step.leavesFault = true) :
    (step.perform bench).failAt = some limit ∧ (step.perform bench).operations = min (step.log length) limit := by
  cases step with
  | failAfter _ | heal => cases kept
  | setRegister _ _ _ => exact ⟨fault, counted⟩
  | clearLog => exact ⟨fault, (Nat.zero_min limit).symm⟩
  | attempt action =>
    have permits : bench.permits = true ↔ length < limit := by
      rw [permits_iff, fault, counted]
      simp only [Option.mem_def, Option.some.injEq, forall_eq']
      omega
    have one : Script.attempts [action] = if Step.isOperation (.attempt action) then 1 else 0 := by cases action <;> rfl
    have grown : Step.log length (.attempt action) = length + if Step.isOperation (.attempt action) then 1 else 0 := rfl
    rw [Step.perform, grown]
    by_cases permitted : bench.permits = true
    · have room := permits.mp permitted
      rw [attempt_permitted permitted, perform_failAt, perform_operations, counted, one]
      refine ⟨fault, ?_⟩
      split <;> omega
    · have spent := mt permits.mpr permitted
      rw [attempt_refused permitted, counted]
      refine ⟨fault, ?_⟩
      omega

theorem operations_run {bench : Bench} {limit length : Nat} (fault : bench.failAt = some limit)
    (counted : bench.operations = min length limit) {steps : List Step}
    (kept : ∀ step ∈ steps, step.leavesFault = true) :
    (bench.run steps).failAt = some limit ∧ (bench.run steps).operations = min (logged length steps) limit := by
  induction steps generalizing bench length with
  | nil => exact ⟨fault, counted⟩
  | cons step rest ih =>
    obtain ⟨still, grown⟩ := operations_perform fault counted (kept step List.mem_cons_self)
    exact ih still grown fun later member => kept later (List.mem_cons_of_mem _ member)

section Operations

variable {action : Action} (operation : action ≠ .wait)

include operation

theorem attempts_operation : Script.attempts [action] = 1 := by
  cases action with
  | wait => exact absurd rfl operation
  | drive _ | sample => rfl

theorem play_operation {bench : Bench} {limit : Nat} (fault : bench.failAt = some limit) (halfPeriod : Nat) :
    Script.play halfPeriod [action] bench =
      if bench.operations < limit then (.ok (heard [action] bench), bench.perform action)
      else (.error .transport, bench) := by
  have lasts : bench.Lasts [action] ↔ bench.operations < limit := by
    simp only [Lasts, fault, Option.mem_def, Option.some.injEq, forall_eq', attempts_operation operation]
    omega
  split
  next room => exact play_lasting halfPeriod (lasts.mpr room)
  next spent =>
    have none : bench.reach [action] = [] := by
      rw [reach, fault, Option.elim_some, Nat.sub_eq_zero_of_le (Nat.not_lt.mp spent)]
      cases action with
      | wait => exact absurd rfl operation
      | drive _ | sample => rfl
    rw [play_failing halfPeriod (mt lasts.mp spent), none, after_nil]

end Operations

/-- After a fault is set, an operation passes if the log, failed operations counted too, is shorter than the log was
then and the operations allowed together. Otherwise it fails and changes nothing. As long as the log is not cleared,
this means that fewer operations were made than allowed. Any other operation that passes was one too many, and came
too soon after the log was cleared. A machine can set the fault if it can count to the limit, and never has to count
further as long as the fault is set. -/
theorem fault_counts_log (bench : Bench) (count halfPeriod : Nat) {earlier : List Step}
    (kept : ∀ step ∈ earlier, step.leavesFault = true) {action : Action} (operation : action ≠ .wait) :
    let before := (bench.failAfter count).run earlier
    let length := logged bench.operations earlier
    let limit := bench.operations + count
    let made := earlier.countP Step.isOperation
    Script.play halfPeriod [action] before =
      (if length < limit then (.ok (heard [action] before), before.perform action) else (.error .transport, before)) ∧
    (.clearLog ∉ earlier → (length < limit ↔ made < count)) ∧
    ((length < limit ↔ made < count) ↔ made < count ∨ limit ≤ length) ∧
    ∀ largest, bench.failAfter? largest count = (if limit ≤ largest then some (bench.failAfter count) else none) ∧
      (limit ≤ largest → before.operations ≤ largest) := by
  intro before length limit made
  have full : (bench.failAfter count).operations = min bench.operations limit :=
    (Nat.min_eq_left (Nat.le_add_right ..)).symm
  obtain ⟨fault, counted⟩ := @operations_run (bench.failAfter count) limit _ rfl full earlier kept
  have short : length ≤ bench.operations + made := logged_le bench.operations earlier
  have reached : before.operations < limit ↔ length < limit := by
    rw [counted]
    exact ⟨fun room => by omega, fun room => by omega⟩
  refine ⟨?_, fun uncleared => ?_, ?_, fun largest => ⟨failAfter?_eq largest count bench, fun fits => ?_⟩⟩
  · rw [play_operation operation fault]
    exact ite_congr (propext reached) (fun _ => rfl) (fun _ => rfl)
  · have whole : length = bench.operations + made := logged_uncleared bench.operations uncleared
    omega
  · omega
  · rw [counted]
    exact Nat.le_trans (Nat.min_le_right ..) fits

/-- One operation was logged before the fault and one allowed. Two pass after the log is cleared, but not three. -/
theorem fault_counts_log_cleared :
    let bench := Bench.run { phy := { address := some 3 } } [.attempt (.drive 2)]
    let cleared : List Step := [.attempt .sample, .attempt (.drive 1), .clearLog]
    let later : List Step := cleared ++ [.setRegister 0 4 7, .attempt (.drive 3), .attempt .sample]
    let struck := (bench.failAfter 1).run (cleared.take 1)
    let passing := (bench.failAfter 1).run cleared
    let spent := (bench.failAfter 1).run later
    Script.play 1000 [.drive 1] struck = (.error .transport, struck) ∧
    Script.play 1000 [.drive 3] passing = (.ok [], passing.perform (.drive 3)) ∧
    Script.play 1000 [.sample] spent = (.error .transport, spent) := by
  intro bench cleared later struck passing spent
  have driving (word : LineWord) : Action.drive word ≠ .wait := by simp
  have sampling : Action.sample ≠ .wait := by simp
  have early : ∀ step ∈ cleared.take 1, step.leavesFault = true := by decide
  have middle : ∀ step ∈ cleared, step.leavesFault = true := by decide
  have late : ∀ step ∈ later, step.leavesFault = true := by decide
  exact ⟨(fault_counts_log bench 1 1000 early (driving 1)).1, (fault_counts_log bench 1 1000 middle (driving 3)).1,
    (fault_counts_log bench 1 1000 late sampling).1⟩

/-- The operation allowed has passed and the next one has failed. Yet once the log is cleared a third one passes. -/
theorem clearLog_lifts_fault :
    let bench : Bench := { phy := { address := some 0 } }
    let earlier : List Step := [.attempt (.drive 0), .attempt (.drive 0), .clearLog]
    (∀ step ∈ earlier, step.leavesFault = true) ∧
    ¬ ((Lines.drive 0 ((bench.failAfter 1).run earlier)).1 = true ↔ earlier.countP Step.isOperation < 1) := by
  intro bench earlier
  have passes : (Lines.drive 0 ((bench.failAfter 1).run earlier)).1 = true := by decide
  have made : earlier.countP Step.isOperation = 2 := by decide
  exact ⟨by decide, fun claimed => absurd (claimed.mp passes) (by rw [made]; decide)⟩

end Clause22.Bench
