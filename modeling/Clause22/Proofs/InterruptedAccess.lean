import Clause22.Proofs.AbandonedRead
import Clause22.Proofs.RegisterFile

/-! Accesses that the transport may break off at any attempt. What is left of one is told by the PHY that a
recovery finds, and an access that outlasts the fault hands on what is left of the fault. -/

namespace Clause22.Engine

/-- The engine is between frames, with a PHY of a certain kind. -/
structure Resting (check : TurnaroundCheck) (state : Phy → Prop) (engine : Engine Bench) : Prop where
  idle : engine.phase = .idle
  hunting : ∃ ones, engine.bench.phy.decoder = .hunt ones
  turnaround : engine.turnaround = check
  state : state engine.bench.phy

/-- The engine is amid a frame, of which a recovery makes a PHY of a certain kind. -/
structure Stuck (state : Phy → Prop) (engine : Engine Bench) : Prop where
  busy : engine.phase ≠ .idle
  underway : engine.bench.phy.decoder.Underway
  state : state engine.bench.phy.settle

/-- An access that fails if and only if the transport does within so many attempts: what a recovery makes of the
PHY after the failure, and what the access makes of it otherwise. -/
structure Interruptible (check : TurnaroundCheck) (access : Access (Engine Bench) α) (attempts : Nat)
    (before : Phy → Prop) (stopped : Nat → Phy → Prop) (finished : Phy → Prop) : Prop where
  stops : ∀ {engine : Engine Bench} {count : Nat}, engine.Resting check before → count < attempts →
    ∃ abandoned, access ((Step.failAfter count).perform engine) = (.error (.io .transport), abandoned) ∧
      abandoned.Stuck (stopped count)
  finishes : ∀ {engine : Engine Bench} (count : Nat), engine.Resting check before →
    ∃ value done, access ((Step.failAfter (attempts + count)).perform engine) = (.ok value, done) ∧
      (Step.failAfter count).perform done = done ∧ done.Resting check finished

theorem perform_failAfter (engine : Engine Bench) {bench : Bench} {count : Nat} (same : bench.failAfter count = bench)
    (phase : Phase) (stats : Stats) :
    (Step.failAfter count).perform { engine with station.lines := bench, phase, stats } =
      { engine with station.lines := bench, phase, stats } := by
  -- The bench is a variable here, because a frame must not be run to compare engines.
  simp only [Step.perform, same]

theorem write_refused_busy {σ : Type} [Lines σ] {engine : Engine σ} (busy : engine.phase ≠ .idle) (phy reg : Nat)
    (value : Word) : ∃ cause, engine.write phy reg value = (.error cause, engine) := by
  cases ready : engine.ready phy reg with
  | ok => exact absurd (ready_ok_iff.mp ready).1 busy
  | error cause => exact ⟨cause, write_refused ready value⟩

theorem Stuck.recover {engine : Engine Bench} {state : Phy → Prop} (stuck : engine.Stuck state) :
    ∃ recovered, (Step.heal.perform engine).recover = (.ok (), recovered) ∧ recovered.Listening ∧
      state recovered.bench.phy := by
  have underway : (Step.heal.perform engine).bench.phy.decoder.Underway := stuck.underway
  have healthy : (Step.heal.perform engine).bench.failAt = none := rfl
  have recovers := recover_lasting (Bench.lasts_of_healthy healthy _)
  obtain ⟨idle, settled⟩ := recover_settled underway recovers
  refine ⟨_, recovers, ⟨idle, ⟨0, ?_⟩, (Bench.after_failAt ..).trans healthy⟩, ?_⟩
  · rw [settled, Phy.settle_decoder]
  · rw [settled]
    exact stuck.state

namespace Interruptible

variable {check : TurnaroundCheck} {before finished : Phy → Prop} {stopped : Nat → Phy → Prop}

theorem weaken {access : Access (Engine Bench) α} {attempts : Nat} {weaker : Nat → Phy → Prop}
    (accesses : Interruptible check access attempts before stopped finished)
    (weakens : ∀ count < attempts, ∀ phy, stopped count phy → weaker count phy) :
    Interruptible check access attempts before weaker finished := by
  refine ⟨fun {engine count} resting cut => ?_, accesses.finishes⟩
  obtain ⟨abandoned, failed, stuck⟩ := accesses.stops resting cut
  exact ⟨abandoned, failed, stuck.busy, stuck.underway, weakens count cut _ stuck.state⟩

section Frames

variable {target reg : Nat} (fits : Addressable target reg)

include fits

theorem read (here : ∀ {phy : Phy}, before phy → phy.address = some target)
    (quiet : ∀ {phy : Phy} (events : Array PhyEvent), before phy → before { phy with decoder := .hunt 0, events }) :
    Interruptible check (Bus.read target reg) (Frame.readAttempts check) before (fun _ => before) before := by
  constructor
  · intro engine count resting cut
    obtain ⟨ones, hunting⟩ := resting.hunting
    have ready : ((Step.failAfter count).perform engine).ready target reg = .ok () := ready_ok resting.idle fits
    have fails : ¬ (engine.bench.failAfter count).Lasts (Frame.script (Frame.read engine.turnaround target reg)) := by
      rwa [Bench.lasts_failAfter, Frame.attempts_read, resting.turnaround, Nat.not_le]
    obtain ⟨segment, member, failed⟩ := read_failing ready fails
    have underway : (engine.bench.failAfter count).phy.decoder.Underway := (attuned_of_hunting hunting).underway
    refine ⟨_, failed, Frame.read_busy member, underway_after underway _, ?_⟩
    have heard := Script.edges_upTo_prefix (Frame.script (Frame.read engine.turnaround target reg)) count
      engine.bench.lines
    rw [Frame.edges_read] at heard
    obtain ⟨events, settled⟩ := Phy.settle_read hunting fits.phy fits.reg heard
    show before (Bench.after _ (Bench.reach _ _)).phy.settle
    rw [Step.perform, Bench.reach_failAfter, Bench.after_phy]
    exact settled ▸ quiet events resting.state
  · intro engine count resting
    obtain ⟨ones, hunting⟩ := resting.hunting
    let faulty := (Step.failAfter (Frame.readAttempts check + count)).perform engine
    have idle : faulty.phase = .idle := resting.idle
    have hunts : faulty.bench.phy.decoder = .hunt ones := hunting
    have ready : faulty.ready target reg = .ok () := ready_ok idle fits
    have attempts := (Frame.attempts_read engine.turnaround target reg).trans (congrArg _ resting.turnaround)
    have lasts : faulty.bench.Lasts (Frame.script (Frame.read faulty.turnaround target reg)) :=
      Bench.lasts_spent engine.bench attempts count
    have left := Bench.after_failAfter engine.bench attempts count
    have answers := (read_undisturbed idle hunts (here resting.state) fits lasts).1
    have phy := Bench.after_read hunts fits.phy fits.reg faulty.turnaround
    rw [read_lasting ready lasts] at answers
    refine ⟨_, _, (read_lasting ready lasts).trans (Prod.ext answers rfl), perform_failAfter _ left _ _, rfl,
      ⟨0, congrArg Phy.decoder phy⟩, resting.turnaround, ?_⟩
    exact phy ▸ quiet _ resting.state

/-- A write frame stores nothing until its turnaround is through, and from then on a word filled up with ones. -/
theorem write (value : Word)
    (early : ∀ {phy : Phy} {count : Nat}, before phy → count < 144 → stopped count { phy with decoder := .hunt 0 })
    (late : ∀ {phy : Phy} {count : Nat}, before phy → 144 ≤ count →
      stopped count (phy.written target reg (Frame.flooded value (count / 3))))
    (whole : ∀ {phy : Phy}, before phy → finished (phy.written target reg value)) :
    Interruptible check (Bus.write target reg value) 197 before stopped finished := by
  constructor
  · intro engine count resting cut
    obtain ⟨ones, hunting⟩ := resting.hunting
    have ready : ((Step.failAfter count).perform engine).ready target reg = .ok () := ready_ok resting.idle fits
    have fails : ¬ (engine.bench.failAfter count).Lasts (Frame.script (Frame.write target reg value)) := by
      rwa [Bench.lasts_failAfter, Frame.attempts_write, Nat.not_le]
    obtain ⟨segment, member, failed⟩ := write_failing ready value fails
    have underway : (engine.bench.failAfter count).phy.decoder.Underway := (attuned_of_hunting hunting).underway
    refine ⟨_, failed, Frame.write_busy member, underway_after underway _, ?_⟩
    have settled := after_cut hunting fits value count
    refine settled ▸ ?_
    split
    next soon => exact early resting.state soon
    next far => exact late resting.state (Nat.not_lt.mp far)
  · intro engine count resting
    obtain ⟨ones, hunting⟩ := resting.hunting
    let faulty := (Step.failAfter (197 + count)).perform engine
    have hunts : faulty.bench.phy.decoder = .hunt ones := hunting
    have ready : faulty.ready target reg = .ok () := ready_ok resting.idle fits
    have attempts := Frame.attempts_write target reg value
    have lasts : faulty.bench.Lasts (Frame.script (Frame.write target reg value)) :=
      Bench.lasts_spent engine.bench attempts count
    have left := Bench.after_failAfter engine.bench attempts count
    have phy := Bench.after_write hunts fits.phy fits.reg value
    refine ⟨(), _, write_lasting ready value lasts, perform_failAfter _ left _ _, rfl, ⟨0, ?_⟩, resting.turnaround, ?_⟩
    · exact (congrArg Phy.decoder phy).trans (Phy.written_decoder ..)
    · exact phy ▸ whole resting.state

end Frames

end Interruptible
end Clause22.Engine
