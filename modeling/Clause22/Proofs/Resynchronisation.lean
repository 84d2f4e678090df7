import Clause22.Bus.Request
import Clause22.Proofs.EngineFrames
import Clause22.Proofs.FrameSamples

/-! A recovery that succeeds brings engine and PHY back together, whatever happened before: frames may
have been abandoned anywhere, any number of times, and the PHY left in the middle of any of them. -/

namespace Clause22.Engine

/-- What may happen to an engine and its bench. -/
inductive Step
  | request (request : Request)
  | recover
  | failAfter (count : Nat)
  | heal
  | setRegister (page index : Nat) (value : Word)
  | clearLog
deriving DecidableEq

def Step.perform (engine : Engine Bench) : Step → Engine Bench
  | .request asked => (asked.serve engine).2
  | .recover => engine.recover.2
  | .failAfter count => { engine with station.lines := engine.bench.failAfter count }
  | .heal => { engine with station.lines := engine.bench.heal }
  | .setRegister page index value => { engine with station.lines := engine.bench.setRegister page index value }
  | .clearLog => { engine with station.lines := engine.bench.clearLog }

def run (engine : Engine Bench) (steps : List Step) : Engine Bench :=
  steps.foldl Step.perform engine

theorem underway_after {bench : Bench} (underway : bench.phy.decoder.Underway) (script : Script) :
    (bench.after script).phy.decoder.Underway := by
  rw [Bench.after_phy]
  exact Phy.underway_hear underway _

theorem underway_perform {engine : Engine Bench} (underway : engine.bench.phy.decoder.Underway) (step : Step) :
    (step.perform engine).bench.phy.decoder.Underway := by
  cases step with
  | request asked =>
    cases asked with
    | read phy reg =>
      obtain ⟨script, seen⟩ := engine.read_bench phy reg
      exact seen ▸ underway_after underway script
    | write phy reg value =>
      obtain ⟨script, seen⟩ := engine.write_bench phy reg value
      exact seen ▸ underway_after underway script
    | isBusy => exact underway
  | recover =>
    obtain ⟨script, seen⟩ := engine.recover_bench
    exact seen ▸ underway_after underway script
  | failAfter _ | heal | setRegister _ _ _ | clearLog => exact underway

theorem underway_run {engine : Engine Bench} (underway : engine.bench.phy.decoder.Underway) (steps : List Step) :
    (engine.run steps).bench.phy.decoder.Underway := by
  induction steps generalizing engine with
  | nil => exact underway
  | cons step steps ih => exact ih (underway_perform underway step)

/-- A recovery succeeds unless the fault cuts it short, and then the PHY has settled. -/
theorem recover_settled {engine recovered : Engine Bench} (underway : engine.bench.phy.decoder.Underway)
    (recovers : engine.recover = (.ok (), recovered)) :
    recovered.phase = .idle ∧ recovered.bench.phy = engine.bench.phy.settle := by
  by_cases lasts : engine.bench.Lasts (Frame.script Frame.recovery)
  · rw [recover_lasting lasts] at recovers
    cases recovers
    refine ⟨rfl, ?_⟩
    show (engine.bench.after _).phy = _
    rw [Bench.after_phy, Frame.script_recovery, Frame.edges_burst, Phy.hear_recovery underway]
  · obtain ⟨_, _, failed⟩ := recover_failing lasts
    rw [failed] at recovers
    cases recovers

theorem recover_healed (engine : Engine Bench) (underway : engine.bench.phy.decoder.Underway) :
    ∃ recovered, (Step.heal.perform engine).recover = (.ok (), recovered) ∧
      recovered.bench.phy = engine.bench.phy.settle := by
  have healed : (Step.heal.perform engine).bench.phy.decoder.Underway := underway
  have healthy : (Step.heal.perform engine).bench.failAt = none := rfl
  have recovers := recover_lasting (Bench.lasts_of_healthy healthy _)
  exact ⟨_, recovers, (recover_settled healed recovers).2⟩

/-- An engine is idle only while its PHY hunts. -/
structure Attuned (engine : Engine Bench) : Prop where
  underway : engine.bench.phy.decoder.Underway
  hunting : engine.phase = .idle → ∃ ones, engine.bench.phy.decoder = .hunt ones

theorem attuned_of_hunting {engine : Engine Bench} {ones : Nat} (hunting : engine.bench.phy.decoder = .hunt ones) :
    engine.Attuned :=
  ⟨by rw [hunting]; trivial, fun _ => ⟨ones, hunting⟩⟩

section Attuned

variable {engine : Engine Bench} (attuned : engine.Attuned)

include attuned

private theorem read_hunting (phy reg : Nat) (idle : (engine.read phy reg).2.phase = .idle) :
    ∃ ones, (engine.read phy reg).2.bench.phy.decoder = .hunt ones := by
  cases ready : engine.ready phy reg with
  | error cause =>
    rw [read_refused ready] at idle ⊢
    exact attuned.hunting idle
  | ok =>
    obtain ⟨rest, fits⟩ := ready_ok_iff.mp ready
    obtain ⟨_, hunting⟩ := attuned.hunting rest
    by_cases lasts : engine.bench.Lasts (Frame.script (Frame.read engine.turnaround phy reg))
    · rw [read_lasting ready lasts]
      exact ⟨0, (congrArg Phy.decoder (Bench.after_read hunting fits.phy fits.reg engine.turnaround)).trans rfl⟩
    · obtain ⟨_, member, failed⟩ := read_failing ready lasts
      rw [failed] at idle
      exact absurd idle (Frame.read_busy member)

private theorem write_hunting (phy reg : Nat) (value : Word) (idle : (engine.write phy reg value).2.phase = .idle) :
    ∃ ones, (engine.write phy reg value).2.bench.phy.decoder = .hunt ones := by
  cases ready : engine.ready phy reg with
  | error cause =>
    rw [write_refused ready] at idle ⊢
    exact attuned.hunting idle
  | ok =>
    obtain ⟨rest, fits⟩ := ready_ok_iff.mp ready
    obtain ⟨_, hunting⟩ := attuned.hunting rest
    by_cases lasts : engine.bench.Lasts (Frame.script (Frame.write phy reg value))
    · rw [write_lasting ready value lasts]
      exact ⟨0, (congrArg Phy.decoder (Bench.after_write hunting fits.phy fits.reg value)).trans
        (Phy.written_decoder ..)⟩
    · obtain ⟨_, member, failed⟩ := write_failing ready value lasts
      rw [failed] at idle
      exact absurd idle (Frame.write_busy member)

private theorem recover_hunting (idle : engine.recover.2.phase = .idle) :
    ∃ ones, engine.recover.2.bench.phy.decoder = .hunt ones := by
  by_cases lasts : engine.bench.Lasts (Frame.script Frame.recovery)
  · have settled := (recover_settled attuned.underway (recover_lasting lasts)).2
    rw [recover_lasting lasts]
    exact ⟨0, (congrArg Phy.decoder settled).trans (Phy.settle_decoder _)⟩
  · obtain ⟨_, member, failed⟩ := recover_failing lasts
    rw [failed] at idle
    exact absurd idle (Frame.recovery_busy member)

theorem attuned_perform (step : Step) : (step.perform engine).Attuned := by
  refine ⟨underway_perform attuned.underway step, fun idle => ?_⟩
  cases step with
  | request asked =>
    cases asked with
    | read phy reg => exact read_hunting attuned phy reg idle
    | write phy reg value => exact write_hunting attuned phy reg value idle
    | isBusy => exact attuned.hunting idle
  | recover => exact recover_hunting attuned idle
  | failAfter _ | heal | setRegister _ _ _ | clearLog => exact attuned.hunting idle

theorem attuned_run (steps : List Step) : (engine.run steps).Attuned := by
  induction steps generalizing engine with
  | nil => exact attuned
  | cons step steps ih => exact ih (attuned_perform attuned step)

end Attuned

section Next

variable {engine : Engine Bench} {address reg ones : Nat} (idle : engine.phase = .idle)
  (hunting : engine.bench.phy.decoder = .hunt ones) (here : engine.bench.phy.address = some address)
  (fits : Addressable address reg)

include idle hunting here fits

theorem read_undisturbed (lasts : engine.bench.Lasts (Frame.script (Frame.read engine.turnaround address reg))) :
    (engine.read address reg).1 = .ok (engine.bench.phy.registers.load reg) ∧
    (engine.read address reg).2.bench.phy.registers = engine.bench.phy.registers := by
  have reply : engine.bench.phy.reply address reg = some (engine.bench.phy.registers.load reg) :=
    if_pos (decide_eq_true here)
  have heard := Bench.answer_read hunting fits.phy fits.reg engine.turnaround
  have phy := Bench.after_read hunting fits.phy fits.reg engine.turnaround
  rw [read_lasting (ready_ok idle fits) lasts, heard, reply]
  refine ⟨?_, (congrArg Phy.registers phy).trans rfl⟩
  cases engine.turnaround <;> rfl

theorem write_undisturbed {value : Word} (lasts : engine.bench.Lasts (Frame.script (Frame.write address reg value))) :
    (engine.write address reg value).1 = .ok () ∧
    (engine.write address reg value).2.bench.phy.registers = engine.bench.phy.registers.store reg value := by
  have answers : engine.bench.phy.answersTo address = true := decide_eq_true here
  have phy := Bench.after_write hunting fits.phy fits.reg value
  rw [Phy.written, if_pos answers] at phy
  rw [write_lasting (ready_ok idle fits) value lasts]
  exact ⟨rfl, congrArg Phy.registers phy⟩

end Next

/-- Whatever led up to it, a recovery that succeeds leaves the engine idle and the PHY at the start of a
hunt, and the next frame that no fault disturbs reads or writes the register that it names. -/
theorem recover_resynchronises {start recovered : Engine Bench} (underway : start.bench.phy.decoder.Underway)
    (steps : List Step) (recovers : (start.run steps).recover = (.ok (), recovered)) :
    recovered.phase = .idle ∧ recovered.bench.phy.decoder = .hunt 0 ∧
    ∀ limit address reg, recovered.bench.phy.address = some address → Addressable address reg →
      let next : Engine Bench := { recovered with station.lines.failAt := limit }
      let registers := recovered.bench.phy.registers
      (next.bench.Lasts (Frame.script (Frame.read next.turnaround address reg)) →
        (next.read address reg).1 = .ok (registers.load reg) ∧
        (next.read address reg).2.bench.phy.registers = registers) ∧
      ∀ value, next.bench.Lasts (Frame.script (Frame.write address reg value)) →
        (next.write address reg value).1 = .ok () ∧
        (next.write address reg value).2.bench.phy.registers = registers.store reg value := by
  obtain ⟨idle, settled⟩ := recover_settled (underway_run underway steps) recovers
  have hunting : recovered.bench.phy.decoder = .hunt 0 := by rw [settled, Phy.settle_decoder]
  refine ⟨idle, hunting, ?_⟩
  intro limit address reg here fits next registers
  have rests : next.phase = .idle := idle
  have hunts : next.bench.phy.decoder = .hunt 0 := hunting
  exact ⟨read_undisturbed rests hunts here fits, fun _ => write_undisturbed rests hunts here fits⟩

/-- A read that breaks off between two data bits does not spoil the next one. -/
theorem recover_resynchronises_mid_read :
    let start := Engine.create ({ phy := { address := some 0 } } : Bench) {}
    let steps := [.setRegister 0 2 0x1234, .failAfter 170, .request (.read 0 2), .heal]
    ∃ recovered, (start.run steps).recover = (.ok (), recovered) ∧
      recovered.phase = .idle ∧ recovered.bench.phy.decoder = .hunt 0 ∧
      ((Step.heal.perform recovered).read 0 2).1 = .ok 0x1234 := by
  intro start steps
  have underway : start.bench.phy.decoder.Underway := trivial
  obtain ⟨recovered, succeeds, phy⟩ := recover_healed
    (start.run [.setRegister 0 2 0x1234, .failAfter 170, .request (.read 0 2)]) (underway_run underway _)
  obtain ⟨idle, hunting, next⟩ := recover_resynchronises underway steps succeeds
  have kept : recovered.bench.phy.address = some 0 ∧ recovered.bench.phy.registers.load 2 = 0x1234 := by
    rw [phy]
    decide +kernel
  have reads := (next none 0 2 kept.1 (by decide)).1 (Bench.lasts_of_healthy rfl _)
  exact ⟨recovered, succeeds, idle, hunting, kept.2 ▸ reads.1⟩

end Clause22.Engine
