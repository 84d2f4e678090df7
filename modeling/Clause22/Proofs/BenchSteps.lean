import Clause22.Proofs.WireEdges

/-! Whatever may be done to a bench: attempts in any order and with any line words, words put into registers past
the bus, faults switched on and off. Of all this the PHY hears only the rising clock edges. -/

namespace Clause22.Bench

def attempt (bench : Bench) : Action → Bench
  | .drive word => (bench.drive word).2
  | .sample => bench.sample.2
  | .wait => bench

inductive Step
  | attempt (action : Action)
  | setRegister (page index : Nat) (value : Word)
  | failAfter (count : Nat)
  | heal
  | clearLog

def Step.perform (bench : Bench) : Step → Bench
  | .attempt action => bench.attempt action
  | .setRegister page index value => bench.setRegister page index value
  | .failAfter count => bench.failAfter count
  | .heal => bench.heal
  | .clearLog => bench.clearLog

def run (bench : Bench) (steps : List Step) : Bench :=
  steps.foldl Step.perform bench

/-- The rising clock edge of a step. A drive that fails makes none. -/
def edge? (bench : Bench) : Step → Option Edge
  | .attempt (.drive word) => if bench.permits then Edge.between? bench.lines word else none
  | _ => none

/-- An edge that a PHY heard, and the registers that it had then. -/
structure Moment where
  edge : Edge
  registers : PagedRegisters

def moments : List Step → Bench → List Moment
  | [], _ => []
  | step :: rest, bench =>
    (bench.edge? step).toList.map (⟨·, bench.phy.registers⟩) ++ moments rest (step.perform bench)

theorem attempt_phy (bench : Bench) (action : Action) :
    (bench.attempt action).phy = bench.phy.hear (bench.edge? (.attempt action)).toList := by
  cases action with
  | drive word =>
    simp only [attempt, drive, edge?]
    split
    · exact observe_phy ..
    · rfl
  | sample =>
    simp only [attempt, sample]
    split <;> rfl
  | wait => rfl

/-- A step that leaves the registers and the log to the PHY. -/
def Step.bus : Step → Bool
  | .attempt _ | .failAfter _ | .heal => true
  | .setRegister .. | .clearLog => false

theorem perform_cases (bench : Bench) (step : Step) :
    (step.bus = true ∧ (step.perform bench).phy = bench.phy.hear (bench.edge? step).toList) ∨
    (step.bus = false ∧ bench.edge? step = none ∧ (step.perform bench).phy.address = bench.phy.address ∧
      (step.perform bench).phy.decoder = bench.phy.decoder) := by
  cases step with
  | attempt action => exact .inl ⟨rfl, attempt_phy bench action⟩
  | failAfter _ | heal => exact .inl ⟨rfl, rfl⟩
  | setRegister _ _ _ | clearLog => exact .inr ⟨rfl, rfl, rfl, rfl⟩

theorem run_bus {bench : Bench} {steps : List Step} (bus : ∀ step ∈ steps, step.bus = true) :
    (bench.run steps).phy = bench.phy.hear ((moments steps bench).map Moment.edge) := by
  induction steps generalizing bench with
  | nil => rfl
  | cons step rest ih =>
    have heard : ((bench.edge? step).toList.map (⟨·, bench.phy.registers⟩)).map Moment.edge =
        (bench.edge? step).toList := by
      cases bench.edge? step <;> rfl
    obtain ⟨-, first⟩ | ⟨other, -⟩ := perform_cases bench step
    · rw [moments, List.map_append, heard, Phy.hear_append, ← first]
      exact ih fun later member => bus later (List.mem_cons_of_mem _ member)
    · rw [bus step List.mem_cons_self] at other
      cases other

theorem moments_append (first rest : List Step) (bench : Bench) :
    moments (first ++ rest) bench = moments first bench ++ moments rest (bench.run first) := by
  induction first generalizing bench with
  | nil => rfl
  | cons step first ih =>
    rw [List.cons_append, moments, moments, ih, List.append_assoc]
    rfl

end Clause22.Bench
