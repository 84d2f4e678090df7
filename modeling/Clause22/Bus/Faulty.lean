import Clause22.Bus.Request

/-! A bus that fails by plan. A transaction that the plan fails never reaches the bus behind it. -/

namespace Clause22

structure FaultyBus (β : Type) where
  bus : β
  /-- How many transactions were attempted. -/
  attempts : Nat := 0
  /-- The attempts that fail, counted from zero, each with its error. -/
  faults : List (Nat × Error) := []

namespace FaultyBus

def access (transaction : Access β α) : Access (FaultyBus β) α := fun faulty =>
  let next := { faulty with attempts := faulty.attempts + 1 }
  match faulty.faults.lookup faulty.attempts with
  | some cause => (.error cause, next)
  | none =>
    let (outcome, bus) := transaction faulty.bus
    (outcome, { next with bus })

instance [Bus β] : Bus (FaultyBus β) where
  read phy reg := access (Bus.read phy reg)
  write phy reg value := access (Bus.write phy reg value)
  isBusy faulty := Bus.isBusy faulty.bus

end FaultyBus
end Clause22
