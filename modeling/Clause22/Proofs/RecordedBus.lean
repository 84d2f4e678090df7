import Clause22.Proofs.MatchedBuses

/-! Any bus with a record of the transactions asked of it. The record changes nothing: a client answers the same over
the bus alone, and what it asked of that bus can be read off the record. -/

namespace Clause22

structure RecordedBus (β : Type) where
  bus : β
  /-- The transactions so far, each with its answer. -/
  log : List (Request × Reply) := []

namespace RecordedBus

variable {β : Type} [Bus β]

instance : Bus (RecordedBus β) where
  read phy reg := fun recorded =>
    let (outcome, bus) := Bus.read phy reg recorded.bus
    (outcome, ⟨bus, recorded.log ++ [(.read phy reg, .word outcome)]⟩)
  write phy reg value := fun recorded =>
    let (outcome, bus) := Bus.write phy reg value recorded.bus
    (outcome, ⟨bus, recorded.log ++ [(.write phy reg value, .done outcome)]⟩)
  isBusy recorded := Bus.isBusy recorded.bus

theorem read_eq (phy reg : Nat) (recorded : RecordedBus β) :
    Bus.read phy reg recorded =
      let (outcome, bus) := Bus.read phy reg recorded.bus
      (outcome, ⟨bus, recorded.log ++ [(.read phy reg, .word outcome)]⟩) := rfl

theorem write_eq (phy reg : Nat) (value : Word) (recorded : RecordedBus β) :
    Bus.write phy reg value recorded =
      let (outcome, bus) := Bus.write phy reg value recorded.bus
      (outcome, ⟨bus, recorded.log ++ [(.write phy reg value, .done outcome)]⟩) := rfl

/-- Whether a bus is the one behind a record. -/
def Records (recorded : RecordedBus β) (bus : β) : Prop :=
  recorded.bus = bus

theorem matched_records (phy : Nat) : Matched (Records (β := β)) phy := by
  constructor
  · rintro index - recorded _ rfl
    exact ⟨_, _, _, read_eq phy index recorded, rfl, rfl⟩
  · rintro index value - recorded _ rfl
    exact ⟨_, _, _, write_eq phy index value recorded, rfl, rfl⟩

end RecordedBus

/-- The word that the transactions of a log last wrote to a register. A write that failed wrote nothing. -/
def lastWritten? (phy reg : Nat) (log : List (Request × Reply)) : Option Word :=
  log.findSomeRev? fun
    | (.write target index value, .done (.ok ())) => if target = phy ∧ index = reg then some value else none
    | _ => none

theorem lastWritten?_append (phy reg : Nat) (first rest : List (Request × Reply)) :
    lastWritten? phy reg (first ++ rest) = (lastWritten? phy reg rest).or (lastWritten? phy reg first) := by
  simp only [lastWritten?, List.findSomeRev?_eq_findSome?_reverse, List.reverse_append, List.findSome?_append]

theorem lastWritten?_cons (phy reg : Nat) (event : Request × Reply) (rest : List (Request × Reply)) :
    lastWritten? phy reg (event :: rest) = (lastWritten? phy reg rest).or (lastWritten? phy reg [event]) :=
  lastWritten?_append phy reg [event] rest

end Clause22
