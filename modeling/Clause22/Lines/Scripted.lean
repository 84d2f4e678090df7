import Clause22.Lines.Basic

/-! Lines that answer from a prepared list of samples, fail by plan, and log every attempt. -/

namespace Clause22

/-- Which attempts of a numbered sequence fail. They are counted from zero, failed ones too. -/
structure FaultPlan where
  attempts : Nat := 0
  /-- The numbers of single attempts that fail. -/
  failing : List Nat := []
  /-- Every attempt fails from this number on. -/
  limit : Option Nat := none
deriving DecidableEq

namespace FaultPlan

def permits (plan : FaultPlan) : Bool :=
  plan.attempts ∉ plan.failing ∧ plan.limit.all (plan.attempts < ·)

def attempt (plan : FaultPlan) : Bool × FaultPlan :=
  (plan.permits, { plan with attempts := plan.attempts + 1 })

/-- Lets `count` more attempts pass the limit. -/
def failAfter (count : Nat) (plan : FaultPlan) : FaultPlan :=
  { plan with limit := some (plan.attempts + count) }

def heal (plan : FaultPlan) : FaultPlan :=
  { plan with failing := [], limit := none }

end FaultPlan

inductive LineEvent
  | drive (lines : LineWord) (done : Bool)
  | sample (done : Bool)
  | wait
deriving DecidableEq

/-- The driven levels in hexadecimal, `s`, or `w`; a failed attempt is marked. -/
def LineEvent.render : LineEvent → String
  | .drive lines done => hex 2 lines.toNat ++ (if done then "" else "!")
  | .sample done => if done then "s" else "s!"
  | .wait => "w"

structure ScriptedLines where
  /-- The samples still to be taken. Without one left, sampling fails. -/
  samples : List LineWord := []
  faults : FaultPlan := {}
  log : Array LineEvent := #[]
deriving DecidableEq

namespace ScriptedLines

def drive (word : LineWord) (lines : ScriptedLines) : Bool × ScriptedLines :=
  let (done, faults) := lines.faults.attempt
  (done, { lines with faults, log := lines.log.push (.drive word done) })

/-- A failed attempt takes no sample from the list. -/
def sample (lines : ScriptedLines) : Option LineWord × ScriptedLines :=
  let (permitted, faults) := lines.faults.attempt
  match permitted, lines.samples with
  | true, word :: samples => (some word, { samples, faults, log := lines.log.push (.sample true) })
  | _, _ => (none, { lines with faults, log := lines.log.push (.sample false) })

instance : Lines ScriptedLines where
  drive := drive
  sample := sample
  wait _ lines := { lines with log := lines.log.push .wait }

theorem sample_permitted (first : LineWord) {samples : List LineWord} {faults : FaultPlan} {log : Array LineEvent}
    (permitted : faults.attempt.1 = true) :
    Lines.sample (ScriptedLines.mk (first :: samples) faults log) =
      (some first, ⟨samples, faults.attempt.2, log.push (.sample true)⟩) := by
  simp only [Lines.sample, sample, permitted]

theorem sample_refused {lines : ScriptedLines} (refused : lines.faults.attempt.1 = false) :
    Lines.sample lines =
      (none, { lines with faults := lines.faults.attempt.2, log := lines.log.push (.sample false) }) := by
  simp only [Lines.sample, sample, refused]

end ScriptedLines
end Clause22
