import Clause22.Bus.Request
import Clause22.Proofs.EngineFrames
import Clause22.Proofs.RecordedLines

/-! What a call to an engine can do, over any lines. It is refused and changes nothing, or its frame is
abandoned at a failed attempt, or its frame is carried out and leaves the engine idle. -/

namespace Clause22

namespace Engine

inductive Call
  | read (phy reg : Nat)
  | write (phy reg : Nat) (value : Word)
  | recover
deriving DecidableEq

variable {σ : Type}

theorem ready_eq (engine : Engine σ) (phy reg : Nat) :
    engine.ready phy reg =
      if Wire.maxPhyAddress < phy then .error (.config .invalidPhyAddress)
      else if Wire.maxRegisterIndex < reg then .error (.config .invalidRegisterAddress)
      else if engine.isBusy then .error (.io .busBusy)
      else .ok () := by
  split
  next beyond => exact ready_phy beyond
  next phyFits =>
    split
    next beyond => exact ready_reg (Nat.not_lt.mp phyFits) beyond
    next regFits =>
      rw [ready, validateAddress_ok ⟨Nat.not_lt.mp phyFits, Nat.not_lt.mp regFits⟩]
      cases engine.isBusy <;> rfl

theorem ready_error {engine : Engine σ} {phy reg : Nat} {cause : Error} (reason : engine.ready phy reg = .error cause) :
    (31 < phy ∧ cause = .config .invalidPhyAddress) ∨
    (phy ≤ 31 ∧ 31 < reg ∧ cause = .config .invalidRegisterAddress) ∨
    (phy ≤ 31 ∧ reg ≤ 31 ∧ engine.isBusy = true ∧ cause = .io .busBusy) := by
  rw [ready_eq] at reason
  split at reason
  next beyond =>
    cases reason
    exact .inl ⟨beyond, rfl⟩
  next phyFits =>
    split at reason
    next beyond =>
      cases reason
      exact .inr (.inl ⟨Nat.not_lt.mp phyFits, beyond, rfl⟩)
    next regFits =>
      split at reason
      next busy =>
        cases reason
        exact .inr (.inr ⟨Nat.not_lt.mp phyFits, Nat.not_lt.mp regFits, busy, rfl⟩)
      next => cases reason

namespace Call

def target? : Call → Option (Nat × Nat)
  | .read phy reg => some (phy, reg)
  | .write phy reg _ => some (phy, reg)
  | .recover => none

def segments (check : TurnaroundCheck) : Call → List Segment
  | .read phy reg => Frame.read check phy reg
  | .write phy reg value => Frame.write phy reg value
  | .recover => Frame.recovery

def failed : Call → Error → Reply
  | .read .., cause => .word (.error cause)
  | .write .., cause => .done (.error cause)
  | .recover, cause => .done (.error cause)

def completed (check : TurnaroundCheck) (samples : List LineWord) : Call → Reply
  | .read .. => .word ((Frame.answer check samples).mapError .io)
  | .write .. => .done (.ok ())
  | .recover => .done (.ok ())

def tally (check : TurnaroundCheck) (samples : List LineWord) (stats : Stats) : Call → Stats
  | .read .. => tallyRead (Frame.answer check samples) stats
  | .write .. => { stats with writes := stats.writes + 1 }
  | .recover => { stats with recoveries := stats.recoveries + 1 }

variable [Lines σ]

def serve : Call → Engine σ → Reply × Engine σ
  | .read phy reg, engine =>
    let (outcome, engine) := engine.read phy reg
    (.word outcome, engine)
  | .write phy reg value, engine =>
    let (outcome, engine) := engine.write phy reg value
    (.done outcome, engine)
  | .recover, engine =>
    let (outcome, engine) := engine.recover
    (.done (outcome.mapError .io), engine)

def script (call : Call) (engine : Engine σ) : Script :=
  Frame.script (call.segments engine.turnaround)

/-- All that a call can reply and leave behind. -/
inductive Runs (call : Call) (before : Engine σ) : Reply → Engine σ → Prop
  | refused {phy reg : Nat} {cause : Error} (target : call.target? = some (phy, reg))
      (reason : before.ready phy reg = .error cause) : Runs call before (call.failed cause) before
  | abandoned {segment : Segment} {lines : σ}
      (ready : ∀ target ∈ call.target?, before.ready target.1 target.2 = .ok ())
      (member : segment ∈ call.segments before.turnaround)
      (played : (call.script before).play before.station.halfPeriod before.station.lines =
        (.error .transport, lines)) :
      Runs call before (call.failed (.io .transport))
        { before with station.lines := lines, phase := segment.phase }
  | finished {samples : List LineWord} {lines : σ}
      (ready : ∀ target ∈ call.target?, before.ready target.1 target.2 = .ok ())
      (played : (call.script before).play before.station.halfPeriod before.station.lines = (.ok samples, lines)) :
      Runs call before (call.completed before.turnaround samples)
        { before with
          station.lines := lines
          phase := .idle
          stats := call.tally before.turnaround samples before.stats }

theorem serve_refused {call : Call} {engine : Engine σ} {phy reg : Nat} {cause : Error}
    (target : call.target? = some (phy, reg)) (reason : engine.ready phy reg = .error cause) :
    call.serve engine = (call.failed cause, engine) := by
  cases call with
  | read phy reg =>
    cases target
    rw [serve, read_refused reason]
    rfl
  | write phy reg value =>
    cases target
    rw [serve, write_refused reason]
    rfl
  | recover => cases target

section Ready

variable {call : Call} {engine after : Engine σ}
  (ready : ∀ target ∈ call.target?, engine.ready target.1 target.2 = .ok ())

include ready

theorem serve_abandoned {cause : IoError}
    (failed : engine.transmit (call.segments engine.turnaround) = (.error cause, after)) :
    call.serve engine = (call.failed (.io cause), after) := by
  cases call with
  | read phy reg =>
    rw [segments] at failed
    rw [serve, Engine.read, ready _ rfl]
    simp only [failed]
    rfl
  | write phy reg value =>
    rw [segments] at failed
    rw [serve, Engine.write, ready _ rfl]
    simp only [failed]
    rfl
  | recover =>
    rw [segments] at failed
    rw [serve, Engine.recover]
    simp only [failed]
    rfl

theorem serve_finished {samples : List LineWord}
    (sent : engine.transmit (call.segments engine.turnaround) = (.ok samples, after)) :
    call.serve engine = (call.completed after.turnaround samples,
      { after with stats := call.tally after.turnaround samples after.stats }) := by
  cases call with
  | read phy reg =>
    rw [segments] at sent
    rw [serve, Engine.read, ready _ rfl]
    simp only [sent]
    rfl
  | write phy reg value =>
    rw [segments] at sent
    rw [serve, Engine.write, ready _ rfl]
    simp only [sent]
    rfl
  | recover =>
    rw [segments] at sent
    rw [serve, Engine.recover]
    simp only [sent]
    rfl

end Ready

theorem serve_runs (call : Call) (before : Engine σ) :
    call.Runs before (call.serve before).1 (call.serve before).2 := by
  by_cases ready : ∀ target ∈ call.target?, before.ready target.1 target.2 = .ok ()
  · rcases played : (call.script before).play before.station.halfPeriod before.station.lines
      with ⟨cause | samples, lines⟩
    · have transport := Script.play_error played
      subst transport
      obtain ⟨segment, member, failed⟩ := transmit_error played
      rw [serve_abandoned ready failed]
      exact .abandoned ready member played
    · rw [serve_finished ready (transmit_ok played)]
      exact .finished ready played
  · simp only [Classical.not_forall] at ready
    obtain ⟨⟨phy, reg⟩, target, refused⟩ := ready
    cases reason : before.ready phy reg with
    | ok => exact absurd reason refused
    | error cause =>
      rw [serve_refused target reason]
      exact .refused target reason

end Call
end Engine
end Clause22
