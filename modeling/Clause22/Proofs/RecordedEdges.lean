import Clause22.Proofs.ForetoldLines

/-! The rising edges in a record. As long as no attempt fails, an idle engine makes the edges of the frames that it
is asked for, and between them none. -/

namespace Clause22

def Attempt.action : Attempt → Action
  | .drive lines _ => .drive lines
  | .sample _ => .sample
  | .wait _ => .wait

theorem Script.map_action_trace (halfPeriod : Nat) (script : Script) (samples : List LineWord) :
    (script.trace halfPeriod samples).map Attempt.action = script := by
  induction script generalizing samples with
  | nil => rfl
  | cons action rest ih => cases action <;> exact congrArg _ (ih _)

def Recorded.Unharmed (log : List Attempt) : Prop :=
  false ∉ log.filterMap Attempt.done?

theorem Recorded.unharmed_append {first rest : List Attempt} :
    Unharmed (first ++ rest) ↔ Unharmed first ∧ Unharmed rest := by
  simp only [Unharmed, List.filterMap_append, List.mem_append, not_or]

namespace Engine

/-- The rising edges of the frame that an idle engine makes for a call. -/
def Call.edges (call : Call) : List Edge :=
  if ∀ target ∈ call.target?, Addressable target.1 target.2 then
    match call with
    | .read phy reg => (Frame.readStream phy reg).map .driven ++ List.replicate 20 .released
    | .write phy reg value => (Frame.writeStream phy reg value).map .driven ++ List.replicate 2 .released
    | .recover => (List.replicate 32 true).map .driven ++ List.replicate 2 .released
  else
    []

variable {σ : Type}

theorem Call.edges_script {call : Call} {engine : Engine σ}
    (ready : ∀ target ∈ call.target?, engine.ready target.1 target.2 = .ok ()) (lines : LineWord) :
    (call.script engine).edges lines = call.edges := by
  have fits : ∀ target ∈ call.target?, Addressable target.1 target.2 :=
    fun target member => (ready_ok_iff.mp (ready target member)).2
  refine Eq.trans ?_ (if_pos fits).symm
  cases call with
  | read phy reg =>
    rw [script, segments, Frame.edges_read, Frame.readStream_eq]
    rfl
  | write phy reg value =>
    rw [script, segments, Frame.script_write, Frame.edges_burst, Frame.writeStream_eq]
    rfl
  | recover =>
    rw [script, segments, Frame.script_recovery, Frame.edges_burst]
    rfl

theorem Call.edges_refused {call : Call} {engine : Engine σ} {phy reg : Nat} {cause : Error}
    (idle : engine.phase = .idle) (target : call.target? = some (phy, reg))
    (reason : engine.ready phy reg = .error cause) : call.edges = [] := by
  refine if_neg fun fits => ?_
  rw [ready_ok idle (fits _ target)] at reason
  cases reason

variable [Lines σ]

theorem Call.Runs.edges {call : Call} {before after : Engine (Recorded σ)} {reply : Reply}
    (runs : call.Runs before reply after) (idle : before.phase = .idle)
    (unharmed : Recorded.Unharmed after.station.lines.log) :
    after.phase = .idle ∧ ∃ attempts, after.station.lines.log = before.station.lines.log ++ attempts ∧
      ∀ lines, Script.edges (attempts.map Attempt.action) lines = call.edges := by
  cases runs with
  | refused target reason =>
    exact ⟨idle, [], (List.append_nil _).symm, fun _ => (edges_refused idle target reason).symm⟩
  | abandoned ready member played =>
    obtain ⟨breach, recorded⟩ := Script.play_breached played
    obtain ⟨failed, -⟩ := Action.refused_outcome breach.marked
    refine absurd (List.mem_filterMap.mpr ⟨breach.refused, ?_, failed⟩) unharmed
    rw [recorded]
    exact List.mem_append_right _ List.mem_concat_self
  | finished ready played =>
    refine ⟨rfl, _, (Script.log_played played).2, fun lines => ?_⟩
    rw [Script.map_action_trace]
    exact edges_script ready lines

theorem edges_afterCalls (calls : List Call) {engine : Engine (Recorded σ)} (idle : engine.phase = .idle)
    (unharmed : Recorded.Unharmed (afterCalls calls engine).station.lines.log) :
    ∃ attempts, (afterCalls calls engine).station.lines.log = engine.station.lines.log ++ attempts ∧
      ∀ lines, Script.edges (attempts.map Attempt.action) lines = calls.flatMap Call.edges := by
  induction calls generalizing engine with
  | nil => exact ⟨[], (List.append_nil _).symm, fun _ => rfl⟩
  | cons call rest ih =>
    have later : Recorded.Unharmed (afterCalls rest (call.serve engine).2).station.lines.log := unharmed
    have middle : Recorded.Unharmed (call.serve engine).2.station.lines.log := by
      obtain ⟨others, grown, -⟩ := history_foretold rest (call.serve engine).2
      rw [grown] at later
      exact (Recorded.unharmed_append.mp later).1
    obtain ⟨still, first, opened, edges⟩ := (call.serve_runs engine).edges idle middle
    obtain ⟨others, grown, more⟩ := ih still later
    rw [opened, List.append_assoc] at grown
    refine ⟨first ++ others, grown, fun lines => ?_⟩
    rw [List.map_append, Script.edges_append, edges, more, List.flatMap_cons]

end Engine
end Clause22
