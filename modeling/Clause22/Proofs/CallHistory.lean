import Clause22.Lines.Scripted
import Clause22.Proofs.EngineCalls

/-! Whole runs of an engine over lines that may fail at any attempt. Whether the engine is busy, what it
refuses, how it leaves the lines and what it counts can all be told from the history of its calls. -/

namespace Clause22

theorem Frame.answer_cases (check : TurnaroundCheck) (samples : List LineWord) :
    (∃ word, answer check samples = .ok word) ∨
    (check = .verify ∧ answer check samples = .error .noResponse) := by
  cases check with
  | ignore => exact .inl ⟨_, rfl⟩
  | verify =>
    simp only [answer]
    split
    · exact .inr ⟨trivial, rfl⟩
    · exact .inl ⟨_, rfl⟩

namespace Engine

variable {σ : Type}

/-- A call, its reply, and the engine on both sides of it. -/
structure Exchange (σ : Type) where
  call : Call
  before : Engine σ
  reply : Reply
  after : Engine σ

namespace Exchange

def readDone : Exchange σ → Bool
  | ⟨.read .., _, .word (.ok _), _⟩ => true
  | _ => false

def writeDone : Exchange σ → Bool
  | ⟨.write .., _, .done (.ok _), _⟩ => true
  | _ => false

def recovered : Exchange σ → Bool
  | ⟨.recover, _, .done (.ok _), _⟩ => true
  | _ => false

def unanswered : Exchange σ → Bool
  | ⟨.read .., _, .word (.error (.io .noResponse)), _⟩ => true
  | _ => false

end Exchange

def Exchange.mapLines {τ : Type} (part : σ → τ) (exchange : Exchange σ) : Exchange τ :=
  ⟨exchange.call, exchange.before.mapLines part, exchange.reply, exchange.after.mapLines part⟩

/-- How many calls of a history ended in each way, modulo 2^32. -/
def tallied (history : List (Exchange σ)) : Stats where
  reads := .ofNat (history.countP Exchange.readDone)
  writes := .ofNat (history.countP Exchange.writeDone)
  recoveries := .ofNat (history.countP Exchange.recovered)
  noResponse := .ofNat (history.countP Exchange.unanswered)

/-- What the busy guard promises of a single call. -/
structure Exchange.Guarded (check : TurnaroundCheck) (exchange : Exchange σ) : Prop where
  phy : ∀ phy reg, exchange.call.target? = some (phy, reg) → 31 < phy →
    exchange.reply = exchange.call.failed (.config .invalidPhyAddress) ∧ exchange.after = exchange.before
  reg : ∀ phy reg, exchange.call.target? = some (phy, reg) → phy ≤ 31 → 31 < reg →
    exchange.reply = exchange.call.failed (.config .invalidRegisterAddress) ∧ exchange.after = exchange.before
  busy : ∀ phy reg, exchange.call.target? = some (phy, reg) → phy ≤ 31 → reg ≤ 31 → exchange.before.isBusy = true →
    exchange.reply = exchange.call.failed (.io .busBusy) ∧ exchange.after = exchange.before
  idle : exchange.before.phase = .idle →
    exchange.reply.failure? = none ∨ exchange.reply.failure? = some (.io .noResponse) → exchange.after.phase = .idle
  checked : exchange.reply.failure? = some (.io .noResponse) → check = .verify

/-- Whether a call made any attempt, or waited. -/
def Exchange.touched (exchange : Exchange (Recorded σ)) : Bool :=
  exchange.after.station.lines.log ≠ exchange.before.station.lines.log

def lastTouch? (history : List (Exchange (Recorded σ))) : Option (Exchange (Recorded σ)) :=
  (history.filter Exchange.touched).getLast?

/-- What the history of an engine says about its present state. -/
structure Disciplined (config : Config) (history : List (Exchange (Recorded σ))) (engine : Engine (Recorded σ)) :
    Prop where
  busy : engine.isBusy = true ↔
    ∃ last ∈ lastTouch? history, last.reply.failure? = some (.io .transport)
  guarded : ∀ exchange ∈ history, exchange.Guarded config.turnaround
  released : engine.phase = .idle → ∀ drive ∈ engine.station.lines.drives.getLast?, drive = (0, true)
  counted : engine.stats = tallied history

theorem ready_busy {engine : Engine σ} {phy reg : Nat} (fits : Addressable phy reg) (busy : engine.isBusy = true) :
    engine.ready phy reg = .error (.io .busBusy) := by
  rw [ready_eq, if_neg (Nat.not_lt.mpr fits.phy), if_neg (Nat.not_lt.mpr fits.reg), if_pos busy]

theorem tallied_concat (past : List (Exchange σ)) (exchange : Exchange σ) :
    let counted := tallied past
    tallied (past ++ [exchange]) =
      { reads := if exchange.readDone then counted.reads + 1 else counted.reads
        writes := if exchange.writeDone then counted.writes + 1 else counted.writes
        recoveries := if exchange.recovered then counted.recoveries + 1 else counted.recoveries
        noResponse := if exchange.unanswered then counted.noResponse + 1 else counted.noResponse } := by
  have one (holds : Exchange σ → Bool) : UInt32.ofNat ((past ++ [exchange]).countP holds) =
      if holds exchange then UInt32.ofNat (past.countP holds) + 1 else UInt32.ofNat (past.countP holds) := by
    rw [List.countP_append, List.countP_singleton]
    split
    · exact UInt32.ofNat_add _ _
    · rfl
  simp only [tallied, one]

theorem lastTouch?_touched (past : List (Exchange (Recorded σ))) {exchange : Exchange (Recorded σ)}
    (touched : exchange.touched = true) : lastTouch? (past ++ [exchange]) = some exchange := by
  rw [lastTouch?, List.filter_append, List.filter_cons_of_pos touched]
  simp

theorem lastTouch?_untouched (past : List (Exchange (Recorded σ))) {exchange : Exchange (Recorded σ)}
    (untouched : ¬ exchange.touched = true) : lastTouch? (past ++ [exchange]) = lastTouch? past := by
  rw [lastTouch?, List.filter_append, List.filter_cons_of_neg untouched]
  simp [lastTouch?]

private theorem disciplined_create (lines : Recorded σ) (untouched : lines.log = []) (config : Config) :
    Disciplined config [] (create lines config) := by
  refine ⟨?_, ?_, ?_, rfl⟩
  · simp [lastTouch?, create, isBusy]
  · intro exchange impossible
    cases impossible
  · intro _ drive last
    simp [create, Recorded.drives, untouched] at last

namespace Call

@[simp] theorem failure?_failed (call : Call) (cause : Error) : (call.failed cause).failure? = some cause := by
  cases call <;> rfl

theorem segment_busy {call : Call} {check : TurnaroundCheck} {segment : Segment}
    (member : segment ∈ call.segments check) : segment.phase ≠ .idle := by
  cases call with
  | read => exact Frame.read_busy member
  | write => exact Frame.write_busy member
  | recover => exact Frame.recovery_busy member

theorem failure?_completed (call : Call) (check : TurnaroundCheck) (samples : List LineWord) :
    (call.completed check samples).failure? = none ∨
    (check = .verify ∧ (call.completed check samples).failure? = some (.io .noResponse)) := by
  cases call with
  | read =>
    obtain ⟨word, answered⟩ | ⟨verify, silent⟩ := Frame.answer_cases check samples
    · rw [completed, answered]
      exact .inl rfl
    · rw [completed, silent]
      exact .inr ⟨verify, rfl⟩
  | write => exact .inl rfl
  | recover => exact .inl rfl

theorem script_enables (call : Call) (engine : Engine σ) :
    ∃ rest, call.script engine = .drive Wire.outputEnable :: rest := by
  cases call <;> exact ⟨_, rfl⟩

theorem script_releases (call : Call) (engine : Engine σ) :
    ∃ frame, call.script engine = frame ++ Script.releaseCycles Wire.turnaroundCycles := by
  cases call with
  | read phy reg =>
    refine ⟨Frame.script (Frame.header Wire.opRead phy reg) ++
      (Frame.turnaround engine.turnaround ++ Script.readBits Wire.dataBits), ?_⟩
    simp only [script, segments, Frame.read, Frame.script, Frame.trailer, List.flatMap_append, List.flatMap_cons,
      List.flatMap_nil, List.append_nil, List.append_assoc]
  | write phy reg value =>
    refine ⟨Frame.script (Frame.header Wire.opWrite phy reg) ++ (Script.writeBits Wire.turnaround Wire.shortBits ++
      Script.writeBits (value.setWidth 32) Wire.dataBits), ?_⟩
    simp only [script, segments, Frame.write, Frame.script, Frame.trailer, List.flatMap_append, List.flatMap_cons,
      List.flatMap_nil, List.append_nil, List.append_assoc]
  | recover =>
    refine ⟨Frame.preamble, ?_⟩
    simp only [script, segments, Frame.recovery, Frame.script, List.flatMap_cons, List.flatMap_nil, List.append_nil]

end Call

section History

variable [Lines σ]

def exchange (call : Call) (engine : Engine σ) : Exchange σ :=
  ⟨call, engine, (call.serve engine).1, (call.serve engine).2⟩

def history : List Call → Engine σ → List (Exchange σ)
  | [], _ => []
  | call :: rest, engine => exchange call engine :: history rest (call.serve engine).2

def afterCalls (calls : List Call) (engine : Engine σ) : Engine σ :=
  calls.foldl (fun engine call => (call.serve engine).2) engine

theorem refused_exchange {call : Call} {engine : Engine σ} {phy reg : Nat} {cause : Error}
    (target : call.target? = some (phy, reg)) (reason : engine.ready phy reg = .error cause) :
    (exchange call engine).reply = call.failed cause ∧
      (exchange call engine).after = (exchange call engine).before := by
  rw [exchange, Call.serve_refused target reason]
  exact ⟨rfl, rfl⟩

theorem Call.Runs.idle {call : Call} {before after : Engine σ} {reply : Reply} (runs : call.Runs before reply after)
    (idle : before.phase = .idle) (ended : reply.failure? ≠ some (.io .transport)) : after.phase = .idle := by
  cases runs with
  | refused => exact idle
  | abandoned => exact absurd (failure?_failed ..) ended
  | finished => rfl

theorem Call.Runs.turnaround {call : Call} {before after : Engine σ} {reply : Reply}
    (runs : call.Runs before reply after) : after.turnaround = before.turnaround := by
  cases runs <;> rfl

theorem Call.Runs.verified {call : Call} {before after : Engine σ} {reply : Reply} (runs : call.Runs before reply after)
    (silent : reply.failure? = some (.io .noResponse)) : before.turnaround = .verify := by
  cases runs with
  | refused target reason =>
    rw [failure?_failed] at silent
    obtain ⟨_, rfl⟩ | ⟨_, _, rfl⟩ | ⟨_, _, _, rfl⟩ := ready_error reason <;> cases silent
  | abandoned =>
    rw [failure?_failed] at silent
    cases silent
  | @finished samples =>
    obtain answered | ⟨verify, _⟩ := call.failure?_completed before.turnaround samples
    · rw [answered] at silent
      cases silent
    · exact verify

theorem guarded_exchange (call : Call) (engine : Engine σ) : (exchange call engine).Guarded engine.turnaround := by
  refine ⟨?_, ?_, ?_, ?_, (call.serve_runs engine).verified⟩
  · intro phy reg target beyond
    exact refused_exchange target (ready_phy beyond)
  · intro phy reg target fits beyond
    exact refused_exchange target (ready_reg fits beyond)
  · intro phy reg target phyFits regFits busy
    exact refused_exchange target (ready_busy ⟨phyFits, regFits⟩ busy)
  · intro idle ended
    refine (call.serve_runs engine).idle idle fun transport => ?_
    rw [exchange, transport] at ended
    rcases ended with ended | ended <;> cases ended

section Following

variable {τ : Type} [Lines τ] {part : σ → τ}

theorem Call.serve_following (follows : Lines.Follows part) (call : Call) (engine : Engine σ) :
    call.serve (engine.mapLines part) = ((call.serve engine).1, (call.serve engine).2.mapLines part) := by
  have same := transmit_following follows (call.segments engine.turnaround) engine
  by_cases ready : ∀ target ∈ call.target?, engine.ready target.1 target.2 = .ok ()
  · have alike : ∀ target ∈ call.target?, (engine.mapLines part).ready target.1 target.2 = .ok () := ready
    rcases sent : engine.transmit (call.segments engine.turnaround) with ⟨cause | samples, after⟩
    · rw [sent] at same
      rw [serve_abandoned ready sent, serve_abandoned alike same]
    · rw [sent] at same
      rw [serve_finished ready sent, serve_finished alike same]
      rfl
  · simp only [Classical.not_forall] at ready
    obtain ⟨⟨phy, reg⟩, target, refused⟩ := ready
    cases reason : engine.ready phy reg with
    | ok => exact absurd reason refused
    | error cause =>
      have alike : (engine.mapLines part).ready phy reg = .error cause := reason
      rw [serve_refused target reason, serve_refused target alike]

theorem history_following (follows : Lines.Follows part) (calls : List Call) (engine : Engine σ) :
    (history calls engine).map (Exchange.mapLines part) = history calls (engine.mapLines part) := by
  induction calls generalizing engine with
  | nil => rfl
  | cons call rest ih =>
    have same := call.serve_following follows engine
    simp only [history, List.map_cons, ih, same, exchange, Exchange.mapLines]

theorem afterCalls_following (follows : Lines.Follows part) (calls : List Call) (engine : Engine σ) :
    (afterCalls calls engine).mapLines part = afterCalls calls (engine.mapLines part) := by
  induction calls generalizing engine with
  | nil => rfl
  | cons call rest ih =>
    have same := congrArg Prod.snd (call.serve_following follows engine)
    rw [afterCalls, afterCalls, List.foldl_cons, List.foldl_cons, same]
    exact ih _

end Following

end History

section Recorded

variable [Lines σ]

/-- An engine whose record is dropped. -/
def plain (engine : Engine (Recorded σ)) : Engine σ :=
  engine.mapLines Recorded.lines

def Exchange.plain (exchange : Exchange (Recorded σ)) : Exchange σ :=
  exchange.mapLines Recorded.lines

theorem serve_plain (call : Call) (engine : Engine (Recorded σ)) :
    call.serve engine.plain = ((call.serve engine).1, (call.serve engine).2.plain) :=
  Call.serve_following Recorded.follows call engine

theorem history_plain (calls : List Call) (engine : Engine (Recorded σ)) :
    (history calls engine).map Exchange.plain = history calls engine.plain :=
  history_following Recorded.follows calls engine

theorem play_released {call : Call} {engine : Engine (Recorded σ)} {samples : List LineWord} {lines : Recorded σ}
    (played : (call.script engine).play engine.station.halfPeriod engine.station.lines = (.ok samples, lines)) :
    lines.drives.getLast? = some (0, true) := by
  obtain ⟨frame, ends⟩ := call.script_releases engine
  have last : (Script.releaseCycles Wire.turnaroundCycles).drives = [Wire.clock, 0, Wire.clock, 0] := rfl
  rw [Script.drives_play played, ends, Script.drives_append, last]
  simp

theorem play_touched {call : Call} {engine : Engine (Recorded σ)} {outcome : Except IoError (List LineWord)}
    {lines : Recorded σ}
    (played : (call.script engine).play engine.station.halfPeriod engine.station.lines = (outcome, lines)) :
    lines.log ≠ engine.station.lines.log := by
  obtain ⟨rest, opens⟩ := call.script_enables engine
  have touched := Script.log_play_drive engine.station.halfPeriod Wire.outputEnable rest engine.station.lines
  rw [← opens, played] at touched
  exact touched

section Step

variable {past : List (Exchange (Recorded σ))} {call : Call} {before after : Engine (Recorded σ)}
  {reply : Reply} (runs : call.Runs before reply after)

include runs

private theorem busy_step
    (busy : before.isBusy = true ↔ ∃ last ∈ lastTouch? past, last.reply.failure? = some (.io .transport)) :
    after.isBusy = true ↔ ∃ last ∈ lastTouch? (past ++ [⟨call, before, reply, after⟩]),
      last.reply.failure? = some (.io .transport) := by
  cases runs with
  | refused target reason =>
    rw [lastTouch?_untouched past (by simp [Exchange.touched])]
    exact busy
  | abandoned ready member played =>
    have stuck := Call.segment_busy member
    rw [lastTouch?_touched past (decide_eq_true (play_touched played))]
    simp [isBusy, stuck]
  | @finished samples lines ready played =>
    rw [lastTouch?_touched past (decide_eq_true (play_touched played))]
    obtain answered | ⟨_, silent⟩ := call.failure?_completed before.turnaround samples
    · simp [isBusy, answered]
    · simp [isBusy, silent]

private theorem released_step
    (released : before.phase = .idle → ∀ drive ∈ before.station.lines.drives.getLast?, drive = (0, true))
    (idle : after.phase = .idle) : ∀ drive ∈ after.station.lines.drives.getLast?, drive = (0, true) := by
  cases runs with
  | refused => exact released idle
  | abandoned ready member played => exact absurd idle (Call.segment_busy member)
  | finished ready played =>
    intro drive last
    rw [play_released played] at last
    exact (Option.some.inj last).symm

private theorem counted_step (counted : before.stats = tallied past) :
    after.stats = tallied (past ++ [⟨call, before, reply, after⟩]) := by
  rw [tallied_concat, ← counted]
  cases runs with
  | refused target reason =>
    obtain ⟨_, rfl⟩ | ⟨_, _, rfl⟩ | ⟨_, _, _, rfl⟩ := ready_error reason <;> cases call <;> rfl
  | abandoned ready member played => cases call <;> rfl
  | @finished samples lines ready played =>
    cases call with
    | read phy reg =>
      obtain ⟨word, answered⟩ | ⟨_, silent⟩ := Frame.answer_cases before.turnaround samples
      · simp only [Call.completed, Call.tally, answered]
        rfl
      · simp only [Call.completed, Call.tally, silent]
        rfl
    | write phy reg value => rfl
    | recover => rfl

end Step

private theorem disciplined_exchange {config : Config} {past : List (Exchange (Recorded σ))}
    {engine : Engine (Recorded σ)} (kept : Disciplined config past engine)
    (check : engine.turnaround = config.turnaround) (call : Call) :
    Disciplined config (past ++ [exchange call engine]) (call.serve engine).2 := by
  have runs := call.serve_runs engine
  refine ⟨busy_step runs kept.busy, ?_, released_step runs kept.released, counted_step runs kept.counted⟩
  intro member found
  rcases List.mem_append.mp found with earlier | last
  · exact kept.guarded member earlier
  · rw [List.mem_singleton.mp last, ← check]
    exact guarded_exchange call engine

private theorem disciplined_history {config : Config} {past : List (Exchange (Recorded σ))}
    {engine : Engine (Recorded σ)} (kept : Disciplined config past engine)
    (check : engine.turnaround = config.turnaround) (calls : List Call) :
    Disciplined config (past ++ history calls engine) (afterCalls calls engine) := by
  induction calls generalizing past engine with
  | nil =>
    rw [history, List.append_nil]
    exact kept
  | cons call rest ih =>
    have next := disciplined_exchange kept check call
    rw [history, List.append_cons]
    exact ih next ((call.serve_runs engine).turnaround.trans check)

/-- Over lines that fail at any attempts, an engine is busy exactly after a failed call, refuses calls without
touching the lines, has released them whenever it is idle, and counts what it has done. -/
theorem calls_disciplined (lines : σ) (config : Config) (calls : List Call) :
    let start := create (Recorded.mk lines []) config
    (history calls start).map Exchange.plain = history calls (create lines config) ∧
    Disciplined config (history calls start) (afterCalls calls start) := by
  intro start
  have run := disciplined_history (disciplined_create (Recorded.mk lines []) rfl config) rfl calls
  exact ⟨history_plain calls start, run⟩

/-- A write that fails, a read that is refused for it, a recovery, and an address that no frame can carry. Then two
checked reads, one that is carried out and one that no PHY answers. -/
theorem calls_disciplined_failing :
    let lines : ScriptedLines := { faults := { failing := [40] } }
    let calls : List Call := [.write 1 2 3, .read 1 2, .recover, .read 40 2]
    let start := create (Recorded.mk lines []) {}
    let answers : List LineWord := 0 :: List.replicate 16 1 ++ List.replicate 17 1
    let checked : Config := { turnaround := .verify }
    let reads : List Call := [.read 1 2, .read 4 2]
    let fresh := create (Recorded.mk ({ samples := answers } : ScriptedLines) []) checked
    (history calls start).map (fun exchange =>
        (exchange.reply.failure?, exchange.touched, exchange.after.isBusy)) =
      [(some (.io .transport), true, true), (some (.io .busBusy), false, true), (none, true, false),
        (some (.config .invalidPhyAddress), false, false)] ∧
    Disciplined {} (history calls start) (afterCalls calls start) ∧
    (history reads fresh).map (fun exchange => (exchange.readDone, exchange.reply.failure?, exchange.after.isBusy)) =
      [(true, none, false), (false, some (.io .noResponse), false)] ∧
    (afterCalls reads fresh).stats = ⟨1, 0, 0, 1⟩ ∧
    Disciplined checked (history reads fresh) (afterCalls reads fresh) := by
  intro lines calls start answers checked reads fresh
  have counted := (calls_disciplined ({ samples := answers } : ScriptedLines) checked reads).2
  exact ⟨by decide +kernel, (calls_disciplined lines {} calls).2, by decide +kernel,
    counted.counted.trans (by decide +kernel), counted⟩

end Recorded
end Engine
end Clause22
