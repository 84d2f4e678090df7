import Clause22.Proofs.CallHistory
import Clause22.Proofs.WireForm

/-! How long the clock keeps its level. A record is cut where the clock turns, and on lines that never fail every
piece between two turns holds the wait of a half period, but for one piece of each read: the released cycle before
the data ends with a falling clock, and the first data bit raises it after no more than a sample. -/

namespace Clause22

/-- The level of the clock after an attempt; one that fails leaves it as it was. -/
def Attempt.clock : Attempt → Bool → Bool
  | .drive lines true, _ => Wire.high Wire.clock lines
  | _, level => level

/-- A record seen from its start, where the clock is low. -/
structure ClockWatch where
  level : Bool := false
  /-- What has been attempted since the clock last turned, once it has. -/
  since : Option (List Attempt) := none
  /-- What was attempted between one turn of the clock and the next. -/
  phases : List (List Attempt) := []

namespace ClockWatch

def see (watch : ClockWatch) (attempt : Attempt) : ClockWatch :=
  if attempt.clock watch.level = watch.level then
    { watch with since := watch.since.map (· ++ [attempt]) }
  else
    { level := attempt.clock watch.level, since := some [], phases := watch.phases ++ watch.since.toList }

def seeAll (attempts : List Attempt) (watch : ClockWatch) : ClockWatch :=
  attempts.foldl see watch

/-- The phases in which no half period was waited. -/
def rushed (halfPeriod : Nat) (phases : List (List Attempt)) : List (List Attempt) :=
  phases.filter (.wait halfPeriod ∉ ·)

/-- From a low clock, attempts that leave it low again and rush some more phases. -/
def Settles (halfPeriod : Nat) (attempts : List Attempt) (more : List (List Attempt)) : Prop :=
  ∀ watch : ClockWatch, watch.level = false → (watch.seeAll attempts).level = false ∧
    rushed halfPeriod (watch.seeAll attempts).phases = rushed halfPeriod watch.phases ++ more

variable {halfPeriod : Nat}

theorem seeAll_append (first rest : List Attempt) (watch : ClockWatch) :
    watch.seeAll (first ++ rest) = (watch.seeAll first).seeAll rest :=
  List.foldl_append ..

@[simp] theorem rushed_append (phases ended : List (List Attempt)) :
    rushed halfPeriod (phases ++ ended) = rushed halfPeriod phases ++ rushed halfPeriod ended :=
  List.filter_append ..

theorem rushed_waited {phases : List (List Attempt)} (waited : ∀ phase ∈ phases, .wait halfPeriod ∈ phase) :
    rushed halfPeriod phases = [] := by
  simpa [rushed] using waited

theorem settles_nil : Settles halfPeriod [] [] :=
  fun _ low => ⟨low, (List.append_nil _).symm⟩

theorem Settles.append {first rest : List Attempt} {early late : List (List Attempt)}
    (opens : Settles halfPeriod first early) (ends : Settles halfPeriod rest late) :
    Settles halfPeriod (first ++ rest) (early ++ late) := by
  intro watch low
  obtain ⟨middle, kept⟩ := opens watch low
  obtain ⟨last, still⟩ := ends _ middle
  rw [seeAll_append]
  refine ⟨last, ?_⟩
  rw [still, kept, List.append_assoc]

theorem settles_flatMap {α : Type} {pieces : α → List Attempt}
    (settles : ∀ piece, Settles halfPeriod (pieces piece) []) (all : List α) :
    Settles halfPeriod (all.flatMap pieces) [] := by
  induction all with
  | nil => exact settles_nil
  | cons piece rest ih => exact (settles piece).append ih

theorem settles_cycle {attempts raising : List Attempt} (waited : .wait halfPeriod ∈ raising)
    (turns : ∀ since phases, seeAll attempts ⟨false, since, phases⟩ =
      ⟨false, some [], phases ++ (since.toList.map (· ++ raising) ++ [[.wait halfPeriod]])⟩) :
    Settles halfPeriod attempts [] := by
  rintro ⟨level, since, phases⟩ low
  cases low
  rw [turns, rushed_append]
  refine ⟨rfl, congrArg _ (rushed_waited ?_)⟩
  cases since with
  | none => simp
  | some before => simp [waited]

theorem settles_drivenBit (bit : Bool) : Settles halfPeriod (WireForm.drivenBit halfPeriod bit) [] := by
  have waited : .wait halfPeriod ∈ (WireForm.drivenBit halfPeriod bit).take 2 := by simp [WireForm.drivenBit]
  apply settles_cycle waited
  intro since phases
  cases bit <;> cases since <;> simp [WireForm.drivenBit, seeAll, see, Attempt.clock, Wire.high, Wire.clock]

theorem seeAll_releasedCycle (since : Option (List Attempt)) (phases : List (List Attempt)) :
    seeAll (WireForm.releasedCycle halfPeriod) ⟨false, since, phases⟩ =
      ⟨false, some [], phases ++ (since.toList.map (· ++ [.wait halfPeriod]) ++ [[.wait halfPeriod]])⟩ := by
  cases since <;> simp [WireForm.releasedCycle, seeAll, see, Attempt.clock, Wire.high, Wire.clock]

theorem settles_releasedCycle : Settles halfPeriod (WireForm.releasedCycle halfPeriod) [] :=
  settles_cycle List.mem_cons_self seeAll_releasedCycle

theorem seeAll_sampledBit (sample : LineWord) (before : List Attempt) (phases : List (List Attempt)) :
    seeAll (WireForm.sampledBit halfPeriod sample) ⟨false, some before, phases⟩ =
      ⟨false, some [.wait halfPeriod], phases ++ [before ++ [.sample (some sample)]] ++ [[.wait halfPeriod]]⟩ :=
  rfl

theorem seeAll_sampledBits (data : List LineWord) {before : List Attempt} (waited : .wait halfPeriod ∈ before)
    (phases : List (List Attempt)) :
    let after := seeAll (data.flatMap (WireForm.sampledBit halfPeriod)) ⟨false, some before, phases⟩
    after.level = false ∧ rushed halfPeriod after.phases = rushed halfPeriod phases := by
  induction data generalizing before phases with
  | nil => exact ⟨rfl, rfl⟩
  | cons sample data ih =>
    obtain ⟨low, kept⟩ :=
      ih List.mem_cons_self (phases ++ [before ++ [.sample (some sample)]] ++ [[.wait halfPeriod]])
    rw [List.flatMap_cons, seeAll_append, seeAll_sampledBit]
    refine ⟨low, kept.trans ?_⟩
    simp [rushed, waited]

/-- The first data bit raises the clock that the cycle before it has only just lowered. -/
theorem settles_firstBits (first : LineWord) (data : List LineWord) :
    Settles halfPeriod
      (WireForm.releasedCycle halfPeriod ++ (first :: data).flatMap (WireForm.sampledBit halfPeriod))
      [[.sample (some first)]] := by
  rintro ⟨level, since, phases⟩ low
  cases low
  have waited : Attempt.wait halfPeriod ∈ [.wait halfPeriod] := List.mem_cons_self
  have settles : Settles halfPeriod _ [] := settles_releasedCycle
  obtain ⟨-, cycle⟩ := settles ⟨false, since, phases⟩ rfl
  rw [seeAll_releasedCycle, List.append_nil] at cycle
  obtain ⟨last, kept⟩ := seeAll_sampledBits data waited _
  rw [List.flatMap_cons, seeAll_append, seeAll_append, seeAll_releasedCycle, seeAll_sampledBit]
  refine ⟨last, kept.trans ?_⟩
  rw [rushed_append, rushed_append, cycle, rushed_waited (List.forall_mem_singleton.mpr waited), List.append_nil]
  rfl

theorem settles_opening (bits : List Bool) : Settles halfPeriod (WireForm.opening halfPeriod bits) [] := by
  have enabled : Settles halfPeriod [.drive 0b010 true] [] := by
    rintro ⟨level, since, phases⟩ low
    cases low
    exact ⟨rfl, (List.append_nil _).symm⟩
  exact enabled.append (settles_flatMap settles_drivenBit bits)

theorem settles_burst (bits : List Bool) : Settles halfPeriod (WireForm.burst halfPeriod bits) [] :=
  ((settles_opening bits).append settles_releasedCycle).append settles_releasedCycle

theorem settles_answering (turnaround : Option LineWord) (first : LineWord) (data : List LineWord) :
    Settles halfPeriod (WireForm.answering halfPeriod turnaround (first :: data)) [[.sample (some first)]] := by
  have checked : Settles halfPeriod (turnaround.toList.map fun sample => .sample (some sample)) [] := by
    cases turnaround with
    | none => exact settles_nil
    | some sample =>
      rintro ⟨level, since, phases⟩ low
      cases low
      exact ⟨rfl, (List.append_nil _).symm⟩
  have whole := (((settles_releasedCycle.append checked).append (settles_firstBits first data)).append
    settles_releasedCycle).append settles_releasedCycle
  simpa only [WireForm.answering, List.append_assoc, List.nil_append, List.append_nil] using whole

end ClockWatch

namespace Recorded

/-- What was attempted between each turn of the clock and the next. -/
def phases (log : List Attempt) : List (List Attempt) :=
  (ClockWatch.seeAll log {}).phases

def elapsed : List Attempt → Nat
  | [] => 0
  | .wait nanoseconds :: rest => nanoseconds + elapsed rest
  | .drive .. :: rest => elapsed rest
  | .sample .. :: rest => elapsed rest

theorem le_elapsed {nanoseconds : Nat} {attempts : List Attempt} (waited : .wait nanoseconds ∈ attempts) :
    nanoseconds ≤ elapsed attempts := by
  induction attempts with
  | nil => cases waited
  | cons attempt rest ih =>
    rcases List.mem_cons.mp waited with rfl | later
    · exact Nat.le_add_right ..
    · cases attempt with
      | drive _ _ | sample _ => exact ih later
      | wait more => exact Nat.le_add_left_of_le (ih later)

end Recorded

namespace Engine

open ClockWatch

def Call.carriesRead : Call → Bool
  | .read phy reg => Addressable phy reg
  | _ => false

variable {σ : Type}

/-- Between two calls on lines that never fail: the clock is low, and so many phases were rushed. -/
structure Paced [Lines σ] (halfPeriod count : Nat) (engine : Engine (Recorded σ)) : Prop where
  idle : engine.phase = .idle
  reliable : Lines.Reliable halfPeriod engine.station.lines.lines
  timed : engine.station.halfPeriod = halfPeriod
  low : (seeAll engine.station.lines.log {}).level = false
  counted : (rushed halfPeriod (Recorded.phases engine.station.lines.log)).length = count
  sampled : ∀ phase ∈ rushed halfPeriod (Recorded.phases engine.station.lines.log),
    ∃ sample, phase = [.sample (some sample)]

theorem Call.settles_trace {call : Call} {engine : Engine (Recorded σ)} {samples : List LineWord}
    (ready : ∀ target ∈ call.target?, engine.ready target.1 target.2 = .ok ())
    (taken : samples.length = (call.script engine).count .sample) :
    ∃ more, Settles engine.station.halfPeriod ((call.script engine).trace engine.station.halfPeriod samples) more ∧
      more.length = call.carriesRead.toNat ∧ ∀ phase ∈ more, ∃ sample, phase = [.sample (some sample)] := by
  cases call with
  | read phy reg =>
    have fits := (ready_ok_iff.mp (ready _ rfl)).2
    obtain ⟨turnaround, data, rfl, -, whole, traced⟩ :=
      Frame.trace_read engine.station.halfPeriod engine.turnaround phy reg taken
    obtain ⟨first, data, rfl⟩ := List.exists_cons_of_length_pos (by omega : 0 < data.length)
    refine ⟨[[.sample (some first)]], ?_, ?_, ?_⟩
    · rw [script, segments, traced]
      exact (settles_opening _).append (settles_answering turnaround first data)
    · rw [carriesRead, decide_eq_true fits]
      rfl
    · exact fun phase member => ⟨first, List.mem_singleton.mp member⟩
  | write phy reg value =>
    refine ⟨[], ?_, rfl, fun _ member => absurd member List.not_mem_nil⟩
    rw [script, segments, Frame.trace_write]
    exact settles_burst _
  | recover =>
    refine ⟨[], ?_, rfl, fun _ member => absurd member List.not_mem_nil⟩
    rw [script, segments, Frame.trace_recovery]
    exact settles_burst _

theorem Call.carriesRead_refused {call : Call} {engine : Engine σ} {phy reg : Nat} {cause : Error}
    (idle : engine.phase = .idle) (target : call.target? = some (phy, reg))
    (reason : engine.ready phy reg = .error cause) : call.carriesRead = false := by
  cases call with
  | read phy reg =>
    cases target
    refine decide_eq_false fun fits => ?_
    rw [ready_ok idle fits] at reason
    cases reason
  | write => rfl
  | recover => rfl

variable [Lines σ]

theorem Call.Runs.paced {call : Call} {before after : Engine (Recorded σ)} {reply : Reply}
    (runs : call.Runs before reply after) {halfPeriod count : Nat} (paced : Paced halfPeriod count before) :
    Paced halfPeriod (count + call.carriesRead.toNat) after := by
  obtain ⟨idle, reliable, rfl, low, counted, sampled⟩ := paced
  obtain ⟨samples, lines, played, still, taken, recorded⟩ := Script.play_reliable reliable (call.script before)
  cases runs with
  | refused target reason =>
    rw [carriesRead_refused idle target reason]
    exact ⟨idle, reliable, rfl, low, counted, sampled⟩
  | abandoned ready member failed =>
    rw [played] at failed
    cases failed
  | finished ready finished =>
    rw [played] at finished
    cases finished
    obtain ⟨more, settles, one, shaped⟩ := settles_trace ready taken
    obtain ⟨last, kept⟩ := settles _ low
    rw [← seeAll_append, ← recorded] at last kept
    refine ⟨rfl, still, rfl, last, ?_, fun phase member => ?_⟩
    · rw [Recorded.phases, kept, List.length_append, one]
      exact congrArg (· + _) counted
    · rw [Recorded.phases, kept] at member
      exact (List.mem_append.mp member).elim (sampled phase) (shaped phase)

theorem paced_afterCalls {halfPeriod count : Nat} {engine : Engine (Recorded σ)}
    (paced : Paced halfPeriod count engine) (calls : List Call) :
    Paced halfPeriod (count + calls.countP Call.carriesRead) (afterCalls calls engine) := by
  induction calls generalizing count engine with
  | nil => exact paced
  | cons call rest ih =>
    have counted : (call :: rest).countP Call.carriesRead =
        call.carriesRead.toNat + rest.countP Call.carriesRead := by
      cases carried : call.carriesRead <;> simp [carried, Nat.add_comm]
    rw [counted, ← Nat.add_assoc]
    exact ih ((call.serve_runs engine).paced paced)

theorem paced_create {lines : σ} {config : Config} (reliable : Lines.Reliable config.halfPeriod lines) :
    Paced config.halfPeriod 0 (create (Recorded.mk lines []) config) :=
  ⟨rfl, reliable, rfl, rfl, rfl, fun _ member => absurd member List.not_mem_nil⟩

/-- On lines that never fail, a phase of the clock lasts a half period at least, or it is the one phase of a read
that is spent on its first data sample. So every phase lasts if no call is a read that is carried out. -/
theorem clock_phases {lines : σ} {config : Config} (reliable : Lines.Reliable config.halfPeriod lines)
    (calls : List Call) :
    let start := create (Recorded.mk lines []) config
    let phases := Recorded.phases (afterCalls calls start).station.lines.log
    (history calls start).map Exchange.plain = history calls (create lines config) ∧
    (∀ phase ∈ phases, (.wait config.halfPeriod ∈ phase ∧ config.halfPeriod ≤ Recorded.elapsed phase) ∨
      ∃ sample, phase = [.sample (some sample)]) ∧
    phases.countP (.wait config.halfPeriod ∉ ·) = calls.countP Call.carriesRead ∧
    ((∀ phase ∈ phases, .wait config.halfPeriod ∈ phase) ↔ ∀ call ∈ calls, ¬ call.carriesRead) := by
  intro start phases
  obtain ⟨-, -, -, -, reads, sampled⟩ := paced_afterCalls (paced_create reliable) calls
  have counted : phases.countP (.wait config.halfPeriod ∉ ·) = calls.countP Call.carriesRead := by
    rw [List.countP_eq_length_filter]
    exact reads.trans (Nat.zero_add _)
  refine ⟨history_plain calls start, fun phase member => ?_, counted, ?_⟩
  · by_cases waited : .wait config.halfPeriod ∈ phase
    · exact .inl ⟨waited, Recorded.le_elapsed waited⟩
    · exact .inr (sampled phase (List.mem_filter.mpr ⟨member, decide_eq_true waited⟩))
  · have none : phases.countP (.wait config.halfPeriod ∉ ·) = 0 ↔ calls.countP Call.carriesRead = 0 := by
      rw [counted]
    simpa [List.countP_eq_zero] using none

/-- Two reads among calls that carry out none. -/
theorem clock_phases_reads :
    let lines : Bench := { phy := { address := some 3 } }
    let config : Config := {}
    let calls : List Call := [.write 3 4 0x8001, .read 3 4, .read 40 0, .recover, .read 7 1]
    Lines.Reliable config.halfPeriod lines ∧
    (Recorded.phases (afterCalls calls (create (Recorded.mk lines []) config)).station.lines.log).countP
      (.wait config.halfPeriod ∉ ·) = 2 := by
  intro lines config calls
  have healthy : lines.failAt = none := rfl
  have reliable := Bench.reliable_of_healthy healthy config.halfPeriod
  obtain ⟨-, -, counted, -⟩ := clock_phases reliable calls
  have reads : calls.countP Call.carriesRead = 2 := by decide
  exact ⟨reliable, counted.trans reads⟩

/-- Between the falling edge of the turnaround and the rising edge of the first data bit a read only samples. -/
theorem read_rushes_clock :
    let lines : Bench := { phy := { address := some 0 } }
    let config : Config := {}
    Lines.Reliable config.halfPeriod lines ∧
    ¬ ∀ phase ∈ Recorded.phases (afterCalls [.read 0 0] (create (Recorded.mk lines []) config)).station.lines.log,
      .wait config.halfPeriod ∈ phase := by
  intro lines config
  have healthy : lines.failAt = none := rfl
  have reliable := Bench.reliable_of_healthy healthy config.halfPeriod
  refine ⟨reliable, fun every => ?_⟩
  obtain ⟨-, -, -, -, counted, -⟩ := paced_afterCalls (paced_create reliable) [.read 0 0]
  rw [rushed_waited every] at counted
  cases counted

end Engine
end Clause22
