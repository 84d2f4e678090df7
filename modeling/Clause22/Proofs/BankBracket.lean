import Clause22.Bus.Faulty
import Clause22.Bus.Memory
import Clause22.Proofs.CallCourses
import Clause22.RegisterMap

/-! The bracket around an access to the extended bank. A page that was selected is put back before anything else is
asked of the bus, in whatever operation the access is a part of, so none is left selected between operations. -/

namespace Clause22.Client

/-- Whether a log leaves no page but the base page selected, at any address. -/
def LeavesBase (pageSelect : Nat) (log : List (Request × Reply)) : Prop :=
  ∀ phy, ∀ last ∈ lastWritten? phy pageSelect log, last = 0

section LeavesBase

variable {pageSelect : Nat} {client : Client}

theorem LeavesBase.append {first rest : List (Request × Reply)} (opens : LeavesBase pageSelect first)
    (goes : LeavesBase pageSelect rest) : LeavesBase pageSelect (first ++ rest) := by
  intro phy last written
  rw [lastWritten?_append, Option.mem_def, Option.or_eq_some_iff] at written
  obtain later | ⟨_, earlier⟩ := written
  · exact goes phy last later
  · exact opens phy last earlier

theorem leavesBase_flatMap {ι : Type} {events : ι → List (Request × Reply)} {parts : List ι}
    (leaves : ∀ part ∈ parts, LeavesBase pageSelect (events part)) : LeavesBase pageSelect (parts.flatMap events) := by
  induction parts with
  | nil => exact fun _ _ => nofun
  | cons part rest ih =>
    rw [List.flatMap_cons]
    exact (leaves part List.mem_cons_self).append (ih fun other member => leaves other (List.mem_cons_of_mem _ member))

theorem lastWritten?_request {phy target : Nat} {call : RawCall} (accessed : Reply)
    (apart : ∀ address value, call = .write address value → phy = target → address.index.toNat ≠ pageSelect) :
    lastWritten? target pageSelect [(call.request phy, accessed)] = none := by
  cases call with
  | read => rfl
  | write address value =>
    obtain _ | ⟨_ | _⟩ | _ := accessed
    · rfl
    · rfl
    · exact if_neg fun named => apart address value rfl named.1 named.2
    · rfl

theorem leavesBase_events {phy : Nat} {call : RawCall} {course : Course}
    (paged : client.config.pageSelect = some pageSelect) (fits : course.Fits client phy call.address)
    (restores : ∀ restored ∈ course.restored?, restored = .ok ())
    (spares : ∀ address value, call = .write address value →
      address.bank = .base → address.index.toNat ≠ pageSelect) :
    LeavesBase pageSelect (course.events phy call) := by
  intro target last written
  cases course with
  | refused => cases written
  | direct accessed =>
    have unseen : lastWritten? target pageSelect [(call.request phy, accessed)] = none := by
      refine lastWritten?_request accessed fun address value same _ => spares address value same ?_
      rw [same] at fits
      exact fits.2
    cases unseen.symm.trans written
  | unselected => cases written
  | bracketed select accessed restored =>
    obtain rfl : select = pageSelect := Option.some.inj (fits.2.2.symm.trans paged)
    obtain rfl := restores restored rfl
    by_cases here : phy = target
    · -- The access may have written the register too, but the restore came after it.
      have base : lastWritten? target select [(.write phy select 0, .done (.ok ()))] = some 0 := if_pos ⟨here, rfl⟩
      rw [Option.mem_def, Course.events, lastWritten?_cons, lastWritten?_cons, base] at written
      exact (Option.some.inj written).symm
    · have unseen (page : Word) : lastWritten? target select [(.write phy select page, .done (.ok ()))] = none :=
        if_neg fun named => here named.1
      have access : lastWritten? target select [(call.request phy, accessed)] = none :=
        lastWritten?_request accessed fun _ _ _ same => absurd same here
      rw [Option.mem_def, Course.events, lastWritten?_cons, lastWritten?_cons, unseen, access, unseen] at written
      cases written

end LeavesBase

theorem leavesBase_run {client : Client} {pageSelect : Nat} {run : Run}
    (paged : client.config.pageSelect = some pageSelect) (fits : run.Fits client) (restores : run.Restores)
    (spares : run.Spares pageSelect) : LeavesBase pageSelect run.events :=
  leavesBase_flatMap fun made member =>
    leavesBase_events paged (fits made member).2 (restores made member) (spares made member)

theorem Run.restores_of_unfailed {client : Client} {pageSelect : Nat} {run : Run} (fits : run.Fits client)
    (paged : client.config.pageSelect = some pageSelect)
    (unfailed : ∀ phy cause, (Request.write phy pageSelect 0, Reply.done (.error cause)) ∉ run.events) :
    run.Restores := by
  intro made member restored attempted
  obtain ⟨call, course⟩ := made
  cases course with
  | bracketed select accessed outcome =>
    cases attempted
    obtain ⟨-, -, -, selects⟩ := fits _ member
    obtain rfl : select = pageSelect := Option.some.inj (selects.symm.trans paged)
    cases restored with
    | ok => rfl
    | error cause =>
      refine absurd (List.mem_flatMap.mpr ⟨_, member, ?_⟩) (unfailed run.operation.phy cause)
      exact List.mem_cons_of_mem _ (List.mem_cons_of_mem _ List.mem_cons_self)
  | _ => cases attempted

/-- A raw call over any bus makes the transactions of its course and no others, and answers from them. So whatever a
client is asked to do, a page that was selected is put back one access later, and as long as that succeeds and nobody
else writes the page select register, no PHY is left on another page between two operations. -/
theorem brackets_close {map : RegisterMap} {config : Config} {client : Client}
    (valid : create map config = .ok client) {β : Type} [Bus β] (bus : β) :
    (∀ phy (call : RawCall), ∃ course : Course, course.Fits client phy call.address ∧ ∃ after,
      call.serve client phy bus = (course.reply call, after) ∧
      call.serve client phy ({ bus } : RecordedBus β) = (course.reply call, ⟨after, course.events phy call⟩)) ∧
    ∀ operations : List Operation, ∃ runs : List Run,
      runs.map Run.operation = operations ∧ (∀ run ∈ runs, run.Fits client) ∧
      ∀ count,
        (∃ results after,
          Operation.performAll client (operations.take count) bus = (results, after) ∧
          Operation.performAll client (operations.take count) ({ bus } : RecordedBus β) =
            (results, ⟨after, (runs.take count).flatMap Run.events⟩)) ∧
        ∀ pageSelect, client.config.pageSelect = some pageSelect →
          (∀ run ∈ runs.take count, run.Restores ∧ run.Spares pageSelect) →
            ∀ phy, ∀ last ∈ lastWritten? phy pageSelect ((runs.take count).flatMap Run.events), last = 0 := by
  have selects := select_le valid
  refine ⟨fun phy call => ?_, fun operations => ?_⟩
  · obtain ⟨course, fits, after, served⟩ := call.serve_course ({ bus } : RecordedBus β)
    obtain ⟨reply, recorded, beyond, alsoServed, alone, rfl⟩ :=
      alike_serve (RecordedBus.matched_records phy) selects call ({ bus } : RecordedBus β) bus rfl
    obtain ⟨rfl, rfl⟩ := Prod.ext_iff.mp (alsoServed.symm.trans served)
    exact ⟨course, fits, after, alone, served⟩
  · obtain ⟨runs, same, fits, logged⟩ := performAll_runs client operations ({ bus } : RecordedBus β)
    refine ⟨runs, same, fits, fun count => ⟨?_, ?_⟩⟩
    · obtain ⟨results, recorded, after, performed, alsoPerformed, rfl⟩ :=
        alike_performAll selects
          (fun operation _ => RecordedBus.matched_records operation.phy) ({ bus } : RecordedBus β) bus rfl
      refine ⟨results, recorded.bus, alsoPerformed, ?_⟩
      have log := logged count
      rw [performed] at log
      rw [performed, ← List.nil_append (List.flatMap ..), ← log]
    · intro pageSelect paged holds
      refine leavesBase_flatMap fun run member => ?_
      exact leavesBase_run paged (fits run (List.mem_of_mem_take member)) (holds run member).1 (holds run member).2

/-- An access that fails between two turns of the page, one that writes the page select register itself, a selection
that fails, and an update of the base bank. -/
theorem brackets_close_failing :
    let control : Register := ⟨"CONTROL", .base 0, 16, [⟨"reset", 15, 1⟩]⟩
    let client : Client := ⟨((RegisterMap.empty 1 1).define control).2, { pageSelect := some 22 }⟩
    let bus : FaultyBus MemoryBus := { bus := {}, faults := [(1, .io .noResponse), (6, .io .transport)] }
    let operations : List Operation :=
      [.readRaw 3 (.extended 1), .writeRaw 3 (.extended 22) 5, .readRaw 3 (.extended 1), .reset 3]
    let log : List (Request × Reply) :=
      [(.write 3 22 1, .done (.ok ())), (.read 3 1, .word (.error (.io .noResponse))), (.write 3 22 0, .done (.ok ())),
        (.write 3 22 1, .done (.ok ())), (.write 3 22 5, .done (.ok ())), (.write 3 22 0, .done (.ok ())),
        (.write 3 22 1, .done (.error (.io .transport))), (.read 3 0, .word (.ok 0)),
        (.write 3 0 0x8000, .done (.ok ()))]
    create client.map client.config = .ok client ∧
    ∃ runs : List Run, runs.map Run.operation = operations ∧ (∀ run ∈ runs, run.Restores ∧ run.Spares 22) ∧
      (Operation.performAll client operations ({ bus } : RecordedBus (FaultyBus MemoryBus))).2.log = log ∧
      runs.flatMap Run.events = log ∧ ∀ phy, ∀ last ∈ lastWritten? phy 22 log, last = 0 := by
  intro control client bus operations log
  have valid : create client.map client.config = .ok client := rfl
  have paged : client.config.pageSelect = some 22 := rfl
  obtain ⟨-, composed⟩ := brackets_close valid bus
  obtain ⟨runs, same, fits, between⟩ := composed operations
  obtain ⟨⟨results, after, -, recorded⟩, base⟩ := between operations.length
  have whole : runs.take operations.length = runs := by
    rw [← same, List.length_map, List.take_length]
  rw [List.take_length, whole] at recorded
  rw [whole] at base
  have performed : (Operation.performAll client operations ({ bus } : RecordedBus (FaultyBus MemoryBus))).2.log =
      log := by
    subst log operations bus client control
    rfl
  have logged : runs.flatMap Run.events = log := by rw [← performed, recorded]
  have holds : ∀ run ∈ runs, run.Restores ∧ run.Spares 22 := by
    intro run member
    constructor
    · refine Run.restores_of_unfailed (fits run member) paged fun phy cause event => ?_
      have inside : _ ∈ log := logged ▸ List.mem_flatMap.mpr ⟨run, member, event⟩
      simp [log] at inside
    · intro made called address value write home
      obtain ⟨may, -⟩ := fits run member made called
      rw [write] at may
      have operation : run.operation ∈ operations := same ▸ List.mem_map_of_mem member
      simp only [operations, List.mem_cons, List.not_mem_nil, or_false] at operation
      rcases operation with operation | operation | operation | operation <;> rw [operation] at may
      · exact may.elim
      · rw [may.1] at home
        cases home
      · exact may.elim
      · obtain ⟨handle, found, register, resolved, reached⟩ := may
        cases found
        cases resolved
        have updated : RegisterAddress.base 0 = address := reached
        rw [← updated]
        decide
  have last := base 22 paged holds
  rw [logged] at last
  exact ⟨valid, runs, same, holds, performed, logged, last⟩

end Clause22.Client
