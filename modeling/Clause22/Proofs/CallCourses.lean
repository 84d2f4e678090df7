import Clause22.Proofs.RecordedBus

/-! The transactions of raw calls over a bus that may fail at any of them, and of the operations that are made of raw
calls. What a client asks of a bus is cut into the courses of single calls, one after another. -/

namespace Clause22

namespace Client

def RawCall.request (phy : Nat) : RawCall → Request
  | .read address => .read phy address.index.toNat
  | .write address value => .write phy address.index.toNat value

/-- What a raw call meets on its way to the bus and back. -/
inductive Course
  /-- The client refuses the call. -/
  | refused (cause : ConfigError)
  /-- The access stands alone. -/
  | direct (accessed : Reply)
  /-- The page is not selected, and no access is made. -/
  | unselected (pageSelect : Nat) (cause : Error)
  /-- The page is selected, and after the access it is to be restored. -/
  | bracketed (pageSelect : Nat) (accessed : Reply) (restored : Except Error Unit)

namespace Course

def events (phy : Nat) (call : RawCall) : Course → List (Request × Reply)
  | .refused _ => []
  | .direct accessed => [(call.request phy, accessed)]
  | .unselected pageSelect cause => [(.write phy pageSelect 1, .done (.error cause))]
  | .bracketed pageSelect accessed restored =>
    [(.write phy pageSelect 1, .done (.ok ())), (call.request phy, accessed), (.write phy pageSelect 0, .done restored)]

/-- The answer of a call: the first failure of selection, access and restore, or what was accessed. -/
def reply (call : RawCall) : Course → Reply
  | .refused cause => call.failed (.config cause)
  | .direct accessed => accessed
  | .unselected _ cause => call.failed cause
  | .bracketed _ accessed restored =>
    match accessed.failure?, restored with
    | some cause, _ => call.failed cause
    | none, .error cause => call.failed cause
    | none, .ok () => accessed

/-- Whether a client sends the calls at an address on a course. -/
def Fits (client : Client) (phy : Nat) (address : RegisterAddress) : Course → Prop
  | .refused cause =>
    (31 < phy ∧ cause = .invalidPhyAddress) ∨
      (phy ≤ 31 ∧ address.bank = .extended ∧ client.config.pageSelect = none ∧ cause = .invalidRegisterAddress)
  | .direct _ => phy ≤ 31 ∧ address.bank = .base
  | .unselected pageSelect _ | .bracketed pageSelect _ _ =>
    phy ≤ 31 ∧ address.bank = .extended ∧ client.config.pageSelect = some pageSelect

def restored? : Course → Option (Except Error Unit)
  | .bracketed _ _ restored => some restored
  | _ => none

end Course

/-- An access that is the one transaction of a call, whose outcome has a form as an answer. -/
structure RawCall.Asks {α β : Type} [Bus β] (call : RawCall) (phy : Nat) (access : Access (RecordedBus β) α)
    (form : Except Error α → Reply) : Prop where
  accesses : ∀ recorded, ∃ outcome after,
    access recorded = (outcome, ⟨after, recorded.log ++ [(call.request phy, form outcome)]⟩)
  succeeds : ∀ value, (form (.ok value)).failure? = none
  fails : ∀ cause, form (.error cause) = call.failed cause

section RawCalls

variable {α β : Type} [Bus β] {client : Client} {phy : Nat} {call : RawCall} {form : Except Error α → Reply}

theorem onExtendedPage_course {access : Access (RecordedBus β) α} (asks : call.Asks phy access form) {pageSelect : Nat}
    (opens : phy ≤ 31 ∧ call.address.bank = .extended ∧ client.config.pageSelect = some pageSelect)
    (recorded : RecordedBus β) :
    ∃ course : Course, course.Fits client phy call.address ∧ ∃ outcome after,
      onExtendedPage phy pageSelect access recorded = (outcome, ⟨after, recorded.log ++ course.events phy call⟩) ∧
      form outcome = course.reply call := by
  rcases selecting : Bus.write phy pageSelect extendedPage recorded.bus with ⟨cause | _, selected⟩
  · refine ⟨.unselected pageSelect cause, opens, .error cause, selected, ?_, asks.fails cause⟩
    simp only [onExtendedPage, RecordedBus.write_eq, selecting]
    rfl
  · obtain ⟨outcome, accessed, accesses⟩ := asks.accesses
      ⟨selected, recorded.log ++ [(.write phy pageSelect extendedPage, .done (.ok ()))]⟩
    rcases restoring : Bus.write phy pageSelect basePage accessed with ⟨restored, after⟩
    refine ⟨.bracketed pageSelect (form outcome) restored, opens, outcome.bind fun value => restored.map fun _ => value,
      after, ?_, ?_⟩
    · simp only [onExtendedPage, RecordedBus.write_eq, selecting, accesses, restoring, Course.events,
        List.append_assoc, List.cons_append, List.nil_append]
      rfl
    · cases outcome with
      | error cause => simp only [Course.reply, asks.fails, RawCall.failure?_failed, Except.bind]
      | ok value =>
        cases restored with
        | error cause => simp only [Course.reply, asks.succeeds, Except.bind, Except.map, asks.fails]
        | ok => simp only [Course.reply, asks.succeeds, Except.bind, Except.map]

theorem withBank_course (access : Nat → Access (RecordedBus β) α)
    (asks : call.Asks phy (access call.address.index.toNat) form) (recorded : RecordedBus β) :
    ∃ course : Course, course.Fits client phy call.address ∧ ∃ outcome after,
      client.withBank phy call.address access recorded = (outcome, ⟨after, recorded.log ++ course.events phy call⟩) ∧
      form outcome = course.reply call := by
  by_cases fits : phy ≤ 31
  · cases bank : call.address.bank with
    | base =>
      obtain ⟨outcome, after, accesses⟩ := asks.accesses recorded
      rw [withBank_base access fits bank]
      exact ⟨.direct (form outcome), ⟨fits, bank⟩, outcome, after, accesses, rfl⟩
    | extended =>
      cases paged : client.config.pageSelect with
      | none =>
        rw [withBank_unpaged access fits bank paged]
        exact ⟨.refused .invalidRegisterAddress, .inr ⟨fits, bank, paged, rfl⟩, _, recorded.bus,
          by rw [Course.events, List.append_nil], asks.fails _⟩
      | some pageSelect =>
        rw [withBank_extended access fits bank paged]
        exact onExtendedPage_course asks ⟨fits, bank, paged⟩ recorded
  · have beyond : 31 < phy := Nat.not_le.mp fits
    rw [withBank_refused access beyond]
    exact ⟨.refused .invalidPhyAddress, .inl ⟨beyond, rfl⟩, _, recorded.bus,
      by rw [Course.events, List.append_nil], asks.fails _⟩

theorem RawCall.serve_course (call : RawCall) (recorded : RecordedBus β) :
    ∃ course : Course, course.Fits client phy call.address ∧ ∃ after,
      call.serve client phy recorded = (course.reply call, ⟨after, recorded.log ++ course.events phy call⟩) := by
  cases call with
  | read address =>
    have asks : (RawCall.read address).Asks (β := β) phy (Bus.read phy address.index.toNat) .word :=
      ⟨fun recorded => ⟨_, _, RecordedBus.read_eq ..⟩, fun _ => rfl, fun _ => rfl⟩
    obtain ⟨course, fits, outcome, after, performed, answered⟩ :=
      withBank_course (Bus.read phy) asks recorded
    have reads : client.readRaw phy address recorded = _ := performed
    exact ⟨course, fits, after, by rw [serve, reads, ← answered]⟩
  | write address value =>
    have asks : (RawCall.write address value).Asks (β := β) phy (Bus.write phy address.index.toNat value) .done :=
      ⟨fun recorded => ⟨_, _, RecordedBus.write_eq ..⟩, fun _ => rfl, fun _ => rfl⟩
    obtain ⟨course, fits, outcome, after, performed, answered⟩ :=
      withBank_course (fun index => Bus.write phy index value) asks recorded
    have writes : client.writeRaw phy address value recorded = _ := performed
    exact ⟨course, fits, after, by rw [serve, writes, ← answered]⟩

end RawCalls

def Reaches (client : Client) (handle : Handle) (address : RegisterAddress) : Prop :=
  ∃ register, client.map.resolve handle = .ok register ∧ register.address = address

def Operation.MayMake (client : Client) : Operation → RawCall → Prop
  | .readRegister _ handle, .read address => client.Reaches handle address
  | .readRegisterByName _ name, .read address =>
    ∃ handle, client.handleByName name = .ok handle ∧ client.Reaches handle address
  | .writeRegister _ handle _, .write address _ => client.Reaches handle address
  | .writeView _ view, .write address value => address = view.register.address ∧ value = view.word
  | .modifyRegister _ handle _, call => client.Reaches handle call.address
  | .reset _, call => ∃ handle, client.resetHandle = .ok handle ∧ client.Reaches handle call.address
  | .dump _, .read address => ∃ handle ∈ client.map.registersByAddress, client.Reaches handle address
  | .readRaw _ target, .read address => address = target
  | .writeRaw _ target word, .write address value => address = target ∧ value = word
  | _, _ => False

def eventsOf (phy : Nat) (calls : List (RawCall × Course)) : List (Request × Reply) :=
  calls.flatMap fun made => made.2.events phy made.1

section Composed

variable {α β δ : Type} (client : Client) (phy : Nat) (Makes : RawCall → Prop)

/-- Whether a record has grown by raw calls of some kind, each on a course that is open to it. -/
def Grown (before after : RecordedBus β) : Prop :=
  ∃ calls : List (RawCall × Course), after.log = before.log ++ eventsOf phy calls ∧
    ∀ made ∈ calls, Makes made.1 ∧ made.2.Fits client phy made.1.address

/-- A request that asks nothing of its bus but raw calls of some kind. -/
def Composed (request : RecordedBus β → α × RecordedBus β) : Prop :=
  ∀ recorded, Grown client phy Makes recorded (request recorded).2

variable {client phy Makes}

theorem Grown.refl (recorded : RecordedBus β) : Grown client phy Makes recorded recorded := by
  refine ⟨[], (List.append_nil _).symm, ?_⟩
  rintro _ ⟨⟩

theorem Grown.trans {first middle last : RecordedBus β} (opens : Grown client phy Makes first middle)
    (goes : Grown client phy Makes middle last) : Grown client phy Makes first last := by
  obtain ⟨calls, logged, fitting⟩ := opens
  obtain ⟨later, continued, alsoFitting⟩ := goes
  refine ⟨calls ++ later, ?_, fun made member => ?_⟩
  · rw [continued, logged, List.append_assoc, eventsOf, eventsOf, eventsOf, List.flatMap_append]
  · exact (List.mem_append.mp member).elim (fitting made) (alsoFitting made)

theorem Composed.known (outcome : Except Error α) : Composed (β := β) client phy Makes (Access.known outcome) :=
  .refl

theorem Composed.bind {first : Access (RecordedBus β) α} {next : α → Access (RecordedBus β) δ}
    (opens : Composed client phy Makes first)
    (goes : ∀ before value after, first before = (.ok value, after) → Composed client phy Makes (next value)) :
    Composed client phy Makes (first >>= next) := by
  intro recorded
  have started := opens recorded
  rw [Access.bind_eq]
  rcases performed : first recorded with ⟨cause | value, after⟩
  · rwa [performed] at started
  · rw [performed] at started
    exact started.trans (goes recorded value after performed after)

variable [Bus β]

theorem composed_serve {call : RawCall} (makes : Makes call) :
    Composed (β := β) client phy Makes (call.serve client phy) := by
  intro recorded
  obtain ⟨course, fits, after, served⟩ := call.serve_course recorded
  refine ⟨[(call, course)], ?_, fun made member => ?_⟩
  · rw [served, eventsOf, List.flatMap_singleton]
  · obtain rfl := List.mem_singleton.mp member
    exact ⟨makes, fits⟩

theorem composed_readRaw {address : RegisterAddress} (makes : Makes (.read address)) :
    Composed (β := β) client phy Makes (client.readRaw phy address) :=
  composed_serve makes

theorem composed_writeRaw {address : RegisterAddress} {value : Word} (makes : Makes (.write address value)) :
    Composed (β := β) client phy Makes (client.writeRaw phy address value) :=
  composed_serve makes

theorem readRegister_view {handle : Handle} {before after : RecordedBus β} {view : View}
    (read : client.readRegister phy handle before = (.ok view, after)) :
    client.map.resolve handle = .ok view.register := by
  obtain ⟨register, _, resolved, fetched⟩ := Access.bind_ok read
  obtain ⟨word, _, _, unpacked⟩ := Access.bind_ok fetched
  have shown : (register.unpack (word &&& register.wordMask)).mapError Error.field = .ok view :=
    congrArg Prod.fst unpacked
  rw [Register.unpack] at shown
  split at shown
  · cases shown
    exact congrArg Prod.fst resolved
  · cases shown

theorem composed_readRegister {handle : Handle}
    (makes : ∀ address, client.Reaches handle address → Makes (.read address)) :
    Composed (β := β) client phy Makes (client.readRegister phy handle) := by
  apply Composed.bind (.known _)
  intro _ register _ resolved
  have reaches : client.Reaches handle register.address := ⟨register, congrArg Prod.fst resolved, rfl⟩
  apply Composed.bind (composed_readRaw (makes _ reaches))
  intro _ word _ _
  exact .known _

theorem composed_readRegisterByName {name : String}
    (makes : ∀ handle, client.handleByName name = .ok handle →
      ∀ address, client.Reaches handle address → Makes (.read address)) :
    Composed (β := β) client phy Makes (client.readRegisterByName phy name) := by
  apply Composed.bind (.known _)
  intro _ handle _ named
  exact composed_readRegister (makes handle (congrArg Prod.fst named))

theorem composed_writeRegister {handle : Handle} {values : List (String × Word)}
    (makes : ∀ address, client.Reaches handle address → ∀ value, Makes (.write address value)) :
    Composed (β := β) client phy Makes (client.writeRegister phy handle values) := by
  apply Composed.bind (.known _)
  intro _ register _ resolved
  apply Composed.bind (.known _)
  intro _ word _ _
  exact composed_writeRaw (makes _ ⟨register, congrArg Prod.fst resolved, rfl⟩ word)

omit [Bus β] in
theorem register_of_withFields {view updated : View} {values : List (String × Word)}
    (packed : (view.withFields values).mapError Error.field = .ok updated) : updated.register = view.register := by
  rw [View.withFields_eq] at packed
  cases word : view.register.pack view.word values with
  | error cause =>
    rw [word] at packed
    cases packed
  | ok word =>
    rw [word] at packed
    cases packed
    rfl

theorem composed_modifyRegister {handle : Handle} {values : List (String × Word)}
    (makes : ∀ call : RawCall, client.Reaches handle call.address → Makes call) :
    Composed (β := β) client phy Makes (client.modifyRegister phy handle values) := by
  apply Composed.bind (composed_readRegister fun address reaches => makes (.read address) reaches)
  intro _ current _ read
  have reaches : client.Reaches handle current.register.address := ⟨_, readRegister_view read, rfl⟩
  apply Composed.bind (.known _)
  intro _ updated _ packed
  have same : updated.register = current.register := register_of_withFields (congrArg Prod.fst packed)
  apply Composed.bind (composed_writeRaw (makes (.write _ updated.word) (same ▸ reaches)))
  intro _ _ _ _
  exact .known (.ok updated)

theorem composed_reset
    (makes : ∀ handle, client.resetHandle = .ok handle →
      ∀ call : RawCall, client.Reaches handle call.address → Makes call) :
    Composed (β := β) client phy Makes (client.reset phy) := by
  apply Composed.bind (.known _)
  intro _ handle _ found
  apply Composed.bind (composed_modifyRegister (makes handle (congrArg Prod.fst found)))
  intro _ _ _ _
  exact .known (.ok ())

theorem composed_readAll {handles : List Handle}
    (makes : ∀ handle ∈ handles, ∀ address, client.Reaches handle address → Makes (.read address)) :
    Composed (β := β) client phy Makes (client.readAll phy handles) := by
  induction handles with
  | nil => exact .refl
  | cons handle rest ih =>
    intro recorded
    have opens : Grown client phy Makes recorded (client.readRegister phy handle recorded).2 :=
      composed_readRegister (makes handle List.mem_cons_self) recorded
    rw [readAll_cons]
    rcases performed : client.readRegister phy handle recorded with ⟨cause | view, after⟩
    · rwa [performed] at opens
    · rw [performed] at opens
      exact opens.trans (ih (fun other member => makes other (List.mem_cons_of_mem _ member)) after)

/-- Whatever a client is asked to do with a PHY comes down to raw calls. -/
theorem composed_perform (operation : Operation) :
    Composed (β := β) client operation.phy (operation.MayMake client) (operation.perform client) := by
  intro recorded
  cases operation with
  | readRegister phy handle => exact composed_readRegister (fun _ reaches => reaches) recorded
  | readRegisterByName phy name =>
    exact composed_readRegisterByName (fun handle named _ reaches => ⟨handle, named, reaches⟩) recorded
  | writeRegister phy handle values => exact composed_writeRegister (fun _ reaches _ => reaches) recorded
  | writeView phy view => exact composed_writeRaw ⟨rfl, rfl⟩ recorded
  | modifyRegister phy handle values => exact composed_modifyRegister (fun _ reaches => reaches) recorded
  | reset phy => exact composed_reset (fun handle found _ reaches => ⟨handle, found, reaches⟩) recorded
  | dump phy => exact composed_readAll (fun handle member _ reaches => ⟨handle, member, reaches⟩) recorded
  | readRaw phy address =>
    have makes : (Operation.readRaw phy address).MayMake client (.read address) := rfl
    exact composed_readRaw makes recorded
  | writeRaw phy address value => exact composed_writeRaw ⟨rfl, rfl⟩ recorded

end Composed

/-- An operation with the raw calls that it came down to. -/
structure Run where
  operation : Operation
  calls : List (RawCall × Course)

namespace Run

def events (run : Run) : List (Request × Reply) :=
  eventsOf run.operation.phy run.calls

def Fits (client : Client) (run : Run) : Prop :=
  ∀ made ∈ run.calls,
    run.operation.MayMake client made.1 ∧ made.2.Fits client run.operation.phy made.1.address

def Restores (run : Run) : Prop :=
  ∀ made ∈ run.calls, ∀ restored ∈ made.2.restored?, restored = .ok ()

/-- Whether no call writes the register of the base bank at an index. -/
def Spares (index : Nat) (run : Run) : Prop :=
  ∀ made ∈ run.calls, ∀ address value, made.1 = .write address value →
    address.bank = .base → address.index.toNat ≠ index

end Run

theorem performAll_runs {β : Type} [Bus β] (client : Client) (operations : List Operation) (recorded : RecordedBus β) :
    ∃ runs : List Run, runs.map Run.operation = operations ∧ (∀ run ∈ runs, run.Fits client) ∧
      ∀ count, (Operation.performAll client (operations.take count) recorded).2.log =
        recorded.log ++ (runs.take count).flatMap Run.events := by
  induction operations generalizing recorded with
  | nil =>
    refine ⟨[], rfl, by rintro _ ⟨⟩, fun count => ?_⟩
    rw [List.take_nil, List.take_nil]
    exact (List.append_nil _).symm
  | cons operation rest ih =>
    obtain ⟨calls, logged, fitting⟩ := composed_perform operation recorded
    obtain ⟨runs, same, fits, later⟩ := ih (operation.perform client recorded).2
    refine ⟨⟨operation, calls⟩ :: runs, congrArg (operation :: ·) same, ?_, fun count => ?_⟩
    · rintro run (_ | ⟨_, member⟩)
      · exact fitting
      · exact fits run member
    · cases count with
      | zero => exact (List.append_nil _).symm
      | succ count =>
        rw [List.take_succ_cons, List.take_succ_cons, List.flatMap_cons, ← List.append_assoc]
        exact (later count).trans (congrArg (· ++ _) logged)

end Client
end Clause22
