import Clause22.Bus.Memory
import Clause22.Proofs.CallCourses
import Clause22.Proofs.CallHistory
import Clause22.RegisterMap

/-! What a request has asked of the bus when a client refuses it: nothing, if it is refused for its addresses or its
handle, and at most the word that it was to change, if it is refused for a value. -/

namespace Clause22

def Request.target? : Request → Option (Nat × Nat)
  | .read phy reg => some (phy, reg)
  | .write phy reg _ => some (phy, reg)
  | .isBusy => none

/-- A bus that fails only for what happened on its lines, as long as a frame can carry the addresses asked of it. -/
structure FailsByIo (β : Type) [Bus β] : Prop where
  read : ∀ {phy reg : Nat}, Addressable phy reg → ∀ (bus : β) (cause : Error),
    (Bus.read phy reg bus).1 = .error cause → ∃ fault, cause = .io fault
  write : ∀ {phy reg : Nat}, Addressable phy reg → ∀ (value : Word) (bus : β) (cause : Error),
    (Bus.write phy reg value bus).1 = .error cause → ∃ fault, cause = .io fault

/-- A transaction that a frame can carry, and whose failure, if any, is one of the lines. -/
structure Carried (event : Request × Reply) : Prop where
  addressable : ∀ target ∈ event.1.target?, Addressable target.1 target.2
  failure : ∀ cause, event.2.failure? = some cause → ∃ fault, cause = .io fault

theorem Reply.failure?_word {outcome : Except Error Word} {cause : Error}
    (failed : (Reply.word outcome).failure? = some cause) : outcome = .error cause := by
  cases outcome <;> cases failed
  rfl

theorem Reply.failure?_done {outcome : Except Error Unit} {cause : Error}
    (failed : (Reply.done outcome).failure? = some cause) : outcome = .error cause := by
  cases outcome <;> cases failed
  rfl

namespace Engine

variable {σ : Type} [Lines σ]

theorem Call.Runs.failsByIo {call : Call} {before after : Engine σ} {reply : Reply}
    (runs : call.Runs before reply after) (fits : ∀ target ∈ call.target?, Addressable target.1 target.2) {cause : Error}
    (failed : reply.failure? = some cause) : ∃ fault, cause = .io fault := by
  cases runs with
  | refused target reason =>
    have reached := fits _ target
    rw [failure?_failed] at failed
    cases failed
    obtain ⟨beyond, _⟩ | ⟨_, beyond, _⟩ | ⟨_, _, _, busy⟩ := ready_error reason
    · exact absurd reached.phy (Nat.not_le.mpr beyond)
    · exact absurd reached.reg (Nat.not_le.mpr beyond)
    · exact ⟨_, busy⟩
  | abandoned =>
    rw [failure?_failed] at failed
    cases failed
    exact ⟨_, rfl⟩
  | @finished samples =>
    obtain answered | ⟨_, silent⟩ := call.failure?_completed before.turnaround samples
    · rw [answered] at failed
      cases failed
    · rw [silent] at failed
      cases failed
      exact ⟨_, rfl⟩

theorem failsByIo : FailsByIo (Engine σ) where
  read {phy reg} fits engine cause failed := by
    refine ((Call.read phy reg).serve_runs engine).failsByIo ?_
      (congrArg (fun outcome => (Reply.word outcome).failure?) failed)
    rintro _ ⟨⟩
    exact fits
  write {phy reg} fits value engine cause failed := by
    refine ((Call.write phy reg value).serve_runs engine).failsByIo ?_
      (congrArg (fun outcome => (Reply.done outcome).failure?) failed)
    rintro _ ⟨⟩
    exact fits

end Engine

namespace RecordedBus

variable {β : Type}

/-- A record that has grown, since it held this log, by carried transactions alone. -/
def Carries (log : List (Request × Reply)) (recorded : RecordedBus β) (bus : β) : Prop :=
  recorded.bus = bus ∧ ∃ later, recorded.log = log ++ later ∧ ∀ event ∈ later, Carried event

theorem Carries.concat {log : List (Request × Reply)} {recorded : RecordedBus β} {bus : β}
    (carries : Carries log recorded bus) {event : Request × Reply} (carried : Carried event) (after : β) :
    Carries log ⟨after, recorded.log ++ [event]⟩ after := by
  obtain ⟨-, later, logged, all⟩ := carries
  refine ⟨rfl, later ++ [event], by rw [logged, List.append_assoc], fun other member => ?_⟩
  rcases List.mem_append.mp member with earlier | last
  · exact all other earlier
  · rwa [List.mem_singleton.mp last]

theorem matched_carries [Bus β] (faults : FailsByIo β) (log : List (Request × Reply)) (phy : Nat) :
    Matched (Carries (β := β) log) phy := by
  constructor
  · rintro index fits recorded bus carries
    obtain rfl := carries.1
    refine ⟨_, _, _, read_eq phy index recorded, rfl, carries.concat ⟨?_, fun cause failed => ?_⟩ _⟩
    · rintro _ ⟨⟩
      exact fits
    · exact faults.read fits recorded.bus cause (Reply.failure?_word failed)
  · rintro index value fits recorded bus carries
    obtain rfl := carries.1
    refine ⟨_, _, _, write_eq phy index value recorded, rfl, carries.concat ⟨?_, fun cause failed => ?_⟩ _⟩
    · rintro _ ⟨⟩
      exact fits
    · exact faults.write fits value recorded.bus cause (Reply.failure?_done failed)

end RecordedBus

theorem Register.unpack_masked (register : Register) (word : Word) :
    register.unpack (word &&& register.wordMask) = .ok ⟨register, word &&& register.wordMask⟩ := by
  refine if_pos (decide_eq_true ?_)
  rw [BitVec.and_assoc, BitVec.and_not_self]
  exact BitVec.and_zero

theorem labelled_of_mapError {ε α : Type} {label : ε → Error} {outcome : Except ε α} {cause : Error}
    (failed : outcome.mapError label = .error cause) : ∃ reason, cause = label reason := by
  cases outcome <;> cases failed
  exact ⟨_, rfl⟩

theorem missing_of_elim {α : Type} {found : Option α} {blamed cause : Error}
    (missing : found.elim (.error blamed) Except.ok = .error cause) : cause = blamed := by
  cases found <;> cases missing
  rfl

namespace Client

/-- The record of one read of an address that succeeded, between two turns of the page if its bank asks for them. -/
inductive ReadAlone (client : Client) (phy : Nat) (address : RegisterAddress) : List (Request × Reply) → Prop
  | base (word : Word) (fits : phy ≤ 31) (bank : address.bank = .base) :
    ReadAlone client phy address [(.read phy address.index.toNat, .word (.ok word))]
  | extended (word : Word) (pageSelect : Nat) (fits : phy ≤ 31) (bank : address.bank = .extended)
      (paged : client.config.pageSelect = some pageSelect) :
    ReadAlone client phy address
      [(.write phy pageSelect 1, .done (.ok ())), (.read phy address.index.toNat, .word (.ok word)),
        (.write phy pageSelect 0, .done (.ok ()))]

/-- The register of a handle has been read, and no write has done more than turn the page for that. -/
def OnlyRead (client : Client) (phy : Nat) (handle : Handle) (log : List (Request × Reply)) : Prop :=
  ∃ address, client.Reaches handle address ∧ client.ReadAlone phy address log ∧
    ∀ target index value answer, (Request.write target index value, answer) ∈ log →
      address.bank = .extended ∧ client.config.pageSelect = some index ∧ (value = extendedPage ∨ value = basePage)

/-- What an error says about the record: nothing was asked before a configuration error, and what was asked before a
field error is of some kind. -/
def Leaves (Blamed : List (Request × Reply) → Prop) (log : List (Request × Reply)) : Error → Prop
  | .config _ => log = []
  | .field _ => Blamed log
  | .io _ => True

/-- How a raw call fails: on the lines, or refused by the client before it asks for anything. -/
def RawFailure (client : Client) (phy : Nat) (address : RegisterAddress) (log : List (Request × Reply))
    (cause : Error) : Prop :=
  (∃ fault, cause = .io fault) ∨
    ∃ refusal, (Course.refused refusal).Fits client phy address ∧ cause = .config refusal ∧ log = []

section Courses

variable {client : Client} {phy : Nat} {address : RegisterAddress} {log : List (Request × Reply)}

theorem RawFailure.leaves {Blamed : List (Request × Reply) → Prop} {cause : Error}
    (fails : client.RawFailure phy address log cause) : Leaves Blamed log cause := by
  obtain ⟨fault, rfl⟩ | ⟨refusal, _, rfl, untouched⟩ := fails
  · trivial
  · exact untouched

/-- A client that has read a register does not refuse to write it. -/
theorem ReadAlone.unrefused (read : client.ReadAlone phy address log) (refusal : ConfigError) :
    ¬ (Course.refused refusal).Fits client phy address := by
  rintro (⟨beyond, -⟩ | ⟨-, bank, unpaged, -⟩)
  · cases read <;> omega
  · cases read with
    | base _ _ base => rw [base] at bank; cases bank
    | extended _ _ _ _ paged => rw [paged] at unpaged; cases unpaged

theorem ReadAlone.onlyRead {handle : Handle} (read : client.ReadAlone phy address log)
    (reaches : client.Reaches handle address) : client.OnlyRead phy handle log := by
  refine ⟨address, reaches, read, fun target index value answer member => ?_⟩
  cases read with
  | base =>
    cases List.mem_singleton.mp member
  | extended word pageSelect _ bank paged =>
    simp only [List.mem_cons, Prod.mk.injEq, Request.write.injEq, reduceCtorEq, false_and, List.not_mem_nil, or_false,
      false_or] at member
    obtain ⟨⟨-, rfl, rfl⟩, -⟩ | ⟨⟨-, rfl, rfl⟩, -⟩ := member
    · exact ⟨bank, paged, .inl rfl⟩
    · exact ⟨bank, paged, .inr rfl⟩

theorem Course.rawFailure {course : Course} {call : RawCall} (fits : course.Fits client phy call.address)
    (carried : ∀ event ∈ course.events phy call, Carried event) {cause : Error}
    (failed : (course.reply call).failure? = some cause) :
    client.RawFailure phy call.address (course.events phy call) cause := by
  cases course with
  | refused refusal =>
    rw [reply, RawCall.failure?_failed] at failed
    cases failed
    exact .inr ⟨refusal, fits, rfl, rfl⟩
  | direct accessed => exact .inl ((carried _ List.mem_cons_self).failure cause failed)
  | unselected pageSelect reason =>
    rw [reply, RawCall.failure?_failed] at failed
    cases failed
    exact .inl ((carried _ List.mem_cons_self).failure cause rfl)
  | bracketed pageSelect accessed restored =>
    have access := (carried _ (List.mem_cons_of_mem _ List.mem_cons_self)).failure
    have restore := (carried _ (List.mem_cons_of_mem _ (List.mem_cons_of_mem _ List.mem_cons_self))).failure
    cases blamed : accessed.failure? with
    | some reason =>
      simp only [reply, blamed, RawCall.failure?_failed] at failed
      cases failed
      exact .inl (access cause blamed)
    | none =>
      cases restored with
      | error reason =>
        simp only [reply, blamed, RawCall.failure?_failed] at failed
        cases failed
        exact .inl (restore cause rfl)
      | ok =>
        simp only [reply, blamed] at failed
        cases failed

theorem Course.readAlone {course : Course} (fits : course.Fits client phy address) {word : Word}
    (read : course.reply (.read address) = .word (.ok word)) :
    client.ReadAlone phy address (course.events phy (.read address)) := by
  cases course with
  | refused => cases read
  | direct accessed =>
    cases read
    exact .base word fits.1 fits.2
  | unselected => cases read
  | bracketed pageSelect accessed restored =>
    cases blamed : accessed.failure? with
    | some reason =>
      simp only [reply, blamed] at read
      cases read
    | none =>
      cases restored with
      | error reason =>
        simp only [reply, blamed] at read
        cases read
      | ok =>
        simp only [reply, blamed] at read
        cases read
        exact .extended word pageSelect fits.1 fits.2.1 fits.2.2

end Courses

section Yields

variable {α β δ : Type}

/-- What an access answers, together with the transactions that it adds to a record. -/
def Yields (access : Access (RecordedBus β) α) (Holds : Except Error α → List (Request × Reply) → Prop) : Prop :=
  ∀ recorded, ∃ outcome after log, access recorded = (outcome, ⟨after, recorded.log ++ log⟩) ∧ Holds outcome log

theorem Yields.known {outcome : Except Error α} {Holds : Except Error α → List (Request × Reply) → Prop}
    (holds : Holds outcome []) : Yields (β := β) (Access.known outcome) Holds :=
  fun recorded => ⟨outcome, recorded.bus, [], by rw [List.append_nil]; rfl, holds⟩

theorem Yields.weaken {access : Access (RecordedBus β) α} {Holds Also : Except Error α → List (Request × Reply) → Prop}
    (yields : Yields access Holds) (also : ∀ outcome log, Holds outcome log → Also outcome log) :
    Yields access Also := by
  intro recorded
  obtain ⟨outcome, after, log, performed, holds⟩ := yields recorded
  exact ⟨outcome, after, log, performed, also outcome log holds⟩

theorem Yields.known_bind {outcome : Except Error α} {next : α → Access (RecordedBus β) δ}
    {Holds : Except Error δ → List (Request × Reply) → Prop}
    (stops : ∀ cause, outcome = .error cause → Holds (.error cause) [])
    (goes : ∀ value, outcome = .ok value → Yields (next value) Holds) :
    Yields (Access.known outcome >>= next) Holds := by
  intro recorded
  rw [Access.bind_eq, Access.known]
  cases outcome with
  | error cause => exact ⟨_, recorded.bus, [], by rw [List.append_nil], stops cause rfl⟩
  | ok value => exact goes value rfl recorded

theorem Yields.bind {first : Access (RecordedBus β) α} {next : α → Access (RecordedBus β) δ}
    {Opens : Except Error α → List (Request × Reply) → Prop} {Holds : Except Error δ → List (Request × Reply) → Prop}
    (opens : Yields first Opens) (stops : ∀ cause log, Opens (.error cause) log → Holds (.error cause) log)
    (goes : ∀ value log, Opens (.ok value) log →
      Yields (next value) fun outcome later => Holds outcome (log ++ later)) :
    Yields (first >>= next) Holds := by
  intro recorded
  obtain ⟨started, middle, log, performed, opened⟩ := opens recorded
  rw [Access.bind_eq, performed]
  cases started with
  | error cause => exact ⟨_, middle, log, rfl, stops cause log opened⟩
  | ok value =>
    obtain ⟨outcome, after, later, continued, holds⟩ := goes value log opened ⟨middle, recorded.log ++ log⟩
    rw [List.append_assoc] at continued
    exact ⟨outcome, after, log ++ later, continued, holds⟩

/-- An access whose record, when it fails, is what its error allows. -/
def Contained (Blamed : List (Request × Reply) → Prop) (access : Access (RecordedBus β) α) : Prop :=
  Yields access fun outcome log => ∀ cause, outcome = .error cause → Leaves Blamed log cause

theorem Yields.contained {access : Access (RecordedBus β) α} {Blamed : List (Request × Reply) → Prop}
    {Holds : Except Error α → List (Request × Reply) → Prop} (yields : Yields access Holds)
    (leaves : ∀ cause log, Holds (.error cause) log → Leaves Blamed log cause) : Contained Blamed access := by
  refine yields.weaken ?_
  rintro _ log holds cause rfl
  exact leaves cause log holds

end Yields

section Operations

variable {β : Type} [Bus β] (faults : FailsByIo β) {client : Client}
  (selects : ∀ index ∈ client.config.pageSelect, index ≤ 31) (phy : Nat)

include faults selects

theorem serve_carried (call : RawCall) (recorded : RecordedBus β) :
    ∃ course : Course, course.Fits client phy call.address ∧ (∀ event ∈ course.events phy call, Carried event) ∧
      ∃ after,
        call.serve client phy recorded = (course.reply call, ⟨after, recorded.log ++ course.events phy call⟩) := by
  obtain ⟨course, fits, after, served⟩ := call.serve_course recorded
  -- The course says what was asked; that all of it was carried is known of the bus behind the record.
  have fresh : RecordedBus.Carries recorded.log recorded recorded.bus :=
    ⟨rfl, [], (List.append_nil _).symm, fun _ member => nomatch member⟩
  obtain ⟨_, _, _, alike, -, -, later, logged, carried⟩ :=
    alike_serve (RecordedBus.matched_carries faults recorded.log phy) selects call recorded recorded.bus fresh
  obtain ⟨-, rfl⟩ := Prod.ext_iff.mp (alike.symm.trans served)
  have same : course.events phy call = later := List.append_cancel_left logged
  exact ⟨course, fits, same ▸ carried, after, served⟩

theorem readRaw_yields (address : RegisterAddress) :
    Yields (β := β) (client.readRaw phy address) fun outcome log =>
      match outcome with
      | .ok _ => client.ReadAlone phy address log
      | .error cause => client.RawFailure phy address log cause := by
  intro recorded
  obtain ⟨course, fits, carried, after, served⟩ :=
    serve_carried faults selects phy (.read address) recorded
  rcases performed : client.readRaw phy address recorded with ⟨outcome, reached⟩
  rw [RawCall.serve, performed] at served
  obtain ⟨answered, rfl⟩ := Prod.ext_iff.mp served
  refine ⟨outcome, after, _, rfl, ?_⟩
  cases outcome with
  | ok word => exact Course.readAlone fits answered.symm
  | error cause =>
    have failed : (course.reply (.read address)).failure? = some cause := congrArg Reply.failure? answered.symm
    exact Course.rawFailure fits carried failed

theorem writeRaw_yields (address : RegisterAddress) (value : Word) :
    Yields (β := β) (client.writeRaw phy address value) fun outcome log =>
      ∀ cause, outcome = .error cause → client.RawFailure phy address log cause := by
  intro recorded
  obtain ⟨course, fits, carried, after, served⟩ :=
    serve_carried faults selects phy (.write address value) recorded
  rcases performed : client.writeRaw phy address value recorded with ⟨outcome, reached⟩
  rw [RawCall.serve, performed] at served
  obtain ⟨answered, rfl⟩ := Prod.ext_iff.mp served
  refine ⟨outcome, after, _, rfl, fun cause failed => ?_⟩
  subst failed
  have blamed : (course.reply (.write address value)).failure? = some cause := congrArg Reply.failure? answered.symm
  exact Course.rawFailure fits carried blamed

/-- A word is cut to the width of its register before it is read through the definition, so it always fits. -/
theorem readRegister_yields (handle : Handle) :
    Yields (β := β) (client.readRegister phy handle) fun outcome log =>
      match outcome with
      | .ok view =>
        client.map.resolve handle = .ok view.register ∧ client.ReadAlone phy view.register.address log
      | .error cause => Leaves (fun _ => False) log cause := by
  apply Yields.known_bind
  · intro cause unresolved
    obtain ⟨reason, rfl⟩ := labelled_of_mapError unresolved
    rfl
  intro register resolved
  apply Yields.bind (readRaw_yields faults selects phy register.address)
  · intro cause log fails
    exact fails.leaves
  intro word log read
  rw [Register.unpack_masked]
  refine .known ?_
  rw [List.append_nil]
  exact ⟨resolved, read⟩

theorem readRegister_contained (handle : Handle) :
    Contained (β := β) (fun _ => False) (client.readRegister phy handle) :=
  (readRegister_yields faults selects phy handle).contained fun _ _ leaves => leaves

theorem readRegisterByName_contained (name : String) :
    Contained (β := β) (fun _ => False) (client.readRegisterByName phy name) := by
  apply Yields.known_bind
  · rintro cause unnamed _ ⟨⟩
    obtain rfl := missing_of_elim unnamed
    rfl
  intro handle _
  exact readRegister_contained faults selects phy handle

theorem writeRaw_contained (address : RegisterAddress) (value : Word) (Blamed : List (Request × Reply) → Prop) :
    Contained (β := β) Blamed (client.writeRaw phy address value) :=
  (writeRaw_yields faults selects phy address value).contained fun _ _ fails => (fails _ rfl).leaves

theorem writeRegister_contained (handle : Handle) (values : List (String × Word)) :
    Contained (β := β) (· = []) (client.writeRegister phy handle values) := by
  apply Yields.known_bind
  · rintro cause unresolved _ ⟨⟩
    obtain ⟨reason, rfl⟩ := labelled_of_mapError unresolved
    rfl
  intro register _
  apply Yields.known_bind
  · rintro cause unpacked _ ⟨⟩
    obtain ⟨reason, rfl⟩ := labelled_of_mapError unpacked
    rfl
  intro word _
  exact writeRaw_contained faults selects phy register.address word _

/-- An update that fails for a value has read its register, so the write that follows a good value is not refused. -/
theorem modifyRegister_contained (handle : Handle) (values : List (String × Word)) :
    Contained (β := β) (client.OnlyRead phy handle) (client.modifyRegister phy handle values) := by
  apply Yields.bind (readRegister_yields faults selects phy handle)
  · rintro cause log leaves _ ⟨⟩
    cases cause with
    | config => exact leaves
    | field => exact leaves.elim
    | io => trivial
  rintro current log ⟨resolved, read⟩
  apply Yields.known_bind
  · rintro cause unpacked _ ⟨⟩
    obtain ⟨reason, rfl⟩ := labelled_of_mapError unpacked
    rw [List.append_nil]
    exact read.onlyRead ⟨_, resolved, rfl⟩
  intro updated packed
  -- The word goes back to the address that it came from, and there the client has already let a read through.
  have same : updated.register = current.register := register_of_withFields packed
  apply Yields.bind (writeRaw_yields faults selects phy updated.register.address updated.word)
  · rintro cause later fails _ ⟨⟩
    obtain ⟨fault, rfl⟩ | ⟨refusal, fits, -⟩ := fails cause rfl
    · trivial
    · rw [same] at fits
      exact absurd fits (read.unrefused refusal)
  intro _ later _
  exact .known nofun

theorem reset_contained :
    Contained (β := β) (fun log => ∃ handle, client.resetHandle = .ok handle ∧ client.OnlyRead phy handle log)
      (client.reset phy) := by
  apply Yields.known_bind
  · rintro cause unset _ ⟨⟩
    obtain rfl := missing_of_elim unset
    rfl
  intro handle found
  apply Yields.bind (modifyRegister_contained faults selects phy handle [(client.config.resetField, 1)])
  · rintro cause log leaves _ ⟨⟩
    have left := leaves cause rfl
    cases cause with
    | config => exact left
    | field => exact ⟨handle, found, left⟩
    | io => trivial
  intro _ log _
  exact .known nofun

theorem readAll_unblamed (handles : List Handle) (recorded : RecordedBus β) (reason : FieldError) :
    (client.readAll phy handles recorded).1.2 ≠ .error (.field reason) := by
  induction handles generalizing recorded with
  | nil => exact nofun
  | cons handle rest ih =>
    obtain ⟨outcome, after, log, performed, leaves⟩ := readRegister_yields faults selects phy handle recorded
    rw [readAll_cons, performed]
    cases outcome with
    | error cause =>
      rintro ⟨⟩
      exact leaves
    | ok view => exact ih _

end Operations

def errorOf? {α : Type} : Except Error α → Option Error
  | .error cause => some cause
  | .ok _ => none

theorem errorOf?_eq_some {α : Type} {outcome : Except Error α} {cause : Error}
    (failed : errorOf? outcome = some cause) : outcome = .error cause := by
  cases outcome <;> cases failed
  rfl

def Result.failure? : Result → Option Error
  | .view outcome => errorOf? outcome
  | .done outcome => errorOf? outcome
  | .word outcome => errorOf? outcome
  | .views _ outcome => errorOf? outcome

/-- What an operation has asked of the bus when it is refused. A dump may already have read some registers. -/
def Operation.Refuses (client : Client) (log : List (Request × Reply)) : Operation → Error → Prop
  | .dump _, .config _ => True
  | .writeRegister .., .field _ => log = []
  | .modifyRegister phy handle _, .field _ => client.OnlyRead phy handle log
  | .reset phy, .field _ => ∃ handle, client.resetHandle = .ok handle ∧ client.OnlyRead phy handle log
  | _, .config _ => log = []
  | _, .field _ => False
  | _, .io _ => True

theorem Contained.leaves {α β : Type} {access : Access (RecordedBus β) α} {Blamed : List (Request × Reply) → Prop}
    (contained : Contained Blamed access) {recorded : RecordedBus β} {log : List (Request × Reply)}
    (logged : (access recorded).2.log = recorded.log ++ log) {cause : Error}
    (failed : errorOf? (access recorded).1 = some cause) : Leaves Blamed log cause := by
  obtain ⟨outcome, after, added, performed, leaves⟩ := contained recorded
  rw [performed] at logged failed
  rw [← List.append_cancel_left logged]
  exact leaves cause (errorOf?_eq_some failed)

theorem perform_refuses {β : Type} [Bus β] (faults : FailsByIo β) {client : Client}
    (selects : ∀ index ∈ client.config.pageSelect, index ≤ 31) (operation : Operation) (recorded : RecordedBus β)
    {log : List (Request × Reply)} (logged : (operation.perform client recorded).2.log = recorded.log ++ log)
    {cause : Error} (failed : (operation.perform client recorded).1.failure? = some cause) :
    operation.Refuses client log cause := by
  cases operation with
  | readRegister phy handle =>
    have leaves := (readRegister_contained faults selects phy handle).leaves logged failed
    cases cause <;> exact leaves
  | readRegisterByName phy name =>
    have leaves := (readRegisterByName_contained faults selects phy name).leaves logged failed
    cases cause <;> exact leaves
  | writeRegister phy handle values =>
    have leaves := (writeRegister_contained faults selects phy handle values).leaves logged failed
    cases cause <;> exact leaves
  | writeView phy view =>
    have contained := writeRaw_contained faults selects phy view.register.address view.word (fun _ => False)
    have leaves := contained.leaves logged failed
    cases cause <;> exact leaves
  | modifyRegister phy handle values =>
    have leaves := (modifyRegister_contained faults selects phy handle values).leaves logged failed
    cases cause <;> exact leaves
  | reset phy =>
    have leaves := (reset_contained faults selects phy).leaves logged failed
    cases cause <;> exact leaves
  | dump phy =>
    cases cause with
    | config => trivial
    | field reason => exact readAll_unblamed faults selects phy _ recorded reason (errorOf?_eq_some failed)
    | io => trivial
  | readRaw phy address =>
    have contained : Contained (fun _ => False) (client.readRaw (β := RecordedBus β) phy address) :=
      (readRaw_yields faults selects phy address).contained fun _ _ fails => fails.leaves
    have leaves := contained.leaves logged failed
    cases cause <;> exact leaves
  | writeRaw phy address value =>
    have leaves := (writeRaw_contained faults selects phy address value (fun _ => False)).leaves logged failed
    cases cause <;> exact leaves

/-- An operation over a bus, with the transactions that it makes. Each of them can be carried by a frame, and what the
operation answers tells which it cannot have made. -/
def Restrained {β : Type} [Bus β] (client : Client) (operation : Operation) (bus : β) : Prop :=
  ∃ result after log,
    operation.perform client bus = (result, after) ∧
    operation.perform client ({ bus } : RecordedBus β) = (result, ⟨after, log⟩) ∧
    (∀ event ∈ log, Carried event) ∧
    ∀ cause, result.failure? = some cause → operation.Refuses client log cause

theorem restrained {β : Type} [Bus β] (faults : FailsByIo β) {client : Client}
    (selects : ∀ index ∈ client.config.pageSelect, index ≤ 31) (operation : Operation) (bus : β) :
    client.Restrained operation bus := by
  have fresh : RecordedBus.Carries [] ({ bus } : RecordedBus β) bus := ⟨rfl, [], rfl, fun _ member => nomatch member⟩
  obtain ⟨result, recorded, after, performed, alone, rfl, log, logged, carried⟩ :=
    alike_perform selects (RecordedBus.matched_carries faults [] operation.phy) ({ bus } : RecordedBus β) bus fresh
  rw [List.nil_append] at logged
  refine ⟨result, recorded.bus, log, alone, logged ▸ performed, carried, fun cause failed => ?_⟩
  refine perform_refuses faults selects operation { bus } ?_ ?_
  · rw [performed]
    exact logged
  · rwa [performed]

/-- Over a bus that fails for nothing but its lines, a client makes no transaction before it blames the configuration,
and none but the reading of the register before it blames a field. An engine is such a bus, and is never asked for an
address that it refuses. -/
theorem refusals_untouched {map : RegisterMap} {config : Config} {client : Client}
    (valid : create map config = .ok client) :
    (∀ (β : Type) [Bus β], FailsByIo β → ∀ operation (bus : β), client.Restrained operation bus) ∧
    ∀ (σ : Type) [Lines σ] operation (engine : Engine σ), client.Restrained operation engine :=
  ⟨fun _ _ faults operation bus => restrained faults (select_le valid) operation bus,
    fun _ _ operation engine => restrained Engine.failsByIo (select_le valid) operation engine⟩

end Client

theorem MemoryBus.failsByIo : FailsByIo MemoryBus where
  read {phy reg} _ bus cause failed := by
    have read : (bus.read phy reg).1 = .error cause := failed
    rw [MemoryBus.read] at read
    split at read <;> cases read
    exact ⟨_, rfl⟩
  write {phy reg} _ value bus cause failed := by
    have written : (bus.write phy reg value).1 = .error cause := failed
    rw [MemoryBus.write] at written
    split at written <;> cases written
    exact ⟨_, rfl⟩

/-- A value that no three bits can hold, for a register behind the page, and a handle of no register. -/
theorem Client.refusals_untouched_narrow :
    let mode : Register := ⟨"MODE", .extended 4, 16, [⟨"speed", 0, 3⟩]⟩
    let client : Client := ⟨((RegisterMap.empty 1 1).define mode).2, { pageSelect := some 22 }⟩
    let narrow := Operation.perform client (.modifyRegister 3 ⟨0, .extended 4⟩ [("speed", 9)])
      ({ bus := {} } : RecordedBus MemoryBus)
    let foreign := Operation.perform client (.readRegister 3 ⟨1, .extended 4⟩) ({ bus := {} } : RecordedBus MemoryBus)
    create client.map client.config = .ok client ∧
    narrow.1.failure? = some (.field .valueOutOfRange) ∧ client.OnlyRead 3 ⟨0, .extended 4⟩ narrow.2.log ∧
    foreign.1.failure? = some (.config .unknownRegister) ∧ foreign.2.log = [] := by
  intro mode client narrow foreign
  have valid : create client.map client.config = .ok client := rfl
  have blamed : narrow.1.failure? = some (.field .valueOutOfRange) := by decide +kernel
  have unknown : foreign.1.failure? = some (.config .unknownRegister) := rfl
  obtain ⟨restrained, -⟩ := refusals_untouched valid
  obtain ⟨_, _, _, -, modified, -, refuses⟩ :=
    restrained MemoryBus MemoryBus.failsByIo (.modifyRegister 3 ⟨0, .extended 4⟩ [("speed", 9)]) {}
  obtain ⟨_, _, _, -, read, -, alsoRefuses⟩ :=
    restrained MemoryBus MemoryBus.failsByIo (.readRegister 3 ⟨1, .extended 4⟩) {}
  have left := refuses _ ((congrArg (fun run => run.1.failure?) modified).symm.trans blamed)
  have untouched := alsoRefuses _ ((congrArg (fun run => run.1.failure?) read).symm.trans unknown)
  refine ⟨valid, blamed, ?_, unknown, ?_⟩
  · have updated : narrow = _ := modified
    rw [updated]
    exact left
  · have fetched : foreign = _ := read
    rw [fetched]
    exact untouched

end Clause22
