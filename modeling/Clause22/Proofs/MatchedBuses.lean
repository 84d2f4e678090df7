import Clause22.Proofs.EngineFrames
import Clause22.Proofs.RawCalls

/-! Two buses under one client. If single transactions of a PHY end alike on both, so does all that a client makes
of them: brackets around the extended bank, updates of a register, and whole dumps. -/

namespace Clause22

/-- Two requests that answer the same and keep two states related. -/
def Alike {α β γ : Type} (Related : β → γ → Prop) (first : β → α × β) (second : γ → α × γ) : Prop :=
  ∀ here there, Related here there →
    ∃ answer after beyond, first here = (answer, after) ∧ second there = (answer, beyond) ∧ Related after beyond

theorem Access.bind_eq {α β δ : Type} (first : Access β α) (next : α → Access β δ) (bus : β) :
    (first >>= next) bus =
      match first bus with
      | (.ok value, after) => next value after
      | (.error cause, after) => (.error cause, after) := by
  have continued : (first >>= next) bus = ExceptT.bindCont next (first bus).1 (first bus).2 := rfl
  rw [continued]
  rcases first bus with ⟨_ | _, after⟩ <;> rfl

theorem Access.bind_ok {α β δ : Type} {first : Access β α} {next : α → Access β δ} {before after : β} {value : δ}
    (performed : (first >>= next) before = (.ok value, after)) :
    ∃ found middle, first before = (.ok found, middle) ∧ next found middle = (.ok value, after) := by
  rw [bind_eq] at performed
  rcases started : first before with ⟨cause | found, middle⟩
  · rw [started] at performed
    cases performed
  · rw [started] at performed
    exact ⟨found, middle, rfl, performed⟩

namespace Alike

variable {α β γ δ : Type} {Related : β → γ → Prop}

theorem known (outcome : Except Error α) : Alike Related (Access.known outcome) (Access.known outcome) :=
  fun here there related => ⟨outcome, here, there, rfl, rfl, related⟩

theorem bind {first : Access β α} {second : Access γ α} {next : α → Access β δ} {follow : α → Access γ δ}
    (opens : Alike Related first second) (goes : ∀ value, Alike Related (next value) (follow value)) :
    Alike Related (first >>= next) (second >>= follow) := by
  intro here there related
  obtain ⟨outcome, after, beyond, started, followed, still⟩ := opens here there related
  rw [Access.bind_eq, Access.bind_eq, started, followed]
  cases outcome with
  | error cause => exact ⟨_, after, beyond, rfl, rfl, still⟩
  | ok value => exact goes value after beyond still

theorem map {first : β → α × β} {second : γ → α × γ} (alike : Alike Related first second) (form : α → δ) :
    Alike Related (fun bus => (first bus).map form id) (fun bus => (second bus).map form id) := by
  intro here there related
  obtain ⟨answer, after, beyond, answered, replied, still⟩ := alike here there related
  exact ⟨form answer, after, beyond, congrArg (Prod.map form id) answered, congrArg (Prod.map form id) replied, still⟩

variable [Bus β] [Bus γ] {phy : Nat}

theorem onExtendedPage {pageSelect : Nat} {first : Access β α} {second : Access γ α}
    (turns : ∀ page, Alike Related (Bus.write phy pageSelect page) (Bus.write phy pageSelect page))
    (access : Alike Related first second) :
    Alike Related (Client.onExtendedPage phy pageSelect first) (Client.onExtendedPage phy pageSelect second) := by
  intro here there related
  obtain ⟨selected, turned, shown, selects, alsoSelects, extended⟩ := turns Client.extendedPage here there related
  simp only [Client.onExtendedPage, selects, alsoSelects]
  cases selected with
  | error cause => exact ⟨_, turned, shown, rfl, rfl, extended⟩
  | ok =>
    obtain ⟨outcome, accessed, reached, accesses, alsoAccesses, still⟩ := access turned shown extended
    obtain ⟨restored, back, closed, restores, alsoRestores, last⟩ := turns Client.basePage accessed reached still
    simp only [accesses, alsoAccesses, restores, alsoRestores]
    exact ⟨_, back, closed, rfl, rfl, last⟩

theorem withBank {client : Client} {first : Nat → Access β α} {second : Nat → Access γ α}
    (access : ∀ index, Addressable phy index → Alike Related (first index) (second index))
    (turns : ∀ pageSelect ∈ client.config.pageSelect, phy ≤ 31 →
      ∀ page, Alike Related (Bus.write phy pageSelect page) (Bus.write phy pageSelect page))
    (address : RegisterAddress) :
    Alike Related (client.withBank phy address first) (client.withBank phy address second) := by
  intro here there related
  by_cases fits : phy ≤ Wire.maxPhyAddress
  · have inside := access _ ⟨fits, address.index_le⟩
    cases bank : address.bank with
    | base =>
      rw [Client.withBank_base first fits bank, Client.withBank_base second fits bank]
      exact inside here there related
    | extended =>
      cases paged : client.config.pageSelect with
      | none =>
        rw [Client.withBank_unpaged first fits bank paged, Client.withBank_unpaged second fits bank paged]
        exact ⟨_, here, there, rfl, rfl, related⟩
      | some pageSelect =>
        rw [Client.withBank_extended first fits bank paged, Client.withBank_extended second fits bank paged]
        exact onExtendedPage (turns pageSelect paged fits) inside here there related
  · have beyond : Wire.maxPhyAddress < phy := Nat.not_le.mp fits
    rw [Client.withBank_refused first beyond, Client.withBank_refused second beyond]
    exact ⟨_, here, there, rfl, rfl, related⟩

end Alike

/-- Transactions with one PHY end alike on two buses, as far as a frame can name the registers. -/
structure Matched {β γ : Type} [Bus β] [Bus γ] (Related : β → γ → Prop) (phy : Nat) : Prop where
  read : ∀ index, Addressable phy index → Alike Related (Bus.read phy index) (Bus.read phy index)
  write : ∀ index value, Addressable phy index →
    Alike Related (Bus.write phy index value) (Bus.write phy index value)

namespace Client

/-- What a user may ask of a client. -/
inductive Operation
  | readRegister (phy : Nat) (handle : Handle)
  | readRegisterByName (phy : Nat) (name : String)
  | writeRegister (phy : Nat) (handle : Handle) (values : List (String × Word))
  | writeView (phy : Nat) (view : View)
  | modifyRegister (phy : Nat) (handle : Handle) (values : List (String × Word))
  | reset (phy : Nat)
  | dump (phy : Nat)
  | readRaw (phy : Nat) (address : RegisterAddress)
  | writeRaw (phy : Nat) (address : RegisterAddress) (value : Word)

inductive Result
  | view (outcome : Except Error View)
  | done (outcome : Except Error Unit)
  | word (outcome : Except Error Word)
  | views (read : List View) (outcome : Except Error Unit)

namespace Operation

def phy : Operation → Nat
  | .readRegister phy _ | .readRegisterByName phy _ | .writeRegister phy _ _ | .writeView phy _
  | .modifyRegister phy _ _ | .reset phy | .dump phy | .readRaw phy _ | .writeRaw phy _ _ => phy

variable {β : Type} [Bus β]

def perform (client : Client) : Operation → β → Result × β
  | .readRegister phy handle, bus => (client.readRegister phy handle bus).map .view id
  | .readRegisterByName phy name, bus => (client.readRegisterByName phy name bus).map .view id
  | .writeRegister phy handle values, bus => (client.writeRegister phy handle values bus).map .done id
  | .writeView phy view, bus => (client.writeView phy view bus).map .done id
  | .modifyRegister phy handle values, bus => (client.modifyRegister phy handle values bus).map .view id
  | .reset phy, bus => (client.reset phy bus).map .done id
  | .dump phy, bus => (client.dump phy bus).map (fun (views, outcome) => .views views outcome) id
  | .readRaw phy address, bus => (client.readRaw phy address bus).map .word id
  | .writeRaw phy address value, bus => (client.writeRaw phy address value bus).map .done id

def performAll (client : Client) : List Operation → β → List Result × β
  | [], bus => ([], bus)
  | operation :: rest, bus =>
    let (result, bus) := operation.perform client bus
    let (results, bus) := performAll client rest bus
    (result :: results, bus)

end Operation

section Matched

variable {β γ α : Type} [Bus β] [Bus γ] {Related : β → γ → Prop} {phy : Nat} (matched : Matched Related phy)
  {client : Client} (selects : ∀ index ∈ client.config.pageSelect, index ≤ 31)

include matched selects

theorem alike_withBank {first : Nat → Access β α} {second : Nat → Access γ α}
    (access : ∀ index, Addressable phy index → Alike Related (first index) (second index))
    (address : RegisterAddress) :
    Alike Related (client.withBank phy address first) (client.withBank phy address second) := by
  refine Alike.withBank access ?_ address
  intro pageSelect selected fits page
  exact matched.write pageSelect page ⟨fits, selects pageSelect selected⟩

theorem alike_readRaw (address : RegisterAddress) :
    Alike Related (client.readRaw phy address) (client.readRaw phy address) :=
  alike_withBank matched selects matched.read address

theorem alike_writeRaw (address : RegisterAddress) (value : Word) :
    Alike Related (client.writeRaw phy address value) (client.writeRaw phy address value) :=
  alike_withBank matched selects (fun index => matched.write index value) address

theorem alike_serve (call : RawCall) : Alike Related (call.serve client phy) (call.serve client phy) := by
  cases call with
  | read address => exact (alike_readRaw matched selects address).map Reply.word
  | write address value => exact (alike_writeRaw matched selects address value).map Reply.done

theorem alike_readRegister (handle : Handle) :
    Alike Related (client.readRegister phy handle) (client.readRegister phy handle) := by
  apply Alike.bind (.known _)
  intro register
  apply Alike.bind (alike_readRaw matched selects register.address)
  intro word
  exact .known _

theorem alike_readRegisterByName (name : String) :
    Alike Related (client.readRegisterByName phy name) (client.readRegisterByName phy name) := by
  apply Alike.bind (.known _)
  exact alike_readRegister matched selects

theorem alike_writeRegister (handle : Handle) (values : List (String × Word)) :
    Alike Related (client.writeRegister phy handle values) (client.writeRegister phy handle values) := by
  apply Alike.bind (.known _)
  intro register
  apply Alike.bind (.known _)
  exact alike_writeRaw matched selects register.address

theorem alike_modifyRegister (handle : Handle) (values : List (String × Word)) :
    Alike Related (client.modifyRegister phy handle values) (client.modifyRegister phy handle values) := by
  apply Alike.bind (alike_readRegister matched selects handle)
  intro current
  apply Alike.bind (.known _)
  intro updated
  apply Alike.bind (alike_writeRaw matched selects updated.register.address updated.word)
  intro _
  exact .known (.ok updated)

theorem alike_reset : Alike Related (client.reset phy) (client.reset phy) := by
  apply Alike.bind (.known _)
  intro handle
  apply Alike.bind (alike_modifyRegister matched selects handle _)
  intro _
  exact .known (.ok ())

omit matched selects [Bus γ] in
theorem readAll_cons (handle : Handle) (rest : List Handle) (bus : β) :
    client.readAll phy (handle :: rest) bus =
      match client.readRegister phy handle bus with
      | (.error cause, after) => (([], .error cause), after)
      | (.ok view, after) =>
        (client.readAll phy rest after).map (fun (views, outcome) => (view :: views, outcome)) id := by
  rw [readAll]
  simp only [bind, StateT.bind, ExceptT.run]
  rcases client.readRegister phy handle bus with ⟨_ | view, after⟩ <;> rfl

theorem alike_readAll (handles : List Handle) :
    Alike Related (client.readAll phy handles) (client.readAll phy handles) := by
  induction handles with
  | nil => exact fun here there related => ⟨_, here, there, rfl, rfl, related⟩
  | cons handle rest ih =>
    intro here there related
    obtain ⟨outcome, after, beyond, reads, alsoReads, still⟩ :=
      alike_readRegister matched selects handle here there related
    rw [readAll_cons, readAll_cons, reads, alsoReads]
    cases outcome with
    | error cause => exact ⟨_, after, beyond, rfl, rfl, still⟩
    | ok view => exact ih.map _ after beyond still

end Matched

section Operations

variable {β γ : Type} [Bus β] [Bus γ] {Related : β → γ → Prop} {client : Client}
  (selects : ∀ index ∈ client.config.pageSelect, index ≤ 31)

include selects

theorem alike_perform {operation : Operation} (matched : Matched Related operation.phy) :
    Alike Related (operation.perform client) (operation.perform client) := by
  cases operation with
  | readRegister phy handle => exact (alike_readRegister matched selects handle).map Result.view
  | readRegisterByName phy name => exact (alike_readRegisterByName matched selects name).map Result.view
  | writeRegister phy handle values => exact (alike_writeRegister matched selects handle values).map Result.done
  | writeView phy view =>
    exact (alike_writeRaw matched selects view.register.address view.word).map Result.done
  | modifyRegister phy handle values => exact (alike_modifyRegister matched selects handle values).map Result.view
  | reset phy => exact (alike_reset matched selects).map Result.done
  | dump phy =>
    exact (alike_readAll matched selects _).map fun (views, outcome) => Result.views views outcome
  | readRaw phy address => exact (alike_readRaw matched selects address).map Result.word
  | writeRaw phy address value => exact (alike_writeRaw matched selects address value).map Result.done

theorem alike_performAll {operations : List Operation}
    (matched : ∀ operation ∈ operations, Matched Related operation.phy) :
    Alike Related (Operation.performAll client operations) (Operation.performAll client operations) := by
  induction operations with
  | nil => exact fun here there related => ⟨[], here, there, rfl, rfl, related⟩
  | cons operation rest ih =>
    intro here there related
    obtain ⟨result, after, beyond, first, alsoFirst, still⟩ :=
      alike_perform selects (matched operation List.mem_cons_self) here there related
    obtain ⟨results, last, final, later, alsoLater, kept⟩ :=
      ih (fun other member => matched other (List.mem_cons_of_mem _ member)) after beyond still
    refine ⟨result :: results, last, final, ?_, ?_, kept⟩
    · simp only [Operation.performAll, first, later]
    · simp only [Operation.performAll, alsoFirst, alsoLater]

end Operations

theorem select_le {map : RegisterMap} {config : Config} {client : Client} (valid : create map config = .ok client) :
    ∀ index ∈ client.config.pageSelect, index ≤ 31 := by
  rw [create, Config.validate] at valid
  split at valid
  next => cases valid
  next fits =>
    cases valid
    intro index selected
    refine Nat.not_lt.mp fun beyond => fits ?_
    rw [Option.mem_def.mp selected]
    exact decide_eq_true beyond

end Client
end Clause22
