import Clause22.Bus.Memory
import Clause22.Bus.Request
import Clause22.Bus.Shared
import Clause22.Proofs.MatchedBuses

/-! Steps against a shared bus, nested to any depth. Only the outermost block ever holds the bus: inside it the bus
is reached as the held value alone, and whatever asks the cell for it is refused and leaves no trace. -/

namespace Clause22

namespace Cell

variable {α ω ι ρ : Type}

namespace Steps

/-- The answers of steps inside a running block, and the value after them. The cell answers each request with a
refusal, and no further block runs. -/
def inside (refusal : ω → ρ) (onHeld : ι → α → ρ × α) : Steps ω ι → α → List (Answer ρ) × α
  | .done, value => ([], value)
  | .cell request rest, value =>
    let (answers, value) := rest.inside refusal onHeld value
    (.reply (refusal request) :: answers, value)
  | .held request rest, value =>
    let (result, value) := onHeld request value
    let (answers, value) := rest.inside refusal onHeld value
    (.reply result :: answers, value)
  | .block entry _ rest, value =>
    let (answers, value) := rest.inside refusal onHeld value
    (.refused entry :: answers, value)

/-- The answers of steps outside every block, and the value after them. The cell is not seen: a request is answered
by the value itself, and every block runs. -/
def outside (refusal : ω → ρ) (onFree : ω → α → ρ × α) (onHeld : ι → α → ρ × α) :
    Steps ω ι → α → List (Answer ρ) × α
  | .done, value => ([], value)
  | .cell request rest, value =>
    let (result, value) := onFree request value
    let (answers, value) := rest.outside refusal onFree onHeld value
    (.reply result :: answers, value)
  | .held _ rest, value =>
    let (answers, value) := rest.outside refusal onFree onHeld value
    (.notHeld :: answers, value)
  | .block _ body rest, value =>
    let (inner, value) := body.inside refusal onHeld value
    let (answers, value) := rest.outside refusal onFree onHeld value
    (.block inner :: answers, value)

def grantedInside : Steps ω ι → List (ω ⊕ ι)
  | .done => []
  | .cell _ rest => rest.grantedInside
  | .held request rest => .inr request :: rest.grantedInside
  | .block _ _ rest => rest.grantedInside

/-- The requests outside every block, and in the blocks that run, that are not refused. -/
def granted : Steps ω ι → List (ω ⊕ ι)
  | .done => []
  | .cell request rest => .inl request :: rest.granted
  | .held _ rest => rest.granted
  | .block _ body rest => body.grantedInside ++ rest.granted

/-- A value after requests, of which some are made of a free cell and others of the held value. -/
def after (onFree : ω → α → ρ × α) (onHeld : ι → α → ρ × α) (requests : List (ω ⊕ ι)) (value : α) : α :=
  requests.foldl (fun value request => (Sum.elim onFree onHeld request value).2) value

theorem after_append (onFree : ω → α → ρ × α) (onHeld : ι → α → ρ × α) (first rest : List (ω ⊕ ι)) (value : α) :
    after onFree onHeld (first ++ rest) value = after onFree onHeld rest (after onFree onHeld first value) :=
  List.foldl_append

theorem inside_granted (refusal : ω → ρ) (onFree : ω → α → ρ × α) (onHeld : ι → α → ρ × α) (steps : Steps ω ι)
    (value : α) : (steps.inside refusal onHeld value).2 = after onFree onHeld steps.grantedInside value := by
  induction steps generalizing value with
  | done => rfl
  | cell _ rest ih => exact ih value
  | held request rest ih => exact ih (onHeld request value).2
  | block _ _ rest _ ih => exact ih value

theorem outside_granted (refusal : ω → ρ) (onFree : ω → α → ρ × α) (onHeld : ι → α → ρ × α) (steps : Steps ω ι)
    (value : α) : (steps.outside refusal onFree onHeld value).2 = after onFree onHeld steps.granted value := by
  induction steps generalizing value with
  | done => rfl
  | cell request rest ih => exact ih (onFree request value).2
  | held _ rest ih => exact ih value
  | block _ body rest _ ih =>
    rw [granted, after_append, ← inside_granted refusal]
    exact ih (body.inside refusal onHeld value).2

end Steps

/-- Requests through a cell act on the value of a free one, and a held one refuses them and stays as it is. -/
structure Guards (onCell : ω → Cell α → ρ × Cell α) (onFree : ω → α → ρ × α) (refusal : ω → ρ) : Prop where
  free : ∀ request value,
    onCell request { value } = ((onFree request value).1, { value := (onFree request value).2 })
  held : ∀ request value,
    onCell request { value, held := true } = (refusal request, { value, held := true })

section Run

variable {onCell : ω → Cell α → ρ × Cell α} {onFree : ω → α → ρ × α} {refusal : ω → ρ}
  (guards : Guards onCell onFree refusal) (onHeld : ι → α → ρ × α)

include guards

theorem run_held (steps : Steps ω ι) (value : α) :
    run onCell onHeld steps { value, held := true } =
      ((steps.inside refusal onHeld value).1, { value := (steps.inside refusal onHeld value).2, held := true }) := by
  induction steps generalizing value with
  | done => rfl
  | cell request rest ih => simp only [run, guards.held, ih, Steps.inside]
  | held request rest ih => simp only [run, if_true, ih, Steps.inside]
  | block entry body rest _ ih => simp only [run, hold, if_true, ih, Steps.inside, Option.elim_none]

theorem run_free (steps : Steps ω ι) (value : α) :
    run onCell onHeld steps { value } =
      ((steps.outside refusal onFree onHeld value).1, { value := (steps.outside refusal onFree onHeld value).2 }) := by
  induction steps generalizing value with
  | done => rfl
  | cell request rest ih => simp only [run, guards.free, ih, Steps.outside]
  | held request rest ih => simp only [run, Bool.false_eq_true, if_false, ih, Steps.outside]
  | block entry body rest _ ih =>
    have inner := run_held guards onHeld body value
    simp only [run, hold, Bool.false_eq_true, if_false, inner, ih, Steps.outside, Option.elim_some]

end Run

end Cell

def Request.refusal : Request → Reply
  | .read .. => .word (.error (.io .busBusy))
  | .write .. => .done (.error (.io .busBusy))
  | .isBusy => .busy true

namespace SharedBus

variable {β : Type} [Bus β]

theorem serve_guards : Cell.Guards (Request.serve (β := Cell β)) Request.serve Request.refusal where
  free request value := by cases request <;> rfl
  held request value := by cases request <;> rfl

theorem matched_free (phy : Nat) : Matched (fun (cell : Cell β) bus => cell = { value := bus }) phy where
  read index _ := by
    intro cell bus free
    cases free
    exact ⟨_, _, _, rfl, rfl, rfl⟩
  write index value _ := by
    intro cell bus free
    cases free
    exact ⟨_, _, _, rfl, rfl, rfl⟩

/-- However steps are nested, what reaches the bus is one transaction after another: the shared bus answers as its
plain bus outside every block, refuses all that asks for it inside one, and is free in the end. What the bus holds
then is what the requests that were not refused have made of it, and a client cannot tell it from its plain bus. -/
theorem transactions_serialised (act : ι → β → Reply × β) (steps : Cell.Steps Request ι) (bus : β) :
    (∃ answers after,
      steps.outside Request.refusal Request.serve act bus = (answers, after) ∧
      Cell.run Request.serve act steps { value := bus } = (answers, { value := after }) ∧
      after = Cell.Steps.after Request.serve act steps.granted bus) ∧
    ∀ {map config client}, Client.create map config = .ok client → ∀ operations, ∃ results after,
      Client.Operation.performAll client operations bus = (results, after) ∧
      Client.Operation.performAll client operations ({ value := bus } : Cell β) = (results, { value := after }) := by
  refine ⟨⟨_, _, rfl, Cell.run_free serve_guards act steps bus, Cell.Steps.outside_granted ..⟩, ?_⟩
  intro map config client valid operations
  obtain ⟨results, cell, after, shared, plain, rfl⟩ :=
    Client.alike_performAll (Client.select_le valid) (fun operation _ => matched_free operation.phy)
      { value := bus } bus rfl
  exact ⟨results, after, plain, shared⟩

/-- A block with transactions of its own, requests through the cell from within, and blocks that are refused. -/
theorem transactions_serialised_nested :
    let bus : MemoryBus := {}
    let refused : Cell.Steps Request Request :=
      .block .attempt (.held (.write 1 4 9) .done) (.block .demand (.block .attempt .done .done) .done)
    let steps : Cell.Steps Request Request :=
      .block .demand (.held (.write 1 4 7) (.cell (.write 1 4 8) (.cell .isBusy refused)))
        (.held (.read 1 4) (.cell (.read 1 4) .done))
    let client : Client := ⟨.empty 0 0, { pageSelect := some 22 }⟩
    Client.create client.map client.config = .ok client ∧
    (∃ after, Cell.run Request.serve Request.serve steps { value := bus } =
        ([.block [.reply (.done (.ok ())), .reply (.done (.error (.io .busBusy))), .reply (.busy true),
          .refused .attempt, .refused .demand], .notHeld, .reply (.word (.ok 7))], { value := after }) ∧
      after.events = #[.write 1 4 7, .read 1 4]) ∧
    ∃ results after, Client.Operation.performAll client [.readRaw 1 (.extended 4)] ({ value := bus } : Cell MemoryBus) =
        (results, { value := after }) ∧ after.events = #[.write 1 22 1, .read 1 4, .write 1 22 0] := by
  intro bus refused steps client
  have valid : Client.create client.map client.config = .ok client := rfl
  obtain ⟨⟨answers, after, plain, shared, granted⟩, clients⟩ := transactions_serialised Request.serve steps bus
  obtain ⟨results, last, direct, wrapped⟩ := clients valid [.readRaw 1 (.extended 4)]
  refine ⟨valid, ⟨after, ?_, ?_⟩, results, last, wrapped, ?_⟩
  · cases plain
    exact shared
  · rw [granted]
    rfl
  · cases direct
    rfl

end SharedBus
end Clause22
