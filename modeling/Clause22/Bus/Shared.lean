import Clause22.Bus.Request

/-! A cell refuses whoever asks for its value while somebody holds it, so what a holder does is never interleaved
with anything else. A bus in a cell is for several users. Each transaction holds the bus from its first edge to its
last. One that finds the bus held fails as on a busy bus and does not touch it. -/

namespace Clause22

/-- A value that one holder at a time may change. -/
structure Cell (α : Type) where
  value : α
  held : Bool := false
deriving DecidableEq

namespace Cell

/-- Holds the cell for the length of `body`, which may use the held value and the cell itself. A cell
that is already held is left alone. -/
def hold (body : Cell α → ρ × Cell α) (cell : Cell α) : Option ρ × Cell α :=
  if cell.held then
    (none, cell)
  else
    let (result, after) := body { cell with held := true }
    (some result, { after with held := false })

def update (change : α → ρ × α) : Cell α → Option ρ × Cell α :=
  hold fun cell =>
    let (result, value) := change cell.value
    (result, { cell with value })

/-- How a block asks for the cell. -/
inductive Entry
  /-- A held cell is a fault of the caller. -/
  | demand
  /-- A held cell is an answer like any other. -/
  | attempt
deriving DecidableEq

/-- Steps against one cell, in order. Some go through the cell, some act on the value that the
innermost block holds, and a block holds the cell for steps of its own. -/
inductive Steps (ω ι : Type)
  | done
  | cell (request : ω) (rest : Steps ω ι)
  | held (request : ι) (rest : Steps ω ι)
  | block (entry : Entry) (body rest : Steps ω ι)
deriving Inhabited

inductive Answer (ρ : Type)
  | reply (result : ρ)
  /-- A step on the held value outside every block. -/
  | notHeld
  /-- A block that found the cell held. -/
  | refused (entry : Entry)
  | block (answers : List (Answer ρ))

/-- Runs steps, given what a request does through the cell and what it does to the held value. -/
def run (onCell : ω → Cell α → ρ × Cell α) (onHeld : ι → α → ρ × α) :
    Steps ω ι → Cell α → List (Answer ρ) × Cell α
  | .done, cell => ([], cell)
  | .cell request rest, cell =>
    let (result, cell) := onCell request cell
    let (answers, cell) := run onCell onHeld rest cell
    (.reply result :: answers, cell)
  | .held request rest, cell =>
    if cell.held then
      let (result, value) := onHeld request cell.value
      let (answers, cell) := run onCell onHeld rest { cell with value }
      (.reply result :: answers, cell)
    else
      let (answers, cell) := run onCell onHeld rest cell
      (.notHeld :: answers, cell)
  | .block entry body rest, cell =>
    let (outcome, cell) := cell.hold (run onCell onHeld body)
    let (answers, cell) := run onCell onHeld rest cell
    (outcome.elim (.refused entry) .block :: answers, cell)

end Cell

namespace SharedBus
variable {β : Type} [Bus β]

def access (transaction : Access β α) : Access (Cell β) α := fun cell =>
  let (outcome, cell) := cell.update transaction
  (outcome.getD (.error (.io .busBusy)), cell)

/-- Whether the bus is held or in the middle of a frame. -/
def isBusy (cell : Cell β) : Bool :=
  cell.held || Bus.isBusy cell.value

instance : Bus (Cell β) where
  read phy reg := access (Bus.read phy reg)
  write phy reg value := access (Bus.write phy reg value)
  isBusy := isBusy

end SharedBus
end Clause22
