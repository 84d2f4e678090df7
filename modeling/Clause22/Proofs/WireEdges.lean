import Clause22.Proofs.BenchPlay
import Clause22.Proofs.BitRuns

/-! A PHY sees a script only through the rising clock edges that it makes. A sent bit is one driven
edge and a released cycle one released edge, so the edges of a frame are its bits in order. -/

namespace Clause22

def Phy.hear (phy : Phy) (edges : List Edge) : Phy :=
  edges.foldl Phy.onEdge phy

@[simp] theorem Phy.hear_nil (phy : Phy) : phy.hear [] = phy := rfl

@[simp] theorem Phy.hear_cons (phy : Phy) (edge : Edge) (edges : List Edge) :
    phy.hear (edge :: edges) = (phy.onEdge edge).hear edges := rfl

@[simp] theorem Phy.hear_append (phy : Phy) (first rest : List Edge) :
    phy.hear (first ++ rest) = (phy.hear first).hear rest :=
  List.foldl_append

namespace Script

/-- The rising edges of a script that finds the lines at some levels. -/
def edges : Script → LineWord → List Edge
  | [], _ => []
  | .drive word :: rest, lines => (Edge.between? lines word).toList ++ edges rest word
  | .sample :: rest, lines => edges rest lines
  | .wait :: rest, lines => edges rest lines

def levels : Script → LineWord → LineWord
  | [], lines => lines
  | .drive word :: rest, _ => levels rest word
  | .sample :: rest, lines => levels rest lines
  | .wait :: rest, lines => levels rest lines

theorem edges_append (first rest : Script) (lines : LineWord) :
    (first ++ rest).edges lines = first.edges lines ++ rest.edges (first.levels lines) := by
  induction first generalizing lines with
  | nil => rfl
  | cons action first ih => cases action <;> simp [edges, levels, ih]

theorem levels_append (first rest : Script) (lines : LineWord) :
    (first ++ rest).levels lines = rest.levels (first.levels lines) := by
  induction first generalizing lines with
  | nil => rfl
  | cons action first ih => cases action <;> simp [levels, ih]

/-- The clock is low, so that the next released cycle rises. -/
abbrev Low (lines : LineWord) : Prop := Wire.high Wire.clock lines = false

def sendBits (bits : List Bool) : Script :=
  bits.flatMap (writeBit · true)

theorem between?_low (before : LineWord) {after : LineWord} (low : Low after) :
    Edge.between? before after = none := by
  simp only [Edge.between?, low, Bool.and_false, Bool.false_eq_true, if_false]

theorem edges_writeBit (bit : Bool) (lines : LineWord) :
    edges (writeBit bit true) lines = [.driven bit] ∧ Low (levels (writeBit bit true) lines) := by
  cases bit with
  | false =>
    have low : Low (Wire.outputEnable ||| 0) := rfl
    have settled := between?_low lines low
    exact ⟨congrArg (·.toList ++ [Edge.driven false]) settled, low⟩
  | true =>
    have low : Low (Wire.outputEnable ||| Wire.dataOut) := rfl
    have settled := between?_low lines low
    exact ⟨congrArg (·.toList ++ [Edge.driven true]) settled, low⟩

theorem edges_sendBits (bits : List Bool) (lines : LineWord) :
    (sendBits bits).edges lines = bits.map .driven := by
  induction bits generalizing lines with
  | nil => rfl
  | cons bit bits ih =>
    rw [sendBits, List.flatMap_cons, edges_append, (edges_writeBit bit lines).1]
    exact congrArg _ (ih _)

theorem low_sendBits (bits : List Bool) {lines : LineWord} (low : Low lines) :
    Low ((sendBits bits).levels lines) := by
  induction bits generalizing lines with
  | nil => exact low
  | cons bit bits ih =>
    rw [sendBits, List.flatMap_cons, levels_append]
    exact ih (edges_writeBit bit lines).2

theorem edges_releaseCycle {lines : LineWord} (low : Low lines) :
    edges releaseCycle lines = [.released] ∧ levels releaseCycle lines = 0 := by
  have rising : Edge.between? lines Wire.clock = some .released := by
    simp only [Edge.between?, low]
    rfl
  exact ⟨congrArg (·.toList ++ []) rising, rfl⟩

theorem edges_releaseCycles (cycles : Nat) {lines : LineWord} (low : Low lines) :
    (releaseCycles cycles).edges lines = List.replicate cycles .released := by
  induction cycles generalizing lines with
  | zero => rfl
  | succ cycles ih =>
    rw [releaseCycles, List.replicate_succ, List.flatten_cons, edges_append, (edges_releaseCycle low).1,
      (edges_releaseCycle low).2]
    exact congrArg _ (ih rfl)

end Script

namespace Bench

theorem observe_phy (bench : Bench) (edge : Option Edge) :
    (bench.observe edge).phy = bench.phy.hear edge.toList := by
  rcases edge with _ | _ | _ <;> rfl

theorem perform_phy (bench : Bench) (action : Action) :
    (bench.perform action).phy = bench.phy.hear (Script.edges [action] bench.lines) := by
  cases action with
  | drive word =>
    simp only [perform, Script.edges, List.append_nil]
    exact observe_phy ..
  | sample | wait => rfl

theorem perform_lines (bench : Bench) (action : Action) :
    (bench.perform action).lines = Script.levels [action] bench.lines := by
  cases action <;> rfl

theorem after_lines (bench : Bench) (script : Script) : (bench.after script).lines = script.levels bench.lines := by
  induction script generalizing bench with
  | nil => rfl
  | cons action rest ih => rw [after_cons, ih, perform_lines, ← Script.levels_append, List.singleton_append]

theorem after_phy (bench : Bench) (script : Script) :
    (bench.after script).phy = bench.phy.hear (script.edges bench.lines) := by
  induction script generalizing bench with
  | nil => rfl
  | cons action rest ih =>
    rw [after_cons, ih, perform_phy, perform_lines, ← Phy.hear_append, ← Script.edges_append, List.singleton_append]

end Bench

namespace Frame

def headerBits (opcode : BitVec 32) (phy reg : Nat) : List Bool :=
  Bits.send Wire.start Wire.shortBits ++ Bits.send opcode Wire.shortBits ++
    Bits.send (.ofNat 32 phy) Wire.addressBits ++ Bits.send (.ofNat 32 reg) Wire.addressBits

def tailBits (value : Word) : List Bool :=
  Bits.send Wire.turnaround Wire.shortBits ++ Bits.send (value.setWidth 32) Wire.dataBits

abbrev ones : List Bool := List.replicate Wire.preambleBits true

def burst (phy reg : Nat) (value : Word) : List Bool :=
  ones ++ headerBits Wire.opWrite phy reg ++ tailBits value

theorem script_header (opcode : BitVec 32) (phy reg : Nat) :
    script (header opcode phy reg) =
      .drive Wire.outputEnable :: Script.sendBits (ones ++ headerBits opcode phy reg) := by
  have sent : Bits.send Wire.preamble Wire.preambleBits = ones := by decide
  simp only [script, header, preamble, Script.writeBits, Script.sendBits, headerBits, sent,
    List.flatMap_cons, List.flatMap_nil, List.flatMap_append, List.append_assoc, List.cons_append, List.append_nil]

theorem script_write (phy reg : Nat) (value : Word) :
    script (write phy reg value) =
      .drive Wire.outputEnable ::
        (Script.sendBits (burst phy reg value) ++ Script.releaseCycles Wire.turnaroundCycles) := by
  have header := script_header Wire.opWrite phy reg
  simp only [script] at header
  simp only [script, write, List.flatMap_append, header, trailer, Script.writeBits, Script.sendBits, burst, tailBits,
    List.flatMap_cons, List.flatMap_nil, List.append_assoc, List.cons_append, List.append_nil]

theorem script_recovery :
    script recovery =
      .drive Wire.outputEnable :: (Script.sendBits ones ++ Script.releaseCycles Wire.turnaroundCycles) := by
  have sent : Bits.send Wire.preamble Wire.preambleBits = ones := by decide
  simp only [script, recovery, preamble, Script.writeBits, Script.sendBits, sent,
    List.flatMap_cons, List.flatMap_nil, List.cons_append, List.append_nil]

theorem edges_enable (rest : Script) (lines : LineWord) :
    Script.edges (.drive Wire.outputEnable :: rest) lines = rest.edges Wire.outputEnable := by
  rw [Script.edges, Script.between?_low lines rfl, Option.toList_none, List.nil_append]

theorem edges_burst (bits : List Bool) (cycles : Nat) (lines : LineWord) :
    Script.edges (.drive Wire.outputEnable :: (Script.sendBits bits ++ Script.releaseCycles cycles)) lines =
      bits.map .driven ++ List.replicate cycles .released := by
  rw [edges_enable, Script.edges_append, Script.edges_sendBits,
    Script.edges_releaseCycles cycles (Script.low_sendBits bits rfl)]

end Frame
end Clause22
