import Clause22.Proofs.BenchSteps
import Clause22.Proofs.EngineFrames
import Clause22.Proofs.FrameBits
import Clause22.Proofs.FrameDecoding

/-! A PHY accepts whole frames and nothing else. Whatever it has heard, its decoder stands for the latest edges
alone, so an event that it logs can be read off them. -/

namespace Clause22

def Frame.writeOpening (phy reg : Nat) : List Bool :=
  List.replicate 32 true ++ [false, true] ++ [false, true] ++ Bits.spell 5 phy ++ Bits.spell 5 reg

namespace Header

def spelled (header : Header) : List Bool :=
  Bits.spell 2 header.start ++ Bits.spell 2 header.opcode ++ Bits.spell 5 header.phy ++ Bits.spell 5 header.reg

theorem ofBits_whole {bits : List Bool} (whole : bits.length = Decoder.headerBits) :
    (ofBits bits).spelled = bits ∧ Addressable (ofBits bits).phy (ofBits bits).reg := by
  obtain ⟨start, rest, rfl, startBits, whole⟩ := Bits.exists_parts 2 12 whole
  obtain ⟨opcode, rest, rfl, opcodeBits, whole⟩ := Bits.exists_parts 2 10 whole
  obtain ⟨phy, reg, rfl, phyBits, regBits⟩ := Bits.exists_parts 5 5 whole
  have parts : ofBits (start ++ (opcode ++ (phy ++ reg))) =
      ⟨Bits.toNat start, Bits.toNat opcode, Bits.toNat phy, Bits.toNat reg⟩ := by
    simp only [ofBits, List.splitAt_eq, List.take_left' startBits, List.drop_left' startBits,
      List.take_left' opcodeBits, List.drop_left' opcodeBits, List.take_left' phyBits, List.drop_left' phyBits,
      Wire.shortBits, Wire.addressBits]
  have fits {bits : List Bool} (five : bits.length = 5) : Bits.toNat bits ≤ 31 := by
    have bound := Bits.toNat_lt bits
    rw [five] at bound
    exact Nat.le_of_lt_succ bound
  rw [parts]
  refine ⟨?_, fits phyBits, fits regBits⟩
  simp only [spelled, Bits.spell_known startBits, Bits.spell_known opcodeBits, Bits.spell_known phyBits,
    Bits.spell_known regBits, List.append_assoc]

end Header

namespace Phy

theorem decodeHeader_whole (phy : Phy) {bits : List Bool} (whole : bits.length = Decoder.headerBits) :
    phy.decodeHeader bits = .hunt 0 ∨
    (∃ target reg, Addressable target reg ∧ Frame.ones ++ bits = Frame.readStream target reg ∧
      phy.decodeHeader bits = .reading target reg (phy.reply target reg) 0) ∨
    ∃ target reg, Addressable target reg ∧ Frame.ones ++ bits = Frame.writeOpening target reg ∧
      phy.decodeHeader bits = .writing target reg [] := by
  obtain ⟨spelled, fits⟩ := Header.ofBits_whole whole
  simp only [decodeHeader]
  generalize Header.ofBits bits = header at spelled fits
  split
  next => exact .inl rfl
  next started =>
    have start : header.start = 1 := Decidable.not_not.mp started
    split
    next read =>
      have opcode : header.opcode = 2 := read
      refine .inr (.inl ⟨header.phy, header.reg, fits, ?_, rfl⟩)
      rw [← spelled, Header.spelled, start, opcode]
      simp only [Frame.readStream, List.append_assoc]
      rfl
    next =>
      split
      next write =>
        have opcode : header.opcode = 1 := write
        refine .inr (.inr ⟨header.phy, header.reg, fits, ?_, rfl⟩)
        rw [← spelled, Header.spelled, start, opcode]
        simp only [Frame.writeOpening, List.append_assoc]
        rfl
      next => exact .inl rfl

theorem finishWrite_whole (phy : Phy) (target reg : Nat) {bits : List Bool} (whole : bits.length = Decoder.tailBits) :
    phy.finishWrite target reg bits = { phy with decoder := .hunt 0 } ∨
    ∃ value, phy.address = some target ∧ Frame.writeOpening target reg ++ bits = Frame.writeStream target reg value ∧
      phy.finishWrite target reg bits =
        { phy with
          registers := phy.registers.store reg value
          decoder := .hunt 0
          events := phy.events.push (.write target reg value) } := by
  obtain ⟨turnaround, data, rfl, two, sixteen⟩ := Bits.exists_parts 2 16 whole
  have cut : (turnaround ++ data).take Wire.shortBits = turnaround ∧ (turnaround ++ data).drop Wire.shortBits = data :=
    ⟨List.take_left' two, List.drop_left' two⟩
  simp only [finishWrite, cut]
  split
  next accepted =>
    obtain ⟨driven, answers⟩ := accepted
    have known : turnaround = [true, false] := by
      rw [← Bits.spell_known two, driven]
      rfl
    have bound := Bits.toNat_lt data
    rw [sixteen] at bound
    have value : (BitVec.ofNat 16 (Bits.toNat data)).toNat = Bits.toNat data := Nat.mod_eq_of_lt bound
    refine .inr ⟨.ofNat 16 (Bits.toNat data), of_decide_eq_true answers, ?_, rfl⟩
    rw [known, Frame.writeStream, value, Bits.spell_known sixteen]
    simp only [Frame.writeOpening, List.append_assoc]
  next => exact .inl rfl

theorem onEdge_address (phy : Phy) (edge : Edge) : (phy.onEdge edge).address = phy.address := by
  rcases phy with ⟨address, registers, decoder, events⟩
  cases edge with
  | driven bit =>
    cases decoder with
    | hunt _ | reading _ _ _ _ => rfl
    | header bits =>
      simp only [onEdge, onDriven]
      split <;> rfl
    | writing target reg bits =>
      simp only [onEdge, onDriven, finishWrite]
      split
      next => split <;> rfl
      next => rfl
  | released => cases decoder <;> rfl

end Phy

/-- What the frame of an event does to the registers. -/
def PhyEvent.effect (registers : PagedRegisters) : PhyEvent → PagedRegisters
  | .read .. => registers
  | .write _ reg value => registers.store reg value

namespace Bench

/-- The latest edges are driven, with these bits. -/
def Ends (history : List Moment) (bits : List Bool) : Prop :=
  bits.map .driven <:+ history.map Moment.edge

/-- The latest edges are the header of a read and after it some released ones, and the word is that of the register
which was selected when the header ended. -/
def Answering (history : List Moment) (phy reg : Nat) (word : Word) (released : Nat) : Prop :=
  ∃ past last answered, history = past ++ last :: answered ∧ Ends (past ++ [last]) (Frame.readStream phy reg) ∧
    answered.map Moment.edge = List.replicate released .released ∧ word = last.registers.load reg

/-- What has been heard when an event is logged. -/
def Justified (address : Option Nat) (history : List Moment) : PhyEvent → Prop
  | .read phy reg value => address = some phy ∧ Addressable phy reg ∧ Answering history phy reg value 18
  | .write phy reg value => address = some phy ∧ Addressable phy reg ∧ Ends history (Frame.writeStream phy reg value)

/-- What an edge may change besides the decoder: nothing, or it completes a frame whose event is logged. -/
def Accepts (history : List Moment) (before after : Phy) : Prop :=
  (after.events = before.events ∧ after.registers = before.registers) ∨
  ∃ event, Justified before.address history event ∧ after.events = before.events.push event ∧
    after.registers = event.effect before.registers

/-- What has been heard when a decoder is in a state. -/
inductive Explained (address : Option Nat) (history : List Moment) : Decoder → Prop
  | hunt {ones : Nat} (heard : Ends history (List.replicate ones true)) : Explained address history (.hunt ones)
  | header {bits : List Bool} (short : bits.length < Decoder.headerBits) (heard : Ends history (Frame.ones ++ bits)) :
      Explained address history (.header bits)
  | silent {target reg edges : Nat} : Explained address history (.reading target reg none edges)
  | reading {target reg edges : Nat} {word : Word} (here : address = some target) (fits : Addressable target reg)
      (answering : Answering history target reg word edges) :
      Explained address history (.reading target reg (some word) edges)
  | writing {target reg : Nat} {bits : List Bool} (fits : Addressable target reg)
      (short : bits.length < Decoder.tailBits) (heard : Ends history (Frame.writeOpening target reg ++ bits)) :
      Explained address history (.writing target reg bits)

theorem ends_nil (history : List Moment) : Ends history [] := List.nil_suffix

variable {address : Option Nat} {history : List Moment}

theorem Ends.concat {bits : List Bool} (ends : Ends history bits) (bit : Bool) (registers : PagedRegisters) :
    Ends (history ++ [⟨.driven bit, registers⟩]) (bits ++ [bit]) := by
  obtain ⟨before, whole⟩ := ends
  refine ⟨before, ?_⟩
  rw [List.map_append, List.map_append, ← whole, List.append_assoc]
  rfl

theorem Ends.suffix {bits rest : List Bool} (ends : Ends history (rest ++ bits)) : Ends history bits :=
  .trans ⟨rest.map .driven, (List.map_append ..).symm⟩ ends

theorem Answering.concat {phy reg released : Nat} {word : Word} (answering : Answering history phy reg word released)
    (registers : PagedRegisters) : Answering (history ++ [⟨.released, registers⟩]) phy reg word (released + 1) := by
  obtain ⟨past, last, answered, rfl, header, edges, known⟩ := answering
  refine ⟨past, last, answered ++ [⟨.released, registers⟩], ?_, header, ?_, known⟩
  · rw [List.append_assoc, List.cons_append]
  · rw [List.map_append, edges, List.replicate_succ']
    rfl

theorem explained_hunting {ones : Nat} (heard : Ends history (List.replicate ones true)) (bit : Bool)
    (registers : PagedRegisters) :
    Explained address (history ++ [⟨.driven bit, registers⟩]) (Decoder.hunting ones bit) := by
  cases bit with
  | true =>
    refine .hunt ?_
    rw [List.replicate_succ']
    exact heard.concat true registers
  | false =>
    simp only [Decoder.hunting, Bool.false_eq_true, if_false]
    split
    next preamble =>
      obtain ⟨more, rfl⟩ := Nat.exists_eq_add_of_le' preamble
      rw [← List.replicate_append_replicate] at heard
      exact .header (by decide) (heard.suffix.concat false registers)
    next => exact .hunt (ends_nil _)

theorem explained_header {phy : Phy} {bits : List Bool} {last : Moment} (whole : bits.length = Decoder.headerBits)
    (heard : Ends (history ++ [last]) (Frame.ones ++ bits)) (now : last.registers = phy.registers) :
    Explained phy.address (history ++ [last]) (phy.decodeHeader bits) := by
  obtain nowhere | ⟨target, reg, fits, known, reading⟩ | ⟨target, reg, fits, known, writing⟩ :=
    phy.decodeHeader_whole whole
  · rw [nowhere]
    exact .hunt (ends_nil _)
  · rw [known] at heard
    rw [reading, Phy.reply]
    split
    next answers =>
      have fetched : phy.registers.load reg = last.registers.load reg := by rw [now]
      exact .reading (of_decide_eq_true answers) fits ⟨history, last, [], rfl, heard, rfl, fetched⟩
    next => exact .silent
  · rw [writing]
    refine .writing fits (Nat.zero_lt_succ _) ?_
    rw [List.append_nil, ← known]
    exact heard

section Edge

variable {phy : Phy} (explained : Explained phy.address history phy.decoder)

include explained

theorem explained_driven (bit : Bool) :
    let heard := history ++ [⟨.driven bit, phy.registers⟩]
    Explained phy.address heard (phy.onDriven bit).decoder ∧ Accepts heard phy (phy.onDriven bit) := by
  intro heard
  cases state : phy.decoder with
  | hunt ones =>
    rw [state] at explained
    cases explained with
    | hunt ended =>
      simp only [Phy.onDriven, state]
      exact ⟨explained_hunting ended bit phy.registers, .inl ⟨rfl, rfl⟩⟩
  | reading target reg answer edges =>
    simp only [Phy.onDriven, state]
    exact ⟨explained_hunting (ends_nil history) bit phy.registers, .inl ⟨rfl, rfl⟩⟩
  | header bits =>
    rw [state] at explained
    cases explained with
    | header short ended =>
      have ended := ended.concat bit phy.registers
      rw [List.append_assoc] at ended
      simp only [Phy.onDriven, state]
      split
      next whole => exact ⟨explained_header whole ended rfl, .inl ⟨rfl, rfl⟩⟩
      next part =>
        refine ⟨.header ?_ ended, .inl ⟨rfl, rfl⟩⟩
        simp only [List.length_append, List.length_singleton] at part ⊢
        omega
  | writing target reg bits =>
    rw [state] at explained
    cases explained with
    | writing fits short ended =>
      have ended := ended.concat bit phy.registers
      rw [List.append_assoc] at ended
      simp only [Phy.onDriven, state]
      split
      next whole =>
        obtain dropped | ⟨value, here, known, stored⟩ := phy.finishWrite_whole target reg whole
        · rw [dropped]
          exact ⟨.hunt (ends_nil _), .inl ⟨rfl, rfl⟩⟩
        · rw [known] at ended
          rw [stored]
          exact ⟨.hunt (ends_nil _), .inr ⟨.write target reg value, ⟨here, fits, ended⟩, rfl, rfl⟩⟩
      next part =>
        refine ⟨.writing fits ?_ ended, .inl ⟨rfl, rfl⟩⟩
        simp only [List.length_append, List.length_singleton] at part ⊢
        omega

theorem explained_released :
    let heard := history ++ [⟨.released, phy.registers⟩]
    Explained phy.address heard phy.onReleased.decoder ∧ Accepts heard phy phy.onReleased := by
  intro heard
  cases state : phy.decoder with
  | hunt _ | header _ | writing _ _ _ =>
    simp only [Phy.onReleased, state]
    exact ⟨.hunt (ends_nil _), .inl ⟨rfl, rfl⟩⟩
  | reading target reg answer edges =>
    rw [state] at explained
    cases explained with
    | silent =>
      simp only [Phy.onReleased, state]
      split
      next => exact ⟨.hunt (ends_nil _), .inl ⟨rfl, rfl⟩⟩
      next => exact ⟨.silent, .inl ⟨rfl, rfl⟩⟩
    | @reading _ _ _ word here fits answering =>
      have answering := answering.concat phy.registers
      simp only [Phy.onReleased, state]
      refine ⟨?_, ?_⟩
      · split
        next => exact .hunt (ends_nil _)
        next => exact .reading here fits answering
      · by_cases whole : edges + 1 = Decoder.dataEdges
        · rw [whole] at answering
          exact .inr ⟨.read target reg word, ⟨here, fits, answering⟩, if_pos whole, rfl⟩
        · exact .inl ⟨if_neg whole, rfl⟩

/-- One edge: the decoder goes on to stand for what has been heard, and an event is logged only for a frame. -/
theorem explained_edge (edge : Edge) :
    let heard := history ++ [⟨edge, phy.registers⟩]
    Explained phy.address heard (phy.onEdge edge).decoder ∧ Accepts heard phy (phy.onEdge edge) := by
  cases edge with
  | driven bit => exact explained_driven explained bit
  | released => exact explained_released explained

end Edge

/-- One step: what the decoder stands for grows with the edge that the step makes, if any. -/
theorem explained_step {bench : Bench} (explained : Explained bench.phy.address history bench.phy.decoder)
    (step : Step) :
    let heard := history ++ moments [step] bench
    (step.perform bench).phy.address = bench.phy.address ∧
    Explained bench.phy.address heard (step.perform bench).phy.decoder ∧
    (step.bus = true → (bench.edge? step = none → (step.perform bench).phy = bench.phy) ∧
      Accepts heard bench.phy (step.perform bench).phy) := by
  simp only [moments, List.append_nil]
  obtain ⟨-, performed⟩ | ⟨other, silent, address, decoder⟩ := perform_cases bench step
  · rw [performed]
    cases bench.edge? step with
    | none =>
      rw [Option.toList_none, List.map_nil, List.append_nil]
      exact ⟨rfl, explained, fun _ => ⟨fun _ => rfl, .inl ⟨rfl, rfl⟩⟩⟩
    | some edge =>
      obtain ⟨next, accepts⟩ := explained_edge explained edge
      refine ⟨bench.phy.onEdge_address edge, next, fun _ => ⟨fun silent => ?_, accepts⟩⟩
      cases silent
  · rw [silent, other, decoder, Option.toList_none, List.map_nil, List.append_nil]
    refine ⟨address, explained, fun bus => ?_⟩
    cases bus

theorem explained_run {start : Bench} (explained : Explained start.phy.address history start.phy.decoder)
    (steps : List Step) :
    (start.run steps).phy.address = start.phy.address ∧
    Explained start.phy.address (history ++ moments steps start) (start.run steps).phy.decoder := by
  induction steps generalizing start history with
  | nil => exact ⟨rfl, (List.append_nil history).symm ▸ explained⟩
  | cons step rest ih =>
    obtain ⟨address, next, -⟩ := explained_step explained step
    rw [← address] at next
    obtain ⟨kept, last⟩ := ih next
    have parts : moments (step :: rest) start = moments [step] start ++ moments rest (step.perform start) :=
      moments_append [step] rest start
    rw [parts, ← List.append_assoc]
    exact ⟨kept.trans address, address ▸ last⟩

theorem hear_readStream {phy : Phy} {target reg ones : Nat} (hunting : phy.decoder = .hunt ones)
    (here : phy.address = some target) (fits : Addressable target reg) :
    let heard := phy.hear ((Frame.readStream target reg).map .driven ++ List.replicate 18 .released)
    heard.events = phy.events.push (.read target reg (phy.registers.load reg)) ∧
      heard.registers = phy.registers := by
  have answers : phy.reply target reg = some (phy.registers.load reg) := if_pos (decide_eq_true here)
  have edges : List.replicate 18 Edge.released = List.replicate 17 .released ++ [.released] := rfl
  rw [← Frame.readStream_eq, Phy.hear_append, Phy.hear_driven, Phy.shift_opening hunting,
    Phy.decodeHeader_read fits.phy fits.reg, answers, edges, Phy.hear_append, Phy.hear_released rfl (by decide)]
  exact ⟨rfl, rfl⟩

theorem hear_writeStream {phy : Phy} {target reg ones : Nat} (hunting : phy.decoder = .hunt ones)
    (here : phy.address = some target) (fits : Addressable target reg) (value : Word) :
    let heard := phy.hear ((Frame.writeStream target reg value).map .driven)
    heard.events = phy.events.push (.write target reg value) ∧
      heard.registers = phy.registers.store reg value := by
  have answers : phy.answersTo target = true := decide_eq_true here
  rw [Phy.hear_driven, ← Frame.writeStream_eq, Phy.shift_burst fits.phy fits.reg hunting, Phy.written, if_pos answers]
  exact ⟨rfl, rfl⟩

/-- A new PHY logs an event, and changes its registers, only at the last edge of a frame to its own address that is
spelled out whole; and a hunting PHY logs every such frame, once. -/
theorem frames_accepted (start : Bench) :
    (start.phy.decoder = .hunt 0 → ∀ steps step, step.bus = true →
      let before := (start.run steps).phy
      let after := (start.run (steps ++ [step])).phy
      before.address = start.phy.address ∧ ((start.run steps).edge? step = none → after = before) ∧
      Accepts (moments (steps ++ [step]) start) before after) ∧
    (∀ ones phy reg steps, start.phy.decoder = .hunt ones → start.phy.address = some phy → Addressable phy reg →
      (∀ step ∈ steps, step.bus = true) →
      let before := start.phy
      let after := (start.run steps).phy
      let edges := (moments steps start).map Moment.edge
      (edges = (Frame.readStream phy reg).map .driven ++ List.replicate 18 .released →
        after.events = before.events.push (.read phy reg (before.registers.load reg)) ∧
        after.registers = before.registers) ∧
      ∀ value, edges = (Frame.writeStream phy reg value).map .driven →
        after.events = before.events.push (.write phy reg value) ∧
        after.registers = before.registers.store reg value) := by
  refine ⟨fun hunting steps step bus => ?_, fun ones phy reg steps hunting here fits bus => ?_⟩
  · have fresh : Explained start.phy.address [] start.phy.decoder := hunting ▸ .hunt (ends_nil [])
    obtain ⟨address, explained⟩ := explained_run fresh steps
    rw [← address, List.nil_append] at explained
    obtain ⟨-, -, accepted⟩ := explained_step explained step
    have last : start.run (steps ++ [step]) = step.perform (start.run steps) := List.foldl_append ..
    rw [last, moments_append]
    exact ⟨address, accepted bus⟩
  · intro before after edges
    have heard : after = before.hear edges := run_bus bus
    rw [heard]
    refine ⟨fun read => ?_, fun value write => ?_⟩
    · rw [read]
      exact hear_readStream hunting here fits
    · rw [write]
      exact hear_writeStream hunting here fits value

/-- A station of another make: all of its unused signals are high, it samples before every edge, and it does not
settle. -/
theorem frames_accepted_write :
    let start : Bench := { phy := { address := some 3 } }
    let steps := (Frame.writeStream 3 4 0x8001).flatMap fun bit =>
      [Step.attempt (.drive 0xFA), .attempt .sample, .attempt (.drive (if bit then 0xFF else 0xFB))]
    start.phy.decoder = .hunt 0 ∧ (start.run steps).phy.events = #[.write 3 4 0x8001] ∧
    Accepts (moments (steps ++ [.failAfter 0]) start) (start.run steps).phy
      (start.run (steps ++ [.failAfter 0])).phy := by
  intro start steps
  have bus : ∀ step ∈ steps, step.bus = true := by decide +kernel
  have edges : (moments steps start).map Moment.edge = (Frame.writeStream 3 4 0x8001).map .driven := by
    decide +kernel
  obtain ⟨sound, complete⟩ := frames_accepted start
  obtain ⟨-, -, accepts⟩ := sound rfl steps (.failAfter 0) rfl
  obtain ⟨-, writes⟩ := complete 0 3 4 steps rfl rfl (by decide) bus
  exact ⟨rfl, (writes 0x8001 edges).1, accepts⟩

end Bench
end Clause22
