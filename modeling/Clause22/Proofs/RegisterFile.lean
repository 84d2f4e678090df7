import Clause22.Bus.Request
import Clause22.Proofs.EngineFrames
import Clause22.Proofs.FrameSamples

/-! Frames are invisible to the users of a bus: an engine with a PHY on a bench is a set of registers
in pages, whatever requests are made of it and in whatever order. -/

namespace Clause22

def Request.serveAll {β : Type} [Bus β] : List Request → β → List Reply × β
  | [], bus => ([], bus)
  | request :: rest, bus =>
    let (reply, bus) := request.serve bus
    let (replies, bus) := serveAll rest bus
    (reply :: replies, bus)

/-- A bus that holds the registers of at most one PHY and moves no bits. -/
structure RegisterFile where
  /-- Whether a read notices that nothing answers. -/
  check : TurnaroundCheck
  address : Option Nat
  pageSelect : Option Nat
  page : Nat
  word : (page index : Nat) → Word
  events : Array PhyEvent

namespace RegisterFile

def pageOf (file : RegisterFile) (index : Nat) : Nat :=
  if file.pageSelect = some index then 0 else file.page

/-- Reads the word last stored. Nothing pulls a line of ones down at any other address. -/
def read (phy index : Nat) (file : RegisterFile) : Except Error Word × RegisterFile :=
  if 31 < phy then (.error (.config .invalidPhyAddress), file)
  else if 31 < index then (.error (.config .invalidRegisterAddress), file)
  else if file.address = some phy then
    let value := file.word (file.pageOf index) index
    (.ok value, { file with events := file.events.push (.read phy index value) })
  else
    match file.check with
    | .ignore => (.ok 0xFFFF, file)
    | .verify => (.error (.io .noResponse), file)

/-- Stores a word, and turns to the page in its low byte if it went to the page select register. -/
def write (phy index : Nat) (value : Word) (file : RegisterFile) : Except Error Unit × RegisterFile :=
  if 31 < phy then (.error (.config .invalidPhyAddress), file)
  else if 31 < index then (.error (.config .invalidRegisterAddress), file)
  else if file.address = some phy then
    (.ok (), { file with
      word := fun page other =>
        if page = file.pageOf index ∧ other = index then value else file.word page other
      page := if file.pageSelect = some index then (value.setWidth 8).toNat else file.page
      events := file.events.push (.write phy index value) })
  else (.ok (), file)

instance : Bus RegisterFile where
  read phy index := fun file => file.read phy index
  write phy index value := fun file => file.write phy index value
  isBusy _ := false

end RegisterFile

def Phy.file (phy : Phy) (check : TurnaroundCheck) : RegisterFile where
  check := check
  address := phy.address
  pageSelect := phy.registers.pageSelect
  page := phy.registers.page
  word := phy.registers.word
  events := phy.events

namespace Engine

def file (engine : Engine Bench) : RegisterFile :=
  engine.bench.phy.file engine.turnaround

/-- The engine is between frames, and so is the PHY; nothing is made to fail. -/
structure Listening (engine : Engine Bench) : Prop where
  idle : engine.phase = .idle
  hunting : ∃ ones, engine.bench.phy.decoder = .hunt ones
  healthy : engine.bench.failAt = none

end Engine

section Phy

variable (phy : Phy) (check : TurnaroundCheck) (target reg : Nat)

private theorem load_eq (registers : PagedRegisters) (index : Nat) :
    registers.load index =
      registers.word (if registers.pageSelect = some index then 0 else registers.page) index := by
  simp only [PagedRegisters.load]
  split <;> rfl

private theorem answersTo_iff : phy.answersTo target = true ↔ phy.address = some target := by
  simp [Phy.answersTo]

@[simp] theorem Phy.address_file : (phy.file check).address = phy.address := rfl

private theorem file_answered (fits : Addressable target reg) :
    (phy.file check).read target reg =
      ((Frame.report check (phy.reply target reg)).mapError .io, (phy.answered target reg).file check) := by
  have phyFits : ¬ 31 < target := Nat.not_lt.mpr fits.phy
  have regFits : ¬ 31 < reg := Nat.not_lt.mpr fits.reg
  rw [RegisterFile.read, if_neg phyFits, if_neg regFits, Phy.address_file]
  by_cases here : phy.address = some target
  · have reply : phy.reply target reg = some (phy.registers.load reg) :=
      if_pos ((answersTo_iff phy target).mpr here)
    simp only [if_pos here, reply, Phy.answered, load_eq]
    cases check <;> rfl
  · have reply : phy.reply target reg = none := if_neg (mt (answersTo_iff phy target).mp here)
    simp only [if_neg here, reply, Phy.answered]
    cases check <;> rfl

private theorem file_written (fits : Addressable target reg) (value : Word) :
    (phy.file check).write target reg value = (.ok (), (phy.written target reg value).file check) := by
  have phyFits : ¬ 31 < target := Nat.not_lt.mpr fits.phy
  have regFits : ¬ 31 < reg := Nat.not_lt.mpr fits.reg
  rw [RegisterFile.write, if_neg phyFits, if_neg regFits, Phy.address_file]
  by_cases here : phy.address = some target
  · simp only [if_pos here, Phy.written, if_pos ((answersTo_iff phy target).mpr here)]
    simp only [Phy.file, RegisterFile.pageOf, PagedRegisters.store, PagedRegisters.set]
    split
    next selected => simp [selected]
    next other => simp [other]
  · simp only [if_neg here, Phy.written, if_neg (mt (answersTo_iff phy target).mp here)]
    rfl

end Phy

private theorem addressable_or_refused (engine : Engine Bench) (target reg : Nat) :
    Addressable target reg ∨ ∃ cause, engine.ready target reg = .error cause ∧
      ∀ file : RegisterFile, file.read target reg = (.error cause, file) ∧
        ∀ value, file.write target reg value = (.error cause, file) := by
  by_cases phyFits : target ≤ 31
  · by_cases regFits : reg ≤ 31
    · exact .inl ⟨phyFits, regFits⟩
    · have beyond : 31 < reg := Nat.not_le.mp regFits
      have within : ¬ 31 < target := Nat.not_lt.mpr phyFits
      refine .inr ⟨_, Engine.ready_reg phyFits beyond, ?_⟩
      intro file
      simp only [RegisterFile.read, RegisterFile.write, if_neg within, if_pos beyond, implies_true, and_self]
  · have beyond : 31 < target := Nat.not_le.mp phyFits
    refine .inr ⟨_, Engine.ready_phy beyond, ?_⟩
    intro file
    simp only [RegisterFile.read, RegisterFile.write, if_pos beyond, implies_true, and_self]

namespace Engine

variable {engine : Engine Bench} (listening : engine.Listening)

include listening

theorem read_file (target reg : Nat) :
    (engine.read target reg).1 = (engine.file.read target reg).1 ∧
    (engine.read target reg).2.file = (engine.file.read target reg).2 ∧
    (engine.read target reg).2.Listening := by
  rcases addressable_or_refused engine target reg with fits | ⟨cause, refused, same⟩
  · obtain ⟨ones, hunting⟩ := listening.hunting
    have answered : engine.file.read target reg = _ := file_answered _ _ _ _ fits
    have reading := read_lasting (ready_ok listening.idle fits) (Bench.lasts_of_healthy listening.healthy _)
    have heard := Bench.answer_read hunting fits.phy fits.reg engine.turnaround
    have phy := Bench.after_read hunting fits.phy fits.reg engine.turnaround
    rw [answered, reading, heard]
    refine ⟨rfl, congrArg (Phy.file · engine.turnaround) phy, rfl, ⟨0, ?_⟩, ?_⟩
    · exact congrArg Phy.decoder phy
    · exact (Bench.after_failAt ..).trans listening.healthy
  · rw [read_refused refused, (same engine.file).1]
    exact ⟨rfl, rfl, listening⟩

theorem write_file (target reg : Nat) (value : Word) :
    (engine.write target reg value).1 = (engine.file.write target reg value).1 ∧
    (engine.write target reg value).2.file = (engine.file.write target reg value).2 ∧
    (engine.write target reg value).2.Listening := by
  rcases addressable_or_refused engine target reg with fits | ⟨cause, refused, same⟩
  · obtain ⟨ones, hunting⟩ := listening.hunting
    have written : engine.file.write target reg value = _ := file_written _ _ _ _ fits value
    have writing := write_lasting (ready_ok listening.idle fits) value (Bench.lasts_of_healthy listening.healthy _)
    have phy := Bench.after_write hunting fits.phy fits.reg value
    rw [written, writing]
    refine ⟨rfl, congrArg (Phy.file · engine.turnaround) phy, rfl, ⟨0, ?_⟩, ?_⟩
    · exact (congrArg Phy.decoder phy).trans (Phy.written_decoder ..)
    · exact (Bench.after_failAt ..).trans listening.healthy
  · rw [write_refused refused, (same engine.file).2]
    exact ⟨rfl, rfl, listening⟩

/-- One request: the same reply, the same registers after it, and both sides ready for the next. -/
theorem serve_file (request : Request) :
    (request.serve engine).1 = (request.serve engine.file).1 ∧
    (request.serve engine).2.file = (request.serve engine.file).2 ∧
    (request.serve engine).2.Listening := by
  cases request with
  | read target reg =>
    obtain ⟨reply, registers, listens⟩ := read_file listening target reg
    exact ⟨congrArg Reply.word reply, registers, listens⟩
  | write target reg value =>
    obtain ⟨reply, registers, listens⟩ := write_file listening target reg value
    exact ⟨congrArg Reply.done reply, registers, listens⟩
  | isBusy =>
    have idle : engine.isBusy = false := by simp [isBusy, listening.idle]
    exact ⟨congrArg Reply.busy idle, rfl, listening⟩

/-- The replies to any requests, and the registers, page and events that they leave, are those of a
register file. -/
theorem serveAll_file (requests : List Request) :
    (Request.serveAll requests engine).1 = (Request.serveAll requests engine.file).1 ∧
    (Request.serveAll requests engine).2.file = (Request.serveAll requests engine.file).2 ∧
    (Request.serveAll requests engine).2.Listening := by
  induction requests generalizing engine with
  | nil => exact ⟨rfl, rfl, listening⟩
  | cons request rest ih =>
    obtain ⟨reply, registers, listens⟩ := serve_file listening request
    obtain ⟨replies, last, after⟩ := ih listens
    simp only [Request.serveAll]
    rw [← registers, reply, replies]
    exact ⟨rfl, last, after⟩

omit listening

/-- A page turn hides a register, a missing PHY is noticed, and an address that does not fit is refused. -/
theorem serveAll_file_paged :
    let phy : Phy := { address := some 3, registers := { pageSelect := some 22 } }
    let engine := Engine.create ({ phy } : Bench) { turnaround := .verify }
    engine.Listening ∧
    (Request.serveAll [.write 3 4 0xBEEF, .write 3 22 2, .read 3 4, .read 3 22, .read 5 4, .read 3 32] engine).1 =
      [.done (.ok ()), .done (.ok ()), .word (.ok 0), .word (.ok 2), .word (.error (.io .noResponse)),
        .word (.error (.config .invalidRegisterAddress))] := by
  intro phy engine
  have listening : engine.Listening := ⟨rfl, ⟨0, rfl⟩, rfl⟩
  exact ⟨listening, (serveAll_file listening _).1.trans rfl⟩

end Engine
end Clause22
