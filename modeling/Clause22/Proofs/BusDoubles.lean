import Clause22.Bus.Memory
import Clause22.Proofs.FlatAddressSpace
import Clause22.Proofs.MatchedBuses
import Clause22.RegisterMap

/-! A memory bus in place of an engine with a PHY. Whatever a client does at the address of the PHY, it cannot tell
them apart, so what was tried out on one holds of the other. -/

namespace Clause22

/-- A transaction as a memory bus logs it, without the word that a read answered. -/
def PhyEvent.asked : PhyEvent → BusEvent
  | .read phy reg _ => .read phy reg
  | .write phy reg value => .write phy reg value

/-- A register file without pages and a memory bus hold the same words at an address, and have been asked the same
since the memory bus had logged its past. -/
structure RegisterFile.Mirrors (address : Nat) (past : Array BusEvent) (file : RegisterFile) (memory : MemoryBus) :
    Prop where
  here : file.address = some address
  unpaged : file.pageSelect = none
  base : file.page = 0
  free : memory.busy = false
  words : ∀ index, (memory.word address index).getD 0 = file.word 0 index
  events : memory.events = past ++ file.events.map PhyEvent.asked

namespace RegisterFile

variable {address index : Nat} {past : Array BusEvent} (fits : Addressable address index)

include fits

theorem alike_read : Alike (Mirrors address past) (Bus.read address index) (Bus.read address index) := by
  intro file memory ⟨here, unpaged, base, free, words, events⟩
  have page : file.pageOf index = 0 := by rw [pageOf, unpaged, base]; rfl
  have phyFits : ¬ 31 < address := Nat.not_lt.mpr fits.phy
  have regFits : ¬ 31 < index := Nat.not_lt.mpr fits.reg
  have reads : file.read address index = (.ok (file.word 0 index), { file with
      events := file.events.push (.read address index (file.word 0 index)) }) := by
    rw [read, if_neg phyFits, if_neg regFits, if_pos here, page]
  have alsoReads : memory.read address index = (.ok (file.word 0 index), { memory with
      events := memory.events.push (.read address index) }) := by
    rw [MemoryBus.read, free, words]
    rfl
  refine ⟨_, _, _, reads, alsoReads, here, unpaged, base, free, words, ?_⟩
  rw [Array.map_push, Array.append_push, ← events]
  rfl

theorem alike_write (value : Word) :
    Alike (Mirrors address past) (Bus.write address index value) (Bus.write address index value) := by
  intro file memory ⟨here, unpaged, base, free, words, events⟩
  have page : file.pageOf index = 0 := by rw [pageOf, unpaged, base]; rfl
  have phyFits : ¬ 31 < address := Nat.not_lt.mpr fits.phy
  have regFits : ¬ 31 < index := Nat.not_lt.mpr fits.reg
  have writes : file.write address index value = (.ok (), { file with
      word := fun page other => if page = 0 ∧ other = index then value else file.word page other
      events := file.events.push (.write address index value) }) := by
    rw [write, if_neg phyFits, if_neg regFits, if_pos here, page, unpaged]
    rfl
  have alsoWrites : memory.write address index value = (.ok (), { memory.set address index value with
      events := memory.events.push (.write address index value) }) := by
    rw [MemoryBus.write, free]
    rfl
  refine ⟨_, _, _, writes, alsoWrites, here, unpaged, base, free, fun other => ?_, ?_⟩
  · by_cases same : other = index
    · simp [MemoryBus.set, same]
    · simpa [MemoryBus.set, same] using words other
  · rw [Array.map_push, Array.append_push, ← events]
    rfl

end RegisterFile

def Engine.Mirrors (address : Nat) (past : Array BusEvent) (engine : Engine Bench) (memory : MemoryBus) : Prop :=
  engine.Listening ∧ engine.file.Mirrors address past memory

section Mirrors

variable {address : Nat} {past : Array BusEvent}

theorem Tracks.alike {onBench : Access (Engine Bench) α} {onFile : Access RegisterFile α}
    {onMemory : Access MemoryBus α} (tracks : Tracks onBench onFile)
    (alike : Alike (RegisterFile.Mirrors address past) onFile onMemory) :
    Alike (Engine.Mirrors address past) onBench onMemory := by
  intro engine memory ⟨listening, mirrors⟩
  obtain ⟨outcome, after, performed, filed, listens⟩ := tracks engine listening
  obtain ⟨answer, file, beyond, answered, replied, still⟩ := alike engine.file memory mirrors
  obtain ⟨rfl, rfl⟩ := Prod.ext_iff.mp (filed.symm.trans answered)
  exact ⟨_, after, beyond, performed, replied, listens, still⟩

theorem matched_doubles {phy : Nat} (target : phy = address ∨ 31 < phy) :
    Matched (Engine.Mirrors address past) phy := by
  constructor
  · intro index fits
    obtain rfl | beyond := target
    · exact (Tracks.read phy index).alike (RegisterFile.alike_read fits)
    · exact absurd fits.phy (Nat.not_le.mpr beyond)
  · intro index value fits
    obtain rfl | beyond := target
    · exact (Tracks.write phy index value).alike (RegisterFile.alike_write fits value)
    · exact absurd fits.phy (Nat.not_le.mpr beyond)

end Mirrors

namespace Client

/-- A client answers the same over an engine with a PHY and over a memory bus with the same words, asks both for the
same transactions, and leaves the same words in them. -/
theorem doubles_interchangeable {map : RegisterMap} {config : Config} {client : Client}
    (valid : create map config = .ok client) (settings : Config) (address : Nat) (word : (page index : Nat) → Word)
    {memory : MemoryBus} (free : memory.busy = false)
    (agree : ∀ index, (memory.word address index).getD 0 = word 0 index) {operations : List Operation}
    (targets : ∀ operation ∈ operations, operation.phy = address ∨ 31 < operation.phy) :
    let phy : Phy := { address := some address, registers := { word } }
    let engine := Engine.create ({ phy } : Bench) settings
    ∃ results after beyond,
      Operation.performAll client operations engine = (results, after) ∧
      Operation.performAll client operations memory = (results, beyond) ∧
      beyond.events = memory.events ++ after.bench.phy.events.map PhyEvent.asked ∧
      ∀ index, (beyond.word address index).getD 0 = after.bench.phy.registers.word 0 index := by
  intro phy engine
  have listening : engine.Listening := ⟨rfl, ⟨0, rfl⟩, rfl⟩
  have fresh : memory.events = memory.events ++ (#[] : Array PhyEvent).map PhyEvent.asked := by
    rw [Array.map_empty, Array.append_empty]
  have mirrors : engine.file.Mirrors address memory.events memory := ⟨rfl, rfl, rfl, free, agree, fresh⟩
  have matched (operation : Operation) (member : operation ∈ operations) :
      Matched (Engine.Mirrors address memory.events) operation.phy := matched_doubles (targets operation member)
  obtain ⟨results, after, beyond, performed, alsoPerformed, -, still⟩ :=
    alike_performAll (select_le valid) matched engine memory ⟨listening, mirrors⟩
  exact ⟨results, after, beyond, performed, alsoPerformed, still.events, still.words⟩

/-- A reset, a register of the extended bank of a PHY that has no pages, and an address that no frame can carry. -/
theorem doubles_interchangeable_reset :
    let control : Register := ⟨"CONTROL", .base 0, 16, [⟨"reset", 15, 1⟩, ⟨"loopback", 14, 1⟩]⟩
    let client : Client := ⟨((RegisterMap.empty 4 8).define control).2, { pageSelect := some 22 }⟩
    let word : (page index : Nat) → Word := fun _ index => if index = 0 then 0x1140 else 0
    let engine := Engine.create ({ phy := { address := some 3, registers := { word } } } : Bench) {}
    let memory : MemoryBus := { word := fun _ index => if index = 0 then some 0x1140 else none }
    let operations : List Operation := [.reset 3, .readRaw 40 (.base 0), .writeRaw 3 (.extended 5) 7, .dump 3]
    create client.map client.config = .ok client ∧
    (∀ operation ∈ operations, operation.phy = 3 ∨ 31 < operation.phy) ∧
    ∃ results after beyond,
      Operation.performAll client operations engine = (results, after) ∧
      Operation.performAll client operations memory = (results, beyond) ∧
      after.bench.phy.events.map PhyEvent.asked =
        #[.read 3 0, .write 3 0 0x9140, .write 3 22 1, .write 3 5 7, .write 3 22 0, .read 3 0] := by
  intro control client word engine memory operations
  have valid : create client.map client.config = .ok client := rfl
  have targets : ∀ operation ∈ operations, operation.phy = 3 ∨ 31 < operation.phy := by decide
  have agree (index : Nat) : (memory.word 3 index).getD 0 = word 0 index := by
    simp only [memory, word]
    split <;> rfl
  have logged : (Operation.performAll client operations memory).2.events =
      #[.read 3 0, .write 3 0 0x9140, .write 3 22 1, .write 3 5 7, .write 3 22 0, .read 3 0] := by
    decide +kernel
  obtain ⟨results, after, beyond, performed, alsoPerformed, events, -⟩ :=
    doubles_interchangeable valid {} 3 word rfl agree targets
  rw [alsoPerformed, events] at logged
  exact ⟨valid, targets, results, after, beyond, performed, alsoPerformed, Array.empty_append.symm.trans logged⟩

end Client
end Clause22
