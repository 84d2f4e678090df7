import Clause22.Proofs.MatchedBuses
import Clause22.Proofs.RegisterFile

/-! The two banks of a paged PHY are one flat space of words. A call to the extended bank leaves the page as
it found it, so no other call ever meets a turned page. -/

namespace Clause22

/-- A register file of a paged PHY, turned to a page. -/
structure RegisterFile.Shows (file : RegisterFile) (phy pageSelect page : Nat) : Prop where
  address : file.address = some phy
  pageSelect : file.pageSelect = some pageSelect
  page : file.page = page

namespace RegisterFile

variable {file : RegisterFile} {phy pageSelect page index : Nat} (shows : file.Shows phy pageSelect page)
  (phyFits : phy ≤ 31)

include shows phyFits

theorem read_shown (indexFits : index ≤ 31) (apart : index ≠ pageSelect) :
    ∃ after, file.read phy index = (.ok (file.word page index), after) ∧ after.Shows phy pageSelect page ∧
      after.word = file.word := by
  have other : file.pageSelect ≠ some index := fun same => apart (Option.some.inj (same.symm.trans shows.pageSelect))
  rw [read, if_neg (Nat.not_lt.mpr phyFits), if_neg (Nat.not_lt.mpr indexFits), if_pos shows.address, pageOf,
    if_neg other, shows.page]
  exact ⟨_, rfl, ⟨shows.address, shows.pageSelect, rfl⟩, rfl⟩

theorem write_shown (indexFits : index ≤ 31) (apart : index ≠ pageSelect) (value : Word) :
    ∃ after, file.write phy index value = (.ok (), after) ∧ after.Shows phy pageSelect page ∧
      after.word = fun some target => if some = page ∧ target = index then value else file.word some target := by
  have other : file.pageSelect ≠ some index := fun same => apart (Option.some.inj (same.symm.trans shows.pageSelect))
  rw [write, if_neg (Nat.not_lt.mpr phyFits), if_neg (Nat.not_lt.mpr indexFits), if_pos shows.address, pageOf,
    if_neg other, if_neg other, shows.page]
  exact ⟨_, rfl, ⟨shows.address, shows.pageSelect, rfl⟩, rfl⟩

theorem turn_page (selectFits : pageSelect ≤ 31) (value : Word) :
    ∃ after, file.write phy pageSelect value = (.ok (), after) ∧
      after.Shows phy pageSelect (value.setWidth 8).toNat ∧
      ∀ some target, some ≠ 0 ∨ target ≠ pageSelect → after.word some target = file.word some target := by
  rw [write, if_neg (Nat.not_lt.mpr phyFits), if_neg (Nat.not_lt.mpr selectFits), if_pos shows.address, pageOf,
    if_pos shows.pageSelect, if_pos shows.pageSelect]
  refine ⟨_, rfl, ⟨shows.address, shows.pageSelect, rfl⟩, fun some target apart => if_neg fun same => ?_⟩
  omega

theorem onExtendedPage_shown (selectFits : pageSelect ≤ 31) (access : Access RegisterFile α) :
    ∃ selected : RegisterFile, selected.Shows phy pageSelect 1 ∧
      (∀ some target, some ≠ 0 ∨ target ≠ pageSelect → selected.word some target = file.word some target) ∧
      ∀ {value accessed}, access selected = (.ok value, accessed) → accessed.Shows phy pageSelect 1 →
        ∃ after, Client.onExtendedPage phy pageSelect access file = (.ok value, after) ∧
          after.Shows phy pageSelect 0 ∧
          ∀ some target, some ≠ 0 ∨ target ≠ pageSelect → after.word some target = accessed.word some target := by
  obtain ⟨selected, selects, extended, kept⟩ := turn_page shows phyFits selectFits Client.extendedPage
  refine ⟨selected, extended, kept, fun {value accessed} accesses still => ?_⟩
  obtain ⟨restored, restores, base, same⟩ := turn_page still phyFits selectFits Client.basePage
  have select : Bus.write phy pageSelect Client.extendedPage file = _ := selects
  have restore : Bus.write phy pageSelect Client.basePage accessed = _ := restores
  refine ⟨restored, ?_, base, same⟩
  simp only [Client.onExtendedPage, select, accesses, restore]
  rfl

end RegisterFile

/-- An access to an engine on a bench is the same access to its registers. -/
def Tracks (onBench : Access (Engine Bench) α) (onFile : Access RegisterFile α) : Prop :=
  ∀ engine : Engine Bench, engine.Listening →
    ∃ outcome after, onBench engine = (outcome, after) ∧ onFile engine.file = (outcome, after.file) ∧ after.Listening

namespace Tracks

theorem iff_alike {onBench : Access (Engine Bench) α} {onFile : Access RegisterFile α} :
    Tracks onBench onFile ↔ Alike (fun engine file => engine.Listening ∧ engine.file = file) onBench onFile := by
  constructor
  · intro tracks engine file ⟨listening, same⟩
    obtain ⟨outcome, after, performed, filed, listens⟩ := tracks engine listening
    rw [same] at filed
    exact ⟨outcome, after, after.file, performed, filed, listens, rfl⟩
  · intro alike engine listening
    obtain ⟨outcome, after, file, performed, filed, listens, same⟩ := alike engine engine.file ⟨listening, rfl⟩
    rw [← same] at filed
    exact ⟨outcome, after, performed, filed, listens⟩

theorem read (phy index : Nat) : Tracks (Bus.read phy index) (Bus.read phy index) := by
  intro engine listening
  obtain ⟨reply, registers, listens⟩ := Engine.read_file listening phy index
  exact ⟨_, _, rfl, Prod.ext reply.symm registers.symm, listens⟩

theorem write (phy index : Nat) (value : Word) : Tracks (Bus.write phy index value) (Bus.write phy index value) := by
  intro engine listening
  obtain ⟨reply, registers, listens⟩ := Engine.write_file listening phy index value
  exact ⟨_, _, rfl, Prod.ext reply.symm registers.symm, listens⟩

theorem withBank {onBench : Nat → Access (Engine Bench) α} {onFile : Nat → Access RegisterFile α}
    (access : ∀ index, Tracks (onBench index) (onFile index)) (client : Client) (phy : Nat)
    (address : RegisterAddress) :
    Tracks (client.withBank phy address onBench) (client.withBank phy address onFile) := by
  apply iff_alike.mpr
  apply Alike.withBank
  · intro index _
    exact iff_alike.mp (access index)
  · intro pageSelect _ _ page
    exact iff_alike.mp (write phy pageSelect page)

end Tracks

namespace Client.RawCall

theorem serve_tracks (client : Client) (phy : Nat) (call : RawCall) {engine : Engine Bench}
    (listening : engine.Listening) :
    ∃ reply after, call.serve client phy engine = (reply, after) ∧
      call.serve client phy engine.file = (reply, after.file) ∧ after.Listening := by
  cases call with
  | read address =>
    obtain ⟨outcome, after, onBench, onFile, listens⟩ :=
      Tracks.withBank (Tracks.read phy) client phy address engine listening
    refine ⟨.word outcome, after, ?_, ?_, listens⟩
    · simp only [serve, readRaw, onBench]
    · simp only [serve, readRaw, onFile]
  | write address value =>
    obtain ⟨outcome, after, onBench, onFile, listens⟩ :=
      Tracks.withBank (fun index => Tracks.write phy index value) client phy address engine listening
    refine ⟨.done outcome, after, ?_, ?_, listens⟩
    · simp only [serve, writeRaw, onBench]
    · simp only [serve, writeRaw, onFile]

theorem serveAll_tracks (client : Client) (phy : Nat) (calls : List RawCall) {engine : Engine Bench}
    (listening : engine.Listening) :
    ∃ replies after, serveAll client phy calls engine = (replies, after) ∧
      serveAll client phy calls engine.file = (replies, after.file) ∧ after.Listening := by
  induction calls generalizing engine with
  | nil => exact ⟨[], engine, rfl, rfl, listening⟩
  | cons call rest ih =>
    obtain ⟨reply, middle, onBench, onFile, listens⟩ := serve_tracks client phy call listening
    obtain ⟨replies, after, restOnBench, restOnFile, last⟩ := ih listens
    refine ⟨reply :: replies, after, ?_, ?_, last⟩
    · simp only [serveAll, onBench, restOnBench]
    · simp only [serveAll, onFile, restOnFile]

theorem serveAll_refused {β : Type} [Bus β] {client : Client} {phy : Nat} (beyond : Wire.maxPhyAddress < phy)
    (calls : List RawCall) (bus : β) :
    serveAll client phy calls bus = (calls.map fun call => call.failed (.config .invalidPhyAddress), bus) := by
  induction calls with
  | nil => rfl
  | cons call rest ih => simp only [serveAll, serve_refused beyond, ih, List.map_cons]

/-- What a call answers in a flat space of words. -/
def reply (word : (page index : Nat) → Word) : RawCall → Reply
  | .read address => .word (.ok (word address.page address.index.toNat))
  | .write .. => .done (.ok ())

def effect (word : (page index : Nat) → Word) : RawCall → (page index : Nat) → Word
  | .read _ => word
  | .write address value => fun page index =>
    if page = address.page ∧ index = address.index.toNat then value else word page index

section Flat

variable {client : Client} {phy pageSelect : Nat} {file : RegisterFile}
  (paged : client.config.pageSelect = some pageSelect) (phyFits : phy ≤ 31) (selectFits : pageSelect ≤ 31)
  (onBase : file.Shows phy pageSelect 0)

include paged phyFits selectFits onBase

/-- One call acts on the flat space; beside it, only the page select register may change. -/
theorem serve_flat (call : RawCall) (apart : call.address.index.toNat ≠ pageSelect) :
    ∃ after, call.serve client phy file = (call.reply file.word, after) ∧ after.Shows phy pageSelect 0 ∧
      ∀ page index, page ≠ 0 ∨ index ≠ pageSelect → after.word page index = call.effect file.word page index := by
  cases call with
  | read address =>
    have fits := address.index_le
    rw [RawCall.address] at apart
    cases bank : address.bank with
    | base =>
      have home : address.page = 0 := by rw [RegisterAddress.page, bank]
      obtain ⟨after, reads, kept, same⟩ := RegisterFile.read_shown onBase phyFits fits apart
      have access : Bus.read phy address.index.toNat file = _ := reads
      refine ⟨after, ?_, kept, fun page index _ => ?_⟩
      · simp only [serve, readRaw, withBank_base _ phyFits bank, access, reply, home]
      · rw [same, effect]
    | extended =>
      have home : address.page = 1 := by rw [RegisterAddress.page, bank]
      obtain ⟨selected, turned, before, bracket⟩ := RegisterFile.onExtendedPage_shown onBase phyFits selectFits
        (Bus.read phy address.index.toNat)
      obtain ⟨accessed, reads, still, same⟩ := RegisterFile.read_shown turned phyFits fits apart
      obtain ⟨after, access, kept, restored⟩ := bracket reads still
      refine ⟨after, ?_, kept, fun page index off => ?_⟩
      · have read := before 1 address.index.toNat (.inl Nat.one_ne_zero)
        simp only [serve, readRaw, withBank_extended _ phyFits bank paged, access, reply, home, read]
      · rw [restored page index off, same, before page index off, effect]
  | write address value =>
    have fits := address.index_le
    rw [RawCall.address] at apart
    cases bank : address.bank with
    | base =>
      have home : address.page = 0 := by rw [RegisterAddress.page, bank]
      obtain ⟨after, writes, kept, same⟩ := RegisterFile.write_shown onBase phyFits fits apart value
      have access : Bus.write phy address.index.toNat value file = _ := writes
      refine ⟨after, ?_, kept, fun page index _ => ?_⟩
      · simp only [serve, writeRaw, withBank_base _ phyFits bank, access, reply]
      · rw [same, effect, home]
    | extended =>
      have home : address.page = 1 := by rw [RegisterAddress.page, bank]
      obtain ⟨selected, turned, before, bracket⟩ := RegisterFile.onExtendedPage_shown onBase phyFits selectFits
        (Bus.write phy address.index.toNat value)
      obtain ⟨accessed, writes, still, same⟩ := RegisterFile.write_shown turned phyFits fits apart value
      obtain ⟨after, access, kept, restored⟩ := bracket writes still
      refine ⟨after, ?_, kept, fun page index off => ?_⟩
      · simp only [serve, writeRaw, withBank_extended _ phyFits bank paged, access, reply]
      · simp only [restored page index off, same, before page index off, effect, home]

end Flat

/-- The word last written to an address. -/
def lastWritten? (address : RegisterAddress) (calls : List RawCall) : Option Word :=
  calls.findSomeRev? fun
    | .write target value => if target = address then some value else none
    | .read _ => none

/-- What an address holds after some calls: the word last written there, or its first word. -/
def latest (word : (page index : Nat) → Word) (calls : List RawCall) (address : RegisterAddress) : Word :=
  (lastWritten? address calls).getD (word address.page address.index.toNat)

theorem latest_read (word : (page index : Nat) → Word) (past : List RawCall) (target address : RegisterAddress) :
    latest word (past ++ [.read target]) address = latest word past address := by
  simp [latest, lastWritten?, List.findSomeRev?_eq_findSome?_reverse]

theorem latest_write (word : (page index : Nat) → Word) (past : List RawCall) (target address : RegisterAddress)
    (value : Word) : latest word (past ++ [.write target value]) address =
      if target = address then value else latest word past address := by
  by_cases same : target = address <;>
    simp [latest, lastWritten?, List.findSomeRev?_eq_findSome?_reverse, same]

def due (word : (page index : Nat) → Word) (past : List RawCall) : RawCall → Reply
  | .read address => .word (.ok (latest word past address))
  | .write .. => .done (.ok ())

/-- A paged register file that holds what a flat space holds after some calls. -/
structure Flat (phy pageSelect : Nat) (word : (page index : Nat) → Word) (past : List RawCall) (file : RegisterFile) :
    Prop where
  shows : file.Shows phy pageSelect 0
  words : ∀ address : RegisterAddress, address.index.toNat ≠ pageSelect →
    file.word address.page address.index.toNat = latest word past address
  others : ∀ page index, 1 < page → file.word page index = word page index

theorem same_home_iff (first second : RegisterAddress) :
    first.page = second.page ∧ first.index.toNat = second.index.toNat ↔ second = first := by
  obtain ⟨bank, index⟩ := first
  obtain ⟨other, target⟩ := second
  simp only [RegisterAddress.mk.injEq, ← BitVec.toNat_inj]
  cases bank <;> cases other <;> simp [RegisterAddress.page, eq_comm]

section Run

variable {client : Client} {phy pageSelect : Nat} {word : (page index : Nat) → Word} {past : List RawCall}
  {file : RegisterFile} (paged : client.config.pageSelect = some pageSelect) (phyFits : phy ≤ 31)
  (selectFits : pageSelect ≤ 31) (flat : Flat phy pageSelect word past file)

include paged phyFits selectFits flat

theorem flat_serve (call : RawCall) (apart : call.address.index.toNat ≠ pageSelect) :
    ∃ after, call.serve client phy file = (call.due word past, after) ∧
      Flat phy pageSelect word (past ++ [call]) after := by
  obtain ⟨after, served, shows, effected⟩ := serve_flat paged phyFits selectFits flat.shows call apart
  refine ⟨after, served.trans ?_, shows, ?_, ?_⟩
  · cases call with
    | read address => rw [reply, due, flat.words address apart]
    | write => rfl
  · intro address elsewhere
    rw [effected _ _ (.inr elsewhere)]
    cases call with
    | read target => rw [effect, latest_read, flat.words address elsewhere]
    | write target value =>
      simp only [effect, latest_write, same_home_iff, flat.words address elsewhere]
  · intro page index high
    rw [effected page index (.inl (by omega))]
    cases call with
    | read target => exact flat.others page index high
    | write target value =>
      have low : target.page ≤ 1 := by
        rw [RegisterAddress.page]
        split <;> decide
      simp only [effect]
      rw [if_neg (by omega), flat.others page index high]

theorem flat_serveAll (calls : List RawCall) (apart : ∀ call ∈ calls, call.address.index.toNat ≠ pageSelect) :
    ∃ after, serveAll client phy calls file =
        (calls.mapIdx fun position call => call.due word (past ++ calls.take position), after) ∧
      Flat phy pageSelect word (past ++ calls) after := by
  induction calls generalizing past file with
  | nil => exact ⟨file, rfl, by rwa [List.append_nil]⟩
  | cons call rest ih =>
    obtain ⟨middle, served, next⟩ := flat_serve paged phyFits selectFits flat call (apart call List.mem_cons_self)
    obtain ⟨after, later, last⟩ := ih next fun other member => apart other (List.mem_cons_of_mem _ member)
    refine ⟨after, ?_, by rwa [List.append_cons]⟩
    simp only [serveAll, served, later, List.mapIdx_cons, List.take_zero, List.append_nil, List.take_succ_cons]
    simp only [List.append_assoc, List.singleton_append]

end Run

/-- Whatever raw calls are made of a paged PHY, a read gives the word last written to exactly its address, or
the first word there, and no call leaves the page turned. A PHY beyond the five-bit addresses is not reached. -/
theorem serveAll_flat {client : Client} {pageSelect : Nat} (paged : client.config.pageSelect = some pageSelect)
    (selectFits : pageSelect ≤ 31) {engine : Engine Bench} (listening : engine.Listening) {phy : Nat}
    (here : engine.bench.phy.address = some phy)
    (selects : engine.bench.phy.registers.pageSelect = some pageSelect)
    (onBase : engine.bench.phy.registers.page = 0) (calls : List RawCall)
    (apart : ∀ call ∈ calls, call.address.index.toNat ≠ pageSelect) :
    let word := engine.bench.phy.registers.word
    ∃ replies after, serveAll client phy calls engine = (replies, after) ∧
      (31 < phy → replies = calls.map (fun call => call.failed (.config .invalidPhyAddress)) ∧ after = engine) ∧
      (phy ≤ 31 →
        replies = (calls.mapIdx fun position call => call.due word (calls.take position)) ∧
        after.bench.phy.registers.page = 0 ∧
        (∀ address : RegisterAddress, address.index.toNat ≠ pageSelect →
          after.bench.phy.registers.word address.page address.index.toNat = latest word calls address) ∧
        ∀ page index, 1 < page → after.bench.phy.registers.word page index = word page index) := by
  intro word
  obtain ⟨replies, after, served, servedFile, _⟩ := serveAll_tracks client phy calls listening
  refine ⟨replies, after, served, fun beyond => ?_, fun phyFits => ?_⟩
  · have refused : serveAll client phy calls engine = _ := serveAll_refused beyond calls engine
    rw [served] at refused
    exact ⟨congrArg Prod.fst refused, congrArg Prod.snd refused⟩
  · have start : Flat phy pageSelect word [] engine.file := ⟨⟨here, selects, onBase⟩, fun _ _ => rfl, fun _ _ _ => rfl⟩
    obtain ⟨file, ran, flat⟩ := flat_serveAll paged phyFits selectFits start calls apart
    obtain ⟨same, rfl⟩ := Prod.ext_iff.mp (servedFile.symm.trans ran)
    exact ⟨same, flat.shows.page, flat.words, flat.others⟩

/-- Both banks at one index, with the page select register between them. -/
theorem serveAll_flat_interleaved :
    let client : Client := ⟨.empty 0 0, { pageSelect := some 22 }⟩
    let phy : Phy := { address := some 3, registers := { pageSelect := some 22, word := fun page _ => .ofNat 16 page } }
    let engine := Engine.create ({ phy } : Bench) { turnaround := .verify }
    let calls : List RawCall := [.read (.extended 4), .write (.extended 4) 0xBEEF, .read (.base 4),
      .write (.base 4) 0x1234, .read (.extended 4), .read (.base 4)]
    ∃ replies after, serveAll client 3 calls engine = (replies, after) ∧
      replies = [.word (.ok 1), .done (.ok ()), .word (.ok 0), .done (.ok ()), .word (.ok 0xBEEF), .word (.ok 0x1234)] ∧
      after.bench.phy.registers.page = 0 ∧ after.bench.phy.registers.word 2 4 = 2 := by
  intro client phy engine calls
  have listening : engine.Listening := ⟨rfl, ⟨0, rfl⟩, rfl⟩
  have apart : ∀ call ∈ calls, call.address.index.toNat ≠ 22 := by decide
  have paged : client.config.pageSelect = some 22 := rfl
  have here : engine.bench.phy.address = some 3 := rfl
  obtain ⟨replies, after, served, _, within⟩ := serveAll_flat paged (by decide) listening here rfl rfl calls apart
  obtain ⟨answers, page, _, others⟩ := within (by decide)
  exact ⟨replies, after, served, answers.trans rfl, page, others 2 4 (by decide)⟩

end Client.RawCall
end Clause22
