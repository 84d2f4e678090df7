import Mathlib.Logic.Function.Basic
import Clause22.Bus.Memory
import Clause22.Proofs.FlatAddressSpace
import Clause22.Proofs.RegisterFile

/-! Buses that keep what is written to them. Every register of a PHY has a place of its own among all that a bus
holds, and a transaction reads or replaces the word at that place; so does a raw call, but for the page that it turns
around an access to the extended bank. -/

namespace Clause22

/-- Transactions with a PHY, on the buses of some kind, as reads and updates of all that a bus holds. -/
structure Stores {β κ : Type} [Bus β] [DecidableEq κ] (phy : Nat) (place : Nat → κ) (content : β → κ → Word)
    (Ready : β → Prop) : Prop where
  distinct : Function.Injective place
  read : ∀ {index bus}, Addressable phy index → Ready bus → ∃ after,
    Bus.read phy index bus = (.ok (content bus (place index)), after) ∧ Ready after ∧ content after = content bus
  write : ∀ {index bus} (value : Word), Addressable phy index → Ready bus → ∃ after,
    Bus.write phy index value bus = (.ok (), after) ∧ Ready after ∧
      content after = Function.update (content bus) (place index) value

def MemoryBus.content (bus : MemoryBus) (key : Nat × Nat) : Word :=
  (bus.word key.1 key.2).getD 0

theorem MemoryBus.stores (phy : Nat) : Stores phy (phy, ·) MemoryBus.content fun bus => bus.busy = false where
  distinct := fun _ _ same => (Prod.mk.inj same).2
  read {index bus} _ free := by
    have reads : bus.read phy index = (.ok (bus.content (phy, index)), { bus with
        events := bus.events.push (.read phy index) }) := by
      rw [MemoryBus.read, free]
      rfl
    exact ⟨_, reads, free, rfl⟩
  write {index bus} value _ free := by
    have writes : bus.write phy index value = (.ok (), { bus.set phy index value with
        events := bus.events.push (.write phy index value) }) := by
      rw [MemoryBus.write, free]
      rfl
    refine ⟨_, writes, free, funext fun key => ?_⟩
    by_cases same : key = (phy, index)
    · subst same
      simp [MemoryBus.content, MemoryBus.set]
    · rw [Function.update_of_ne same]
      have apart : ¬ (key.1 = phy ∧ key.2 = index) := fun both => same (Prod.ext both.1 both.2)
      simp only [MemoryBus.content, MemoryBus.set, if_neg apart]

def Engine.content (engine : Engine Bench) (key : Nat × Nat) : Word :=
  engine.bench.phy.registers.word key.1 key.2

/-- An engine with a PHY at an address that has no page select register. -/
structure Engine.Unpaged (phy page : Nat) (engine : Engine Bench) : Prop where
  listening : engine.Listening
  here : engine.bench.phy.address = some phy
  unpaged : engine.bench.phy.registers.pageSelect = none
  page : engine.bench.phy.registers.page = page

theorem Engine.Unpaged.pageOf {phy page : Nat} {engine : Engine Bench} (unpaged : engine.Unpaged phy page)
    (index : Nat) : engine.file.pageOf index = page := by
  have none : engine.file.pageSelect = none := unpaged.unpaged
  rw [RegisterFile.pageOf, none, if_neg (Option.some_ne_none index).symm]
  exact unpaged.page

theorem Engine.Unpaged.of_file {phy page : Nat} {engine after : Engine Bench} (unpaged : engine.Unpaged phy page)
    (listens : after.Listening) (address : after.file.address = engine.file.address)
    (pageSelect : after.file.pageSelect = engine.file.pageSelect) (turned : after.file.page = engine.file.page) :
    after.Unpaged phy page :=
  ⟨listens, address.trans unpaged.here, pageSelect.trans unpaged.unpaged, turned.trans unpaged.page⟩

theorem Engine.stores (phy page : Nat) : Stores phy (page, ·) Engine.content (Engine.Unpaged phy page) where
  distinct := fun _ _ same => (Prod.mk.inj same).2
  read {index engine} fits unpaged := by
    obtain ⟨reply, file, listens⟩ := Engine.read_file unpaged.listening phy index
    have phyFits : ¬ 31 < phy := Nat.not_lt.mpr fits.phy
    have regFits : ¬ 31 < index := Nat.not_lt.mpr fits.reg
    have here : engine.file.address = some phy := unpaged.here
    rw [RegisterFile.read, if_neg phyFits, if_neg regFits, if_pos here, unpaged.pageOf] at reply file
    have address := congrArg RegisterFile.address file
    have pageSelect := congrArg RegisterFile.pageSelect file
    have turned := congrArg RegisterFile.page file
    have words := congrArg RegisterFile.word file
    exact ⟨_, Prod.ext reply rfl, unpaged.of_file listens address pageSelect turned,
      funext fun key => congrFun (congrFun words key.1) key.2⟩
  write {index engine} value fits unpaged := by
    obtain ⟨reply, file, listens⟩ := Engine.write_file unpaged.listening phy index value
    have phyFits : ¬ 31 < phy := Nat.not_lt.mpr fits.phy
    have regFits : ¬ 31 < index := Nat.not_lt.mpr fits.reg
    have here : engine.file.address = some phy := unpaged.here
    have none : engine.file.pageSelect = none := unpaged.unpaged
    rw [RegisterFile.write, if_neg phyFits, if_neg regFits, if_pos here, unpaged.pageOf, none,
      if_neg (Option.some_ne_none index).symm] at reply file
    have address := congrArg RegisterFile.address file
    have pageSelect := congrArg RegisterFile.pageSelect file
    have turned := congrArg RegisterFile.page file
    have words := congrArg RegisterFile.word file
    refine ⟨_, Prod.ext reply rfl, unpaged.of_file listens address (pageSelect.trans none.symm) turned,
      funext fun key => (congrFun (congrFun words key.1) key.2).trans ?_⟩
    simp only [Function.update_apply, Prod.ext_iff]
    rfl

namespace Client

variable {β κ : Type} [Bus β] [DecidableEq κ] {phy : Nat} {place : Nat → κ} {content : β → κ → Word}
  {Ready : β → Prop} (client : Client) (address : RegisterAddress)

/-- The page select register that a client writes around an access. -/
def turning? : Option Nat :=
  match address.bank with
  | .base => none
  | .extended => client.config.pageSelect

/-- What a bracket leaves besides the access: the base page is selected. -/
def settled (place : Nat → κ) (words : κ → Word) : κ → Word :=
  match client.turning? address with
  | none => words
  | some pageSelect => Function.update words (place pageSelect) basePage

/-- A client can make accesses to an address, and the register there is not the one that turns the page for them. -/
structure Reachable (phy : Nat) : Prop where
  fits : phy ≤ 31
  paged : address.bank = .extended → client.config.pageSelect ≠ none
  selects : ∀ index ∈ client.config.pageSelect, index ≤ 31
  apart : client.turning? address ≠ some address.index.toNat

variable {client address}

section Settled

variable (words : κ → Word)

theorem settled_other {key : κ} (other : ∀ pageSelect ∈ client.turning? address, key ≠ place pageSelect) :
    client.settled address place words key = words key := by
  rw [settled]
  cases turning : client.turning? address with
  | none => rfl
  | some pageSelect => exact Function.update_of_ne (other pageSelect turning) ..

variable (distinct : Function.Injective place) (apart : client.turning? address ≠ some address.index.toNat)

include distinct apart

theorem settled_home :
    client.settled address place words (place address.index.toNat) = words (place address.index.toNat) := by
  refine settled_other words fun pageSelect turning same => apart ?_
  rw [distinct same]
  exact turning

theorem settled_update (value : Word) :
    client.settled address place
        (Function.update (client.settled address place words) (place address.index.toNat) value) =
      client.settled address place (Function.update words (place address.index.toNat) value) := by
  cases turning : client.turning? address with
  | none => simp only [settled, turning]
  | some pageSelect =>
    have other : place address.index.toNat ≠ place pageSelect := fun same =>
      apart (turning.trans (congrArg some (distinct same).symm))
    simp only [settled, turning, Function.update_comm other, Function.update_idem]

end Settled

/-- An access as a function of all that a bus holds: what it answers, and what it leaves. -/
def Acts {α : Type} (content : β → κ → Word) (Ready : β → Prop) (access : Access β α) (answer : (κ → Word) → α)
    (effect : (κ → Word) → κ → Word) : Prop :=
  ∀ bus, Ready bus → ∃ after, access bus = (.ok (answer (content bus)), after) ∧ Ready after ∧
    content after = effect (content bus)

variable (stores : Stores phy place content Ready) (reachable : client.Reachable address phy)

include stores reachable

/-- The page is turned around an access to the extended bank, which acts as it would without: the word there is not one
that the access looks at or replaces. -/
theorem withBank_stored {α : Type} (access : Nat → Access β α) {answer : (κ → Word) → α}
    {effect : (κ → Word) → κ → Word} (acts : Acts content Ready (access address.index.toNat) answer effect)
    (blind : ∀ words key page, place address.index.toNat ≠ key →
      answer (Function.update words key page) = answer words ∧
      effect (Function.update words key page) = Function.update (effect words) key page) :
    Acts content Ready (client.withBank phy address access) answer fun words =>
      client.settled address place (effect words) := by
  intro bus ready
  cases bank : address.bank with
  | base =>
    simp only [withBank_base _ reachable.fits bank, settled, turning?, bank]
    exact acts bus ready
  | extended =>
    cases paged : client.config.pageSelect with
    | none => exact absurd paged (reachable.paged bank)
    | some pageSelect =>
      have fits : Addressable phy pageSelect := ⟨reachable.fits, reachable.selects pageSelect paged⟩
      have apart := reachable.apart
      rw [turning?, bank] at apart
      have other : place address.index.toNat ≠ place pageSelect := fun same =>
        apart (paged.trans (congrArg some (stores.distinct same).symm))
      obtain ⟨selected, selects, extended, turned⟩ := stores.write extendedPage fits ready
      obtain ⟨accessed, accesses, still, acted⟩ := acts selected extended
      obtain ⟨after, restores, last, restored⟩ := stores.write basePage fits still
      obtain ⟨sameAnswer, sameEffect⟩ := blind (content bus) _ extendedPage other
      rw [turned, sameAnswer] at accesses
      rw [acted, turned, sameEffect, Function.update_idem] at restored
      rw [withBank_extended _ reachable.fits bank paged]
      refine ⟨after, ?_, last, ?_⟩
      · simp only [onExtendedPage, selects, accesses, restores]
        rfl
      · simp only [restored, settled, turning?, bank, paged]

theorem readRaw_stored {bus : β} (ready : Ready bus) :
    ∃ after, client.readRaw phy address bus = (.ok (content bus (place address.index.toNat)), after) ∧ Ready after ∧
      content after = client.settled address place (content bus) := by
  have fits : Addressable phy address.index.toNat := ⟨reachable.fits, address.index_le⟩
  have acts : Acts content Ready (Bus.read phy address.index.toNat) (fun words => words (place address.index.toNat))
      id := fun _ => stores.read fits
  have stored := withBank_stored stores reachable (Bus.read phy) acts fun words key page other =>
    ⟨Function.update_of_ne other .., rfl⟩
  exact stored bus ready

theorem writeRaw_stored (value : Word) {bus : β} (ready : Ready bus) :
    ∃ after, client.writeRaw phy address value bus = (.ok (), after) ∧ Ready after ∧
      content after =
        client.settled address place (Function.update (content bus) (place address.index.toNat) value) := by
  have fits : Addressable phy address.index.toNat := ⟨reachable.fits, address.index_le⟩
  have acts : Acts content Ready (Bus.write phy address.index.toNat value) (fun _ => ())
      (Function.update · (place address.index.toNat) value) := fun _ => stores.write value fits
  have stored := withBank_stored stores reachable (fun index => Bus.write phy index value) acts
    fun words key page other => ⟨rfl, Function.update_comm other.symm ..⟩
  exact stored bus ready

end Client
end Clause22
