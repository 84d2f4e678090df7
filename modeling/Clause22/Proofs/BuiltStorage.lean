import Clause22.Proofs.FixedStorage

/-! Builders that keep their map in arrays of fixed length. From empty arrays no call fails a check, and the arrays hold
the map that was built, in which the fields of the registers tile the pool. -/

namespace Clause22

namespace Storage

def defineFields? (storage : Storage) (handle : Handle) : List Field → Option (Except ConfigError Unit × Storage)
  | [] => some (.ok (), storage)
  | field :: rest => do
    match ← storage.defineField? handle field with
    | .error cause => return (.error cause, storage)
    | .ok grown => grown.defineFields? handle rest

def define? (storage : Storage) (register : Register) : Option (Except ConfigError Handle × Storage) := do
  match ← storage.defineRegister? register.name register.address register.width with
  | .error cause => return (.error cause, storage)
  | .ok (handle, grown) =>
    let (outcome, filled) ← grown.defineFields? handle register.fields
    return (outcome.map fun _ => handle, filled)

def defineTable? (storage : Storage) : List Register → Option (Except ConfigError Unit × Storage)
  | [] => some (.ok (), storage)
  | register :: rest => do
    match ← storage.define? register with
    | (.error cause, grown) => return (.error cause, grown)
    | (.ok _, grown) => grown.defineTable? rest

def registerOfWidth? (storage : Storage) (name : String) (address : RegisterAddress) (width : Nat) :
    Option (Except ConfigError (Option Handle) × Storage) := do
  match ← storage.defineRegister? name address width with
  | .error cause => return (.error cause, storage)
  | .ok (handle, grown) => return (.ok (some handle), grown)

def perform? (storage : Storage) : Definition → Option (Except ConfigError (Option Handle) × Storage)
  | .register name address => storage.registerOfWidth? name address registerWidth
  | .registerOfWidth name address width => storage.registerOfWidth? name address width
  | .field handle name offset width => do
    match ← storage.defineField? handle ⟨name, offset, width⟩ with
    | .error cause => return (.error cause, storage)
    | .ok grown => return (.ok none, grown)

def build? (storage : Storage) : BuilderCall → Option Storage
  | .define definition => (storage.perform? definition).map Prod.snd
  | .load register => (storage.define? register).map Prod.snd
  | .loadTable table => (storage.defineTable? table).map Prod.snd

/-- The arrays after calls to a new builder, or none if a call left an array. -/
def built? (registerCapacity fieldCapacity : Nat) (calls : List BuilderCall) : Option Storage :=
  calls.foldlM build? (empty registerCapacity fieldCapacity)

/-- A call stays within the arrays, returns what the call to a map returned, and lays out the map it left. -/
def Follows (checked : Option (α × Storage)) (plain : α × RegisterMap) : Prop :=
  ∃ after, checked = some (plain.1, after) ∧ after.Lays plain.2

theorem Follows.snd {checked : Option (α × Storage)} {plain : α × RegisterMap} (follows : Follows checked plain) :
    ∃ after, checked.map Prod.snd = some after ∧ after.Lays plain.2 := by
  obtain ⟨after, checks, lays⟩ := follows
  exact ⟨after, by rw [checks]; rfl, lays⟩

section Laid

variable {registerCapacity fieldCapacity : Nat} {map : RegisterMap} {storage : Storage}
  (sound : map.Sound registerCapacity fieldCapacity) (lays : storage.Lays map)

include sound lays

theorem defineFields?_follows (handle : Handle) (fields : List Field) :
    Follows (storage.defineFields? handle fields) (map.defineFields handle fields) := by
  induction fields generalizing storage map with
  | nil => exact ⟨storage, rfl, lays⟩
  | cons field rest ih =>
    rw [defineFields?, RegisterMap.defineFields]
    rcases defineField?_eq sound lays handle field with
      ⟨cause, refused, checks⟩ | ⟨grown, after, accepted, checks, laid⟩
    · rw [refused, checks]
      exact ⟨storage, rfl, lays⟩
    · rw [accepted, checks]
      exact ih (sound.defineField accepted) laid

theorem define?_follows (register : Register) : Follows (storage.define? register) (map.define register) := by
  rw [define?, RegisterMap.define]
  rcases defineRegister?_eq sound lays register.name register.address register.width with
    ⟨cause, refused, checks⟩ | ⟨handle, grown, after, accepted, checks, laid⟩
  · rw [refused, checks]
    exact ⟨storage, rfl, lays⟩
  · obtain ⟨filled, fills, laid⟩ := defineFields?_follows (sound.defineRegister accepted) laid handle register.fields
    rw [accepted, checks]
    refine ⟨filled, ?_, laid⟩
    simp only [Option.bind_eq_bind, Option.bind_some, fills]
    rfl

theorem defineTable?_follows (table : List Register) :
    Follows (storage.defineTable? table) (map.defineTable table) := by
  induction table generalizing storage map with
  | nil => exact ⟨storage, rfl, lays⟩
  | cons register rest ih =>
    have grows := (RegisterMap.sound_kept registerCapacity fieldCapacity).define sound register
    obtain ⟨after, checks, laid⟩ := define?_follows sound lays register
    rw [defineTable?, RegisterMap.defineTable, checks]
    cases result : map.define register with
    | mk outcome grown =>
      rw [result] at grows laid
      cases outcome with
      | error cause => exact ⟨after, rfl, laid⟩
      | ok handle => exact ih grows laid

theorem registerOfWidth?_follows (name : String) (address : RegisterAddress) (width : Nat) :
    Follows (storage.registerOfWidth? name address width) (map.perform (.registerOfWidth name address width)) := by
  rw [registerOfWidth?, RegisterMap.perform]
  rcases defineRegister?_eq sound lays name address width with
    ⟨cause, refused, checks⟩ | ⟨handle, grown, after, accepted, checks, laid⟩
  · rw [refused, checks]
    exact ⟨storage, rfl, lays⟩
  · rw [accepted, checks]
    exact ⟨after, rfl, laid⟩

theorem perform?_follows (definition : Definition) :
    Follows (storage.perform? definition) (map.perform definition) := by
  cases definition with
  | register name address => exact registerOfWidth?_follows sound lays name address registerWidth
  | registerOfWidth name address width => exact registerOfWidth?_follows sound lays name address width
  | field handle name offset width =>
    rw [perform?, RegisterMap.perform]
    rcases defineField?_eq sound lays handle ⟨name, offset, width⟩ with
      ⟨cause, refused, checks⟩ | ⟨grown, after, accepted, checks, laid⟩
    · rw [refused, checks]
      exact ⟨storage, rfl, lays⟩
    · rw [accepted, checks]
      exact ⟨after, rfl, laid⟩

theorem build?_lays (call : BuilderCall) : ∃ after, storage.build? call = some after ∧ after.Lays (map.build call) := by
  cases call with
  | define definition => exact (perform?_follows sound lays definition).snd
  | load register => exact (define?_follows sound lays register).snd
  | loadTable table => exact (defineTable?_follows sound lays table).snd

theorem buildAll?_lays (calls : List BuilderCall) :
    ∃ after, calls.foldlM build? storage = some after ∧ after.Lays (calls.foldl RegisterMap.build map) := by
  induction calls generalizing storage map with
  | nil => exact ⟨storage, rfl, lays⟩
  | cons call rest ih =>
    obtain ⟨next, builds, laid⟩ := build?_lays sound lays call
    rw [List.foldlM_cons, builds]
    exact ih ((RegisterMap.sound_kept registerCapacity fieldCapacity).build sound call) laid

end Laid

theorem built?_lays (registerCapacity fieldCapacity : Nat) (calls : List BuilderCall) :
    ∃ storage, built? registerCapacity fieldCapacity calls = some storage ∧
      storage.Lays (RegisterMap.built registerCapacity fieldCapacity calls) :=
  buildAll?_lays (RegisterMap.sound_empty registerCapacity fieldCapacity) (lays_empty registerCapacity fieldCapacity)
    calls

end Storage

namespace RegisterMap

/-- The runs of the registers cut the pool into pieces: every position has one owner, and a run without positions
lies between two others. -/
structure Tiled (map : RegisterMap) : Prop where
  within : ∀ slot ∈ map.slots, slot.last ≤ map.pool.length
  owned : ∀ position < map.pool.length, ∃ (index : Nat) (slot : Slot), map.slots[index]? = some slot ∧ slot.Owns position
  alone : ∀ (position i j : Nat) (slot other : Slot), map.slots[i]? = some slot → map.slots[j]? = some other →
    slot.Owns position → other.Owns position → i = j
  between : ∀ slot ∈ map.slots, ∀ other ∈ map.slots, slot.count = 0 →
    ¬ (other.first < slot.first ∧ slot.first < other.last)

theorem Sound.tiled {registerCapacity fieldCapacity : Nat} {map : RegisterMap}
    (sound : map.Sound registerCapacity fieldCapacity) : map.Tiled where
  within slot member := by
    obtain ⟨index, found⟩ := List.mem_iff_getElem?.mp member
    exact sound.orderly.within index slot found
  owned := sound.covered
  alone := by
    intro position i j slot other atSlot atOther owns alsoOwns
    refine Decidable.byContradiction fun different => ?_
    have ⟨first, last⟩ := owns
    have ⟨otherFirst, otherLast⟩ := alsoOwns
    rcases sound.orderly.apart i j slot other atSlot atOther different with before | behind <;> omega
  between := by
    intro slot member other otherMember bare ⟨after, before⟩
    obtain ⟨i, atSlot⟩ := List.mem_iff_getElem?.mp member
    obtain ⟨j, atOther⟩ := List.mem_iff_getElem?.mp otherMember
    have empty : slot.last = slot.first := by rw [Slot.last, bare, Nat.add_zero]
    by_cases same : i = j
    · subst same
      cases atSlot.symm.trans atOther
      exact Nat.lt_irrefl _ after
    · rcases sound.orderly.apart i j slot other atSlot atOther same with first | last <;> omega

/-- Whatever a builder has been asked, accepted or refused: its runs tile the pool, its counts stay within the
capacities, no address is taken twice, and each register passes validation. So a position fits in the byte of a
handle, and a builder that keeps its map in fixed arrays never reads, moves or stores a cell outside them. -/
theorem built_invariant (registerCapacity fieldCapacity : Nat) (calls : List BuilderCall) :
    let map := built registerCapacity fieldCapacity calls
    map.Tiled ∧ map.pool.length ≤ fieldCapacity ∧ map.size ≤ min registerCapacity 64 ∧
    (map.slots.map Slot.address).Nodup ∧
    (∀ slot ∈ map.slots, 1 ≤ slot.width ∧ slot.width ≤ 16 ∧ (map.describe slot).validate = .ok ()) ∧
    (∀ position ≤ map.size, (UInt8.ofNat position).toNat = position) ∧
    (∃ storage, Storage.built? registerCapacity fieldCapacity calls = some storage ∧ storage.Lays map) ∧
    ∀ storage : Storage, storage.Lays map → ∀ handle,
      storage.definition? handle = some (map.definition handle) ∧
      ∀ field,
        (∃ cause, map.defineField handle field = .error cause ∧
          storage.defineField? handle field = some (.error cause)) ∨
        ∃ grown after, map.defineField handle field = .ok grown ∧
          storage.defineField? handle field = some (.ok after) ∧ after.Lays grown := by
  intro map
  have sound : map.Sound registerCapacity fieldCapacity := sound_built registerCapacity fieldCapacity calls
  have small : map.size ≤ 64 := size_le sound.orderly
  refine ⟨sound.tiled, sound.fieldCapacity ▸ sound.fieldRoom,
    Nat.le_min.mpr ⟨sound.registerCapacity ▸ sound.registerRoom, small⟩, sound.orderly.distinct, ?_, ?_,
    Storage.built?_lays registerCapacity fieldCapacity calls, ?_⟩
  · intro slot member
    have formed := sound.wellFormed (map.describe slot) (List.mem_map_of_mem member)
    exact ⟨formed.narrow.1, formed.narrow.2, (Register.validate_ok_iff _).mpr formed⟩
  · intro position inside
    exact UInt8.toNat_ofNat_of_lt' (Nat.lt_of_le_of_lt (Nat.le_trans inside small) (by decide))
  · intro storage lays handle
    exact ⟨storage.definition?_eq sound lays handle, storage.defineField?_eq sound lays handle⟩

/-- Fields defined across each other, a register refused and another cut short, in arrays with a spare cell each. -/
theorem built_invariant_interleaved :
    let calls : List BuilderCall := [.define (.registerOfWidth "A" (.base 0) 8), .define (.register "B" (.extended 0)),
      .define (.field ⟨1, .extended 0⟩ "b" 0 4), .define (.field ⟨0, .base 0⟩ "a" 0 1), .load ⟨"C", .base 0, 16, []⟩,
      .loadTable [⟨"D", .base 3, 4, [⟨"d", 3, 2⟩]⟩], .define (.field ⟨1, .extended 0⟩ "c" 4 4)]
    let map := built 4 4 calls
    let storage : Storage :=
      ⟨map.slots ++ [⟨"", .base 0, 0, 0, 0⟩], 3, map.pool ++ [⟨"", 0, 0⟩], 3⟩
    Storage.built? 4 4 calls = some storage ∧ storage.Lays map ∧
    map.pool = [⟨"b", 0, 4⟩, ⟨"c", 4, 4⟩, ⟨"a", 0, 1⟩] ∧
    storage.definition? ⟨1, .extended 0⟩ = some (.ok ⟨"B", .extended 0, 16, [⟨"b", 0, 4⟩, ⟨"c", 4, 4⟩]⟩) ∧
    ∃ after, storage.defineField? ⟨1, .extended 0⟩ ⟨"e", 8, 1⟩ = some (.ok after) ∧
      after.fields = [⟨"b", 0, 4⟩, ⟨"c", 4, 4⟩, ⟨"e", 8, 1⟩, ⟨"a", 0, 1⟩] := by
  intro calls map storage
  obtain ⟨-, -, -, -, -, -, ⟨laid, builds, lays⟩, stored⟩ := built_invariant 4 4 calls
  have computed : Storage.built? 4 4 calls = some storage := rfl
  obtain rfl : storage = laid := Option.some.inj (computed.symm.trans builds)
  obtain ⟨resolved, defines⟩ := stored storage lays ⟨1, .extended 0⟩
  refine ⟨builds, lays, rfl, resolved.trans rfl, ?_⟩
  obtain ⟨cause, refused, -⟩ | ⟨grown, after, accepted, inserted, laid⟩ := defines ⟨"e", 8, 1⟩
  · cases refused
  · refine ⟨after, inserted, ?_⟩
    cases accepted
    have fields := laid.fields
    rw [laid.fieldCount] at fields
    have full : after.fields.length ≤ 4 := Nat.le_of_eq laid.fieldCapacity
    rw [← List.take_of_length_le full]
    exact fields

end RegisterMap
end Clause22
