import Clause22.Proofs.MapBuilding

/-! A register map laid out in two arrays of fixed length, as it is where nothing can be allocated. Every index, slice
and move is checked against the length of its array. Arrays that hold a map pass every check when a register or a
field is defined, and then hold the map that follows. -/

namespace Clause22

/-- Two arrays of fixed length, each with the number of its cells that are in use. The other cells may hold
anything. -/
structure Storage where
  registers : List Slot
  registerCount : Nat
  fields : List Field
  fieldCount : Nat
deriving DecidableEq

namespace Storage

def empty (registerCapacity fieldCapacity : Nat) : Storage :=
  ⟨List.replicate registerCapacity ⟨"", .base 0, 0, 0, 0⟩, 0, List.replicate fieldCapacity ⟨"", 0, 0⟩, 0⟩

/-- The cells from one index up to another, or none if these are not a range of the array. -/
def slice? (cells : List α) (start stop : Nat) : Option (List α) :=
  if start ≤ stop ∧ stop ≤ cells.length then some ((cells.take stop).drop start) else none

/-- Copies the cells from one index up to another to a third, or none if these are not ranges of the array. -/
def copyWithin? (cells : List α) (start stop target : Nat) : Option (List α) :=
  if start ≤ stop ∧ stop ≤ cells.length ∧ target + (stop - start) ≤ cells.length then
    some (cells.take target ++ (cells.take stop).drop start ++ cells.drop (target + (stop - start)))
  else
    none

def store? (cells : List α) (index : Nat) (value : α) : Option (List α) :=
  if index < cells.length then some (cells.set index value) else none

def find? (storage : Storage) (handle : Handle) : Option (Option Slot) := do
  let defined ← slice? storage.registers 0 storage.registerCount
  match defined[handle.slot.toNat]? with
  | none => return none
  | some slot =>
    if slot.address = handle.address then
      let slot ← storage.registers[handle.slot.toNat]?
      return some slot
    else
      return none

def definition? (storage : Storage) (handle : Handle) : Option (Except ConfigError Register) := do
  match ← storage.find? handle with
  | none => return .error .unknownRegister
  | some slot =>
    let fields ← slice? storage.fields slot.first (slot.first + slot.count)
    return .ok ⟨slot.name, slot.address, slot.width, fields⟩

def defineRegister? (storage : Storage) (name : String) (address : RegisterAddress) (width : Nat) :
    Option (Except ConfigError (Handle × Storage)) := do
  if width = 0 ∨ registerWidth < width then
    return .error .invalidWidth
  else
    let defined ← slice? storage.registers 0 storage.registerCount
    if defined.any fun slot => slot.address = address then
      return .error .duplicateAddress
    else if storage.registerCount = storage.registers.length ∨ RegisterMap.maxRegisters ≤ storage.registerCount then
      return .error .capacityExceeded
    else
      let registers ← store? storage.registers storage.registerCount ⟨name, address, width, storage.fieldCount, 0⟩
      return .ok (⟨.ofNat storage.registerCount, address⟩,
        { storage with registers, registerCount := storage.registerCount + 1 })

/-- Makes room at the end of the fields of a register, by moving all fields behind it, and puts a field there. -/
def insertField? (storage : Storage) (owner position : Nat) (field : Field) : Option Storage := do
  let moved ← copyWithin? storage.fields position storage.fieldCount (position + 1)
  let fields ← store? moved position field
  let defined ← slice? storage.registers 0 storage.registerCount
  let renumbered := defined.mapIdx fun index slot =>
    if index = owner then { slot with count := slot.count + 1 }
    else if position ≤ slot.first then { slot with first := slot.first + 1 }
    else slot
  return { storage with
    registers := renumbered ++ storage.registers.drop storage.registerCount
    fields
    fieldCount := storage.fieldCount + 1 }

def defineField? (storage : Storage) (handle : Handle) (field : Field) : Option (Except ConfigError Storage) := do
  match ← storage.find? handle with
  | none => return .error .unknownRegister
  | some slot =>
    match field.check slot.width with
    | .error cause => return .error cause
    | .ok () =>
      let own ← slice? storage.fields slot.first (slot.first + slot.count)
      if own.any fun other => other.name = field.name then
        return .error .duplicateField
      else if storage.fieldCount = storage.fields.length then
        return .error .capacityExceeded
      else
        let grown ← storage.insertField? handle.slot.toNat (slot.first + slot.count) field
        return .ok grown

/-- The cells in use hold a map, and the arrays are as long as its capacities. -/
structure Lays (storage : Storage) (map : RegisterMap) : Prop where
  registerCapacity : storage.registers.length = map.registerCapacity
  fieldCapacity : storage.fields.length = map.fieldCapacity
  registerCount : storage.registerCount = map.size
  fieldCount : storage.fieldCount = map.pool.length
  registers : storage.registers.take storage.registerCount = map.slots
  fields : storage.fields.take storage.fieldCount = map.pool

theorem lays_empty (registerCapacity fieldCapacity : Nat) :
    (empty registerCapacity fieldCapacity).Lays (RegisterMap.empty registerCapacity fieldCapacity) where
  registerCapacity := List.length_replicate
  fieldCapacity := List.length_replicate
  registerCount := rfl
  fieldCount := rfl
  registers := rfl
  fields := rfl

theorem slice?_eq {cells : List α} {start stop : Nat} (ordered : start ≤ stop) (inside : stop ≤ cells.length) :
    slice? cells start stop = some ((cells.take stop).drop start) :=
  if_pos ⟨ordered, inside⟩

theorem append_cell {cells : List α} {count : Nat} (room : count < cells.length) (value : α) :
    ∃ stored, store? cells count value = some stored ∧ stored.length = cells.length ∧
      stored.take (count + 1) = cells.take count ++ [value] := by
  refine ⟨_, if_pos room, List.length_set, ?_⟩
  rw [List.take_add_one, List.take_set_of_le (Nat.le_refl count), List.getElem?_set_self room]
  rfl

/-- Moving the cells in use from one index on up by one leaves room there for a new cell. -/
theorem open_gap {cells : List α} {start stop : Nat} (ordered : start ≤ stop) (room : stop < cells.length) (value : α) :
    ∃ moved stored, copyWithin? cells start stop (start + 1) = some moved ∧ store? moved start value = some stored ∧
      stored.length = cells.length ∧
      stored.take (stop + 1) = (cells.take stop).take start ++ value :: (cells.take stop).drop start := by
  have ranges : start ≤ stop ∧ stop ≤ cells.length ∧ start + 1 + (stop - start) ≤ cells.length := by omega
  have length : (cells.take (start + 1) ++ (cells.take stop).drop start ++
      cells.drop (start + 1 + (stop - start))).length = cells.length := by
    simp only [List.length_append, List.length_take, List.length_drop]
    omega
  refine ⟨_, _, if_pos ranges, if_pos (by omega), ?_, ?_⟩
  · rw [List.length_set, length]
  · apply List.ext_getElem?
    intro index
    simp only [List.getElem?_take, List.getElem?_set, List.getElem?_append, List.getElem?_drop, List.getElem?_cons,
      List.length_append, List.length_take, List.length_drop]
    grind

section Laid

variable {registerCapacity fieldCapacity : Nat} {map : RegisterMap} {storage : Storage}
  (sound : map.Sound registerCapacity fieldCapacity) (lays : storage.Lays map)

include sound lays

theorem slice?_registers : slice? storage.registers 0 storage.registerCount = some map.slots := by
  have inside : storage.registerCount ≤ storage.registers.length := by
    rw [lays.registerCapacity, lays.registerCount]
    exact sound.registerRoom
  rw [slice?_eq (Nat.zero_le _) inside, List.drop_zero, lays.registers]

theorem slice?_run {index : Nat} {slot : Slot} (found : map.slots[index]? = some slot) :
    slice? storage.fields slot.first (slot.first + slot.count) = some (map.fieldsOf slot) := by
  have within : slot.first + slot.count ≤ map.pool.length := sound.orderly.within index slot found
  have inside : slot.first + slot.count ≤ storage.fields.length := by
    rw [lays.fieldCapacity]
    exact Nat.le_trans within sound.fieldRoom
  have used : storage.fields.take (slot.first + slot.count) = map.pool.take (slot.first + slot.count) := by
    rw [← lays.fields, List.take_take, lays.fieldCount, Nat.min_eq_left within]
  rw [slice?_eq (Nat.le_add_right ..) inside, used, RegisterMap.fieldsOf, List.drop_take, Nat.add_sub_cancel_left]

theorem find?_eq (handle : Handle) : storage.find? handle = some (map.slot? handle) := by
  have atPosition {slot : Slot} (found : map.slots[handle.slot.toNat]? = some slot) :
      storage.registers[handle.slot.toNat]? = some slot := by
    rw [← lays.registers, List.getElem?_take] at found
    split at found
    next => exact found
    next => cases found
  simp only [find?, slice?_registers sound lays, Option.bind_eq_bind, Option.bind_some, RegisterMap.slot?]
  cases found : map.slots[handle.slot.toNat]? with
  | none => rfl
  | some slot =>
    by_cases same : slot.address = handle.address
    · simp [same, atPosition found, Option.filter]
    · simp [same, Option.filter]

theorem definition?_eq (handle : Handle) : storage.definition? handle = some (map.definition handle) := by
  simp only [definition?, find?_eq sound lays, Option.bind_eq_bind, Option.bind_some, RegisterMap.definition]
  cases resolved : map.slot? handle with
  | none => rfl
  | some slot =>
    simp only [slice?_run sound lays (RegisterMap.slot_of_handle resolved), Option.bind_some]
    rfl

/-- Defining a register never leaves its arrays, and does to them what it does to the map. -/
theorem defineRegister?_eq (name : String) (address : RegisterAddress) (width : Nat) :
    (∃ cause, map.defineRegister name address width = .error cause ∧
      storage.defineRegister? name address width = some (.error cause)) ∨
    ∃ handle grown after, map.defineRegister name address width = .ok (handle, grown) ∧
      storage.defineRegister? name address width = some (.ok (handle, after)) ∧ after.Lays grown := by
  have listed : (map.slots.any fun slot => slot.address = address) = true ↔ (map.register? address).isSome := by
    rw [RegisterMap.isSome_register?, RegisterMap.addresses_table]
    simp
  have atEnd : storage.registerCount = storage.registers.length ∨ RegisterMap.maxRegisters ≤ storage.registerCount ↔
      map.registerCapacity ≤ map.size ∨ RegisterMap.maxRegisters ≤ map.size := by
    rw [lays.registerCount, lays.registerCapacity]
    have := sound.registerRoom
    omega
  rw [defineRegister?, RegisterMap.defineRegister]
  by_cases broad : width = 0 ∨ registerWidth < width
  · rw [if_pos broad, if_pos broad]
    exact .inl ⟨_, rfl, rfl⟩
  · rw [if_neg broad, if_neg broad, slice?_registers sound lays]
    simp only [Option.bind_eq_bind, Option.bind_some, listed, atEnd]
    by_cases taken : (map.register? address).isSome
    · rw [if_pos taken, if_pos taken]
      exact .inl ⟨_, rfl, rfl⟩
    · rw [if_neg taken, if_neg taken]
      by_cases full : map.registerCapacity ≤ map.size ∨ RegisterMap.maxRegisters ≤ map.size
      · rw [if_pos full, if_pos full]
        exact .inl ⟨_, rfl, rfl⟩
      · rw [if_neg full, if_neg full]
        have free : storage.registerCount < storage.registers.length := by
          rw [lays.registerCount, lays.registerCapacity]
          exact Nat.not_le.mp fun filled => full (.inl filled)
        obtain ⟨registers, stores, length, used⟩ :=
          append_cell free (⟨name, address, width, storage.fieldCount, 0⟩ : Slot)
        have handle : (⟨.ofNat storage.registerCount, address⟩ : Handle) = ⟨.ofNat map.size, address⟩ := by
          rw [lays.registerCount]
        have size : (map.slots ++ [(⟨name, address, width, map.pool.length, 0⟩ : Slot)]).length =
            storage.registerCount + 1 := by
          rw [List.length_append, lays.registerCount]
          rfl
        rw [stores, Option.bind_some, handle]
        refine .inr ⟨_, _, { storage with registers, registerCount := storage.registerCount + 1 }, rfl, rfl,
          length.trans lays.registerCapacity, lays.fieldCapacity, size.symm, lays.fieldCount, ?_, lays.fields⟩
        rw [used, lays.registers, lays.fieldCount]

theorem insertField?_eq {owner : Nat} {slot : Slot} (found : map.slots[owner]? = some slot) (field : Field)
    (room : map.pool.length < map.fieldCapacity) :
    ∃ grown, storage.insertField? owner (slot.first + slot.count) field = some grown ∧
      grown.Lays (map.insertField owner slot.last field) := by
  have within : slot.last ≤ map.pool.length := sound.orderly.within owner slot found
  have free : storage.fieldCount < storage.fields.length := by
    rw [lays.fieldCount, lays.fieldCapacity]
    exact room
  obtain ⟨moved, fields, moves, stores, length, taken⟩ := open_gap (lays.fieldCount ▸ within) free field
  have moves : copyWithin? storage.fields (slot.first + slot.count) storage.fieldCount
      (slot.first + slot.count + 1) = some moved := moves
  have stores : store? moved (slot.first + slot.count) field = some fields := stores
  have renumbered : (map.insertField owner slot.last field).slots.length = storage.registerCount := by
    rw [RegisterMap.insertField, List.length_mapIdx, lays.registerCount, RegisterMap.size]
  simp only [insertField?, moves, stores, slice?_registers sound lays, Option.bind_eq_bind, Option.bind_some]
  refine ⟨_, rfl, ?_, length.trans lays.fieldCapacity, ?_, ?_, ?_, ?_⟩
  · rw [List.length_append, List.length_mapIdx, List.length_drop, lays.registerCount, lays.registerCapacity]
    exact Nat.add_sub_cancel' sound.registerRoom
  · exact renumbered.symm
  · rw [RegisterMap.length_insertField field within, lays.fieldCount]
  · exact List.take_left' renumbered
  · rw [taken, lays.fields]
    rfl

/-- Defining a field never leaves its arrays, and does to them what it does to the map. -/
theorem defineField?_eq (handle : Handle) (field : Field) :
    (∃ cause, map.defineField handle field = .error cause ∧
      storage.defineField? handle field = some (.error cause)) ∨
    ∃ grown after, map.defineField handle field = .ok grown ∧
      storage.defineField? handle field = some (.ok after) ∧ after.Lays grown := by
  rw [defineField?, find?_eq sound lays, RegisterMap.defineField_eq]
  cases resolved : map.slot? handle with
  | none => exact .inl ⟨_, rfl, rfl⟩
  | some slot =>
    have found := RegisterMap.slot_of_handle resolved
    have listed : ((map.fieldsOf slot).any fun other => other.name = field.name) = true ↔
        field.name ∈ (map.fieldsOf slot).map Field.name := by
      simp
    simp only [Option.bind_eq_bind, Option.bind_some, Field.check, slice?_run sound lays found, listed]
    by_cases range : field.width = 0 ∨ slot.width < field.offset + field.width
    · rw [if_pos range, if_pos range]
      exact .inl ⟨_, rfl, rfl⟩
    · rw [if_neg range, if_neg range]
      by_cases taken : field.name ∈ (map.fieldsOf slot).map Field.name
      · simp only [if_pos taken]
        exact .inl ⟨_, rfl, rfl⟩
      · simp only [if_neg taken]
        have atEnd : storage.fieldCount = storage.fields.length ↔ map.fieldCapacity ≤ map.pool.length := by
          rw [lays.fieldCount, lays.fieldCapacity]
          exact ⟨fun same => Nat.le_of_eq same.symm, Nat.le_antisymm sound.fieldRoom⟩
        by_cases full : map.fieldCapacity ≤ map.pool.length
        · rw [if_pos full, if_pos (atEnd.mpr full)]
          exact .inl ⟨_, rfl, rfl⟩
        · rw [if_neg full, if_neg (mt atEnd.mp full)]
          obtain ⟨after, inserted, laid⟩ := insertField?_eq sound lays found field (Nat.not_le.mp full)
          rw [inserted]
          exact .inr ⟨_, after, rfl, rfl, laid⟩

end Laid

end Storage
end Clause22
