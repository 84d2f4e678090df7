import Clause22.Proofs.FieldPool

/-! The pool does not show. A register map of fixed capacity returns the same outcomes and holds the same
definitions as a table in which each register has a list of fields to itself. -/

namespace Clause22

/-- Registers in definition order, each with its fields. -/
structure RegisterTable where
  registerCapacity : Nat
  fieldCapacity : Nat
  registers : List Register
deriving DecidableEq

namespace RegisterTable

def empty (registerCapacity fieldCapacity : Nat) : RegisterTable :=
  ⟨registerCapacity, fieldCapacity, []⟩

def fieldCount (table : RegisterTable) : Nat :=
  (table.registers.flatMap Register.fields).length

def register? (table : RegisterTable) (handle : Handle) : Option Register :=
  table.registers[handle.slot.toNat]?.filter fun register => register.address = handle.address

def defineRegister (table : RegisterTable) (name : String) (address : RegisterAddress) (width : Nat) :
    Except ConfigError (Handle × RegisterTable) :=
  if width = 0 ∨ registerWidth < width then
    .error .invalidWidth
  else if address ∈ table.registers.map Register.address then
    .error .duplicateAddress
  else if table.registerCapacity ≤ table.registers.length then
    .error .capacityExceeded
  else
    .ok (⟨.ofNat table.registers.length, address⟩,
      { table with registers := table.registers ++ [⟨name, address, width, []⟩] })

def defineField (table : RegisterTable) (handle : Handle) (field : Field) : Except ConfigError RegisterTable :=
  match table.register? handle with
  | none => .error .unknownRegister
  | some register =>
    if field.width = 0 ∨ register.width < field.offset + field.width then
      .error .fieldOutOfRange
    else if field.name ∈ register.fields.map Field.name then
      .error .duplicateField
    else if table.fieldCapacity ≤ table.fieldCount then
      .error .capacityExceeded
    else
      .ok { table with
        registers := table.registers.modify handle.slot.toNat fun own => { own with fields := own.fields ++ [field] } }

end RegisterTable

inductive Definition
  | register (name : String) (address : RegisterAddress)
  | registerOfWidth (name : String) (address : RegisterAddress) (width : Nat)
  | field (handle : Handle) (name : String) (offset width : Nat)
deriving DecidableEq

/-- What a call to the builder of a map returns, a handle if it defines a register, and what it leaves. -/
def Definition.settle (before : RegisterMap) :
    Except ConfigError (Option Handle × RegisterMap) → Except ConfigError (Option Handle) × RegisterMap
  | .ok (handle, after) => (.ok handle, after)
  | .error cause => (.error cause, before)

def RegisterMap.perform (map : RegisterMap) : Definition → Except ConfigError (Option Handle) × RegisterMap
  | .register name address =>
    Definition.settle map <| (map.defineRegister name address).map fun (handle, grown) => (some handle, grown)
  | .registerOfWidth name address width =>
    Definition.settle map <| (map.defineRegister name address width).map fun (handle, grown) => (some handle, grown)
  | .field handle name offset width =>
    Definition.settle map <| (map.defineField handle ⟨name, offset, width⟩).map fun grown => (none, grown)

/-- A refused call leaves the table as it was. -/
def RegisterTable.perform (table : RegisterTable) : Definition → Except ConfigError (Option Handle) × RegisterTable
  | .register name address =>
    match table.defineRegister name address registerWidth with
    | .ok (handle, grown) => (.ok (some handle), grown)
    | .error cause => (.error cause, table)
  | .registerOfWidth name address width =>
    match table.defineRegister name address width with
    | .ok (handle, grown) => (.ok (some handle), grown)
    | .error cause => (.error cause, table)
  | .field handle name offset width =>
    match table.defineField handle ⟨name, offset, width⟩ with
    | .ok grown => (.ok none, grown)
    | .error cause => (.error cause, table)

def Definition.performAll (perform : τ → Definition → Except ConfigError (Option Handle) × τ) :
    List Definition → τ → List (Except ConfigError (Option Handle)) × τ
  | [], state => ([], state)
  | definition :: rest, state =>
    let (outcome, state) := perform state definition
    let (outcomes, state) := performAll perform rest state
    (outcome :: outcomes, state)

namespace RegisterMap

def describe (map : RegisterMap) (slot : Slot) : Register :=
  ⟨slot.name, slot.address, slot.width, map.fieldsOf slot⟩

def table (map : RegisterMap) : RegisterTable :=
  ⟨map.registerCapacity, map.fieldCapacity, map.slots.map map.describe⟩

theorem addresses_registers (map : RegisterMap) : map.registers.map Handle.address = map.slots.map Slot.address := by
  apply List.ext_getElem?
  intro index
  rw [registers, List.getElem?_map, List.getElem?_mapIdx, List.getElem?_map, Option.map_map]
  rfl

theorem addresses_table (map : RegisterMap) :
    map.table.registers.map Register.address = map.slots.map Slot.address := by
  simp only [table, List.map_map]
  rfl

theorem isSome_register? (map : RegisterMap) (address : RegisterAddress) :
    (map.register? address).isSome ↔ address ∈ map.table.registers.map Register.address := by
  rw [addresses_table, ← addresses_registers, register?]
  simp

theorem register?_table (map : RegisterMap) (handle : Handle) :
    map.table.register? handle = (map.slot? handle).map map.describe := by
  simp only [RegisterTable.register?, slot?, table, List.getElem?_map, Option.filter_map]
  rfl

theorem slot_of_handle {map : RegisterMap} {handle : Handle} {slot : Slot} (found : map.slot? handle = some slot) :
    map.slots[handle.slot.toNat]? = some slot :=
  (Option.filter_eq_some_iff.mp found).1

theorem defineField_eq (map : RegisterMap) (handle : Handle) (field : Field) :
    map.defineField handle field =
      match map.slot? handle with
      | none => .error .unknownRegister
      | some slot =>
        if field.width = 0 ∨ slot.width < field.offset + field.width then .error .fieldOutOfRange
        else if field.name ∈ (map.fieldsOf slot).map Field.name then .error .duplicateField
        else if map.fieldCapacity ≤ map.pool.length then .error .capacityExceeded
        else .ok (map.insertField handle.slot.toNat slot.last field) := by
  rw [defineField]
  cases map.slot? handle with
  | none => rfl
  | some slot =>
    have listed : ((map.fieldsOf slot).any fun own => own.name = field.name) = true ↔
        field.name ∈ (map.fieldsOf slot).map Field.name := by
      simp
    simp only [Field.check, listed]
    by_cases range : field.width = 0 ∨ slot.width < field.offset + field.width
    · rw [if_pos range, if_pos range]
      rfl
    · rw [if_neg range, if_neg range]
      by_cases taken : field.name ∈ (map.fieldsOf slot).map Field.name
      · simp only [if_pos taken]
        rfl
      · simp only [if_neg taken]
        by_cases full : map.fieldCapacity ≤ map.pool.length
        · simp only [if_pos full]
          rfl
        · simp only [if_neg full]
          rfl

section Accepted

variable {map grown : RegisterMap} {handle : Handle}

theorem defineRegister_ok {name : String} {address : RegisterAddress} {width : Nat}
    (defined : map.defineRegister name address width = .ok (handle, grown)) :
    (0 < width ∧ width ≤ registerWidth) ∧ address ∉ map.slots.map Slot.address ∧
      map.size < map.registerCapacity ∧ handle = ⟨.ofNat map.size, address⟩ ∧
      grown = { map with slots := map.slots ++ [⟨name, address, width, map.pool.length, 0⟩] } := by
  simp only [defineRegister, isSome_register?, addresses_table] at defined
  split at defined
  next => cases defined
  next narrow =>
    split at defined
    next => cases defined
    next fresh =>
      split at defined
      next => cases defined
      next room =>
        cases defined
        exact ⟨by omega, fresh, by omega, rfl, rfl⟩

theorem defineField_ok {field : Field} (defined : map.defineField handle field = .ok grown) :
    ∃ slot, map.slot? handle = some slot ∧ (0 < field.width ∧ field.offset + field.width ≤ slot.width) ∧
      field.name ∉ (map.fieldsOf slot).map Field.name ∧ map.pool.length < map.fieldCapacity ∧
      grown = map.insertField handle.slot.toNat slot.last field := by
  rw [defineField_eq] at defined
  cases found : map.slot? handle with
  | none =>
    rw [found] at defined
    cases defined
  | some slot =>
    simp only [found] at defined
    split at defined
    next => cases defined
    next inside =>
      split at defined
      next => cases defined
      next fresh =>
        split at defined
        next => cases defined
        next room =>
          cases defined
          exact ⟨slot, rfl, by omega, fresh, by omega, rfl⟩

end Accepted

end RegisterMap

theorem RegisterAddress.mem_all (address : RegisterAddress) : address ∈ all := by
  obtain ⟨bank, index⟩ := address
  have listed : index.toNat ∈ List.range 32 := List.mem_range.mpr index.isLt
  have same : BitVec.ofNat 5 index.toNat = index := BitVec.ofNat_toNat 5 index |>.trans index.setWidth_eq
  cases bank with
  | base => exact List.mem_append_left _ (List.mem_map.mpr ⟨_, listed, congrArg base same⟩)
  | extended => exact List.mem_append_right _ (List.mem_map.mpr ⟨_, listed, congrArg extended same⟩)

namespace RegisterMap

variable {map : RegisterMap} (orderly : map.Orderly)

include orderly

theorem size_le : map.size ≤ 64 := by
  have distinct := orderly.distinct.length_le_of_subset fun address _ => RegisterAddress.mem_all address
  simpa [size, RegisterAddress.all] using distinct

theorem fieldCount_table : map.table.fieldCount = map.pool.length := by
  rw [← orderly.full, RegisterTable.fieldCount, table, List.flatMap_map]
  rfl

theorem defineRegister_table (name : String) (address : RegisterAddress) (width : Nat) :
    map.table.defineRegister name address width =
      (map.defineRegister name address width).map fun (handle, grown) => (handle, grown.table) := by
  have size : map.table.registers.length = map.size := List.length_map ..
  have capacity : map.table.registerCapacity = map.registerCapacity := rfl
  -- Addresses run out long before the byte that a handle has for the position.
  have room : (map.registerCapacity ≤ map.size ∨ maxRegisters ≤ map.size) = (map.registerCapacity ≤ map.size) :=
    propext (or_iff_left (Nat.not_le.mpr (Nat.lt_of_le_of_lt (size_le orderly) (by decide))))
  simp only [RegisterTable.defineRegister, defineRegister, isSome_register?, size, room, capacity]
  by_cases range : width = 0 ∨ registerWidth < width
  · rw [if_pos range, if_pos range]
    rfl
  · rw [if_neg range, if_neg range]
    by_cases taken : address ∈ map.table.registers.map Register.address
    · rw [if_pos taken, if_pos taken]
      rfl
    · rw [if_neg taken, if_neg taken]
      by_cases full : map.registerCapacity ≤ map.size
      · rw [if_pos full, if_pos full]
        rfl
      · rw [if_neg full, if_neg full]
        simp only [Except.map, table, List.map_append]
        rfl

theorem orderly_defineRegister {name : String} {address : RegisterAddress} {width : Nat} {handle : Handle}
    {grown : RegisterMap} (defined : map.defineRegister name address width = .ok (handle, grown)) : grown.Orderly := by
  obtain ⟨-, fresh, -, -, rfl⟩ := defineRegister_ok defined
  exact orderly_append orderly fresh name width

theorem table_insertField {owner : Nat} {slot : Slot} (found : map.slots[owner]? = some slot) (field : Field) :
    (map.insertField owner slot.last field).table =
      { map.table with
        registers := map.table.registers.modify owner fun own => { own with fields := own.fields ++ [field] } } := by
  simp only [table, RegisterTable.mk.injEq]
  refine ⟨rfl, rfl, ?_⟩
  apply List.ext_getElem?
  intro index
  rw [List.getElem?_map, slot_insertField, List.getElem?_modify, List.getElem?_map]
  cases place : map.slots[index]? with
  | none => rfl
  | some other =>
    have fields := fieldsOf_insertField field orderly found place
    by_cases own : index = owner
    · subst own
      rw [if_pos rfl, if_pos rfl] at fields
      simp only [Option.map_some, Option.map_eq_map, if_true]
      exact congrArg (some <| Register.mk other.name other.address other.width ·) fields
    · rw [if_neg own, if_neg own] at fields
      simp only [Option.map_some, Option.map_eq_map, if_neg own, if_neg (Ne.symm own)]
      exact congrArg (some <| Register.mk other.name other.address other.width ·) fields

theorem defineField_table (handle : Handle) (field : Field) :
    map.table.defineField handle field = (map.defineField handle field).map table := by
  rw [RegisterTable.defineField, defineField_eq, register?_table]
  cases found : map.slot? handle with
  | none => rfl
  | some slot =>
    have inserted := table_insertField orderly (slot_of_handle found) field
    have capacity : map.table.fieldCapacity = map.fieldCapacity := rfl
    simp only [Option.map_some, fieldCount_table orderly, capacity, describe]
    by_cases range : field.width = 0 ∨ slot.width < field.offset + field.width
    · rw [if_pos range, if_pos range]
      rfl
    · rw [if_neg range, if_neg range]
      by_cases taken : field.name ∈ (map.fieldsOf slot).map Field.name
      · rw [if_pos taken, if_pos taken]
        rfl
      · rw [if_neg taken, if_neg taken]
        by_cases full : map.fieldCapacity ≤ map.pool.length
        · rw [if_pos full, if_pos full]
          rfl
        · rw [if_neg full, if_neg full]
          exact congrArg Except.ok inserted.symm

theorem orderly_defineField {handle : Handle} {field : Field} {grown : RegisterMap}
    (defined : map.defineField handle field = .ok grown) : grown.Orderly := by
  obtain ⟨slot, resolved, -, -, -, rfl⟩ := defineField_ok defined
  exact orderly_insertField field orderly (slot_of_handle resolved)

theorem definitions_table : map.registers.map map.definition = map.table.registers.map .ok := by
  apply List.ext_getElem?
  intro index
  rw [registers, table, List.getElem?_map, List.getElem?_mapIdx, List.getElem?_map, List.getElem?_map, Option.map_map,
    Option.map_map]
  cases place : map.slots[index]? with
  | none => rfl
  | some slot =>
    have inside : index < map.size := (List.getElem?_eq_some_iff.mp place).1
    have position : (UInt8.ofNat index).toNat = index :=
      UInt8.toNat_ofNat_of_lt' (Nat.lt_of_lt_of_le inside (Nat.le_trans (size_le orderly) (by decide)))
    have found : map.slot? ⟨.ofNat index, slot.address⟩ = some slot := by
      rw [slot?, position, place]
      simp
    simp only [Option.map_some, Function.comp_apply, definition, found]
    rfl

private theorem perform_registerOfWidth (name : String) (address : RegisterAddress) (width : Nat) :
    map.table.perform (.registerOfWidth name address width) =
      ((map.perform (.registerOfWidth name address width)).1,
        (map.perform (.registerOfWidth name address width)).2.table) ∧
    (map.perform (.registerOfWidth name address width)).2.Orderly := by
  have same := defineRegister_table orderly name address width
  cases result : map.defineRegister name address width with
  | error cause =>
    rw [result] at same
    simp only [RegisterTable.perform, perform, same, result]
    exact ⟨rfl, orderly⟩
  | ok defined =>
    rw [result] at same
    simp only [RegisterTable.perform, perform, same, result]
    exact ⟨rfl, orderly_defineRegister orderly result⟩

/-- One call: the same outcome, the table of the map after it, and a map in order. -/
theorem perform_table (definition : Definition) :
    map.table.perform definition = ((map.perform definition).1, (map.perform definition).2.table) ∧
    (map.perform definition).2.Orderly := by
  cases definition with
  | register name address => exact perform_registerOfWidth orderly name address registerWidth
  | registerOfWidth name address width => exact perform_registerOfWidth orderly name address width
  | field handle name offset width =>
    have same := defineField_table orderly handle ⟨name, offset, width⟩
    cases result : map.defineField handle ⟨name, offset, width⟩ with
    | error cause =>
      rw [result] at same
      simp only [RegisterTable.perform, perform, same, result]
      exact ⟨rfl, orderly⟩
    | ok grown =>
      rw [result] at same
      simp only [RegisterTable.perform, perform, same, result]
      exact ⟨rfl, orderly_defineField orderly result⟩

theorem performAll_table (definitions : List Definition) :
    Definition.performAll RegisterTable.perform definitions map.table =
      ((Definition.performAll perform definitions map).1, (Definition.performAll perform definitions map).2.table) ∧
    (Definition.performAll perform definitions map).2.Orderly := by
  induction definitions generalizing map with
  | nil => exact ⟨rfl, orderly⟩
  | cons definition rest ih =>
    obtain ⟨same, kept⟩ := perform_table orderly definition
    obtain ⟨later, last⟩ := ih kept
    refine ⟨?_, last⟩
    simp only [Definition.performAll, same, later]

omit orderly

/-- Any calls to the builder of a map, in any order and over any handles, return what they return for a
table, and leave the definitions of that table. -/
theorem build_table (registerCapacity fieldCapacity : Nat) (definitions : List Definition) :
    let built := Definition.performAll perform definitions (empty registerCapacity fieldCapacity)
    let table := Definition.performAll RegisterTable.perform definitions
      (RegisterTable.empty registerCapacity fieldCapacity)
    built.1 = table.1 ∧ built.2.registers.map built.2.definition = table.2.registers.map .ok := by
  intro built table
  obtain ⟨same, orderly⟩ := performAll_table (orderly_empty registerCapacity fieldCapacity) definitions
  have outcomes : table.1 = built.1 := congrArg Prod.fst same
  have rows : table.2 = built.2.table := congrArg Prod.snd same
  rw [outcomes, rows, definitions_table orderly]
  exact ⟨rfl, rfl⟩

/-- Every refusal once, between two registers and two fields that fill a map. -/
theorem build_table_refused :
    let lower : Handle := ⟨0, .base 0⟩
    let upper : Handle := ⟨1, .extended 0⟩
    let built := Definition.performAll perform
      [.registerOfWidth "A" (.base 0) 0, .registerOfWidth "A" (.base 0) 8, .register "B" (.base 0),
        .register "B" (.extended 0), .register "C" (.base 1), .field ⟨1, .base 0⟩ "b" 0 4, .field upper "b" 0 4,
        .field lower "a" 7 2, .field lower "a" 0 4, .field lower "a" 4 4, .field lower "c" 4 4] (empty 2 2)
    built.1 = [.error .invalidWidth, .ok (some lower), .error .duplicateAddress, .ok (some upper),
      .error .capacityExceeded, .error .unknownRegister, .ok none, .error .fieldOutOfRange, .ok none,
      .error .duplicateField, .error .capacityExceeded] ∧
    built.2.registers.map built.2.definition =
      [.ok ⟨"A", .base 0, 8, [⟨"a", 0, 4⟩]⟩, .ok ⟨"B", .extended 0, 16, [⟨"b", 0, 4⟩]⟩] := by
  intro lower upper built
  obtain ⟨outcomes, rows⟩ := build_table 2 2 _
  exact ⟨outcomes.trans rfl, rows.trans rfl⟩

end RegisterMap
end Clause22
