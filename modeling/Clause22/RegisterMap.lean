import Clause22.Register

/-! Register maps of fixed capacity. The fields of all registers share one pool; a slot names its
register and the run of the pool that holds the register's fields, in declaration order. A refused register
or field changes nothing. Loading a whole definition or table stops at the first refusal and keeps what came
before it. -/

namespace Clause22

/-- A register of some map: its position there and its address. A map accepts the handle of another
map only if both agree with a register of its own. -/
structure Handle where
  slot : UInt8
  address : RegisterAddress
deriving DecidableEq

structure Slot where
  name : String
  address : RegisterAddress
  width : Nat
  /-- Where the run of fields starts in the pool. -/
  first : Nat
  count : Nat
deriving DecidableEq

structure RegisterMap where
  registerCapacity : Nat
  fieldCapacity : Nat
  slots : List Slot
  pool : List Field
deriving DecidableEq

namespace RegisterMap

def empty (registerCapacity fieldCapacity : Nat) : RegisterMap :=
  ⟨registerCapacity, fieldCapacity, [], []⟩

def size (map : RegisterMap) : Nat :=
  map.slots.length

def isEmpty (map : RegisterMap) : Bool :=
  map.slots.isEmpty

/-- The registers in definition order. -/
def registers (map : RegisterMap) : List Handle :=
  map.slots.mapIdx fun position slot => ⟨.ofNat position, slot.address⟩

/-- The register at an address. The bank is part of the address, so a register of the base bank
never answers for one of the extended bank. -/
def register? (map : RegisterMap) (address : RegisterAddress) : Option Handle :=
  map.registers.find? fun handle => handle.address = address

/-- The first register defined under a name. -/
def registerByName? (map : RegisterMap) (name : String) : Option Handle := do
  map.registers[← map.slots.findIdx? fun slot => slot.name = name]?

def registersByAddress (map : RegisterMap) : List Handle :=
  RegisterAddress.all.filterMap map.register?

def slot? (map : RegisterMap) (handle : Handle) : Option Slot :=
  map.slots[handle.slot.toNat]?.filter fun slot => slot.address = handle.address

def fieldsOf (map : RegisterMap) (slot : Slot) : List Field :=
  (map.pool.drop slot.first).take slot.count

def definition (map : RegisterMap) (handle : Handle) : Except ConfigError Register :=
  match map.slot? handle with
  | some slot => .ok ⟨slot.name, slot.address, slot.width, map.fieldsOf slot⟩
  | none => .error .unknownRegister

def fields (map : RegisterMap) (handle : Handle) : Except ConfigError (List Field) := do
  return (← map.definition handle).fields

/-- The definition of a handle, for requests that may also blame a field. -/
def resolve (map : RegisterMap) (handle : Handle) : Except Error Register :=
  (map.definition handle).mapError .config

def field (map : RegisterMap) (handle : Handle) (name : String) : Except Error Field := do
  ((← map.resolve handle).field name).mapError .field

def pack (map : RegisterMap) (handle : Handle) (base : Word) (values : List (String × Word)) :
    Except Error Word := do
  ((← map.resolve handle).pack base values).mapError .field

def unpack (map : RegisterMap) (handle : Handle) (word : Word) : Except Error View := do
  ((← map.resolve handle).unpack word).mapError .field

/-- A handle has one byte for the position, so no map has more registers, whatever its capacity. -/
def maxRegisters : Nat := 256

def defineRegister (map : RegisterMap) (name : String) (address : RegisterAddress)
    (width : Nat := registerWidth) : Except ConfigError (Handle × RegisterMap) :=
  if width = 0 ∨ registerWidth < width then
    .error .invalidWidth
  else if (map.register? address).isSome then
    .error .duplicateAddress
  else if map.registerCapacity ≤ map.size ∨ maxRegisters ≤ map.size then
    .error .capacityExceeded
  else
    let slot := ⟨name, address, width, map.pool.length, 0⟩
    .ok (⟨.ofNat map.size, address⟩, { map with slots := map.slots ++ [slot] })

/-- Opens a gap in the pool at `position`, the end of the run of slot `owner`, and moves every run
that starts there or later up by one. -/
def insertField (map : RegisterMap) (owner position : Nat) (field : Field) : RegisterMap where
  registerCapacity := map.registerCapacity
  fieldCapacity := map.fieldCapacity
  pool := map.pool.take position ++ field :: map.pool.drop position
  slots := map.slots.mapIdx fun index slot =>
    if index = owner then { slot with count := slot.count + 1 }
    else if position ≤ slot.first then { slot with first := slot.first + 1 }
    else slot

def defineField (map : RegisterMap) (handle : Handle) (field : Field) : Except ConfigError RegisterMap := do
  let some slot := map.slot? handle | throw .unknownRegister
  field.check slot.width
  if (map.fieldsOf slot).any fun own => own.name = field.name then throw .duplicateField
  if map.fieldCapacity ≤ map.pool.length then throw .capacityExceeded
  return map.insertField handle.slot.toNat (slot.first + slot.count) field

/-- Appends fields up to the first that is refused. -/
def defineFields (map : RegisterMap) (handle : Handle) : List Field → Except ConfigError Unit × RegisterMap
  | [] => (.ok (), map)
  | field :: rest =>
    match map.defineField handle field with
    | .error cause => (.error cause, map)
    | .ok grown => grown.defineFields handle rest

def define (map : RegisterMap) (register : Register) : Except ConfigError Handle × RegisterMap :=
  match map.defineRegister register.name register.address register.width with
  | .error cause => (.error cause, map)
  | .ok (handle, grown) =>
    let (outcome, filled) := grown.defineFields handle register.fields
    (outcome.map fun _ => handle, filled)

/-- Appends the registers of a table up to the first that is refused. -/
def defineTable (map : RegisterMap) : List Register → Except ConfigError Unit × RegisterMap
  | [] => (.ok (), map)
  | register :: rest =>
    match map.define register with
    | (.error cause, grown) => (.error cause, grown)
    | (.ok _, grown) => grown.defineTable rest

def ofTable (registerCapacity fieldCapacity : Nat) (table : List Register) : Except ConfigError RegisterMap :=
  let (outcome, map) := (empty registerCapacity fieldCapacity).defineTable table
  outcome.map fun _ => map

end RegisterMap
end Clause22
