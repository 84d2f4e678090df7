import Clause22.Error
import Clause22.Wire

/-! Registers as their users see them: at an address in one of two banks, cut into named bit ranges, and read and
written by the names of these. -/

namespace Clause22

/-! A PHY has two banks of 32 registers; a frame carries only the index, so the bank is reached by switching pages.
The raw form of an address puts the bank in bit 5 and orders the addresses. -/

inductive Bank
  | base
  | extended
deriving DecidableEq

structure RegisterAddress where
  bank : Bank
  /-- What a frame carries. -/
  index : BitVec 5
deriving DecidableEq

/-- A register index that no five-bit field can carry. -/
inductive IndexError
  | tooLarge
deriving DecidableEq

def IndexError.message : IndexError → String
  | .tooLarge => "register index must be 0-31"

namespace RegisterAddress

def indexMask : Nat := 0x1F

def extendedBit : Nat := 0x20

def base (index : BitVec 5) : RegisterAddress := ⟨.base, index⟩

def extended (index : BitVec 5) : RegisterAddress := ⟨.extended, index⟩

def ofIndex (bank : Bank) (index : Nat) : Except IndexError RegisterAddress :=
  if index < 32 then .ok ⟨bank, .ofNat 5 index⟩ else .error .tooLarge

def raw (address : RegisterAddress) : Nat :=
  match address.bank with
  | .base => address.index.toNat
  | .extended => address.index.toNat ||| extendedBit

/-- Reads a raw address; bits above the bank bit are refused. -/
def ofRaw (raw : Nat) : Except ConfigError RegisterAddress :=
  if raw < 2 * extendedBit then
    .ok ⟨if raw &&& extendedBit = 0 then .base else .extended, .ofNat 5 (raw &&& indexMask)⟩
  else
    .error .invalidRegisterAddress

def isExtended (address : RegisterAddress) : Bool :=
  address.bank = .extended

instance : LE RegisterAddress := ⟨fun first second => first.raw ≤ second.raw⟩

instance (first second : RegisterAddress) : Decidable (first ≤ second) :=
  inferInstanceAs (Decidable (first.raw ≤ second.raw))

/-- Every address in ascending order, so the base bank comes first. -/
def all : List RegisterAddress :=
  (List.range 32).map (base <| .ofNat 5 ·) ++ (List.range 32).map (extended <| .ofNat 5 ·)

def render (address : RegisterAddress) : String :=
  (if address.isExtended then "ext:0x" else "0x") ++ hex 2 address.index.toNat

end RegisterAddress

/-! A bit range may be empty or lie beyond the word: the masks cover the part inside the word, and what lies outside
reads as zero and ignores writes. -/

structure Field where
  name : String
  offset : Nat
  width : Nat
deriving DecidableEq

/-- The word whose low `width` bits are ones. -/
def lowMask (width : Nat) : Word :=
  ~~~(BitVec.allOnes 16 <<< width)

namespace Field

def bit (name : String) (offset : Nat) : Field := ⟨name, offset, 1⟩

/-- The values that a field can hold, as a mask from bit 0. -/
def valueMask (field : Field) : Word :=
  lowMask field.width

def wordMask (field : Field) : Word :=
  field.valueMask <<< field.offset

/-- A value fits when storing it loses no bit. -/
def fits (field : Field) (value : Word) : Bool :=
  value &&& ~~~field.valueMask = 0

def extract (field : Field) (word : Word) : Word :=
  (word >>> field.offset) &&& field.valueMask

/-- Replaces the bits of a field; a value that does not fit is cut to the width. -/
def insert (field : Field) (word value : Word) : Word :=
  (word &&& ~~~field.wordMask) ||| ((value &&& field.valueMask) <<< field.offset)

/-- Aliases cover the same bits under different names. -/
def aliases (field other : Field) : Bool :=
  field.offset = other.offset ∧ field.width = other.width

def overlaps (field other : Field) : Bool :=
  field.wordMask &&& other.wordMask ≠ 0

/-- A field must have a bit and end inside its register. -/
def check (field : Field) (registerWidth : Nat) : Except ConfigError Unit :=
  if field.width = 0 ∨ registerWidth < field.offset + field.width then
    .error .fieldOutOfRange
  else
    .ok ()

end Field

/-! Fields of a register may overlap. Each of them is resolved against the one word, so overlapping fields cannot
disagree. -/

/-- The width of every register that a frame carries. -/
def registerWidth : Nat := 16

structure Register where
  name : String
  address : RegisterAddress
  width : Nat := registerWidth
  fields : List Field
deriving DecidableEq

namespace Register

/-- The bits that a word of this register may use. -/
def wordMask (register : Register) : Word :=
  lowMask register.width

def holds (register : Register) (word : Word) : Bool :=
  word &&& ~~~register.wordMask = 0

/-- The first field of a name. -/
def field (register : Register) (name : String) : Except FieldError Field :=
  match register.fields.find? (fun field => field.name = name) with
  | some field => .ok field
  | none => .error .unknownField

/-- Blames the first field that leaves the register or repeats an earlier name. -/
def checkFields (width : Nat) (earlier : List String) : List Field → Except ConfigError Unit
  | [] => .ok ()
  | field :: rest => do
    field.check width
    if field.name ∈ earlier then throw .duplicateField
    checkFields width (field.name :: earlier) rest

def validate (register : Register) : Except ConfigError Unit :=
  if register.width = 0 ∨ registerWidth < register.width then
    .error .invalidWidth
  else
    checkFields register.width [] register.fields

def assign (register : Register) (word : Word) (assignment : String × Word) : Except FieldError Word := do
  let field ← register.field assignment.1
  if field.fits assignment.2 then
    return field.insert word assignment.2
  else
    throw .valueOutOfRange

/-- Applies assignments in order. Bits that no assignment names keep their value, so packing over a
word that was just read changes the named fields alone. -/
def pack (register : Register) (base : Word) (values : List (String × Word)) : Except FieldError Word :=
  if register.holds base then
    values.foldlM register.assign base
  else
    .error .valueOutOfRange

end Register

structure View where
  register : Register
  word : Word
deriving DecidableEq

def Register.unpack (register : Register) (word : Word) : Except FieldError View :=
  if register.holds word then .ok ⟨register, word⟩ else .error .valueOutOfRange

namespace View

def get (view : View) (name : String) : Except FieldError Word := do
  return (← view.register.field name).extract view.word

def isSet (view : View) (name : String) : Except FieldError Bool := do
  return (← view.get name) ≠ 0

/-- The value of each field in declaration order. -/
def fields (view : View) : List (String × Word) :=
  view.register.fields.map fun field => (field.name, field.extract view.word)

def withFields (view : View) (values : List (String × Word)) : Except FieldError View := do
  return { view with word := ← view.register.pack view.word values }

theorem withFields_eq (view : View) (values : List (String × Word)) :
    view.withFields values = (view.register.pack view.word values).map (View.mk view.register) := by
  rw [withFields]
  cases view.register.pack view.word values <;> rfl

def withField (view : View) (name : String) (value : Word) : Except FieldError View :=
  view.withFields [(name, value)]

def renderFields (view : View) : String :=
  match view.fields with
  | [] => ""
  | fields => " " ++ ", ".intercalate (fields.map fun entry => entry.1 ++ ": " ++ toString entry.2.toNat)

/-- The name, the address, the word and then each field with its value. -/
def render (view : View) : String :=
  view.register.name ++ " @ " ++ view.register.address.render ++ " = 0x" ++ hex 4 view.word.toNat ++
    " \x7b" ++ view.renderFields ++ " \x7d"

end View
end Clause22
