/-! Why a request is refused or fails. A configuration error blames a table or an address, a field
error blames a word or a named value, and a bus error says what happened on the lines. -/

namespace Clause22

inductive ConfigError
  | duplicateAddress
  | duplicateField
  | fieldOutOfRange
  | invalidWidth
  | invalidPhyAddress
  | invalidRegisterAddress
  | unknownRegister
  | capacityExceeded
deriving DecidableEq

def ConfigError.message : ConfigError → String
  | .duplicateAddress => "register address already defined"
  | .duplicateField => "field name already defined"
  | .fieldOutOfRange => "field exceeds register width"
  | .invalidWidth => "invalid register width"
  | .invalidPhyAddress => "invalid PHY address"
  | .invalidRegisterAddress => "invalid register address"
  | .unknownRegister => "unknown register"
  | .capacityExceeded => "register map capacity exceeded"

inductive FieldError
  | unknownField
  | valueOutOfRange
deriving DecidableEq

def FieldError.message : FieldError → String
  | .unknownField => "unknown field"
  | .valueOutOfRange => "value out of range for field"

inductive IoError
  | busBusy
  | transport
  | noResponse
deriving DecidableEq

def IoError.message : IoError → String
  | .busBusy => "MDIO bus busy"
  | .transport => "pin transport failure"
  | .noResponse => "no PHY response during turnaround"

/-- Any failure of a register access, labelled with the part that refused it. -/
inductive Error
  | config (cause : ConfigError)
  | field (cause : FieldError)
  | io (cause : IoError)
deriving DecidableEq

def Error.message : Error → String
  | .config cause => "config: " ++ cause.message
  | .field cause => "field: " ++ cause.message
  | .io cause => "io: " ++ cause.message

end Clause22
