import Clause22.Bus.Request
import Clause22.Station
import Clause22.RegisterMap

/-! Access to the registers of a map by name and by field, over any bus. A register of the extended
bank is reached by selecting its page, making the access, and asking for the base page again. -/

namespace Clause22

structure Client where
  map : RegisterMap
  config : Config
deriving DecidableEq

namespace Client

/-- The page of the extended bank. -/
def extendedPage : Word := 1

/-- The page selected between accesses. -/
def basePage : Word := 0

def create (map : RegisterMap) (config : Config) : Except Error Client := do
  config.validate.mapError .config
  return ⟨map, config⟩

variable {β : Type} [Bus β]

/-- Makes an access on the extended page. The base page is written back even when the access failed, and then the
access is to blame. Over a bus that its failure left busy that write is refused, and the page stays. -/
def onExtendedPage (phy pageSelect : Nat) (access : Access β α) : Access β α := fun bus =>
  match Bus.write phy pageSelect extendedPage bus with
  | (.error cause, bus) => (.error cause, bus)
  | (.ok (), bus) =>
    let (outcome, bus) := access bus
    let (restored, bus) := Bus.write phy pageSelect basePage bus
    (outcome.bind fun value => restored.map fun _ => value, bus)

/-- Makes an access at an address, given what to do at its index. -/
def withBank (client : Client) (phy : Nat) (address : RegisterAddress) (access : Nat → Access β α) :
    Access β α :=
  if Wire.maxPhyAddress < phy then throw (.config .invalidPhyAddress)
  else
    match address.bank, client.config.pageSelect with
    | .base, _ => access address.index.toNat
    | .extended, none => throw (.config .invalidRegisterAddress)
    | .extended, some pageSelect => onExtendedPage phy pageSelect (access address.index.toNat)

def readRaw (client : Client) (phy : Nat) (address : RegisterAddress) : Access β Word :=
  client.withBank phy address (Bus.read phy)

def writeRaw (client : Client) (phy : Nat) (address : RegisterAddress) (value : Word) : Access β Unit :=
  client.withBank phy address fun index => Bus.write phy index value

/-- Reads a register. Bits above the width of a narrow one are dropped. -/
def readRegister (client : Client) (phy : Nat) (handle : Handle) : Access β View := do
  let register ← Access.known (client.map.resolve handle)
  let word ← client.readRaw phy register.address
  Access.known ((register.unpack (word &&& register.wordMask)).mapError .field)

def handleByName (client : Client) (name : String) : Except Error Handle :=
  (client.map.registerByName? name).elim (.error (.config .unknownRegister)) .ok

def readRegisterByName (client : Client) (phy : Nat) (name : String) : Access β View := do
  client.readRegister phy (← Access.known (client.handleByName name))

/-- Writes a register whose unnamed bits are zero. -/
def writeRegister (client : Client) (phy : Nat) (handle : Handle) (values : List (String × Word)) :
    Access β Unit := do
  let register ← Access.known (client.map.resolve handle)
  let word ← Access.known ((register.pack 0 values).mapError .field)
  client.writeRaw phy register.address word

def writeView (client : Client) (phy : Nat) (view : View) : Access β Unit :=
  client.writeRaw phy view.register.address view.word

def modifyRegister (client : Client) (phy : Nat) (handle : Handle) (values : List (String × Word)) :
    Access β View := do
  let current ← client.readRegister phy handle
  let updated ← Access.known ((current.withFields values).mapError .field)
  client.writeView phy updated
  return updated

def resetHandle (client : Client) : Except Error Handle :=
  (client.map.register? client.config.resetRegister).elim (.error (.config .unknownRegister)) .ok

/-- Sets the reset field of a PHY. The field clears itself later, which is not waited for. -/
def reset (client : Client) (phy : Nat) : Access β Unit := do
  let handle ← Access.known client.resetHandle
  let _ ← client.modifyRegister phy handle [(client.config.resetField, 1)]

/-- Reads registers up to the first that fails, and gives the views read before it. -/
def readAll (client : Client) (phy : Nat) : List Handle → StateM β (List View × Except Error Unit)
  | [] => pure ([], .ok ())
  | handle :: rest => do
    match ← (client.readRegister phy handle).run with
    | .error cause => pure ([], .error cause)
    | .ok view =>
      let (views, outcome) ← client.readAll phy rest
      pure (view :: views, outcome)

def dump (client : Client) (phy : Nat) : StateM β (List View × Except Error Unit) :=
  client.readAll phy client.map.registersByAddress

end Client
end Clause22
