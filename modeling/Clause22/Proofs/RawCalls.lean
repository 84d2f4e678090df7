import Clause22.Bus.Request
import Clause22.Client

/-! Reads and writes of raw words through a client, as data. A call to the base bank is one transaction of
the bus; one to the extended bank is three, of which the outer two turn the page. -/

namespace Clause22

def RegisterAddress.page (address : RegisterAddress) : Nat :=
  match address.bank with
  | .base => 0
  | .extended => 1

theorem RegisterAddress.index_le (address : RegisterAddress) : address.index.toNat ≤ 31 :=
  Nat.le_of_lt_succ address.index.isLt

namespace Client

inductive RawCall
  | read (address : RegisterAddress)
  | write (address : RegisterAddress) (value : Word)
deriving DecidableEq

namespace RawCall

def address : RawCall → RegisterAddress
  | .read address => address
  | .write address _ => address

def failed : RawCall → Error → Reply
  | .read _, cause => .word (.error cause)
  | .write .., cause => .done (.error cause)

@[simp] theorem failure?_failed (call : RawCall) (cause : Error) : (call.failed cause).failure? = some cause := by
  cases call <;> rfl

variable {β : Type} [Bus β]

def serve (client : Client) (phy : Nat) : RawCall → β → Reply × β
  | .read address, bus =>
    let (outcome, bus) := client.readRaw phy address bus
    (.word outcome, bus)
  | .write address value, bus =>
    let (outcome, bus) := client.writeRaw phy address value bus
    (.done outcome, bus)

def serveAll (client : Client) (phy : Nat) : List RawCall → β → List Reply × β
  | [], bus => ([], bus)
  | call :: rest, bus =>
    let (reply, bus) := call.serve client phy bus
    let (replies, bus) := serveAll client phy rest bus
    (reply :: replies, bus)

end RawCall

section Bank

variable {β α : Type} [Bus β] {client : Client} {phy : Nat} {address : RegisterAddress} (access : Nat → Access β α)

theorem withBank_refused (beyond : Wire.maxPhyAddress < phy) (bus : β) :
    client.withBank phy address access bus = (.error (.config .invalidPhyAddress), bus) := by
  rw [withBank, if_pos beyond]
  rfl

theorem withBank_base (fits : phy ≤ Wire.maxPhyAddress) (base : address.bank = .base) :
    client.withBank phy address access = access address.index.toNat := by
  rw [withBank, if_neg (Nat.not_lt.mpr fits), base]

theorem withBank_unpaged (fits : phy ≤ Wire.maxPhyAddress) (extended : address.bank = .extended)
    (unpaged : client.config.pageSelect = none) (bus : β) :
    client.withBank phy address access bus = (.error (.config .invalidRegisterAddress), bus) := by
  rw [withBank, if_neg (Nat.not_lt.mpr fits), extended, unpaged]
  rfl

theorem withBank_extended {pageSelect : Nat} (fits : phy ≤ Wire.maxPhyAddress) (extended : address.bank = .extended)
    (paged : client.config.pageSelect = some pageSelect) :
    client.withBank phy address access = onExtendedPage phy pageSelect (access address.index.toNat) := by
  rw [withBank, if_neg (Nat.not_lt.mpr fits), extended, paged]

end Bank

theorem RawCall.serve_refused {β : Type} [Bus β] {client : Client} {phy : Nat} (beyond : Wire.maxPhyAddress < phy)
    (call : RawCall) (bus : β) :
    call.serve client phy bus = (call.failed (.config .invalidPhyAddress), bus) := by
  cases call with
  | read address =>
    have refused : client.readRaw phy address bus = _ := withBank_refused _ beyond bus
    rw [serve, refused]
    rfl
  | write address value =>
    have refused : client.writeRaw phy address value bus = _ := withBank_refused _ beyond bus
    rw [serve, refused]
    rfl

end Client
end Clause22
