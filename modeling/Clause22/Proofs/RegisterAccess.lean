import Clause22.Proofs.HandleResolution
import Clause22.Proofs.RefusedRequests

/-! Reads and updates of a register, in terms of raw calls: each of them fetches one word, and an update that accepts
its assignments stores one. -/

namespace Clause22

namespace RegisterMap

variable {map : RegisterMap}

theorem slot_of_definition {handle : Handle} {register : Register} (resolved : map.definition handle = .ok register) :
    ∃ slot ∈ map.slots, map.describe slot = register ∧ slot.address = handle.address := by
  rw [definition] at resolved
  cases found : map.slot? handle with
  | none =>
    rw [found] at resolved
    cases resolved
  | some slot =>
    rw [found] at resolved
    cases resolved
    obtain ⟨placed, same⟩ := Option.filter_eq_some_iff.mp found
    exact ⟨slot, List.mem_of_getElem? placed, rfl, of_decide_eq_true same⟩

theorem definition_address {handle : Handle} {register : Register} (resolved : map.definition handle = .ok register) :
    register.address = handle.address := by
  obtain ⟨slot, -, rfl, same⟩ := slot_of_definition resolved
  exact same

theorem mem_table_of_definition {handle : Handle} {register : Register}
    (resolved : map.definition handle = .ok register) : register ∈ map.table.registers := by
  obtain ⟨slot, listed, rfl, -⟩ := slot_of_definition resolved
  exact List.mem_map_of_mem listed

theorem definition_of_mem (orderly : map.Orderly) {handle : Handle} (member : handle ∈ map.registers) :
    ∃ register, map.definition handle = .ok register := by
  obtain ⟨slot, found⟩ := (register?_eq_some_iff orderly handle).mp (register?_of_mem orderly member)
  exact ⟨_, by rw [definition, found]⟩

theorem register?_some {address : RegisterAddress} {handle : Handle} (found : map.register? address = some handle) :
    handle ∈ map.registers ∧ handle.address = address := by
  rw [register?] at found
  have same := List.find?_some found
  exact ⟨List.mem_of_find?_eq_some found, of_decide_eq_true same⟩

end RegisterMap

namespace Client

variable {β : Type} [Bus β] {client : Client} {phy : Nat}

theorem readRegister_eq {handle : Handle} {register : Register} (resolved : client.map.definition handle = .ok register)
    (bus : β) :
    client.readRegister phy handle bus =
      let (outcome, after) := client.readRaw phy register.address bus
      (outcome.map fun word => ⟨register, word &&& register.wordMask⟩, after) := by
  have found : client.map.resolve handle = .ok register := by
    rw [RegisterMap.resolve, resolved]
    rfl
  rw [readRegister, Access.bind_eq, Access.known, found]
  simp only [Access.bind_eq]
  rcases client.readRaw phy register.address bus with ⟨cause | word, after⟩
  · rfl
  · simp only [Register.unpack_masked]
    rfl

theorem readRegister_ok {handle : Handle} {view : View} {before after : β}
    (read : client.readRegister phy handle before = (.ok view, after)) :
    ∃ register word, client.map.definition handle = .ok register ∧
      client.readRaw phy register.address before = (.ok word, after) ∧
      view = ⟨register, word &&& register.wordMask⟩ := by
  cases resolved : client.map.definition handle with
  | error cause =>
    rw [readRegister, RegisterMap.resolve, resolved] at read
    cases read
  | ok register =>
    rw [readRegister_eq resolved] at read
    rcases fetched : client.readRaw phy register.address before with ⟨cause | word, middle⟩
    · rw [fetched] at read
      cases read
    · rw [fetched] at read
      cases read
      exact ⟨register, word, rfl, fetched, rfl⟩

/-- What an update of a register is: a word is fetched and cut to the width, and if the assignments are accepted, what
they make of it is stored at the same address. -/
theorem modifyRegister_eq {handle : Handle} {register : Register}
    (resolved : client.map.definition handle = .ok register) (values : List (String × Word)) (bus : β) :
    client.modifyRegister phy handle values bus =
      match client.readRaw phy register.address bus with
      | (.error cause, middle) => (.error cause, middle)
      | (.ok word, middle) =>
        match register.pack (word &&& register.wordMask) values with
        | .error cause => (.error (.field cause), middle)
        | .ok packed =>
          let (outcome, after) := client.writeRaw phy register.address packed middle
          (outcome.map fun _ => ⟨register, packed⟩, after) := by
  rw [modifyRegister, Access.bind_eq, readRegister_eq resolved]
  rcases client.readRaw phy register.address bus with ⟨cause | word, middle⟩
  · rfl
  · cases packs : register.pack (word &&& register.wordMask) values with
    | error cause =>
      have refused : ((View.mk register (word &&& register.wordMask)).withFields values).mapError Error.field =
          .error (.field cause) := by
        rw [View.withFields_eq, packs]
        rfl
      simp only [Except.map, Access.bind_eq, packs, refused, Access.known]
    | ok packed =>
      have updated : ((View.mk register (word &&& register.wordMask)).withFields values).mapError Error.field =
          .ok ⟨register, packed⟩ := by
        rw [View.withFields_eq, packs]
        rfl
      simp only [Except.map, Access.bind_eq, packs, updated, Access.known, writeView]
      rcases client.writeRaw phy register.address packed middle with ⟨cause | _, after⟩ <;> rfl

theorem reset_unknown (unknown : client.map.register? client.config.resetRegister = none) (bus : β) :
    client.reset phy bus = (.error (.config .unknownRegister), bus) := by
  rw [reset, Access.bind_eq, resetHandle, unknown]
  rfl

theorem reset_known {handle : Handle} (known : client.map.register? client.config.resetRegister = some handle)
    (bus : β) :
    client.reset phy bus =
      let (outcome, after) := client.modifyRegister phy handle [(client.config.resetField, 1)] bus
      (outcome.map fun _ => (), after) := by
  rw [reset, Access.bind_eq, resetHandle, known]
  simp only [Access.known, Option.elim]
  rw [Access.bind_eq]
  rcases client.modifyRegister phy handle [(client.config.resetField, 1)] bus with ⟨cause | view, after⟩ <;> rfl

end Client
end Clause22
