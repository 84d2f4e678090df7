import Clause22.Proofs.TableLoading

/-! What a handle stands for. It is checked by comparing a position and an address, and no later definition moves a
register or takes its address, so a handle keeps standing for the register it was issued for, and for no other. -/

namespace Clause22

def BuilderCall.heading? : BuilderCall → Option (String × RegisterAddress × Nat)
  | .define (.register name address) => some (name, address, registerWidth)
  | .define (.registerOfWidth name address width) => some (name, address, width)
  | .load register => some (register.name, register.address, register.width)
  | .define (.field ..) | .loadTable _ => none

namespace RegisterMap

def returned? (map : RegisterMap) : BuilderCall → Option Handle
  | .define definition => (map.perform definition).1.toOption.join
  | .load register => (map.define register).1.toOption
  | .loadTable _ => none

/-- The handle of a new register, if it is accepted. -/
def opened (map : RegisterMap) (name : String) (address : RegisterAddress) (width : Nat) : List Handle :=
  match map.defineRegister name address width with
  | .ok (handle, _) => [handle]
  | .error _ => []

def openedByTable (map : RegisterMap) : List Register → List Handle
  | [] => []
  | register :: rest =>
    map.opened register.name register.address register.width ++
      match map.define register with
      | (.ok _, grown) => grown.openedByTable rest
      | (.error _, _) => []

/-- The handles of the registers that a call adds, returned or not, in the order of their definition. -/
def openedBy (map : RegisterMap) : BuilderCall → List Handle
  | .define (.register name address) => map.opened name address registerWidth
  | .define (.registerOfWidth name address width) => map.opened name address width
  | .define (.field ..) => []
  | .load register => map.opened register.name register.address register.width
  | .loadTable table => map.openedByTable table

def openedByAll (map : RegisterMap) : List BuilderCall → List Handle
  | [] => []
  | call :: rest => map.openedBy call ++ (map.build call).openedByAll rest

/-- A handle stands for the register of this name, address and width, and the address leads back to the handle. -/
structure Denotes (map : RegisterMap) (handle : Handle) (name : String) (address : RegisterAddress) (width : Nat) :
    Prop where
  resolves : ∃ register, map.definition handle = .ok register ∧ register.name = name ∧ register.address = address ∧
    register.width = width
  found : map.register? address = some handle
  listed : map.registers[handle.slot.toNat]? = some handle

/-- A map refuses a handle, whatever is asked of it, exactly if it does not know it. -/
structure RefusesUnless (map : RegisterMap) (handle : Handle) (known : Prop) : Prop where
  definition : map.definition handle = .error .unknownRegister ↔ ¬ known
  fields : map.fields handle = .error .unknownRegister ↔ ¬ known
  field : ∀ name, map.field handle name = .error (.config .unknownRegister) ↔ ¬ known
  pack : ∀ base values, map.pack handle base values = .error (.config .unknownRegister) ↔ ¬ known
  unpack : ∀ word, map.unpack handle word = .error (.config .unknownRegister) ↔ ¬ known

/-- A map answers for a handle as its register does. -/
structure AnswersAs (map : RegisterMap) (handle : Handle) (register : Register) : Prop where
  definition : map.definition handle = .ok register
  fields : map.fields handle = .ok register.fields
  field : ∀ name, map.field handle name = (register.field name).mapError .field
  pack : ∀ base values, map.pack handle base values = (register.pack base values).mapError .field
  unpack : ∀ word, map.unpack handle word = (register.unpack word).mapError .field

section Listing

variable {map grown : RegisterMap} {handle : Handle}

theorem registers_defineRegister {name : String} {address : RegisterAddress} {width : Nat}
    (defined : map.defineRegister name address width = .ok (handle, grown)) :
    grown.registers = map.registers ++ [handle] := by
  obtain ⟨-, -, -, rfl, rfl⟩ := defineRegister_ok defined
  exact List.mapIdx_concat

theorem registers_defineField {field : Field} (defined : map.defineField handle field = .ok grown) :
    grown.registers = map.registers := by
  obtain ⟨slot, -, -, -, -, rfl⟩ := defineField_ok defined
  apply List.ext_getElem?
  intro index
  rw [registers, registers, List.getElem?_mapIdx, List.getElem?_mapIdx, slot_insertField, Option.map_map]
  congr 1
  funext other
  by_cases own : index = handle.slot.toNat
  · simp only [Function.comp_apply, if_pos own, Slot.grown]
  · simp only [Function.comp_apply, if_neg own, Slot.shifted]

theorem registers_defineFields (map : RegisterMap) (handle : Handle) (fields : List Field) :
    (map.defineFields handle fields).2.registers = map.registers := by
  induction fields generalizing map with
  | nil => rfl
  | cons field rest ih =>
    rw [defineFields]
    cases result : map.defineField handle field with
    | error cause => rfl
    | ok grown => exact (ih grown).trans (registers_defineField result)

theorem registers_define (map : RegisterMap) (register : Register) :
    (map.define register).2.registers =
      map.registers ++ map.opened register.name register.address register.width := by
  rw [define, opened]
  cases result : map.defineRegister register.name register.address register.width with
  | error cause => exact (List.append_nil _).symm
  | ok defined => exact (registers_defineFields defined.2 defined.1 register.fields).trans (registers_defineRegister result)

theorem registers_defineTable (map : RegisterMap) (table : List Register) :
    (map.defineTable table).2.registers = map.registers ++ map.openedByTable table := by
  induction table generalizing map with
  | nil => exact (List.append_nil _).symm
  | cons register rest ih =>
    have first := map.registers_define register
    rw [defineTable, openedByTable]
    rcases result : map.define register with ⟨cause | _, grown⟩
    · rw [result] at first
      rw [List.append_nil]
      exact first
    · rw [result] at first
      rw [ih grown, first, List.append_assoc]

theorem registers_perform (map : RegisterMap) (name : String) (address : RegisterAddress) (width : Nat) :
    (map.perform (.registerOfWidth name address width)).2.registers =
      map.registers ++ map.opened name address width := by
  rw [perform, opened]
  cases result : map.defineRegister name address width with
  | error cause => exact (List.append_nil _).symm
  | ok defined => exact registers_defineRegister result

theorem registers_build (map : RegisterMap) (call : BuilderCall) :
    (map.build call).registers = map.registers ++ map.openedBy call := by
  cases call with
  | load register => exact map.registers_define register
  | loadTable table => exact map.registers_defineTable table
  | define definition =>
    cases definition with
    | register name address => exact map.registers_perform name address registerWidth
    | registerOfWidth name address width => exact map.registers_perform name address width
    | field handle name offset width =>
      rw [build, perform, openedBy, List.append_nil]
      cases result : map.defineField handle ⟨name, offset, width⟩ with
      | error cause => rfl
      | ok grown => exact registers_defineField result

theorem registers_buildAll (map : RegisterMap) (calls : List BuilderCall) :
    (calls.foldl build map).registers = map.registers ++ map.openedByAll calls := by
  induction calls generalizing map with
  | nil => exact (List.append_nil _).symm
  | cons call rest ih => rw [List.foldl_cons, ih, registers_build, openedByAll, List.append_assoc]

end Listing

section Places

/-- The slot at a position is that of a register of this name, address and width. -/
def Places (index : Nat) (name : String) (address : RegisterAddress) (width : Nat) (map : RegisterMap) : Prop :=
  ∃ slot, map.slots[index]? = some slot ∧ slot.name = name ∧ slot.address = address ∧ slot.width = width

variable {index : Nat} {name : String} {address : RegisterAddress} {width : Nat}

/-- Nothing that is defined later changes what a slot was defined as, only where its fields are. -/
theorem places_kept : Kept (Places index name address width) where
  register := by
    rintro map grown _ _ _ handle ⟨slot, found, same⟩ defined
    obtain ⟨-, -, -, -, rfl⟩ := defineRegister_ok defined
    exact ⟨slot, List.getElem?_append_left (List.getElem?_eq_some_iff.mp found).1 ▸ found, same⟩
  field := by
    rintro map grown handle field ⟨slot, found, same⟩ defined
    obtain ⟨owner, -, -, -, -, rfl⟩ := defineField_ok defined
    refine ⟨_, by rw [slot_insertField, found]; rfl, ?_⟩
    by_cases own : index = handle.slot.toNat
    · rw [if_pos own]
      exact same
    · rw [if_neg own]
      exact same

theorem places_defineRegister {map grown : RegisterMap} (orderly : map.Orderly) {handle : Handle}
    (defined : map.defineRegister name address width = .ok (handle, grown)) :
    grown.Places handle.slot.toNat name address width ∧ handle.address = address := by
  obtain ⟨-, -, -, rfl, rfl⟩ := defineRegister_ok defined
  have position : (UInt8.ofNat map.size).toNat = map.slots.length :=
    UInt8.toNat_ofNat_of_lt' (Nat.lt_of_le_of_lt (size_le orderly) (by decide))
  exact ⟨⟨_, by rw [position]; exact List.getElem?_concat_length, rfl, rfl, rfl⟩, rfl⟩

theorem places_returned {map : RegisterMap} (orderly : map.Orderly) {call : BuilderCall} {handle : Handle}
    (returned : map.returned? call = some handle) :
    ∃ name address width, call.heading? = some (name, address, width) ∧
      (map.build call).Places handle.slot.toNat name address width ∧ handle.address = address := by
  have single {name : String} {address : RegisterAddress} {width : Nat}
      (accepted : (map.perform (.registerOfWidth name address width)).1.toOption.join = some handle) :
      (map.perform (.registerOfWidth name address width)).2.Places handle.slot.toNat name address width ∧
        handle.address = address := by
    rw [perform] at accepted ⊢
    cases result : map.defineRegister name address width with
    | error cause =>
      rw [result] at accepted
      cases accepted
    | ok defined =>
      rw [result] at accepted
      cases accepted
      exact places_defineRegister orderly result
  cases call with
  | loadTable table => cases returned
  | load register =>
    refine ⟨_, _, _, rfl, ?_⟩
    rw [returned?, define] at returned
    rw [build, define]
    cases result : map.defineRegister register.name register.address register.width with
    | error cause =>
      rw [result] at returned
      cases returned
    | ok defined =>
      obtain ⟨placed, addressed⟩ := places_defineRegister orderly result
      obtain rfl : defined.1 = handle := by
        simp only [result] at returned
        cases loaded : (defined.2.defineFields defined.1 register.fields).1 with
        | error cause =>
          rw [loaded] at returned
          cases returned
        | ok =>
          rw [loaded] at returned
          exact Option.some.inj returned
      exact ⟨places_kept.defineFields placed defined.1 register.fields, addressed⟩
  | define definition =>
    cases definition with
    | register name address => exact ⟨_, _, _, rfl, single returned⟩
    | registerOfWidth name address width => exact ⟨_, _, _, rfl, single returned⟩
    | field owner name offset width =>
      rw [returned?, perform] at returned
      cases result : map.defineField owner ⟨name, offset, width⟩ <;> rw [result] at returned <;> cases returned

end Places

section Resolution

variable {map : RegisterMap}

theorem listed_of_slot {handle : Handle} {slot : Slot} (found : map.slot? handle = some slot) :
    map.registers[handle.slot.toNat]? = some handle := by
  obtain ⟨placed, same⟩ := Option.filter_eq_some_iff.mp found
  rw [registers, List.getElem?_mapIdx, placed, Option.map_some, UInt8.ofNat_toNat, of_decide_eq_true same]

theorem answersAs_slot {handle : Handle} {slot : Slot} (found : map.slot? handle = some slot) :
    map.AnswersAs handle (map.describe slot) := by
  have defined : map.definition handle = .ok (map.describe slot) := by
    rw [definition, found]
    rfl
  have resolved : map.resolve handle = .ok (map.describe slot) := by
    rw [resolve, defined]
    rfl
  refine ⟨defined, ?_, fun name => ?_, fun base values => ?_, fun word => ?_⟩
  · rw [fields, defined]
    rfl
  · rw [field, resolved]
    rfl
  · rw [pack, resolved]
    rfl
  · rw [unpack, resolved]
    rfl

theorem AnswersAs.refusesUnless {handle : Handle} {register : Register} (answers : map.AnswersAs handle register)
    {known : Prop} (holds : known) : map.RefusesUnless handle known := by
  have blames {α : Type} (outcome : Except FieldError α) (cause : ConfigError) :
      outcome.mapError Error.field ≠ .error (.config cause) := by
    cases outcome <;> nofun
  refine ⟨?_, ?_, fun name => ?_, fun base values => ?_, fun word => ?_⟩
  · exact iff_of_false (by rw [answers.definition]; nofun) (not_not_intro holds)
  · exact iff_of_false (by rw [answers.fields]; nofun) (not_not_intro holds)
  · exact iff_of_false (by rw [answers.field]; exact blames _ _) (not_not_intro holds)
  · exact iff_of_false (by rw [answers.pack]; exact blames _ _) (not_not_intro holds)
  · exact iff_of_false (by rw [answers.unpack]; exact blames _ _) (not_not_intro holds)

theorem refusesUnless_unknown {handle : Handle} (missing : map.slot? handle = none) {known : Prop}
    (fails : ¬ known) : map.RefusesUnless handle known := by
  have undefined : map.definition handle = .error .unknownRegister := by
    rw [definition, missing]
  have unresolved : map.resolve handle = .error (.config .unknownRegister) := by
    rw [resolve, undefined]
    rfl
  refine ⟨iff_of_true undefined fails, iff_of_true ?_ fails, fun name => iff_of_true ?_ fails,
    fun base values => iff_of_true ?_ fails, fun word => iff_of_true ?_ fails⟩
  · rw [fields, undefined]
    rfl
  · rw [field, unresolved]
    rfl
  · rw [pack, unresolved]
    rfl
  · rw [unpack, unresolved]
    rfl

variable (orderly : map.Orderly)

include orderly

theorem register?_eq_some_iff (handle : Handle) :
    map.register? handle.address = some handle ↔ ∃ slot, map.slot? handle = some slot := by
  constructor
  · intro found
    have listed : handle ∈ map.registers := List.mem_of_find?_eq_some found
    obtain ⟨index, atIndex⟩ := List.mem_iff_getElem?.mp listed
    rw [registers, List.getElem?_mapIdx] at atIndex
    obtain ⟨slot, placed, rfl⟩ := Option.map_eq_some_iff.mp atIndex
    have inside : index < map.size := (List.getElem?_eq_some_iff.mp placed).1
    have position : (UInt8.ofNat index).toNat = index :=
      UInt8.toNat_ofNat_of_lt' (Nat.lt_of_lt_of_le inside (Nat.le_trans (size_le orderly) (by decide)))
    refine ⟨slot, ?_⟩
    rw [slot?, position, placed]
    exact Option.filter_eq_some_iff.mpr ⟨rfl, decide_eq_true rfl⟩
  · rintro ⟨slot, found⟩
    exact register?_of_mem orderly (List.mem_of_getElem? (listed_of_slot found))

theorem Places.denotes {handle : Handle} {name : String} {width : Nat}
    (places : map.Places handle.slot.toNat name handle.address width) :
    map.Denotes handle name handle.address width := by
  obtain ⟨slot, placed, rfl, same, rfl⟩ := places
  have found : map.slot? handle = some slot := by
    rw [slot?, placed]
    exact Option.filter_eq_some_iff.mpr ⟨rfl, decide_eq_true same⟩
  exact ⟨⟨_, (answersAs_slot found).definition, rfl, same, rfl⟩,
    (register?_eq_some_iff orderly handle).mpr ⟨slot, found⟩, listed_of_slot found⟩

theorem registerByName?_eq (name : String) :
    map.registerByName? name =
      map.registers.find? fun handle => (map.definition handle).toOption.any (·.name = name) := by
  have named : map.registers.map (fun handle => (map.definition handle).toOption.any (·.name = name)) =
      map.slots.map fun slot => decide (slot.name = name) := by
    have rows := congrArg (List.map fun outcome => outcome.toOption.any fun register : Register =>
      decide (register.name = name)) (definitions_table orderly)
    rw [List.map_map, List.map_map, table, List.map_map] at rows
    exact rows
  have position := congrArg (List.findIdx? id) named
  rw [List.findIdx?_map, List.findIdx?_map] at position
  rw [List.find?_eq_bind_findIdx?_getElem?]
  exact congrArg (Option.bind · (map.registers[·]?)) position.symm

end Resolution

/-- A handle that was returned for a register leads to it, and its address back to the handle, whatever is defined or
refused later. The registers of a map are listed and searched by name in the order of their definition. A handle from
anywhere is refused unless the map lists it, and otherwise stands for the register at its address. -/
theorem handles_resolve (registerCapacity fieldCapacity : Nat) (calls : List BuilderCall) :
    let map := built registerCapacity fieldCapacity calls
    map.registers = (empty registerCapacity fieldCapacity).openedByAll calls ∧
    (∀ call handle, map.returned? call = some handle →
      ∃ name address width, call.heading? = some (name, address, width) ∧
        ∀ later : List BuilderCall, (later.foldl build (map.build call)).Denotes handle name address width) ∧
    (∀ name, map.registerByName? name =
      map.registers.find? fun handle => (map.definition handle).toOption.any (·.name = name)) ∧
    ∀ handle, map.RefusesUnless handle (map.register? handle.address = some handle) ∧
      (map.register? handle.address = some handle →
        ∃ register ∈ map.table.registers, register.address = handle.address ∧ map.AnswersAs handle register) := by
  intro map
  have sound : map.Sound registerCapacity fieldCapacity := sound_built registerCapacity fieldCapacity calls
  refine ⟨registers_buildAll _ calls, fun call handle returned => ?_, registerByName?_eq sound.orderly, fun handle => ?_⟩
  · obtain ⟨name, address, width, heading, places, rfl⟩ := places_returned sound.orderly returned
    refine ⟨name, handle.address, width, heading, fun later => ?_⟩
    have kept := (sound_kept registerCapacity fieldCapacity).buildAll sound (call :: later)
    exact (places_kept.buildAll places later).denotes kept.orderly
  · have known := register?_eq_some_iff sound.orderly handle
    cases found : map.slot? handle with
    | none =>
      have unlisted : ¬ map.register? handle.address = some handle := fun listed => by
        obtain ⟨slot, other⟩ := known.mp listed
        cases found.symm.trans other
      exact ⟨refusesUnless_unknown found unlisted, fun listed => absurd listed unlisted⟩
    | some slot =>
      have answers := answersAs_slot found
      obtain ⟨placed, same⟩ := Option.filter_eq_some_iff.mp found
      exact ⟨answers.refusesUnless (known.mpr ⟨slot, found⟩), fun _ =>
        ⟨_, List.mem_map_of_mem (List.mem_of_getElem? placed), of_decide_eq_true same, answers⟩⟩

/-- Two registers of one name and one index, a register with more defined and refused behind it, and a handle of another
map that has the position of one register and the address of the other. -/
theorem handles_resolve_foreign :
    let map := built 4 4 [.define (.register "A" (.base 0)), .define (.registerOfWidth "A" (.extended 0) 8)]
    let call : BuilderCall := .load ⟨"B", .base 1, 4, [⟨"x", 0, 4⟩]⟩
    let later : List BuilderCall := [.define (.field ⟨2, .base 1⟩ "x" 0 1), .define (.register "C" (.base 1)),
      .define (.register "C" (.base 2)), .define (.field ⟨0, .base 0⟩ "y" 3 2)]
    map.returned? call = some ⟨2, .base 1⟩ ∧ (later.foldl build (map.build call)).Denotes ⟨2, .base 1⟩ "B" (.base 1) 4 ∧
    map.registerByName? "A" = some ⟨0, .base 0⟩ ∧ map.register? (.extended 0) = some ⟨1, .extended 0⟩ ∧
    (∃ register ∈ map.table.registers, register.address = .extended 0 ∧ map.AnswersAs ⟨1, .extended 0⟩ register) ∧
    map.definition ⟨0, .extended 0⟩ = .error .unknownRegister := by
  intro map call later
  obtain ⟨-, stable, -, resolved⟩ := handles_resolve 4 4
    [.define (.register "A" (.base 0)), .define (.registerOfWidth "A" (.extended 0) 8)]
  have returned : map.returned? call = some ⟨2, .base 1⟩ := rfl
  have found : map.register? (.extended 0) = some ⟨1, .extended 0⟩ := rfl
  obtain ⟨_, _, _, heading, denotes⟩ := stable call _ returned
  cases heading
  have unlisted : ¬ map.register? (.extended 0) = some ⟨0, .extended 0⟩ := by decide
  exact ⟨returned, denotes later, rfl, found, (resolved ⟨1, .extended 0⟩).2 found,
    (resolved ⟨0, .extended 0⟩).1.definition.mpr unlisted⟩

end RegisterMap
end Clause22
