import Clause22.Proofs.RegisterPacking
import Clause22.Proofs.RegisterTable

/-! Register maps as their builders leave them. A call grows a map by single registers and fields that were accepted,
so a rule that each of those keeps holds of every map that can be built, whatever else was refused. -/

namespace Clause22

/-- A call to a builder, for a single register or field or for whole definitions. -/
inductive BuilderCall
  | define (definition : Definition)
  | load (register : Register)
  | loadTable (table : List Register)
deriving DecidableEq

theorem Register.WellFormed.append {register : Register} (formed : register.WellFormed) {field : Field}
    (inside : 0 < field.width ∧ field.offset + field.width ≤ register.width)
    (fresh : field.name ∉ register.fields.map Field.name) :
    { register with fields := register.fields ++ [field] }.WellFormed where
  narrow := formed.narrow
  inside := by
    intro other member
    rcases List.mem_append.mp member with own | new
    · exact formed.inside other own
    · exact List.mem_singleton.mp new ▸ inside
  distinct := by
    rw [List.map_append]
    refine List.nodup_append.mpr ⟨formed.distinct, List.nodup_cons.mpr ⟨List.not_mem_nil, List.nodup_nil⟩, ?_⟩
    intro taken member other new same
    obtain rfl : other = field.name := List.mem_singleton.mp new
    exact fresh (same ▸ member)

namespace RegisterMap

def build (map : RegisterMap) : BuilderCall → RegisterMap
  | .define definition => (map.perform definition).2
  | .load register => (map.define register).2
  | .loadTable table => (map.defineTable table).2

/-- The map after calls to a new builder, whatever they returned. -/
def built (registerCapacity fieldCapacity : Nat) (calls : List BuilderCall) : RegisterMap :=
  calls.foldl build (empty registerCapacity fieldCapacity)

theorem table_append (map : RegisterMap) (name : String) (address : RegisterAddress) (width : Nat) :
    { map with slots := map.slots ++ [⟨name, address, width, map.pool.length, 0⟩] : RegisterMap }.table =
      { map.table with registers := map.table.registers ++ [⟨name, address, width, []⟩] } := by
  simp only [table, List.map_append]
  rfl

/-- A rule that every accepted register and field keeps. -/
structure Kept (holds : RegisterMap → Prop) : Prop where
  register : ∀ {map grown name address width handle}, holds map →
    map.defineRegister name address width = .ok (handle, grown) → holds grown
  field : ∀ {map grown handle field}, holds map → map.defineField handle field = .ok grown → holds grown

namespace Kept

variable {holds : RegisterMap → Prop} (kept : Kept holds) {map : RegisterMap}

include kept

theorem registerOfWidth (start : holds map) (name : String) (address : RegisterAddress) (width : Nat) :
    holds (map.perform (.registerOfWidth name address width)).2 := by
  rw [perform]
  cases result : map.defineRegister name address width with
  | error cause => exact start
  | ok defined => exact kept.register start result

theorem perform (start : holds map) (definition : Definition) : holds (map.perform definition).2 := by
  cases definition with
  | register name address => exact kept.registerOfWidth start name address registerWidth
  | registerOfWidth name address width => exact kept.registerOfWidth start name address width
  | field handle name offset width =>
    rw [RegisterMap.perform]
    cases result : map.defineField handle ⟨name, offset, width⟩ with
    | error cause => exact start
    | ok grown => exact kept.field start result

theorem defineFields (start : holds map) (handle : Handle) (fields : List Field) :
    holds (map.defineFields handle fields).2 := by
  induction fields generalizing map with
  | nil => exact start
  | cons field rest ih =>
    rw [RegisterMap.defineFields]
    cases result : map.defineField handle field with
    | error cause => exact start
    | ok grown => exact ih (kept.field start result)

theorem define (start : holds map) (register : Register) : holds (map.define register).2 := by
  rw [RegisterMap.define]
  cases result : map.defineRegister register.name register.address register.width with
  | error cause => exact start
  | ok defined => exact kept.defineFields (kept.register start result) defined.1 register.fields

theorem defineTable (start : holds map) (table : List Register) : holds (map.defineTable table).2 := by
  induction table generalizing map with
  | nil => exact start
  | cons register rest ih =>
    have first := kept.define start register
    rw [RegisterMap.defineTable]
    cases result : map.define register with
    | mk outcome grown =>
      rw [result] at first
      cases outcome with
      | error cause => exact first
      | ok handle => exact ih first

theorem build (start : holds map) (call : BuilderCall) : holds (map.build call) := by
  cases call with
  | define definition => exact kept.perform start definition
  | load register => exact kept.define start register
  | loadTable table => exact kept.defineTable start table

theorem buildAll (start : holds map) (calls : List BuilderCall) : holds (calls.foldl RegisterMap.build map) := by
  induction calls generalizing map with
  | nil => exact start
  | cons call rest ih => exact ih (kept.build start call)

theorem built {registerCapacity fieldCapacity : Nat} (start : holds (empty registerCapacity fieldCapacity))
    (calls : List BuilderCall) : holds (built registerCapacity fieldCapacity calls) :=
  kept.buildAll start calls

end Kept

end RegisterMap

namespace Slot

def Owns (slot : Slot) (position : Nat) : Prop :=
  slot.first ≤ position ∧ position < slot.last

variable {slot : Slot} {position : Nat}

theorem Owns.grown (owns : slot.Owns position) : slot.grown.Owns position :=
  ⟨owns.1, Nat.lt_succ_of_lt owns.2⟩

theorem owns_last_grown (slot : Slot) : slot.grown.Owns slot.last :=
  ⟨Nat.le_add_right .., Nat.lt_succ_self _⟩

theorem Owns.shifted_before {gap : Nat} (owns : slot.Owns position) (before : position < gap) :
    (slot.shifted gap).Owns position := by
  have ahead : ¬ gap ≤ slot.first := Nat.not_le.mpr (Nat.lt_of_le_of_lt owns.1 before)
  rw [Slot.shifted, if_neg ahead]
  exact owns

theorem Owns.shifted_behind {gap : Nat} (owns : slot.Owns position) (behind : gap ≤ slot.first) :
    (slot.shifted gap).Owns (position + 1) := by
  rw [Slot.shifted, if_pos behind]
  simp only [Owns, last] at owns ⊢
  omega

end Slot

namespace RegisterMap

/-- A map that a builder may leave: in order, within its capacities, every position of the pool owned by a
register, and every register well formed. -/
structure Sound (registerCapacity fieldCapacity : Nat) (map : RegisterMap) : Prop where
  registerCapacity : map.registerCapacity = registerCapacity
  fieldCapacity : map.fieldCapacity = fieldCapacity
  orderly : map.Orderly
  registerRoom : map.size ≤ map.registerCapacity
  fieldRoom : map.pool.length ≤ map.fieldCapacity
  covered : ∀ position < map.pool.length, ∃ (index : Nat) (slot : Slot), map.slots[index]? = some slot ∧ slot.Owns position
  wellFormed : ∀ register ∈ map.table.registers, register.WellFormed

theorem sound_empty (registerCapacity fieldCapacity : Nat) :
    (empty registerCapacity fieldCapacity).Sound registerCapacity fieldCapacity where
  registerCapacity := rfl
  fieldCapacity := rfl
  orderly := orderly_empty registerCapacity fieldCapacity
  registerRoom := Nat.zero_le _
  fieldRoom := Nat.zero_le _
  covered := by simp [empty]
  wellFormed := by simp [empty, table]

variable {registerCapacity fieldCapacity : Nat} {map grown : RegisterMap}

theorem Sound.defineRegister (sound : map.Sound registerCapacity fieldCapacity) {name : String}
    {address : RegisterAddress} {width : Nat} {handle : Handle}
    (defined : map.defineRegister name address width = .ok (handle, grown)) :
    grown.Sound registerCapacity fieldCapacity := by
  obtain ⟨narrow, fresh, room, -, rfl⟩ := defineRegister_ok defined
  refine ⟨sound.registerCapacity, sound.fieldCapacity, orderly_append sound.orderly fresh name width, ?_,
    sound.fieldRoom, ?_, ?_⟩
  · rw [size, List.length_append]
    exact room
  · intro position inside
    obtain ⟨index, slot, found, owns⟩ := sound.covered position inside
    refine ⟨index, slot, ?_, owns⟩
    rw [List.getElem?_append_left (List.getElem?_eq_some_iff.mp found).1]
    exact found
  · intro register member
    rw [table_append] at member
    rcases List.mem_append.mp member with old | new
    · exact sound.wellFormed register old
    · rw [List.mem_singleton.mp new]
      exact ⟨narrow, by simp, List.nodup_nil⟩

/-- A gap moves every position behind it up by one, and the position in the gap goes to its owner. -/
theorem covered_insertField (orderly : map.Orderly)
    (covered : ∀ position < map.pool.length, ∃ (index : Nat) (slot : Slot), map.slots[index]? = some slot ∧ slot.Owns position)
    {owner : Nat} {slot : Slot} (found : map.slots[owner]? = some slot) (field : Field) {position : Nat}
    (inside : position < (map.insertField owner slot.last field).pool.length) :
    ∃ (index : Nat) (other : Slot), (map.insertField owner slot.last field).slots[index]? = some other ∧
      other.Owns position := by
  have within := orderly.within owner slot found
  rw [length_insertField field within] at inside
  have ofOwner : (map.insertField owner slot.last field).slots[owner]? = some slot.grown := by
    rw [slot_insertField, found, if_pos rfl]
    rfl
  have ofOther {index : Nat} {other : Slot} (atOther : map.slots[index]? = some other) (foreign : index ≠ owner) :
      (map.insertField owner slot.last field).slots[index]? = some (other.shifted slot.last) := by
    rw [slot_insertField, atOther, if_neg foreign]
    rfl
  rcases Nat.lt_trichotomy position slot.last with before | rfl | behind
  · obtain ⟨index, other, atOther, owns⟩ := covered position (by omega)
    by_cases own : index = owner
    · subst own
      cases found.symm.trans atOther
      exact ⟨index, slot.grown, ofOwner, owns.grown⟩
    · exact ⟨index, other.shifted slot.last, ofOther atOther own, owns.shifted_before before⟩
  · exact ⟨owner, slot.grown, ofOwner, slot.owns_last_grown⟩
  · obtain ⟨previous, rfl⟩ : ∃ previous, position = previous + 1 := ⟨position - 1, by omega⟩
    obtain ⟨index, other, atOther, owns⟩ := covered previous (by omega)
    have past : slot.last ≤ previous := Nat.le_of_lt_succ behind
    have foreign : index ≠ owner := by
      rintro rfl
      cases found.symm.trans atOther
      exact absurd owns.2 (Nat.not_lt.mpr past)
    have later : slot.last ≤ other.first := by
      refine (orderly.apart owner index slot other found atOther (Ne.symm foreign)).resolve_right fun earlier => ?_
      have := owns.2
      have : slot.first ≤ slot.last := Nat.le_add_right ..
      omega
    exact ⟨index, other.shifted slot.last, ofOther atOther foreign, owns.shifted_behind later⟩

theorem Sound.defineField (sound : map.Sound registerCapacity fieldCapacity) {handle : Handle} {field : Field}
    (defined : map.defineField handle field = .ok grown) : grown.Sound registerCapacity fieldCapacity := by
  obtain ⟨slot, resolved, inside, fresh, room, rfl⟩ := defineField_ok defined
  have found := slot_of_handle resolved
  refine ⟨sound.registerCapacity, sound.fieldCapacity, orderly_insertField field sound.orderly found, ?_, ?_,
    fun _ inside => covered_insertField sound.orderly sound.covered found field inside, ?_⟩
  · rw [size, insertField, List.length_mapIdx]
    exact sound.registerRoom
  · rw [length_insertField field (sound.orderly.within _ slot found)]
    exact room
  · intro register member
    rw [table_insertField sound.orderly found] at member
    obtain ⟨index, place⟩ := List.mem_iff_getElem?.mp member
    rw [List.getElem?_modify, Option.map_eq_map] at place
    obtain ⟨row, atRow, rfl⟩ := Option.map_eq_some_iff.mp place
    have formed := sound.wellFormed row (List.mem_of_getElem? atRow)
    by_cases own : handle.slot.toNat = index
    · have same : row = map.describe slot := by
        rw [table, List.getElem?_map, ← own, found] at atRow
        exact (Option.some.inj atRow).symm
      subst same
      rw [if_pos own]
      exact formed.append inside fresh
    · rw [if_neg own]
      exact formed

theorem sound_kept (registerCapacity fieldCapacity : Nat) : Kept (Sound registerCapacity fieldCapacity) where
  register sound defined := sound.defineRegister defined
  field sound defined := sound.defineField defined

theorem sound_built (registerCapacity fieldCapacity : Nat) (calls : List BuilderCall) :
    (built registerCapacity fieldCapacity calls).Sound registerCapacity fieldCapacity :=
  (sound_kept registerCapacity fieldCapacity).built (sound_empty registerCapacity fieldCapacity) calls

end RegisterMap
end Clause22
