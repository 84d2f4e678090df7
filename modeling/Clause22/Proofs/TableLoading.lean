import Clause22.Proofs.MapBuilding

/-! Loading whole definitions into a map. A register is loaded field by field, each checked against those before it,
and this accepts what validation accepts and blames what validation blames, as long as the map has room. -/

namespace Clause22

namespace Register

/-- What validation says of further fields of a register. -/
def judge (register : Register) (fields : List Field) : Except ConfigError Unit :=
  checkFields register.width (register.fields.map Field.name).reverse fields

def withField (register : Register) (field : Field) : Register :=
  { register with fields := register.fields ++ [field] }

theorem judge_cons (register : Register) (field : Field) (rest : List Field) :
    register.judge (field :: rest) =
      match register.judge [field] with
      | .error cause => .error cause
      | .ok () => (register.withField field).judge rest := by
  have names : ((register.fields ++ [field]).map Field.name).reverse =
      field.name :: (register.fields.map Field.name).reverse := by
    rw [List.map_append, List.reverse_append]
    rfl
  simp only [judge, withField, names, checkFields]
  cases field.check register.width with
  | error cause => rfl
  | ok =>
    by_cases taken : field.name ∈ (register.fields.map Field.name).reverse
    · simp only [if_pos taken]
      rfl
    · simp only [if_neg taken]
      rfl

theorem judge_single (register : Register) (field : Field) :
    register.judge [field] =
      if field.width = 0 ∨ register.width < field.offset + field.width then .error .fieldOutOfRange
      else if field.name ∈ register.fields.map Field.name then .error .duplicateField
      else .ok () := by
  simp only [judge, checkFields, Field.check, List.mem_reverse]
  by_cases range : field.width = 0 ∨ register.width < field.offset + field.width
  · rw [if_pos range, if_pos range]
    rfl
  · rw [if_neg range, if_neg range]
    by_cases taken : field.name ∈ register.fields.map Field.name
    · simp only [if_pos taken]
      rfl
    · simp only [if_neg taken]
      rfl

theorem validate_eq (register : Register) :
    register.validate =
      if register.width = 0 ∨ registerWidth < register.width then .error .invalidWidth
      else { register with fields := [] }.judge register.fields :=
  rfl

end Register

namespace RegisterMap

/-- The last register of a map, with the handle that its definition returned. -/
structure Filling (map : RegisterMap) (handle : Handle) (earlier : List Register) (row : Register) : Prop where
  registers : map.table.registers = earlier ++ [row]
  position : handle.slot.toNat = earlier.length
  address : row.address = handle.address

variable {registerCapacity fieldCapacity : Nat} {map : RegisterMap} {handle : Handle} {earlier : List Register}
  {row : Register}

theorem Filling.resolved (filling : map.Filling handle earlier row) :
    ∃ slot, map.slot? handle = some slot ∧ slot.width = row.width ∧ map.fieldsOf slot = row.fields := by
  have found : map.table.register? handle = some row := by
    rw [RegisterTable.register?, filling.registers, filling.position, List.getElem?_concat_length]
    exact Option.filter_eq_some_iff.mpr ⟨rfl, decide_eq_true filling.address⟩
  rw [register?_table] at found
  obtain ⟨slot, resolved, rfl⟩ := Option.map_eq_some_iff.mp found
  exact ⟨slot, resolved, rfl, rfl⟩

theorem Filling.defineField (filling : map.Filling handle earlier row)
    (sound : map.Sound registerCapacity fieldCapacity) (field : Field) :
    (∃ cause, map.defineField handle field = .error cause ∧ (row.judge [field] = .error cause ∨
      cause = .capacityExceeded ∧ fieldCapacity ≤ map.pool.length)) ∨
    ∃ grown, map.defineField handle field = .ok grown ∧ row.judge [field] = .ok () ∧
      grown.Filling handle earlier (row.withField field) ∧ map.pool.length < fieldCapacity ∧
      grown.pool.length = map.pool.length + 1 := by
  obtain ⟨slot, resolved, width, fields⟩ := filling.resolved
  have found := slot_of_handle resolved
  simp only [defineField_eq, resolved, Register.judge_single, width, fields, sound.fieldCapacity]
  by_cases range : field.width = 0 ∨ row.width < field.offset + field.width
  · simp only [if_pos range]
    exact .inl ⟨_, rfl, .inl rfl⟩
  · simp only [if_neg range]
    by_cases taken : field.name ∈ row.fields.map Field.name
    · simp only [if_pos taken]
      exact .inl ⟨_, rfl, .inl rfl⟩
    · simp only [if_neg taken]
      by_cases full : fieldCapacity ≤ map.pool.length
      · rw [if_pos full]
        exact .inl ⟨_, rfl, .inr ⟨rfl, full⟩⟩
      · rw [if_neg full]
        refine .inr ⟨_, rfl, trivial, ⟨?_, filling.position, filling.address⟩, Nat.not_le.mp full,
          length_insertField field (sound.orderly.within _ slot found)⟩
        rw [table_insertField sound.orderly found, filling.registers, filling.position]
        simp [List.modify_eq_take_drop, Register.withField]

/-- How far the fields of the last register are loaded: to the end, or up to the first that is refused, as in
validation or for want of room. -/
theorem Filling.defineFields (filling : map.Filling handle earlier row)
    (sound : map.Sound registerCapacity fieldCapacity) (fields : List Field) :
    ∃ loaded filled, map.defineFields handle loaded = (.ok (), filled) ∧
      filled.Filling handle earlier { row with fields := row.fields ++ loaded } ∧
      filled.pool.length = map.pool.length + loaded.length ∧
      ((loaded = fields ∧ row.judge fields = .ok () ∧ filled.pool.length ≤ fieldCapacity) ∨
        ∃ field rest cause, fields = loaded ++ field :: rest ∧ filled.defineField handle field = .error cause ∧
          map.defineFields handle fields = (.error cause, filled) ∧
          (row.judge fields = .error cause ∨ fieldCapacity ≤ filled.pool.length)) := by
  induction fields generalizing map row with
  | nil =>
    have room : map.pool.length ≤ fieldCapacity := sound.fieldCapacity ▸ sound.fieldRoom
    exact ⟨[], map, rfl, by rwa [List.append_nil], rfl, .inl ⟨rfl, rfl, room⟩⟩
  | cons field rest ih =>
    rcases filling.defineField sound field with ⟨cause, refused, reason⟩ | ⟨grown, accepted, faultless, next, room, size⟩
    · refine ⟨[], map, rfl, by rwa [List.append_nil], rfl, .inr ⟨field, rest, cause, rfl, refused, ?_, ?_⟩⟩
      · rw [RegisterMap.defineFields, refused]
      · rcases reason with blamed | ⟨-, full⟩
        · exact .inl (by rw [Register.judge_cons, blamed])
        · exact .inr full
    · obtain ⟨loaded, filled, loads, last, total, outcome⟩ := ih next (sound.defineField accepted)
      have onward (more : List Field) : map.defineFields handle (field :: more) = grown.defineFields handle more := by
        rw [RegisterMap.defineFields, accepted]
      have judged : row.judge (field :: rest) = (row.withField field).judge rest := by
        rw [Register.judge_cons, faultless]
      refine ⟨field :: loaded, filled, (onward loaded).trans loads, ?_, ?_, ?_⟩
      · rw [Register.withField, List.append_assoc] at last
        exact last
      · rw [total, size, List.length_cons]
        omega
      · rw [judged, onward]
        rcases outcome with ⟨rfl, whole, fits⟩ | ⟨other, later, cause, rfl, refused, stopped, reason⟩
        · exact .inl ⟨rfl, whole, fits⟩
        · exact .inr ⟨other, later, cause, rfl, refused, stopped, reason⟩

theorem bare_of_defineRegister (sound : map.Sound registerCapacity fieldCapacity) {name : String}
    {address : RegisterAddress} {width : Nat} {grown : RegisterMap}
    (defined : map.defineRegister name address width = .ok (handle, grown)) :
    grown.Filling handle map.table.registers ⟨name, address, width, []⟩ := by
  obtain ⟨-, -, -, rfl, rfl⟩ := defineRegister_ok defined
  have small : map.size < 256 := Nat.lt_of_le_of_lt (size_le sound.orderly) (by decide)
  refine ⟨?_, ?_, rfl⟩
  · rw [table_append]
  · rw [table, List.length_map]
    exact UInt8.toNat_ofNat_of_lt' small

/-- How far a definition is loaded: not at all, or to the end, or up to its first refused field. -/
theorem define_cases (sound : map.Sound registerCapacity fieldCapacity) (register : Register) :
    (∃ cause, map.defineRegister register.name register.address register.width = .error cause ∧
      map.define register = (.error cause, map)) ∨
    ∃ handle opened loaded filled,
      map.defineRegister register.name register.address register.width = .ok (handle, opened) ∧
      opened.defineFields handle loaded = (.ok (), filled) ∧
      filled.Filling handle map.table.registers { register with fields := loaded } ∧
      filled.pool.length = map.pool.length + loaded.length ∧
      ((loaded = register.fields ∧ map.define register = (.ok handle, filled) ∧ register.validate = .ok () ∧
          filled.pool.length ≤ fieldCapacity) ∨
        ∃ field rest cause, register.fields = loaded ++ field :: rest ∧
          filled.defineField handle field = .error cause ∧ map.define register = (.error cause, filled) ∧
          (register.validate = .error cause ∨ fieldCapacity ≤ filled.pool.length)) := by
  cases defined : map.defineRegister register.name register.address register.width with
  | error cause => exact .inl ⟨cause, rfl, by rw [define, defined]⟩
  | ok result =>
    obtain ⟨handle, opened⟩ := result
    have narrow := (defineRegister_ok defined).1
    have pool : opened.pool = map.pool := by
      rw [(defineRegister_ok defined).2.2.2.2]
    have validated : register.validate = { register with fields := [] }.judge register.fields := by
      rw [Register.validate_eq, if_neg (by omega)]
    obtain ⟨loaded, filled, loads, last, total, outcome⟩ :=
      (bare_of_defineRegister sound defined).defineFields (sound.defineRegister defined) register.fields
    refine .inr ⟨handle, opened, loaded, filled, rfl, loads, last, pool ▸ total, ?_⟩
    rw [validated]
    rcases outcome with ⟨rfl, whole, fits⟩ | ⟨field, rest, cause, cut, refused, stopped, reason⟩
    · refine .inl ⟨rfl, ?_, whole, fits⟩
      simp only [define, defined, loads]
      rfl
    · refine .inr ⟨field, rest, cause, cut, refused, ?_, reason⟩
      simp only [define, defined, stopped]
      rfl

theorem register?_of_mem (orderly : map.Orderly) (member : handle ∈ map.registers) :
    map.register? handle.address = some handle := by
  have distinct := orderly.distinct
  rw [← addresses_registers] at distinct
  exact find?_key distinct member

theorem definition_at (orderly : map.Orderly) {register : Register} (member : register ∈ map.table.registers) :
    ∃ handle, map.register? register.address = some handle ∧ map.definition handle = .ok register := by
  obtain ⟨index, atIndex⟩ := List.mem_iff_getElem?.mp member
  have defined := congrArg (·[index]?) (definitions_table orderly)
  have addresses := congrArg (·[index]?) (map.addresses_registers.trans map.addresses_table.symm)
  simp only [List.getElem?_map, atIndex, Option.map_some] at defined addresses
  obtain ⟨handle, listed, resolved⟩ := Option.map_eq_some_iff.mp defined
  obtain ⟨same, alsoListed, address⟩ := Option.map_eq_some_iff.mp addresses
  obtain rfl : same = handle := Option.some.inj (alsoListed.symm.trans listed)
  exact ⟨same, address ▸ register?_of_mem orderly (List.mem_of_getElem? listed), resolved⟩

theorem register?_eq_none_iff (map : RegisterMap) (address : RegisterAddress) :
    map.register? address = none ↔ address ∉ map.slots.map Slot.address := by
  rw [← addresses_table, ← isSome_register?, Option.not_isSome_iff_eq_none]

theorem define_ok (sound : map.Sound registerCapacity fieldCapacity) {register : Register} {grown : RegisterMap}
    (defined : map.define register = (.ok handle, grown)) :
    (register.validate = .ok () ∧ map.register? register.address = none ∧ map.size < registerCapacity ∧
      map.pool.length + register.fields.length ≤ fieldCapacity) ∧
      grown.table.registers = map.table.registers ++ [register] := by
  rcases define_cases sound register with
    ⟨cause, -, refused⟩ | ⟨_, opened, loaded, filled, registered, -, last, total, outcome⟩
  · cases refused.symm.trans defined
  · rcases outcome with ⟨rfl, whole, valid, fits⟩ | ⟨_, _, cause, -, -, stopped, -⟩
    · cases whole.symm.trans defined
      obtain ⟨-, fresh, room, -⟩ := defineRegister_ok registered
      exact ⟨⟨valid, (map.register?_eq_none_iff register.address).mpr fresh, sound.registerCapacity ▸ room,
        total ▸ fits⟩, last.registers⟩
    · cases stopped.symm.trans defined

theorem rows_define (sound : map.Sound registerCapacity fieldCapacity) (register : Register) :
    map.table.registers <+: (map.define register).2.table.registers := by
  rcases define_cases sound register with ⟨cause, -, refused⟩ | ⟨_, _, loaded, filled, -, -, last, -, outcome⟩
  · have same : (map.define register).2.table.registers = map.table.registers := by rw [refused]
    exact same ▸ List.prefix_rfl
  · have reached : (map.define register).2 = filled := by
      rcases outcome with ⟨-, whole, -⟩ | ⟨_, _, _, -, -, stopped, -⟩
      · rw [whole]
      · rw [stopped]
    rw [reached, last.registers]
    exact List.prefix_append _ _

/-- Where the address is free and there is room, loading judges a definition as validation does. -/
theorem define_validates (sound : map.Sound registerCapacity fieldCapacity) {register : Register}
    (fresh : map.register? register.address = none) (registerRoom : map.size < registerCapacity)
    (fieldRoom : map.pool.length + register.fields.length ≤ fieldCapacity) :
    (map.define register).1.map (fun _ => ()) = register.validate := by
  rcases define_cases sound register with ⟨cause, refused, stays⟩ | ⟨handle, _, loaded, filled, -, -, -, total, outcome⟩
  · have wide : register.width = 0 ∨ registerWidth < register.width := by
      refine Decidable.byContradiction fun narrow => ?_
      have small := size_le sound.orderly
      have free : ¬ (map.registerCapacity ≤ map.size ∨ maxRegisters ≤ map.size) := by
        rw [sound.registerCapacity, maxRegisters]
        omega
      rw [RegisterMap.defineRegister, if_neg narrow, fresh, if_neg (by decide), if_neg free] at refused
      cases refused
    rw [RegisterMap.defineRegister, if_pos wide] at refused
    rw [stays, Register.validate_eq, if_pos wide]
    cases refused
    rfl
  · rcases outcome with ⟨-, whole, valid, -⟩ | ⟨field, rest, cause, cut, -, stopped, reason⟩
    · rw [whole, valid]
      rfl
    · have short : loaded.length < register.fields.length := by
        rw [cut, List.length_append, List.length_cons]
        omega
      have blamed := reason.resolve_right (by omega)
      rw [stopped, blamed]
      rfl

theorem define_ok_iff (sound : map.Sound registerCapacity fieldCapacity) (register : Register) :
    (∃ handle, (map.define register).1 = .ok handle) ↔
      register.validate = .ok () ∧ map.register? register.address = none ∧ map.size < registerCapacity ∧
        map.pool.length + register.fields.length ≤ fieldCapacity := by
  constructor
  · intro ⟨handle, succeeds⟩
    exact (define_ok sound (Prod.ext succeeds rfl : map.define register = (.ok handle, _))).1
  · intro ⟨valid, fresh, registerRoom, fieldRoom⟩
    have judged := define_validates sound fresh registerRoom fieldRoom
    rw [valid] at judged
    cases result : (map.define register).1 with
    | error cause =>
      rw [result] at judged
      cases judged
    | ok handle => exact ⟨handle, rfl⟩

def fieldCall (handle : Handle) (field : Field) : Definition :=
  .field handle field.name field.offset field.width

theorem performAll_fields {fields : List Field} {filled : RegisterMap}
    (loads : map.defineFields handle fields = (.ok (), filled)) :
    Definition.performAll perform (fields.map (fieldCall handle)) map = (fields.map fun _ => .ok none, filled) := by
  induction fields generalizing map with
  | nil =>
    cases loads
    rfl
  | cons field rest ih =>
    rw [RegisterMap.defineFields] at loads
    cases result : map.defineField handle field with
    | error cause =>
      rw [result] at loads
      cases loads
    | ok grown =>
      rw [result] at loads
      have defined : map.perform (fieldCall handle field) = (.ok none, grown) := by
        simp only [perform, fieldCall, result]
        rfl
      simp only [List.map_cons, Definition.performAll, defined, ih loads]

/-- How far a table is loaded: to the end, or up to the first definition that is refused. -/
theorem defineTable_cases (sound : map.Sound registerCapacity fieldCapacity) (table : List Register) :
    ∃ loaded filled, map.defineTable loaded = (.ok (), filled) ∧ filled.Sound registerCapacity fieldCapacity ∧
      filled.table.registers = map.table.registers ++ loaded ∧
      (loaded = table ∨ ∃ register rest cause left, table = loaded ++ register :: rest ∧
        filled.define register = (.error cause, left) ∧ map.defineTable table = (.error cause, left)) := by
  induction table generalizing map with
  | nil => exact ⟨[], map, rfl, sound, (List.append_nil _).symm, .inl rfl⟩
  | cons register rest ih =>
    cases result : map.define register with
    | mk outcome grown =>
      cases outcome with
      | error cause =>
        have stops : map.defineTable (register :: rest) = (.error cause, grown) := by rw [defineTable, result]
        exact ⟨[], map, rfl, sound, (List.append_nil _).symm,
          .inr ⟨register, rest, cause, grown, rfl, result, stops⟩⟩
      | ok handle =>
        have onward (more : List Register) : map.defineTable (register :: more) = grown.defineTable more := by
          rw [defineTable, result]
        have kept : (map.define register).2.Sound registerCapacity fieldCapacity := (sound_kept _ _).define sound register
        rw [result] at kept
        obtain ⟨loaded, filled, loads, last, rows, outcome⟩ := ih kept
        refine ⟨register :: loaded, filled, (onward loaded).trans loads, last, ?_, ?_⟩
        · rw [rows, (define_ok sound result).2, List.append_assoc]
          rfl
        · rcases outcome with rfl | ⟨other, later, cause, left, rfl, refused, stopped⟩
          · exact .inl rfl
          · exact .inr ⟨other, later, cause, left, rfl, refused, (onward _).trans stopped⟩

/-- Loading a definition accepts what validation accepts where there is room for it, blames what validation blames,
and stops at the field to blame with all before it defined. A table is loaded definition by definition, each of
which is read back as it was written, up to the first that is refused. -/
theorem loading_validates (registerCapacity fieldCapacity : Nat) (calls : List BuilderCall) :
    let map := built registerCapacity fieldCapacity calls
    (∀ register : Register,
      let room := map.register? register.address = none ∧ map.size < registerCapacity ∧
        map.pool.length + register.fields.length ≤ fieldCapacity
      ((∃ handle, (map.define register).1 = .ok handle) ↔ register.validate = .ok () ∧ room) ∧
      (room → (map.define register).1.map (fun _ => ()) = register.validate) ∧
      ∀ cause, (map.define register).1 = .error cause →
        (map.defineRegister register.name register.address register.width = .error cause ∧
          (map.define register).2 = map) ∨
        ∃ handle loaded field rest, register.fields = loaded ++ field :: rest ∧
          Definition.performAll perform
              (.registerOfWidth register.name register.address register.width :: loaded.map (fieldCall handle)) map =
            (.ok (some handle) :: loaded.map (fun _ => .ok none), (map.define register).2) ∧
          (map.define register).2.defineField handle field = .error cause) ∧
    ∀ table : List Register,
      (∀ filled, map.defineTable table = (.ok (), filled) →
        filled.registers.map filled.definition = map.registers.map map.definition ++ table.map .ok ∧
        ∀ register ∈ table, ∃ handle, filled.register? register.address = some handle ∧
          filled.definition handle = .ok register) ∧
      ∀ cause left, map.defineTable table = (.error cause, left) →
        ∃ loaded register rest filled, table = loaded ++ register :: rest ∧
          map.defineTable loaded = (.ok (), filled) ∧ filled.define register = (.error cause, left) ∧
          ∀ earlier ∈ loaded, ∃ handle, left.register? earlier.address = some handle ∧
            left.definition handle = .ok earlier := by
  intro map
  have sound : map.Sound registerCapacity fieldCapacity := sound_built registerCapacity fieldCapacity calls
  refine ⟨fun register => ⟨define_ok_iff sound register,
    fun ⟨fresh, registerRoom, fieldRoom⟩ => define_validates sound fresh registerRoom fieldRoom, ?_⟩,
    fun table => ⟨?_, ?_⟩⟩
  · intro cause failed
    rcases define_cases sound register with
      ⟨_, refused, stays⟩ | ⟨handle, opened, loaded, filled, defined, loads, -, -, outcome⟩
    · rw [stays] at failed ⊢
      cases failed
      exact .inl ⟨refused, rfl⟩
    · rcases outcome with ⟨-, whole, -⟩ | ⟨field, rest, _, cut, blamed, stopped, -⟩
      · rw [whole] at failed
        cases failed
      · rw [stopped] at failed ⊢
        cases failed
        refine .inr ⟨handle, loaded, field, rest, cut, ?_, blamed⟩
        have opens : map.perform (.registerOfWidth register.name register.address register.width) =
            (.ok (some handle), opened) := by
          simp only [perform, defined]
          rfl
        simp only [Definition.performAll, opens, performAll_fields loads]
  · intro filled loads
    obtain ⟨loaded, whole, loadsWhole, last, rows, outcome⟩ := defineTable_cases sound table
    rcases outcome with rfl | ⟨_, _, _, _, _, _, stopped⟩
    · cases loadsWhole.symm.trans loads
      refine ⟨?_, fun register member => definition_at last.orderly ?_⟩
      · rw [definitions_table last.orderly, definitions_table sound.orderly, rows, List.map_append]
      · rw [rows]
        exact List.mem_append_right _ member
    · cases stopped.symm.trans loads
  · intro cause left stopped
    obtain ⟨loaded, filled, loads, last, rows, outcome⟩ := defineTable_cases sound table
    rcases outcome with rfl | ⟨register, rest, _, _, rfl, refused, stops⟩
    · cases loads.symm.trans stopped
    · cases stops.symm.trans stopped
      refine ⟨loaded, register, rest, filled, rfl, loads, refused, fun earlier member => ?_⟩
      have kept := (sound_kept _ _).define last register
      have stays := rows_define last register
      rw [refused] at kept stays
      refine definition_at kept.orderly (stays.subset ?_)
      rw [rows]
      exact List.mem_append_right _ member

/-- A definition that repeats a field, on its own and behind a good one in a table. -/
theorem loading_validates_repeated :
    let calls : List BuilderCall := [.define (.register "A" (.base 0))]
    let map := built 4 5 calls
    let good : Register := ⟨"B", .base 1, 8, [⟨"x", 0, 4⟩, ⟨"y", 2, 6⟩]⟩
    let bad : Register := ⟨"C", .extended 1, 4, [⟨"x", 0, 1⟩, ⟨"x", 1, 1⟩, ⟨"z", 9, 9⟩]⟩
    (map.define bad).1.map (fun _ => ()) = bad.validate ∧ bad.validate = .error .duplicateField ∧
    (∃ filled, map.defineTable [good] = (.ok (), filled) ∧
      filled.registers.map filled.definition = [.ok ⟨"A", .base 0, 16, []⟩, .ok good]) ∧
    ∃ left, map.defineTable [good, bad] = (.error .duplicateField, left) ∧
      ∃ handle, left.register? good.address = some handle ∧ left.definition handle = .ok good := by
  intro calls map good bad
  obtain ⟨single, tables⟩ := loading_validates 4 5 calls
  obtain ⟨-, judged, -⟩ := single bad
  refine ⟨judged ⟨rfl, by decide, by decide⟩, rfl, ⟨_, rfl, ?_⟩, ⟨_, rfl, ?_⟩⟩
  · exact ((tables [good]).1 _ rfl).1
  · obtain ⟨loaded, register, rest, filled, cut, loads, refused, kept⟩ := (tables [good, bad]).2 _ _ rfl
    cases loaded with
    | nil =>
      cases cut
      cases loads
      cases refused
    | cons first more =>
      obtain rfl : good = first := (List.cons.inj cut).1
      exact kept good List.mem_cons_self

end RegisterMap
end Clause22
