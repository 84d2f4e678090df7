import Clause22.RegisterMap

/-! The pool that holds the fields of all registers. No run of fields, empty or not, starts strictly
inside another, so a gap at the end of one run goes between all others and leaves their fields alone. -/

namespace Clause22

namespace Slot

def last (slot : Slot) : Nat :=
  slot.first + slot.count

/-- One run ends before the other starts. -/
def Apart (slot other : Slot) : Prop :=
  slot.last ≤ other.first ∨ other.last ≤ slot.first

def grown (slot : Slot) : Slot :=
  { slot with count := slot.count + 1 }

/-- A slot after a gap opened for another. -/
def shifted (gap : Nat) (slot : Slot) : Slot :=
  { slot with first := if gap ≤ slot.first then slot.first + 1 else slot.first }

theorem last_shifted_le (slot : Slot) (gap : Nat) : (slot.shifted gap).last ≤ slot.last + 1 := by
  simp only [last, shifted]
  split <;> omega

theorem Apart.symm {slot other : Slot} (apart : slot.Apart other) : other.Apart slot :=
  Or.symm apart

theorem Apart.grown {slot other : Slot} (apart : slot.Apart other) : slot.grown.Apart (other.shifted slot.last) := by
  by_cases behind : slot.last ≤ other.first
  · refine .inl ?_
    simp only [shifted, if_pos behind]
    exact Nat.succ_le_succ behind
  · refine .inr ?_
    simp only [shifted, if_neg behind]
    exact apart.resolve_left behind

theorem Apart.shifted {slot other : Slot} (apart : slot.Apart other) (gap : Nat) :
    (slot.shifted gap).Apart (other.shifted gap) := by
  -- Two runs move together unless the gap opens between them.
  by_cases first : gap ≤ slot.first <;> by_cases second : gap ≤ other.first <;>
    simp only [Slot.shifted, first, second, if_true, if_false, Apart, last] at apart ⊢ <;> omega

end Slot

section Runs

variable (pool : List Field) {gap first count : Nat} (field : Field)

theorem run_behind (behind : gap ≤ first) (count : Nat) :
    ((pool.take gap ++ field :: pool.drop gap).drop (first + 1)).take count = (pool.drop first).take count := by
  apply List.ext_getElem?
  intro index
  simp only [List.getElem?_take, List.getElem?_drop, List.getElem?_append, List.length_take, List.getElem?_cons]
  grind

theorem run_before (before : first + count ≤ gap) (inside : gap ≤ pool.length) :
    ((pool.take gap ++ field :: pool.drop gap).drop first).take count = (pool.drop first).take count := by
  apply List.ext_getElem?
  intro index
  simp only [List.getElem?_take, List.getElem?_drop, List.getElem?_append, List.length_take, List.getElem?_cons]
  grind

theorem run_grown (inside : first + count ≤ pool.length) :
    ((pool.take (first + count) ++ field :: pool.drop (first + count)).drop first).take (count + 1) =
      (pool.drop first).take count ++ [field] := by
  apply List.ext_getElem?
  intro index
  simp only [List.getElem?_take, List.getElem?_drop, List.getElem?_append, List.length_take, List.getElem?_cons,
    List.length_drop]
  grind

end Runs

private theorem length_flatten_modify (runs : List (List Field)) {index : Nat} (inside : index < runs.length)
    (field : Field) : (runs.modify index (· ++ [field])).flatten.length = runs.flatten.length + 1 := by
  induction runs generalizing index with
  | nil => cases inside
  | cons run runs ih =>
    cases index with
    | zero =>
      simp only [List.modify_zero_cons, List.flatten_cons, List.length_append, List.length_singleton]
      omega
    | succ index =>
      have rest := ih (Nat.lt_of_succ_lt_succ inside)
      simp only [List.modify_succ_cons, List.flatten_cons, List.length_append, rest]
      omega

namespace RegisterMap

/-- What a map keeps: its runs are apart, lie in the pool and fill it, and no address is taken twice. -/
structure Orderly (map : RegisterMap) : Prop where
  apart : ∀ (i j : Nat) (slot other : Slot), map.slots[i]? = some slot → map.slots[j]? = some other → i ≠ j →
    slot.Apart other
  within : ∀ (index : Nat) (slot : Slot), map.slots[index]? = some slot → slot.last ≤ map.pool.length
  full : (map.slots.flatMap map.fieldsOf).length = map.pool.length
  distinct : (map.slots.map Slot.address).Nodup

theorem orderly_empty (registerCapacity fieldCapacity : Nat) : (empty registerCapacity fieldCapacity).Orderly where
  apart := by simp [empty]
  within := by simp [empty]
  full := rfl
  distinct := List.nodup_nil

private theorem getElem?_append_singleton {slots : List Slot} {slot other : Slot} {index : Nat}
    (found : (slots ++ [slot])[index]? = some other) :
    slots[index]? = some other ∨ index = slots.length ∧ other = slot := by
  rw [List.getElem?_append] at found
  split at found
  next => exact .inl found
  next beyond =>
    rw [List.getElem?_singleton] at found
    split at found
    next first =>
      cases found
      exact .inr ⟨by omega, rfl⟩
    next => cases found

theorem orderly_append {map : RegisterMap} (orderly : map.Orderly) {address : RegisterAddress}
    (fresh : address ∉ map.slots.map Slot.address) (name : String) (width : Nat) :
    { map with slots := map.slots ++ [⟨name, address, width, map.pool.length, 0⟩] : RegisterMap }.Orderly where
  apart := by
    intro i j slot other atSlot atOther different
    rcases getElem?_append_singleton atSlot with atSlot | ⟨rfl, rfl⟩
    · rcases getElem?_append_singleton atOther with atOther | ⟨rfl, rfl⟩
      · exact orderly.apart i j slot other atSlot atOther different
      · exact .inl (orderly.within i slot atSlot)
    · rcases getElem?_append_singleton atOther with atOther | ⟨rfl, rfl⟩
      · exact .inr (orderly.within j other atOther)
      · exact absurd rfl different
  within := by
    intro index slot atSlot
    rcases getElem?_append_singleton atSlot with atSlot | ⟨rfl, rfl⟩
    · exact orderly.within index slot atSlot
    · exact Nat.le_refl _
  full := by
    rw [List.flatMap_append, List.length_append]
    exact orderly.full
  distinct := by
    rw [List.map_append]
    refine List.nodup_append.mpr ⟨orderly.distinct, List.nodup_cons.mpr ⟨List.not_mem_nil, List.nodup_nil⟩, ?_⟩
    intro taken member other new same
    obtain rfl : other = address := List.mem_singleton.mp new
    exact fresh (same ▸ member)

section Insert

variable {map : RegisterMap} {owner : Nat} {slot : Slot} (field : Field)

theorem slot_insertField (index : Nat) :
    (map.insertField owner slot.last field).slots[index]? =
      map.slots[index]?.map (if index = owner then Slot.grown else Slot.shifted slot.last) := by
  rw [insertField, List.getElem?_mapIdx]
  by_cases own : index = owner
  · simp only [own, if_true]
    rfl
  · simp only [own, if_false]
    congr 1
    funext other
    rw [Slot.shifted]
    split <;> rfl

theorem length_insertField (within : slot.last ≤ map.pool.length) :
    (map.insertField owner slot.last field).pool.length = map.pool.length + 1 := by
  simp only [insertField, List.length_append, List.length_take, List.length_cons, List.length_drop]
  omega

private theorem address_insertField :
    (map.insertField owner slot.last field).slots.map Slot.address = map.slots.map Slot.address := by
  apply List.ext_getElem?
  intro index
  rw [List.getElem?_map, slot_insertField, List.getElem?_map, Option.map_map]
  congr 1
  funext other
  by_cases own : index = owner
  · simp [own, Slot.grown]
  · simp [own, Slot.shifted]

theorem fieldsOf_insertField (orderly : map.Orderly) (found : map.slots[owner]? = some slot) {index : Nat}
    {other : Slot} (atOther : map.slots[index]? = some other) :
    (map.insertField owner slot.last field).fieldsOf
        ((if index = owner then Slot.grown else Slot.shifted slot.last) other) =
      if index = owner then map.fieldsOf other ++ [field] else map.fieldsOf other := by
  have inside := orderly.within owner slot found
  by_cases own : index = owner
  · subst own
    cases found.symm.trans atOther
    rw [if_pos rfl, if_pos rfl]
    exact run_grown map.pool field inside
  · rw [if_neg own, if_neg own]
    by_cases behind : slot.last ≤ other.first
    · simp only [Slot.shifted, if_pos behind, fieldsOf]
      exact run_behind map.pool field behind other.count
    · simp only [Slot.shifted, if_neg behind, fieldsOf]
      have apart := orderly.apart owner index slot other found atOther (Ne.symm own)
      exact run_before map.pool field (Nat.le_trans (apart.resolve_left behind) (Nat.le_add_right ..)) inside

private theorem runs_insertField (orderly : map.Orderly) (found : map.slots[owner]? = some slot) :
    (map.insertField owner slot.last field).slots.map (map.insertField owner slot.last field).fieldsOf =
      (map.slots.map map.fieldsOf).modify owner (· ++ [field]) := by
  apply List.ext_getElem?
  intro index
  rw [List.getElem?_map, slot_insertField, List.getElem?_modify, List.getElem?_map, Option.map_eq_map]
  cases place : map.slots[index]? with
  | none => rfl
  | some other =>
    have fields := fieldsOf_insertField field orderly found place
    by_cases own : index = owner
    · subst own
      simpa using fields
    · simpa [own, Ne.symm own] using fields

theorem orderly_insertField (orderly : map.Orderly) (found : map.slots[owner]? = some slot) :
    (map.insertField owner slot.last field).Orderly where
  apart := by
    intro i j first second atFirst atSecond different
    rw [slot_insertField] at atFirst atSecond
    obtain ⟨before, atBefore, rfl⟩ := Option.map_eq_some_iff.mp atFirst
    obtain ⟨other, atOther, rfl⟩ := Option.map_eq_some_iff.mp atSecond
    have apart := orderly.apart i j before other atBefore atOther different
    by_cases firstOwn : i = owner
    · subst firstOwn
      cases found.symm.trans atBefore
      rw [if_pos rfl, if_neg (Ne.symm different)]
      exact apart.grown
    · by_cases secondOwn : j = owner
      · subst secondOwn
        cases found.symm.trans atOther
        rw [if_pos rfl, if_neg different]
        exact apart.symm.grown.symm
      · rw [if_neg firstOwn, if_neg secondOwn]
        exact apart.shifted _
  within := by
    intro index other atOther
    rw [slot_insertField] at atOther
    obtain ⟨before, atBefore, rfl⟩ := Option.map_eq_some_iff.mp atOther
    have within := orderly.within index before atBefore
    rw [length_insertField field (orderly.within owner slot found)]
    by_cases own : index = owner
    · rw [if_pos own]
      exact Nat.succ_le_succ within
    · rw [if_neg own]
      exact Nat.le_trans (before.last_shifted_le _) (Nat.succ_le_succ within)
  full := by
    have inside : owner < (map.slots.map map.fieldsOf).length := by
      rw [List.length_map]
      exact (List.getElem?_eq_some_iff.mp found).1
    rw [List.flatMap, runs_insertField field orderly found, length_flatten_modify _ inside,
      length_insertField field (orderly.within owner slot found), ← orderly.full, List.flatMap]
  distinct := by
    rw [address_insertField]
    exact orderly.distinct

end Insert

end RegisterMap
end Clause22
