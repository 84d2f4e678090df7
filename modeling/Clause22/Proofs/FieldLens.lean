import Mathlib.Order.Interval.Finset.Nat
import Clause22.Proofs.FieldBits
import Clause22.Register

/-! Field access in machine words. A shift by the width of a word or more and a subtraction below zero are refused
there, but no field asks for one, whatever its offset and width. Each field is a lens on the bits of the word that it
covers: what is put there is what is found there, and no other bit changes. -/

namespace Clause22

namespace Checked

/-- A shift may lose bits, but its amount must be less than the width of the word. -/
def shiftLeft? (word : BitVec width) (amount : Nat) : Option (BitVec width) :=
  if amount < width then some (word <<< amount) else none

def shiftRight? (word : BitVec width) (amount : Nat) : Option (BitVec width) :=
  if amount < width then some (word >>> amount) else none

def subtract? (word less : BitVec width) : Option (BitVec width) :=
  if less ≤ word then some (word - less) else none

def add? (first second : BitVec width) : Option (BitVec width) :=
  if first.toNat + second.toNat < 2 ^ width then some (first + second) else none

def truncate (word : BitVec 32) : Word :=
  (word &&& 0xFFFF).setWidth 16

/-- The mask is made as a double word, since a power of two just above the word is needed for it. -/
def lowMask? (width : Nat) : Option (BitVec 32) :=
  if 32 ≤ width then
    some (BitVec.allOnes 32)
  else do
    let power ← shiftLeft? 1 width
    subtract? power 1

theorem truncate_eq (word : BitVec 32) : truncate word = word.setWidth 16 := by
  have ones : (0xFFFF : BitVec 32).setWidth 16 = BitVec.allOnes 16 := rfl
  rw [truncate, BitVec.setWidth_and, ones, BitVec.and_allOnes]

theorem lowMask?_eq (width : Nat) : ∃ mask, lowMask? width = some mask ∧ mask.setWidth 16 = lowMask width := by
  by_cases wide : 32 ≤ width
  · refine ⟨_, if_pos wide, BitVec.eq_of_getLsbD_eq fun bit inside => ?_⟩
    have below : bit < 32 ∧ bit < width := by omega
    rw [BitVec.getLsbD_setWidth, BitVec.getLsbD_allOnes, getLsbD_lowMask]
    simp [inside, below]
  · have narrow : width < 32 := Nat.not_le.mp wide
    let power : BitVec 32 := 1 <<< width
    have value : power.toNat = 2 ^ width := by
      have known := BitVec.toNat_twoPow_of_lt narrow
      rwa [BitVec.twoPow_eq] at known
    have positive : 1 ≤ power := by
      rw [BitVec.le_def, value]
      exact Nat.two_pow_pos width
    refine ⟨power - 1, ?_, BitVec.eq_of_getLsbD_eq fun bit inside => ?_⟩
    · rw [lowMask?, if_neg wide, shiftLeft?, if_pos narrow]
      exact if_pos positive
    · have ones : (power - 1).getLsbD bit = decide (bit < width) := by
        rw [← BitVec.testBit_toNat, BitVec.toNat_sub_of_le positive, value]
        exact Nat.testBit_two_pow_sub_one width bit
      rw [BitVec.getLsbD_setWidth, ones, getLsbD_lowMask]
      simp [inside]

end Checked

namespace Field

open Checked

section Machine

variable (field : Field)

def valueMask? : Option Word := do
  let mask ← lowMask? field.width
  return truncate mask

def wordMask? : Option Word :=
  if registerWidth ≤ field.offset then
    some 0
  else do
    let mask ← lowMask? field.width
    let shifted ← shiftLeft? mask field.offset
    return truncate shifted

def fits? (value : Word) : Option Bool := do
  let mask ← field.valueMask?
  return value &&& ~~~mask = 0

def extract? (word : Word) : Option Word :=
  if registerWidth ≤ field.offset then
    some 0
  else do
    let shifted ← shiftRight? word field.offset
    let mask ← field.valueMask?
    return shifted &&& mask

def insert? (word value : Word) : Option Word :=
  if registerWidth ≤ field.offset then
    some word
  else do
    let mask ← field.valueMask?
    let shifted ← shiftLeft? ((value &&& mask).setWidth 32) field.offset
    let covered ← field.wordMask?
    return (word &&& ~~~covered) ||| shifted.setWidth 16

def overlaps? (other : Field) : Option Bool := do
  let covered ← field.wordMask?
  let others ← other.wordMask?
  return covered &&& others ≠ 0

/-- Offset, width and register width are bytes, but the end of a field is counted in words. -/
def check? (width : Nat) : Option (Except ConfigError Unit) :=
  if field.width = 0 then
    some (.error .fieldOutOfRange)
  else do
    let stop ← add? (.ofNat 16 field.offset) (.ofNat 16 field.width)
    return if BitVec.ofNat 16 width < stop then .error .fieldOutOfRange else .ok ()

theorem valueMask?_eq : field.valueMask? = some field.valueMask := by
  obtain ⟨mask, known, low⟩ := lowMask?_eq field.width
  rw [valueMask?, known, valueMask, ← low, ← truncate_eq]
  rfl

theorem wordMask?_eq : field.wordMask? = some field.wordMask := by
  by_cases beyond : 16 ≤ field.offset
  · rw [wordMask?, registerWidth, if_pos beyond, wordMask, BitVec.shiftLeft_eq_zero beyond]
    rfl
  · have inside : field.offset < 32 := by omega
    obtain ⟨mask, known, low⟩ := lowMask?_eq field.width
    simp only [wordMask?, registerWidth, if_neg beyond, known, shiftLeft?, if_pos inside, Option.bind_eq_bind,
      Option.bind_some, truncate_eq, BitVec.setWidth_shiftLeft_of_le (by decide : 16 ≤ 32), low]
    rfl

theorem fits?_eq (value : Word) : field.fits? value = some (field.fits value) := by
  rw [fits?, valueMask?_eq]
  rfl

theorem extract?_eq (word : Word) : field.extract? word = some (field.extract word) := by
  by_cases beyond : 16 ≤ field.offset
  · rw [extract?, registerWidth, if_pos beyond, extract, BitVec.ushiftRight_eq_zero beyond, BitVec.zero_and]
    rfl
  · rw [extract?, registerWidth, if_neg beyond, shiftRight?, if_pos (Nat.not_le.mp beyond), valueMask?_eq]
    rfl

theorem insert?_eq (word value : Word) : field.insert? word value = some (field.insert word value) := by
  by_cases beyond : 16 ≤ field.offset
  · rw [insert?, registerWidth, if_pos beyond, insert, wordMask, BitVec.shiftLeft_eq_zero beyond,
      BitVec.shiftLeft_eq_zero beyond, BitVec.not_zero, BitVec.and_allOnes, BitVec.or_zero]
  · have inside : field.offset < 32 := by omega
    simp only [insert?, registerWidth, if_neg beyond, valueMask?_eq, wordMask?_eq, shiftLeft?, if_pos inside,
      Option.bind_eq_bind, Option.bind_some, BitVec.setWidth_shiftLeft_of_le (by decide : 16 ≤ 32),
      BitVec.setWidth_setWidth_of_le _ (by decide : 16 ≤ 32), BitVec.setWidth_eq]
    rfl

theorem overlaps?_eq (other : Field) : field.overlaps? other = some (field.overlaps other) := by
  rw [overlaps?, wordMask?_eq, wordMask?_eq]
  rfl

theorem check?_eq {width : Nat} (offsetByte : field.offset < 256) (widthByte : field.width < 256)
    (registerByte : width < 256) : field.check? width = some (field.check width) := by
  rw [check?, check]
  by_cases empty : field.width = 0
  · rw [if_pos empty, if_pos (.inl empty)]
  · have offset : (BitVec.ofNat 16 field.offset).toNat = field.offset := Nat.mod_eq_of_lt (by omega)
    have length : (BitVec.ofNat 16 field.width).toNat = field.width := Nat.mod_eq_of_lt (by omega)
    have register : (BitVec.ofNat 16 width).toNat = width := Nat.mod_eq_of_lt (by omega)
    have room : (BitVec.ofNat 16 field.offset).toNat + (BitVec.ofNat 16 field.width).toNat < 2 ^ 16 := by
      rw [offset, length]
      omega
    have stop : (BitVec.ofNat 16 field.offset + BitVec.ofNat 16 field.width).toNat = field.offset + field.width := by
      rw [BitVec.toNat_add_of_lt room, offset, length]
    simp only [add?, if_pos room, Option.bind_eq_bind, Option.bind_some, BitVec.lt_def, register, stop, empty,
      if_false, false_or]
    rfl

end Machine

variable (field : Field)

/-- The bits of a word that a field covers. The part of a field beyond the word covers none. -/
def covered : Finset Nat :=
  Finset.Ico field.offset (min 16 (field.offset + field.width))

theorem mem_covered {bit : Nat} : bit ∈ field.covered ↔ bit < 16 ∧ field.Covers bit := by
  rw [covered, Finset.mem_Ico, lt_min_iff]
  exact and_left_comm

theorem insert_extract (word : Word) : field.insert word (field.extract word) = word := by
  apply BitVec.eq_of_getLsbD_eq
  intro bit inside
  rw [getLsbD_insert, getLsbD_extract]
  split
  next covers =>
    obtain ⟨-, above, below⟩ := covers
    have own : bit - field.offset < field.width := by omega
    rw [decide_eq_true own, Bool.true_and, Nat.add_sub_cancel' above]
  next => rfl

theorem insert_insert (word first last : Word) :
    field.insert (field.insert word first) last = field.insert word last := by
  apply BitVec.eq_of_getLsbD_eq
  intro bit inside
  simp only [getLsbD_insert]
  split
  next => rfl
  next => rfl

theorem extract_insert {value : Word} (inside : field.offset + field.width ≤ 16) (fits : field.fits value = true)
    (word : Word) : field.extract (field.insert word value) = value := by
  have low := (toNat_lt_two_pow_iff value field.width).mp ((field.fits_iff value).mp fits)
  apply BitVec.eq_of_getLsbD_eq
  intro bit _
  rw [getLsbD_extract, getLsbD_insert]
  by_cases own : bit < field.width
  · have covers : field.offset + bit < 16 ∧ field.Covers (field.offset + bit) := by
      rw [Covers]
      omega
    rw [if_pos covers, decide_eq_true own, Bool.true_and, Nat.add_sub_cancel_left]
  · rw [decide_eq_false own, Bool.false_and, low bit (Nat.not_lt.mp own)]

theorem inside_of_check {width : Nat} (checked : field.check width = .ok ()) : field.offset + field.width ≤ width := by
  rw [check] at checked
  split at checked
  next => cases checked
  next within => omega

/-- No operation on a field overflows, and each is what it does to the bits that the field covers. So a field is a
lens on these bits, and if it passes the check and the value fits, what was inserted is extracted whole. -/
theorem total_lens :
    (∀ word value other, field.valueMask? = some field.valueMask ∧ field.wordMask? = some field.wordMask ∧
      field.fits? value = some (field.fits value) ∧ field.extract? word = some (field.extract word) ∧
      field.insert? word value = some (field.insert word value) ∧
      field.overlaps? other = some (field.overlaps other)) ∧
    (∀ width, field.offset < 256 → field.width < 256 → width < 256 →
      field.check? width = some (field.check width)) ∧
    (∀ bit, field.wordMask.getLsbD bit = true ↔ bit ∈ field.covered) ∧
    (∀ word value bit, (field.insert word value).getLsbD bit =
      if bit ∈ field.covered then value.getLsbD (bit - field.offset) else word.getLsbD bit) ∧
    (∀ word bit, (field.extract word).getLsbD bit =
      if field.offset + bit ∈ field.covered then word.getLsbD (field.offset + bit) else false) ∧
    (∀ word, field.insert word (field.extract word) = word) ∧
    (∀ word first last, field.insert (field.insert word first) last = field.insert word last) ∧
    (∀ other : Field, field.overlaps other = true ↔ (field.covered ∩ other.covered).Nonempty) ∧
    ∀ width word value, width ≤ 16 → field.check width = .ok () → field.fits value = true →
      field.extract (field.insert word value) = value := by
  refine ⟨fun word value other => ?_, fun width => field.check?_eq, fun bit => ?_, fun word value bit => ?_,
    fun word bit => ?_, field.insert_extract, field.insert_insert, fun other => ?_, ?_⟩
  · exact ⟨field.valueMask?_eq, field.wordMask?_eq, field.fits?_eq value, field.extract?_eq word,
      field.insert?_eq word value, field.overlaps?_eq other⟩
  · rw [getLsbD_wordMask, decide_eq_true_iff, mem_covered]
  · simp only [getLsbD_insert, mem_covered]
  · rw [getLsbD_extract]
    simp only [mem_covered, Covers]
    by_cases inside : field.offset + bit < 16
    · by_cases own : bit < field.width <;> simp [inside, own]
    · simp [inside, BitVec.getLsbD_of_ge word _ (Nat.not_lt.mp inside)]
  · rw [overlaps_iff]
    simp only [Finset.Nonempty, Finset.mem_inter, mem_covered]
    grind
  · intro width word value narrow checked fits
    exact field.extract_insert ((field.inside_of_check checked).trans narrow) fits word

/-- A field at the top of the word, and one that runs far beyond it. -/
theorem total_lens_beyond :
    let speed : Field := ⟨"speed", 13, 3⟩
    let wide : Field := ⟨"wide", 15, 255⟩
    speed.check 16 = .ok () ∧ speed.fits 0b101 = true ∧ speed.extract (speed.insert 0x5234 0b101) = 0b101 ∧
    wide.check? 16 = some (.error .fieldOutOfRange) ∧ wide.insert? 0x5234 0xFFFE = some 0x5234 ∧
    wide.covered = {15} ∧ (speed.covered ∩ wide.covered).Nonempty := by
  intro speed wide
  obtain ⟨-, -, -, -, -, -, -, overlapping, kept⟩ := total_lens speed
  obtain ⟨total, checking, -⟩ := total_lens wide
  have checked : speed.check 16 = .ok () := by decide
  have fits : speed.fits 0b101 = true := by decide
  obtain ⟨-, -, -, -, inserted, -⟩ := total 0x5234 0xFFFE speed
  refine ⟨checked, fits, kept 16 0x5234 0b101 (by decide) checked fits, ?_, ?_, by decide, ?_⟩
  · exact (checking 16 (by decide) (by decide) (by decide)).trans (by decide)
  · exact inserted.trans (by decide)
  · exact (overlapping wide).mp (by decide)

end Field
end Clause22
