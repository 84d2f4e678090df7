import Mathlib.Algebra.Group.Nat.Defs
import Clause22.Register

/-! Field access bit by bit. A field is the set of bits that it covers; masks, extraction and insertion
are what they do to single bits, so no shift or mask has to be looked at again. -/

namespace Clause22

theorem getLsbD_lowMask (width bit : Nat) : (lowMask width).getLsbD bit = decide (bit < 16 ∧ bit < width) := by
  rw [lowMask, BitVec.getLsbD_not, BitVec.getLsbD_shiftLeft, BitVec.getLsbD_allOnes]
  by_cases inside : bit < 16
  · have shifted : bit - width < 16 := by omega
    simp [inside, shifted]
  · simp [inside]

theorem toNat_lt_two_pow_iff (word : Word) (width : Nat) :
    word.toNat < 2 ^ width ↔ ∀ bit, width ≤ bit → word.getLsbD bit = false := by
  constructor
  · intro bounded bit above
    exact Nat.testBit_lt_two_pow (Nat.lt_of_lt_of_le bounded (Nat.pow_le_pow_right (by decide) above))
  · exact Nat.lt_pow_two_of_testBit word.toNat

theorem and_not_lowMask_eq_zero_iff (word : Word) (width : Nat) :
    word &&& ~~~lowMask width = 0 ↔ ∀ bit, width ≤ bit → word.getLsbD bit = false := by
  constructor
  · intro empty bit above
    by_cases inside : bit < 16
    · have kept := congrArg (BitVec.getLsbD · bit) empty
      simp only [BitVec.getLsbD_and, BitVec.getLsbD_not, getLsbD_lowMask, Nat.not_lt.mpr above, inside] at kept
      simpa using kept
    · exact BitVec.getLsbD_of_ge word bit (Nat.not_lt.mp inside)
  · intro low
    apply BitVec.eq_of_getLsbD_eq
    intro bit inside
    rw [BitVec.getLsbD_and, BitVec.getLsbD_not, getLsbD_lowMask]
    by_cases below : bit < width
    · simp [inside, below]
    · simp [low bit (Nat.not_lt.mp below)]

namespace Field

variable (field : Field)

def Covers (bit : Nat) : Prop :=
  field.offset ≤ bit ∧ bit < field.offset + field.width

instance (bit : Nat) : Decidable (field.Covers bit) :=
  inferInstanceAs (Decidable (_ ∧ _))

theorem fits_iff (value : Word) : field.fits value = true ↔ value.toNat < 2 ^ field.width := by
  rw [fits, valueMask, decide_eq_true_iff, and_not_lowMask_eq_zero_iff, toNat_lt_two_pow_iff]

theorem getLsbD_wordMask (bit : Nat) : field.wordMask.getLsbD bit = decide (bit < 16 ∧ field.Covers bit) := by
  rw [wordMask, valueMask, BitVec.getLsbD_shiftLeft, getLsbD_lowMask]
  simp only [Covers]
  grind

theorem overlaps_iff (other : Field) :
    field.overlaps other = true ↔ ∃ bit < 16, field.Covers bit ∧ other.Covers bit := by
  have shared (bit : Nat) : (field.wordMask &&& other.wordMask).getLsbD bit =
      decide (bit < 16 ∧ field.Covers bit ∧ other.Covers bit) := by
    rw [BitVec.getLsbD_and, getLsbD_wordMask, getLsbD_wordMask]
    grind
  rw [overlaps, decide_eq_true_iff]
  constructor
  · intro overlap
    refine Classical.byContradiction fun apart => overlap (BitVec.eq_of_getLsbD_eq fun bit _ => ?_)
    rw [shared, decide_eq_false fun covers => apart ⟨bit, covers⟩]
    exact BitVec.getLsbD_zero.symm
  · intro ⟨bit, covers⟩ empty
    have none : false = _ := BitVec.getLsbD_zero.symm.trans ((congrArg (BitVec.getLsbD · bit) empty).symm.trans (shared bit))
    rw [decide_eq_true covers] at none
    cases none

theorem getLsbD_extract (word : Word) (bit : Nat) :
    (field.extract word).getLsbD bit = (decide (bit < field.width) && word.getLsbD (field.offset + bit)) := by
  rw [extract, valueMask, BitVec.getLsbD_and, BitVec.getLsbD_ushiftRight, getLsbD_lowMask]
  by_cases inside : field.offset + bit < 16
  · have low : bit < 16 := by omega
    simp [low, Bool.and_comm]
  · simp [BitVec.getLsbD_of_ge word _ (Nat.not_lt.mp inside)]

theorem getLsbD_insert (word value : Word) (bit : Nat) :
    (field.insert word value).getLsbD bit =
      if bit < 16 ∧ field.Covers bit then value.getLsbD (bit - field.offset) else word.getLsbD bit := by
  rw [insert, BitVec.getLsbD_or, BitVec.getLsbD_and, BitVec.getLsbD_not, getLsbD_wordMask, BitVec.getLsbD_shiftLeft,
    BitVec.getLsbD_and, valueMask, getLsbD_lowMask]
  split
  next covered =>
    obtain ⟨inside, above, below⟩ := covered
    have low : bit - field.offset < 16 ∧ bit - field.offset < field.width := by omega
    simp [inside, Covers, above, below, low]
  next uncovered =>
    by_cases inside : bit < 16
    · have outside : ¬ (¬ bit < field.offset ∧ bit - field.offset < field.width) := fun within =>
        uncovered ⟨inside, by omega, by omega⟩
      have apart : ¬ field.Covers bit := fun covers => uncovered ⟨inside, covers⟩
      simp [inside, apart]
      grind
    · simp [inside, BitVec.getLsbD_of_ge word bit (Nat.not_lt.mp inside)]

theorem insert_comm {other : Field} (apart : field.overlaps other = false) (word value more : Word) :
    other.insert (field.insert word value) more = field.insert (other.insert word more) value := by
  have alone (bit : Nat) (inside : bit < 16) : ¬ (field.Covers bit ∧ other.Covers bit) := fun shared => by
    rw [(field.overlaps_iff other).mpr ⟨bit, inside, shared⟩] at apart
    cases apart
  apply BitVec.eq_of_getLsbD_eq
  intro bit inside
  simp only [getLsbD_insert, inside, true_and]
  by_cases first : field.Covers bit
  · have second : ¬ other.Covers bit := fun covers => alone bit inside ⟨first, covers⟩
    rw [if_neg second, if_pos first, if_pos first]
  · rw [if_neg first, if_neg first]

end Field
end Clause22
