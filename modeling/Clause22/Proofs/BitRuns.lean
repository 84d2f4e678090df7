import Clause22.Wire

/-! A run of bits and the number it spells determine each other bit by bit. So a word that was sent
and spelled again is the word cut to the number of bits sent. -/

namespace Clause22.Bits

@[simp] theorem toNat_concat (bits : List Bool) (bit : Bool) :
    toNat (bits ++ [bit]) = 2 * toNat bits + bit.toNat := by
  simp [toNat]

theorem testBit_toNat_reverse (bits : List Bool) (index : Nat) :
    (toNat bits.reverse).testBit index = bits.getD index false := by
  induction bits generalizing index with
  | nil => simp [toNat]
  | cons bit bits ih =>
    rw [List.reverse_cons, toNat_concat]
    cases index with
    | zero => cases bit <;> simp [Nat.testBit_zero]
    | succ index =>
      have halved : (2 * toNat bits.reverse + bit.toNat) / 2 = toNat bits.reverse := by
        have := Bool.toNat_lt bit
        omega
      rw [Nat.testBit_succ, halved, ih, List.getD_cons_succ]

@[simp] theorem length_low (word : BitVec width) (count : Nat) : (low word count).length = count := by
  simp [low]

@[simp] theorem getD_low (word : BitVec width) (count index : Nat) :
    (low word count).getD index false = (decide (index < count) && word.getLsbD index) := by
  by_cases inside : index < count <;> simp [low, inside]

theorem toNat_reverse_low (word : BitVec width) (count : Nat) :
    toNat (low word count).reverse = (word.setWidth count).toNat := by
  apply Nat.eq_of_testBit_eq
  intro index
  rw [testBit_toNat_reverse, getD_low, BitVec.testBit_toNat, BitVec.getLsbD_setWidth]

theorem low_reverse (word : BitVec 32) (count : Nat) (fits : count ≤ 32) :
    low (reverse word count) count = (low word count).reverse := by
  apply List.ext_getElem (by simp)
  intro index first last
  have inside : index < count := by simpa using first
  have spelled := testBit_toNat_reverse (low word count).reverse index
  rw [List.reverse_reverse, List.getD_eq_getElem?_getD, List.getElem?_eq_getElem last,
    Option.getD_some] at spelled
  simp only [low, List.getElem_map, List.getElem_range, reverse, Nat.min_eq_left fits]
  rw [BitVec.getLsbD_ofNat]
  simp only [show index < 32 by omega, decide_true, Bool.true_and]
  exact spelled

theorem send_eq (word : BitVec 32) (count : Nat) : send word count = (low word (min count 32)).reverse := by
  rw [send, low_reverse word (min count 32) (Nat.min_le_right _ _)]

@[simp] theorem length_send (word : BitVec 32) (count : Nat) : (send word count).length = min count 32 := by
  simp [send_eq]

theorem toNat_send (word : BitVec 32) (count : Nat) :
    toNat (send word count) = (word.setWidth (min count 32)).toNat := by
  rw [send_eq, toNat_reverse_low]

end Clause22.Bits
