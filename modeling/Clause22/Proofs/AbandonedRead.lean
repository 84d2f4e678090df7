import Clause22.Proofs.AbandonedWrite

/-! A read that the transport breaks off. The PHY may have begun to answer, but it does not wait for data,
and no recovery stores anything. -/

namespace Clause22

theorem Script.attempts_readBits {count : Nat} (short : count ≤ 32) : (readBits count).attempts = 3 * count := by
  rw [readBits, Nat.min_eq_left short]
  clear short
  induction count with
  | zero => rfl
  | succ count ih =>
    have bit : attempts readBit = 3 := rfl
    rw [List.replicate_succ, List.flatten_cons, attempts_append, ih, bit, Nat.mul_succ, Nat.add_comm]

namespace Frame

def readAttempts : TurnaroundCheck → Nat
  | .ignore => 195
  | .verify => 196

theorem attempts_read (check : TurnaroundCheck) (target reg : Nat) :
    (script (read check target reg)).attempts = readAttempts check := by
  have sent := Script.attempts_sendBits (ones ++ headerBits Wire.opRead target reg)
  have data : (Script.readBits Wire.dataBits).attempts = 48 := Script.attempts_readBits (by decide)
  have trailed := Script.attempts_releaseCycles Wire.turnaroundCycles
  rw [List.length_append, List.length_replicate, length_headerBits] at sent
  rw [script_read, Script.attempts, Script.attempts_append, sent, releasedPart, Script.attempts_append,
    Script.attempts_append, data, trailed]
  cases check <;> rfl

end Frame

/-- A decoder that does not receive a write. -/
def Decoder.Silent : Decoder → Prop
  | .writing .. => False
  | _ => True

namespace Phy

theorem settle_silent {phy : Phy} (silent : phy.decoder.Silent) : phy.settle = { phy with decoder := .hunt 0 } := by
  cases state : phy.decoder with
  | writing => simp only [state, Decoder.Silent] at silent
  | hunt | header | reading => simp only [settle, state]

theorem onReleased_silent (phy : Phy) :
    ∃ decoder events, phy.onReleased = { phy with decoder, events } ∧ decoder.Silent := by
  cases state : phy.decoder with
  | hunt | header | writing => exact ⟨.hunt 0, phy.events, by simp only [onReleased, state], trivial⟩
  | reading target reg answer edges =>
    rw [onReleased, state]
    refine ⟨_, _, rfl, ?_⟩
    split <;> trivial

theorem settle_released {phy : Phy} (silent : phy.decoder.Silent) (count : Nat) :
    ∃ events, (phy.hear (List.replicate count .released)).settle = { phy with decoder := .hunt 0, events } := by
  induction count generalizing phy with
  | zero => exact ⟨phy.events, settle_silent silent⟩
  | succ count ih =>
    obtain ⟨decoder, events, next, still⟩ := phy.onReleased_silent
    have silent : { phy with decoder, events : Phy }.decoder.Silent := still
    obtain ⟨later, settled⟩ := ih silent
    exact ⟨later, by rw [List.replicate_succ, hear_cons, onEdge, next, settled]⟩

theorem settle_read {phy : Phy} {target reg ones : Nat} (hunting : phy.decoder = .hunt ones)
    (validPhy : target ≤ Wire.maxPhyAddress) (validReg : reg ≤ Wire.maxRegisterIndex) {edges : List Edge}
    (heard : edges <+: (Frame.ones ++ Frame.headerBits Wire.opRead target reg).map .driven ++
      List.replicate Decoder.readEdges .released) :
    ∃ events, (phy.hear edges).settle = { phy with decoder := .hunt 0, events } := by
  have opening : ((Frame.ones ++ Frame.headerBits Wire.opRead target reg).map Edge.driven).length = 46 := by
    simp [Decoder.headerBits, Wire.preambleBits, Wire.shortBits, Wire.addressBits]
  rw [List.prefix_iff_eq_take.mp heard]
  by_cases opened : edges.length < 46
  · rw [List.take_append_of_le_length (by omega), ← List.map_take, hear_driven]
    exact ⟨phy.events, settle_opening hunting Wire.opRead opened⟩
  · have answering : (phy.decodeHeader (Frame.headerBits Wire.opRead target reg)).Silent := by
      rw [decodeHeader_read validPhy validReg]
      trivial
    rw [List.take_append, List.take_of_length_le (by omega), List.take_replicate, hear_append, hear_driven,
      shift_opening hunting]
    exact settle_released answering _

end Phy
end Clause22
