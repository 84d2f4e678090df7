import Clause22.Proofs.WireEdges

/-! What a PHY makes of a run of driven bits. A hunting PHY turns a preamble and a header into a read
or a write, and a PHY in any state at all is hunting again after a preamble of ones. -/

namespace Clause22

namespace Phy

def shift (phy : Phy) (bits : List Bool) : Phy :=
  phy.hear (bits.map .driven)

@[simp] theorem hear_driven (phy : Phy) (bits : List Bool) : phy.hear (bits.map .driven) = phy.shift bits := rfl

@[simp] theorem shift_nil (phy : Phy) : phy.shift [] = phy := rfl

@[simp] theorem shift_cons (phy : Phy) (bit : Bool) (bits : List Bool) :
    phy.shift (bit :: bits) = (phy.onDriven bit).shift bits := rfl

@[simp] theorem shift_append (phy : Phy) (first rest : List Bool) :
    phy.shift (first ++ rest) = (phy.shift first).shift rest := by
  simp only [shift, List.map_append, hear_append]

theorem shift_ones {phy : Phy} {ones : Nat} (hunting : phy.decoder = .hunt ones) (count : Nat) :
    phy.shift (List.replicate count true) = { phy with decoder := .hunt (ones + count) } := by
  induction count generalizing phy ones with
  | zero => simp [← hunting]
  | succ count ih =>
    rw [List.replicate_succ, shift_cons, onDriven, hunting]
    simp only [Decoder.hunting, if_true]
    have total : ones + 1 + count = ones + (count + 1) := by omega
    rw [ih rfl, total]

theorem shift_header_part {phy : Phy} {bits more : List Bool} (receiving : phy.decoder = .header bits)
    (short : bits.length + more.length < Decoder.headerBits) :
    phy.shift more = { phy with decoder := .header (bits ++ more) } := by
  induction more generalizing phy bits with
  | nil => simp [← receiving]
  | cons bit more ih =>
    simp only [List.length_cons] at short
    have waits : ¬ (bits ++ [bit]).length = Decoder.headerBits := by simp; omega
    rw [shift_cons, onDriven, receiving]
    simp only [if_neg waits]
    rw [ih rfl (by simp; omega), List.append_assoc, List.singleton_append]

theorem shift_header {phy : Phy} {bits more : List Bool} (receiving : phy.decoder = .header bits)
    (some : more ≠ []) (whole : bits.length + more.length = Decoder.headerBits) :
    phy.shift more = { phy with decoder := phy.decodeHeader (bits ++ more) } := by
  obtain ⟨before, last, rfl⟩ : ∃ before last, more = before ++ [last] :=
    ⟨more.dropLast, more.getLast some, (List.dropLast_concat_getLast some).symm⟩
  simp only [List.length_append, List.length_singleton] at whole
  rw [shift_append, shift_header_part receiving (by omega)]
  simp only [shift_cons, shift_nil, onDriven, List.append_assoc]
  rw [if_pos (by simp; omega)]
  rfl

theorem shift_tail_part {phy : Phy} {target reg : Nat} {bits more : List Bool}
    (receiving : phy.decoder = .writing target reg bits) (short : bits.length + more.length < Decoder.tailBits) :
    phy.shift more = { phy with decoder := .writing target reg (bits ++ more) } := by
  induction more generalizing phy bits with
  | nil => simp [← receiving]
  | cons bit more ih =>
    simp only [List.length_cons] at short
    have waits : ¬ (bits ++ [bit]).length = Decoder.tailBits := by simp; omega
    rw [shift_cons, onDriven, receiving]
    simp only [if_neg waits]
    rw [ih rfl (by simp; omega), List.append_assoc, List.singleton_append]

theorem shift_tail {phy : Phy} {target reg : Nat} {bits more : List Bool}
    (receiving : phy.decoder = .writing target reg bits) (some : more ≠ [])
    (whole : bits.length + more.length = Decoder.tailBits) :
    phy.shift more = phy.finishWrite target reg (bits ++ more) := by
  obtain ⟨before, last, rfl⟩ : ∃ before last, more = before ++ [last] :=
    ⟨more.dropLast, more.getLast some, (List.dropLast_concat_getLast some).symm⟩
  simp only [List.length_append, List.length_singleton] at whole
  rw [shift_append, shift_tail_part receiving (by omega)]
  simp only [shift_cons, shift_nil, onDriven, List.append_assoc]
  rw [if_pos (by simp; omega)]
  rfl

@[simp] theorem finishWrite_decoder (phy : Phy) (target reg : Nat) (bits : List Bool) :
    (phy.finishWrite target reg bits).decoder = .hunt 0 := by
  simp only [finishWrite]
  split <;> rfl

end Phy

/-- A decoder has not yet received all that it waits for. -/
def Decoder.Underway : Decoder → Prop
  | .header bits => bits.length < headerBits
  | .writing _ _ bits => bits.length < tailBits
  | _ => True

private theorem Decoder.underway_hunting (ones : Nat) (bit : Bool) : (Decoder.hunting ones bit).Underway := by
  cases bit with
  | true => trivial
  | false =>
    simp only [Decoder.hunting, Bool.false_eq_true, if_false]
    split
    · exact Nat.lt_of_sub_eq_succ rfl
    · trivial

namespace Phy

theorem decodeHeader_cases (phy : Phy) (bits : List Bool) :
    phy.decodeHeader bits = .hunt 0 ∨
    (∃ target reg answer, phy.decodeHeader bits = .reading target reg answer 0) ∨
    (∃ target reg, phy.decodeHeader bits = .writing target reg []) := by
  simp only [decodeHeader]
  split
  · exact .inl rfl
  · split
    · exact .inr (.inl ⟨_, _, _, rfl⟩)
    · split
      · exact .inr (.inr ⟨_, _, rfl⟩)
      · exact .inl rfl

private theorem underway_decodeHeader (phy : Phy) (bits : List Bool) : (phy.decodeHeader bits).Underway := by
  obtain nowhere | ⟨_, _, _, reading⟩ | ⟨_, _, writing⟩ := phy.decodeHeader_cases bits
  · rw [nowhere]; trivial
  · rw [reading]; trivial
  · rw [writing]
    exact Nat.zero_lt_succ _

theorem underway_onEdge {phy : Phy} (underway : phy.decoder.Underway) (edge : Edge) :
    (phy.onEdge edge).decoder.Underway := by
  cases edge with
  | driven bit =>
    cases state : phy.decoder with
    | hunt ones => simpa only [onEdge, onDriven, state] using Decoder.underway_hunting ones bit
    | reading target reg answer edges => simpa only [onEdge, onDriven, state] using Decoder.underway_hunting 0 bit
    | header bits =>
      simp only [state, Decoder.Underway] at underway
      simp only [onEdge, onDriven, state]
      split
      next => exact underway_decodeHeader phy _
      next waits =>
        simp only [Decoder.Underway, List.length_append, List.length_singleton] at waits ⊢
        omega
    | writing target reg bits =>
      simp only [state, Decoder.Underway] at underway
      simp only [onEdge, onDriven, state]
      split
      next => simp only [finishWrite_decoder, Decoder.Underway]
      next waits =>
        simp only [Decoder.Underway, List.length_append, List.length_singleton] at waits ⊢
        omega
  | released =>
    cases state : phy.decoder with
    | hunt _ | header _ | writing _ _ _ => simp only [onEdge, onReleased, state, Decoder.Underway]
    | reading target reg answer edges =>
      simp only [onEdge, onReleased, state]
      split <;> trivial

theorem underway_hear {phy : Phy} (underway : phy.decoder.Underway) (edges : List Edge) :
    (phy.hear edges).decoder.Underway := by
  induction edges generalizing phy with
  | nil => exact underway
  | cons edge edges ih => exact ih (underway_onEdge underway edge)

end Phy

/-- The number of ones after which a decoder is hunting, whatever they complete: a header may turn out
to start a write. -/
def Decoder.onesToHunt : Decoder → Nat
  | .hunt _ => 0
  | .reading .. => 1
  | .writing _ _ bits => tailBits - bits.length
  | .header bits => headerBits - bits.length + tailBits

/-- A preamble is just long enough for the worst of all decoders. -/
theorem Decoder.onesToHunt_le (decoder : Decoder) : decoder.onesToHunt ≤ Wire.preambleBits := by
  cases decoder with
  | hunt _ | reading _ _ _ _ => simp [onesToHunt, Wire.preambleBits]
  | header bits | writing _ _ bits =>
    simp only [onesToHunt, headerBits, tailBits, Wire.shortBits, Wire.addressBits, Wire.dataBits, Wire.preambleBits]
    omega

namespace Phy

/-- What ones and then released cycles make of a PHY: only a write that has its turnaround is finished,
with ones for the bits that were still to come. -/
def settle (phy : Phy) : Phy :=
  match phy.decoder with
  | .writing target reg bits =>
    phy.finishWrite target reg (bits ++ List.replicate (Decoder.tailBits - bits.length) true)
  | _ => { phy with decoder := .hunt 0 }

@[simp] theorem settle_decoder (phy : Phy) : phy.settle.decoder = .hunt 0 := by
  simp only [settle]
  split
  · exact finishWrite_decoder ..
  · rfl

theorem finishWrite_spoiled (phy : Phy) (target reg count : Nat) :
    phy.finishWrite target reg (List.replicate (count + 2) true) = { phy with decoder := .hunt 0 } := by
  rw [finishWrite, if_neg]
  intro ⟨turnaround, _⟩
  simp [Wire.shortBits, List.take_replicate] at turnaround
  exact absurd turnaround (by decide)

private theorem shift_ones_reading {phy : Phy} {target reg edges : Nat} {answer : Option Word}
    (reading : phy.decoder = .reading target reg answer edges) (count : Nat) :
    phy.shift (List.replicate (count + 1) true) = { phy with decoder := .hunt (count + 1) } := by
  rw [List.replicate_succ, shift_cons, onDriven, reading]
  simp only [Decoder.hunting, if_true]
  rw [shift_ones rfl count, Nat.zero_add, Nat.add_comm]

private theorem shift_ones_writing {phy : Phy} {target reg : Nat} {bits : List Bool}
    (receiving : phy.decoder = .writing target reg bits) (underway : bits.length < Decoder.tailBits) (count : Nat) :
    phy.shift (List.replicate (Decoder.tailBits - bits.length + count) true) =
      { phy.settle with decoder := .hunt count } := by
  have finished : phy.shift (List.replicate (Decoder.tailBits - bits.length) true) = phy.settle := by
    simp only [settle, receiving]
    apply shift_tail receiving
    · simp only [ne_eq, List.replicate_eq_nil_iff]
      omega
    · simp only [List.length_replicate]
      omega
  rw [← List.replicate_append_replicate, shift_append, finished, shift_ones phy.settle_decoder, Nat.zero_add]

private theorem shift_ones_decoded (phy : Phy) (bits : List Bool) {count : Nat} (enough : Decoder.tailBits ≤ count) :
    ∃ ones, { phy with decoder := phy.decodeHeader bits }.shift (List.replicate count true) =
      { phy with decoder := .hunt ones } := by
  obtain ⟨more, rfl⟩ := Nat.exists_eq_add_of_le enough
  obtain nowhere | ⟨target, reg, answer, reading⟩ | ⟨target, reg, writing⟩ := phy.decodeHeader_cases bits
  · exact ⟨0 + (Decoder.tailBits + more), shift_ones nowhere _⟩
  · refine ⟨Decoder.tailBits + more, ?_⟩
    have some : Decoder.tailBits + more = 17 + more + 1 := Nat.succ_add 17 more
    rw [some]
    exact shift_ones_reading reading _
  · have fresh : ([] : List Bool).length < Decoder.tailBits := by decide
    refine ⟨more, (shift_ones_writing writing fresh more).trans ?_⟩
    simp only [settle, writing]
    have missing : Decoder.tailBits - ([] : List Bool).length = Wire.dataBits + 2 := rfl
    rw [missing, List.nil_append, finishWrite_spoiled]

theorem shift_ones_settle {phy : Phy} (underway : phy.decoder.Underway) {count : Nat}
    (enough : phy.decoder.onesToHunt ≤ count) :
    ∃ ones, phy.shift (List.replicate count true) = { phy.settle with decoder := .hunt ones } := by
  cases state : phy.decoder with
  | hunt ones => exact ⟨ones + count, by rw [shift_ones state, settle, state]⟩
  | reading target reg answer edges =>
    rw [state] at enough
    have one : 1 ≤ count := enough
    obtain ⟨more, rfl⟩ := Nat.exists_eq_add_of_le' one
    exact ⟨more + 1, by rw [shift_ones_reading state, settle, state]⟩
  | writing target reg bits =>
    simp only [state, Decoder.Underway, Decoder.onesToHunt] at underway enough
    obtain ⟨more, rfl⟩ := Nat.exists_eq_add_of_le enough
    exact ⟨more, shift_ones_writing state underway more⟩
  | header bits =>
    -- The first ones complete the header. If it turns out to start a write, the rest fill and spoil its tail.
    simp only [state, Decoder.Underway, Decoder.onesToHunt] at underway enough
    obtain ⟨more, rfl⟩ := Nat.exists_eq_add_of_le (Nat.le_trans (Nat.le_add_right _ _) enough)
    have decoded : phy.shift (List.replicate (Decoder.headerBits - bits.length) true) = _ := shift_header state
      (by simp only [ne_eq, List.replicate_eq_nil_iff]; omega) (by simp only [List.length_replicate]; omega)
    have left : Decoder.tailBits ≤ more := by omega
    obtain ⟨ones, hunting⟩ :=
      shift_ones_decoded phy (bits ++ List.replicate (Decoder.headerBits - bits.length) true) left
    refine ⟨ones, ?_⟩
    rw [← List.replicate_append_replicate, shift_append, decoded, hunting]
    simp only [settle, state]

theorem hear_recovery {phy : Phy} (underway : phy.decoder.Underway) :
    phy.hear (Frame.ones.map .driven ++ List.replicate Wire.turnaroundCycles .released) = phy.settle := by
  obtain ⟨ones, hunting⟩ := shift_ones_settle underway phy.decoder.onesToHunt_le
  rw [hear_append, hear_driven, hunting]
  exact congrArg ({ phy.settle with decoder := · }) phy.settle_decoder.symm

end Phy
end Clause22
