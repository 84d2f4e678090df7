import Clause22.Proofs.FrameDecoding

/-! A frame that the fault cuts short. A sent bit costs three attempts and shows its edge at the second,
so the number of attempts says which bits the PHY has received. -/

namespace Clause22

namespace Script

theorem upTo_lasting {first : Script} {count : Nat} (lasts : first.attempts ≤ count) (rest : Script) :
    (first ++ rest).upTo count = first ++ rest.upTo (count - first.attempts) := by
  induction first generalizing count with
  | nil => rfl
  | cons action first ih =>
    cases action with
    | wait => exact congrArg _ (ih lasts)
    | drive _ | sample =>
      obtain ⟨more, rfl⟩ := Nat.exists_eq_add_of_le' (Nat.le_trans (Nat.le_add_left 1 _) lasts)
      simp only [attempts, Nat.add_le_add_iff_right] at lasts
      simp only [List.cons_append, upTo, attempts, ih lasts, Nat.add_sub_add_right]

theorem upTo_failing {first : Script} {count : Nat} (fails : count < first.attempts) (rest : Script) :
    (first ++ rest).upTo count = first.upTo count := by
  induction first generalizing count with
  | nil => cases fails
  | cons action first ih =>
    cases action with
    | wait => exact congrArg (Action.wait :: ·) (ih fails)
    | drive _ | sample =>
      cases count with
      | zero => rfl
      | succ count => exact congrArg (_ :: ·) (ih (Nat.lt_of_succ_lt_succ fails))

theorem edges_upTo_prefix (script : Script) (count : Nat) (lines : LineWord) :
    (script.upTo count).edges lines <+: script.edges lines := by
  induction script generalizing count lines with
  | nil => cases count <;> exact List.prefix_rfl
  | cons action rest ih =>
    cases action with
    | wait => cases count <;> exact ih _ lines
    | sample =>
      cases count with
      | zero => exact List.nil_prefix
      | succ count => exact ih count lines
    | drive word =>
      cases count with
      | zero => exact List.nil_prefix
      | succ count => exact (List.prefix_append_right_inj _).mpr (ih count word)

theorem attempts_writeBit (bit : Bool) : (writeBit bit true).attempts = 3 := rfl

theorem attempts_releaseCycle : attempts releaseCycle = 2 := rfl

theorem attempts_sendBits (bits : List Bool) : (sendBits bits).attempts = 3 * bits.length := by
  induction bits with
  | nil => rfl
  | cons bit bits ih =>
    rw [sendBits, List.flatMap_cons, attempts_append, List.length_cons, attempts_writeBit]
    simp only [sendBits] at ih
    omega

theorem attempts_releaseCycles (cycles : Nat) : (releaseCycles cycles).attempts = 2 * cycles := by
  induction cycles with
  | zero => rfl
  | succ cycles ih =>
    rw [releaseCycles, List.replicate_succ, List.flatten_cons, attempts_append, attempts_releaseCycle]
    simp only [releaseCycles] at ih
    omega

private theorem edges_writeBit_upTo (bit : Bool) {count : Nat} (fails : count < 3) (lines : LineWord) :
    edges ((writeBit bit true).upTo count) lines = ([bit].take ((count + 1) / 3)).map .driven := by
  have low : Low (Wire.outputEnable ||| if bit then Wire.dataOut else 0) := by cases bit <;> rfl
  have settled := between?_low lines low
  rcases count with _ | _ | _ | count
  · rfl
  · exact congrArg (·.toList ++ []) settled
  · cases bit <;> exact congrArg (·.toList ++ [Edge.driven _]) settled
  · exact absurd fails (Nat.not_lt.mpr (Nat.le_add_left 3 count))

theorem edges_sendBits_upTo (bits : List Bool) (count : Nat) (lines : LineWord) :
    edges ((sendBits bits).upTo count) lines = (bits.take ((count + 1) / 3)).map .driven := by
  induction bits generalizing count lines with
  | nil => simp [sendBits, upTo, edges]
  | cons bit bits ih =>
    rw [sendBits, List.flatMap_cons]
    by_cases lasts : (writeBit bit true).attempts ≤ count
    · have three : 3 ≤ count := lasts
      have received : (count + 1) / 3 = (count - 3 + 1) / 3 + 1 := by omega
      rw [upTo_lasting lasts, edges_append, (edges_writeBit bit lines).1, attempts_writeBit, received]
      exact congrArg _ (ih _ _)
    · have short : count < 3 := Nat.not_le.mp lasts
      rw [upTo_failing (Nat.not_le.mp lasts), edges_writeBit_upTo bit short]
      by_cases edge : count = 2
      · rw [edge]
        rfl
      · have none : (count + 1) / 3 = 0 := by omega
        rw [none]
        rfl

theorem edges_releaseCycles_upTo (cycles count : Nat) {lines : LineWord} (low : Low lines) :
    edges ((releaseCycles cycles).upTo count) lines = (List.replicate cycles .released).take ((count + 1) / 2) := by
  induction cycles generalizing count lines with
  | zero => simp [releaseCycles, upTo, edges]
  | succ cycles ih =>
    have cycle := edges_releaseCycle low
    rw [releaseCycles, List.replicate_succ, List.flatten_cons]
    rcases count with _ | _ | count
    · rfl
    · exact cycle.1
    · have lasts : attempts releaseCycle ≤ count + 2 := Nat.le_add_left 2 count
      have received : (count + 2 + 1) / 2 = (count + 1) / 2 + 1 := by omega
      rw [upTo_lasting lasts, edges_append, cycle.1, cycle.2, received]
      exact congrArg _ (ih count rfl)

end Script

namespace Frame

@[simp] theorem length_burst (target reg : Nat) (value : Word) : (burst target reg value).length = 64 := by
  simp [burst, Wire.preambleBits, Decoder.headerBits, Decoder.tailBits, Wire.shortBits, Wire.addressBits, Wire.dataBits]

theorem attempts_write (target reg : Nat) (value : Word) : (script (write target reg value)).attempts = 197 := by
  have sent := Script.attempts_sendBits (burst target reg value)
  have trailed := Script.attempts_releaseCycles Wire.turnaroundCycles
  rw [length_burst] at sent
  rw [script_write, Script.attempts, Script.attempts_append, trailed]
  exact congrArg (· + 2 * Wire.turnaroundCycles + 1) sent

theorem edges_write_upTo (target reg : Nat) (value : Word) (count : Nat) (lines : LineWord) :
    Script.edges ((script (write target reg value)).upTo count) lines =
      ((burst target reg value).take (count / 3)).map .driven ++
        (List.replicate Wire.turnaroundCycles .released).take ((count - 192) / 2) := by
  have sent : (Script.sendBits (burst target reg value)).attempts = 192 := by
    rw [Script.attempts_sendBits, length_burst]
  rw [script_write]
  cases count with
  | zero => rfl
  | succ count =>
    show Script.edges (.drive Wire.outputEnable :: Script.upTo count _) lines = _
    rw [edges_enable]
    by_cases lasts : 192 ≤ count
    · have whole : (burst target reg value).take ((count + 1) / 3) = burst target reg value :=
        List.take_of_length_le (by rw [length_burst]; omega)
      rw [Script.upTo_lasting (sent ▸ lasts), sent, Script.edges_append, Script.edges_sendBits,
        Script.edges_releaseCycles_upTo _ _ (Script.low_sendBits _ rfl), whole, Nat.sub_add_comm lasts]
    · have none : (count + 1 - 192) / 2 = 0 := by omega
      rw [Script.upTo_failing (sent ▸ Nat.not_le.mp lasts), Script.edges_sendBits_upTo, none, List.take_zero,
        List.append_nil]

end Frame

namespace Bench

variable {bench : Bench} {script : Script} {count : Nat}

theorem lasts_failAfter : (bench.failAfter count).Lasts script ↔ script.attempts ≤ count := by
  simp only [Lasts, failAfter, Option.mem_def, Option.some.injEq, forall_eq', operations, Nat.add_sub_cancel_left]

theorem reach_failAfter : (bench.failAfter count).reach script = script.upTo count :=
  congrArg (Script.upTo · _) (Nat.add_sub_cancel_left ..)

theorem lasts_spent (bench : Bench) {spent : Nat} (attempts : script.attempts = spent) (count : Nat) :
    (bench.failAfter (spent + count)).Lasts script :=
  lasts_failAfter.mpr (attempts ▸ Nat.le_add_right ..)

theorem after_operations (bench : Bench) (script : Script) :
    (bench.after script).operations = bench.operations + script.attempts := by
  induction script generalizing bench with
  | nil => rfl
  | cons action rest ih => rw [after_cons, ih, perform_operations, Nat.add_assoc, ← Script.attempts_cons]

theorem after_failAfter (bench : Bench) {script : Script} {spent : Nat} (attempts : script.attempts = spent)
    (count : Nat) : ((bench.failAfter (spent + count)).after script).failAfter count =
      (bench.failAfter (spent + count)).after script := by
  have limit : ((bench.failAfter (spent + count)).after script).failAt =
      some (((bench.failAfter (spent + count)).after script).operations + count) := by
    rw [after_failAt, after_operations, attempts, Nat.add_assoc]
    rfl
  rw [failAfter, ← limit]

end Bench
end Clause22
