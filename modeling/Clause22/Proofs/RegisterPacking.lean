import Clause22.Proofs.FieldBits
import Clause22.Register

/-! Packing over a valid layout. Assignments overwrite one another bit by bit, so each bit of a packed
word comes from the last assignment whose field covers it, however the fields overlap. -/

namespace Clause22

private theorem findSomeRev?_append (choose : α → Option β) (first rest : List α) :
    (first ++ rest).findSomeRev? choose = (rest.findSomeRev? choose).or (first.findSomeRev? choose) := by
  simp only [List.findSomeRev?_eq_findSome?_reverse, List.reverse_append, List.findSome?_append]

private theorem findSomeRev?_cons (choose : α → Option β) (first : α) (rest : List α) :
    (first :: rest).findSomeRev? choose = (rest.findSomeRev? choose).or (choose first) :=
  findSomeRev?_append choose [first] rest

theorem find?_key [DecidableEq κ] {key : α → κ} {items : List α} (distinct : (items.map key).Nodup) {item : α}
    (member : item ∈ items) : items.find? (fun other => key other = key item) = some item := by
  induction items with
  | nil => cases member
  | cons first rest ih =>
    simp only [List.map_cons, List.nodup_cons, List.mem_map, not_exists, not_and] at distinct
    rcases List.mem_cons.mp member with rfl | later
    · simp
    · have other : ¬ key first = key item := fun same => distinct.1 item later same.symm
      rw [List.find?_cons_of_neg (by simpa using other)]
      exact ih distinct.2 later

namespace Register

/-- The rules that validation enforces: a width that a frame can carry, fields inside it, and a name
for each of them alone. -/
structure WellFormed (register : Register) : Prop where
  narrow : 0 < register.width ∧ register.width ≤ registerWidth
  inside : ∀ field ∈ register.fields, 0 < field.width ∧ field.offset + field.width ≤ register.width
  distinct : (register.fields.map Field.name).Nodup

private theorem checkFields_ok_iff (width : Nat) (earlier : List String) (fields : List Field) :
    checkFields width earlier fields = .ok () ↔
      (∀ field ∈ fields, 0 < field.width ∧ field.offset + field.width ≤ width) ∧
      (∀ field ∈ fields, field.name ∉ earlier) ∧ (fields.map Field.name).Nodup := by
  induction fields generalizing earlier with
  | nil => simp [checkFields]
  | cons field rest ih =>
    have step : checkFields width earlier (field :: rest) = .ok () ↔
        (0 < field.width ∧ field.offset + field.width ≤ width) ∧ field.name ∉ earlier ∧
          checkFields width (field.name :: earlier) rest = .ok () := by
      rw [checkFields, Field.check]
      split
      next outside =>
        refine iff_of_false nofun fun ⟨⟨positive, fits⟩, _⟩ => ?_
        omega
      next within =>
        by_cases repeated : field.name ∈ earlier
        · simp [repeated, bind, Except.bind, throw, throwThe, MonadExceptOf.throw]
        · simp only [bind, Except.bind, if_neg repeated]
          exact ⟨fun checked => ⟨by omega, repeated, checked⟩, fun checked => checked.2.2⟩
    rw [step, ih]
    simp only [List.mem_cons, List.map_cons, List.nodup_cons, List.mem_map, not_or]
    grind

theorem validate_ok_iff (register : Register) : register.validate = .ok () ↔ register.WellFormed := by
  rw [validate]
  split
  next wrong =>
    refine iff_of_false nofun fun formed => ?_
    have := formed.narrow
    omega
  next right =>
    rw [checkFields_ok_iff]
    constructor
    · intro ⟨inside, _, distinct⟩
      exact ⟨by omega, inside, distinct⟩
    · intro formed
      exact ⟨formed.inside, by simp, formed.distinct⟩

/-- Why an assignment is refused: no field has its name, or its value needs more bits than the field has. -/
def refusal? (register : Register) (assignment : String × Word) : Option FieldError :=
  match register.fields.find? (fun field => field.name = assignment.1) with
  | some field => if assignment.2.toNat < 2 ^ field.width then none else some .valueOutOfRange
  | none => some .unknownField

def assignedBit? (register : Register) (bit : Nat) (assignment : String × Word) : Option Bool :=
  match register.fields.find? (fun field => field.name = assignment.1) with
  | some field => if field.Covers bit then some (assignment.2.getLsbD (bit - field.offset)) else none
  | none => none

theorem holds_iff (register : Register) (word : Word) :
    register.holds word = true ↔ ∀ bit, register.width ≤ bit → word.getLsbD bit = false := by
  rw [holds, decide_eq_true_iff, wordMask, and_not_lowMask_eq_zero_iff]

theorem assign_refused {register : Register} {assignment : String × Word} {cause : FieldError}
    (refused : register.refusal? assignment = some cause) (word : Word) :
    register.assign word assignment = .error cause := by
  rw [refusal?] at refused
  rw [assign, field]
  cases found : register.fields.find? (fun field => field.name = assignment.1) with
  | none =>
    rw [found] at refused
    cases refused
    rfl
  | some field =>
    simp only [found] at refused
    split at refused
    next => cases refused
    next exceeds =>
      cases refused
      have wide : ¬ field.fits assignment.2 = true := mt (field.fits_iff assignment.2).mp exceeds
      simp only [bind, Except.bind, if_neg wide]
      rfl

section WellFormed

variable {register : Register} (formed : register.WellFormed)

include formed

theorem assign_accepted {assignment : String × Word} (accepted : register.refusal? assignment = none) (word : Word) :
    ∃ after, register.assign word assignment = .ok after ∧
      ∀ bit, after.getLsbD bit = (register.assignedBit? bit assignment).getD (word.getLsbD bit) := by
  rw [refusal?] at accepted
  cases found : register.fields.find? (fun field => field.name = assignment.1) with
  | none =>
    rw [found] at accepted
    cases accepted
  | some field =>
    simp only [found] at accepted
    split at accepted
    next bounded =>
      have fits : field.fits assignment.2 = true := (field.fits_iff assignment.2).mpr bounded
      refine ⟨field.insert word assignment.2, ?_, ?_⟩
      · simp only [assign, Register.field, found, bind, Except.bind, if_pos fits]
        rfl
      · intro bit
        have below : field.Covers bit → bit < 16 := fun covers => by
          have room := (formed.inside field (List.mem_of_find?_eq_some found)).2
          have narrow : register.width ≤ 16 := formed.narrow.2
          have top := covers.2
          omega
        rw [field.getLsbD_insert, assignedBit?, found]
        by_cases covers : field.Covers bit
        · simp [covers, below covers]
        · simp [covers]
    next => cases accepted

/-- Bit by bit, the last assignment wins. -/
theorem foldlM_assign (base : Word) (values : List (String × Word)) :
    (∀ cause, values.findSome? register.refusal? = some cause → values.foldlM register.assign base = .error cause) ∧
    (values.findSome? register.refusal? = none → ∃ word, values.foldlM register.assign base = .ok word ∧
      ∀ bit, word.getLsbD bit = (values.findSomeRev? (register.assignedBit? bit)).getD (base.getLsbD bit)) := by
  induction values generalizing base with
  | nil => exact ⟨nofun, fun _ => ⟨base, rfl, fun _ => rfl⟩⟩
  | cons assignment rest ih =>
    cases decided : register.refusal? assignment with
    | some cause =>
      simp only [List.findSome?_cons, decided, List.foldlM_cons, assign_refused decided]
      exact ⟨fun _ same => by cases same; rfl, nofun⟩
    | none =>
      obtain ⟨middle, assigned, written⟩ := assign_accepted formed decided base
      obtain ⟨refused, accepted⟩ := ih middle
      simp only [List.findSome?_cons, decided, List.foldlM_cons, assigned]
      refine ⟨refused, fun willing => ?_⟩
      obtain ⟨word, packed, bits⟩ := accepted willing
      refine ⟨word, packed, fun bit => ?_⟩
      rw [bits, written, findSomeRev?_cons]
      cases rest.findSomeRev? (register.assignedBit? bit) <;> rfl

theorem find?_name {field : Field} (member : field ∈ register.fields) :
    register.fields.find? (fun other => other.name = field.name) = some field :=
  find?_key formed.distinct member

end WellFormed

/-- What a word holds once assignments were packed over a base word, and what a view of it shows. -/
structure Packed (register : Register) (base : Word) (values : List (String × Word)) (word : Word) : Prop where
  bits : ∀ bit, bit < registerWidth →
    word.getLsbD bit = (values.findSomeRev? (register.assignedBit? bit)).getD (base.getLsbD bit)
  bounded : ∀ bit, register.width ≤ bit → word.getLsbD bit = false
  unpacks : register.unpack word = .ok ⟨register, word⟩
  /-- A value stays as long as no later assignment touches a bit of its field. -/
  gets : ∀ before name value later, values = before ++ (name, value) :: later →
    (∀ bit, (register.assignedBit? bit (name, value)).isSome →
      ∀ other ∈ later, register.assignedBit? bit other = none) →
    (View.mk register word).get name = .ok value
  /-- Fields that overlap show the same bits. -/
  agree : ∀ first ∈ register.fields, ∀ second ∈ register.fields, ∃ shown seen,
    (View.mk register word).get first.name = .ok shown ∧ (View.mk register word).get second.name = .ok seen ∧
    ∀ bit, first.Covers bit → second.Covers bit →
      shown.getLsbD (bit - first.offset) = seen.getLsbD (bit - second.offset)

theorem get_found {register : Register} {name : String} {field : Field}
    (found : register.fields.find? (fun field => field.name = name) = some field) (word : Word) :
    (View.mk register word).get name = .ok (field.extract word) := by
  simp only [View.get, Register.field, found]
  rfl

section WellFormed

variable {register : Register} (formed : register.WellFormed)

include formed

private theorem fields_agree (word : Word) {first second : Field} (member : first ∈ register.fields)
    (other : second ∈ register.fields) : ∃ shown seen,
    (View.mk register word).get first.name = .ok shown ∧ (View.mk register word).get second.name = .ok seen ∧
    ∀ bit, first.Covers bit → second.Covers bit →
      shown.getLsbD (bit - first.offset) = seen.getLsbD (bit - second.offset) := by
  refine ⟨_, _, get_found (find?_name formed member) word, get_found (find?_name formed other) word, ?_⟩
  intro bit ⟨above, below⟩ ⟨after, before⟩
  have short : bit - first.offset < first.width ∧ bit - second.offset < second.width := by omega
  rw [first.getLsbD_extract, second.getLsbD_extract, Nat.add_sub_cancel' above, Nat.add_sub_cancel' after]
  simp only [short, decide_true]

omit formed in
/-- The last word on a field is its assignment if nothing later covers any bit of it. -/
private theorem get_assigned {word base : Word} {before later : List (String × Word)} {name : String} {value : Word}
    (accepted : register.refusal? (name, value) = none)
    (bits : ∀ bit, word.getLsbD bit =
      ((before ++ (name, value) :: later).findSomeRev? (register.assignedBit? bit)).getD (base.getLsbD bit))
    (untouched : ∀ bit, (register.assignedBit? bit (name, value)).isSome →
      ∀ other ∈ later, register.assignedBit? bit other = none) :
    (View.mk register word).get name = .ok value := by
  rw [refusal?] at accepted
  cases found : register.fields.find? (fun field => field.name = name) with
  | none =>
    simp only [found] at accepted
    cases accepted
  | some field =>
    simp only [found] at accepted
    split at accepted
    next bounded =>
      have high := (toNat_lt_two_pow_iff value field.width).mp bounded
      rw [get_found found]
      refine congrArg Except.ok (BitVec.eq_of_getLsbD_eq fun bit _ => ?_)
      rw [field.getLsbD_extract]
      by_cases within : bit < field.width
      · have covers : field.Covers (field.offset + bit) := ⟨Nat.le_add_right .., Nat.add_lt_add_left within _⟩
        have own : register.assignedBit? (field.offset + bit) (name, value) = some (value.getLsbD bit) := by
          simp only [assignedBit?, found, if_pos covers, Nat.add_sub_cancel_left]
        have silent : later.findSomeRev? (register.assignedBit? (field.offset + bit)) = none := by
          rw [List.findSomeRev?_eq_findSome?_reverse, List.findSome?_eq_none_iff]
          intro other member
          exact untouched _ (by rw [own]; rfl) other (List.mem_reverse.mp member)
        rw [bits, findSomeRev?_append, findSomeRev?_cons, silent, own]
        simp only [within, decide_true, Bool.true_and]
        rfl
      · rw [high bit (Nat.not_lt.mp within)]
        simp only [within, decide_false, Bool.false_and]
    next => cases accepted

theorem packed_of_bits {word base : Word} {values : List (String × Word)}
    (accepted : values.findSome? register.refusal? = none)
    (narrow : ∀ bit, register.width ≤ bit → base.getLsbD bit = false)
    (bits : ∀ bit, word.getLsbD bit = (values.findSomeRev? (register.assignedBit? bit)).getD (base.getLsbD bit)) :
    register.Packed base values word := by
  have bounded : ∀ bit, register.width ≤ bit → word.getLsbD bit = false := by
    intro bit above
    have silent : values.findSomeRev? (register.assignedBit? bit) = none := by
      rw [List.findSomeRev?_eq_findSome?_reverse, List.findSome?_eq_none_iff]
      intro assignment _
      rw [assignedBit?]
      cases found : register.fields.find? (fun field => field.name = assignment.1) with
      | none => rfl
      | some field =>
        have room := (formed.inside field (List.mem_of_find?_eq_some found)).2
        exact if_neg fun covers => absurd covers.2 (by omega)
    rw [bits, silent]
    exact narrow bit above
  refine ⟨fun bit _ => bits bit, bounded, if_pos ((register.holds_iff word).mpr bounded), ?_, ?_⟩
  · intro before name value later split untouched
    subst split
    have own : register.refusal? (name, value) = none :=
      List.findSome?_eq_none_iff.mp accepted _ (List.mem_append_right _ List.mem_cons_self)
    exact get_assigned own bits untouched
  · intro first member second other
    exact fields_agree formed word member other

end WellFormed

/-- Packing refuses a base word that is too wide, then the first assignment that is unknown or too large.
Otherwise each bit of its word comes from the last assignment that covers it, or from the base word. -/
theorem pack_last_assignments {register : Register} (valid : register.validate = .ok ()) (base : Word)
    (values : List (String × Word)) :
    ((∃ bit, register.width ≤ bit ∧ base.getLsbD bit = true) →
      register.pack base values = .error .valueOutOfRange) ∧
    ((∀ bit, register.width ≤ bit → base.getLsbD bit = false) →
      (∀ cause, values.findSome? register.refusal? = some cause → register.pack base values = .error cause) ∧
      (values.findSome? register.refusal? = none →
        ∃ word, register.pack base values = .ok word ∧ register.Packed base values word)) := by
  have formed := register.validate_ok_iff.mp valid
  refine ⟨fun ⟨bit, above, high⟩ => ?_, fun narrow => ?_⟩
  · refine if_neg fun holds => ?_
    rw [(register.holds_iff base).mp holds bit above] at high
    cases high
  · have holds := (register.holds_iff base).mpr narrow
    obtain ⟨refused, accepted⟩ := foldlM_assign formed base values
    rw [pack, if_pos holds]
    refine ⟨refused, fun willing => ?_⟩
    obtain ⟨word, packed, bits⟩ := accepted willing
    exact ⟨word, packed, packed_of_bits formed willing narrow bits⟩

/-- A narrow register with an alias and a partial overlap: the later assignment takes over the shared bits. -/
theorem pack_last_assignments_overlapping :
    let register : Register :=
      { name := "LED_CTRL", address := .base 24, width := 8
        fields := [⟨"mode", 0, 4⟩, ⟨"blink", 0, 4⟩, ⟨"rate", 2, 3⟩, .bit "force" 7] }
    let values : List (String × Word) := [("mode", 0xF), ("force", 1), ("rate", 0)]
    register.validate = .ok () ∧ register.pack 0x50 values = .ok 0xC3 ∧
      (View.mk register 0xC3).get "force" = .ok 1 ∧ (View.mk register 0xC3).get "blink" = .ok 3 := by
  intro register values
  have valid : register.validate = .ok () := rfl
  have narrow : ∀ bit, register.width ≤ bit → (0x50 : Word).getLsbD bit = false :=
    (toNat_lt_two_pow_iff 0x50 8).mp (by decide)
  have willing : values.findSome? register.refusal? = none := by decide
  obtain ⟨word, packed, shown⟩ := ((pack_last_assignments valid 0x50 values).2 narrow).2 willing
  have bits : ∀ bit < 16, (values.findSomeRev? (register.assignedBit? bit)).getD ((0x50 : Word).getLsbD bit) =
      (0xC3 : Word).getLsbD bit := by decide
  have same : word = 0xC3 := BitVec.eq_of_getLsbD_eq fun bit low => (shown.bits bit low).trans (bits bit low)
  subst same
  have force := shown.gets [("mode", 0xF)] "force" 1 [("rate", 0)] rfl
  have blink : register.fields.find? (fun field => field.name = "blink") = some ⟨"blink", 0, 4⟩ := by decide
  refine ⟨valid, packed, force ?_, (get_found blink 0xC3).trans rfl⟩
  intro bit covered other member
  rcases List.mem_singleton.mp member with rfl
  simp [assignedBit?, register, Field.Covers, Field.bit] at covered ⊢
  omega

end Register
end Clause22
