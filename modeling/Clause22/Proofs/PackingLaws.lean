import Clause22.Proofs.RegisterPacking

/-! How packings combine. Packing in parts is packing the joined assignments, assignments to fields apart from each
other may be made in any order, and a word packed from its own fields is that word again. -/

namespace Clause22

namespace View

/-- A step in a chain of updates: one field, or several in order. -/
inductive Update
  | field (name : String) (value : Word)
  | fields (values : List (String × Word))
deriving DecidableEq

def Update.values : Update → List (String × Word)
  | .field name value => [(name, value)]
  | .fields values => values

def update (view : View) : Update → Except FieldError View
  | .field name value => view.withField name value
  | .fields values => view.withFields values

theorem update_eq (view : View) (update : Update) : view.update update = view.withFields update.values := by
  cases update <;> rfl

end View

namespace Register

/-- No bit belongs to the fields of both assignments. -/
def Apart (register : Register) (first second : String × Word) : Prop :=
  ∀ field other, register.field first.1 = .ok field → register.field second.1 = .ok other → field.overlaps other = false

theorem holds_iff_toNat_lt (register : Register) (word : Word) :
    register.holds word = true ↔ word.toNat < 2 ^ register.width := by
  rw [holds_iff, toNat_lt_two_pow_iff]

section Packed

variable {register : Register} (formed : register.WellFormed)

include formed

theorem pack_eq_ok_iff {base word : Word} {values : List (String × Word)} :
    register.pack base values = .ok word ↔
      register.holds base = true ∧ values.findSome? register.refusal? = none ∧
        ∀ bit, word.getLsbD bit = (values.findSomeRev? (register.assignedBit? bit)).getD (base.getLsbD bit) := by
  rw [pack]
  split
  next holds =>
    obtain ⟨refused, accepted⟩ := foldlM_assign formed base values
    cases reason : values.findSome? register.refusal? with
    | some cause =>
      rw [refused cause reason]
      refine iff_of_false (fun same => ?_) fun shown => ?_
      · cases same
      · cases shown.2.1
    | none =>
      obtain ⟨made, folded, bits⟩ := accepted reason
      rw [folded]
      constructor
      · rintro ⟨⟩
        exact ⟨holds, rfl, bits⟩
      · rintro ⟨-, -, same⟩
        exact congrArg Except.ok (BitVec.eq_of_getLsbD_eq fun bit _ => (bits bit).trans (same bit).symm)
  next wide =>
    refine iff_of_false (fun same => ?_) (wide ∘ And.left)
    cases same

theorem holds_packed {base word : Word} {values : List (String × Word)}
    (packed : register.pack base values = .ok word) : register.holds word = true := by
  obtain ⟨holds, accepted, bits⟩ := (pack_eq_ok_iff formed).mp packed
  have kept := packed_of_bits formed accepted ((register.holds_iff base).mp holds) bits
  exact (register.holds_iff word).mpr kept.bounded

/-- The word packed first is within the register, so the range check on it never refuses what follows. -/
theorem pack_append (base : Word) (first rest : List (String × Word)) :
    register.pack base (first ++ rest) = (register.pack base first).bind (register.pack · rest) := by
  by_cases holds : register.holds base = true
  · cases packed : register.pack base first with
    | error cause =>
      rw [pack, if_pos holds] at packed ⊢
      rw [List.foldlM_append, packed]
      rfl
    | ok word =>
      have within := holds_packed formed packed
      rw [pack, if_pos holds] at packed ⊢
      rw [List.foldlM_append, packed, Except.bind, pack, if_pos within]
      rfl
  · rw [pack, pack, if_neg holds, if_neg holds]
    rfl

theorem withFields_append {view : View} (of : view.register = register) (first rest : List (String × Word)) :
    view.withFields (first ++ rest) = (view.withFields first).bind (View.withFields · rest) := by
  subst of
  rw [View.withFields_eq, View.withFields_eq, pack_append formed]
  cases view.register.pack view.word first with
  | error cause => rfl
  | ok word => exact (View.withFields_eq ⟨view.register, word⟩ rest).symm

theorem foldlM_update {view : View} (of : view.register = register) (holds : register.holds view.word = true)
    (updates : List View.Update) :
    updates.foldlM View.update view = view.withFields (updates.flatMap View.Update.values) := by
  induction updates generalizing view with
  | nil =>
    subst of
    rw [List.flatMap_nil, View.withFields_eq, pack, if_pos holds]
    rfl
  | cons update rest ih =>
    rw [List.foldlM_cons, List.flatMap_cons, withFields_append formed of, View.update_eq, View.withFields_eq]
    cases packed : view.register.pack view.word update.values with
    | error cause => rfl
    | ok word =>
      rw [of] at packed
      exact ih of (holds_packed formed packed)

end Packed

section Order

variable {register : Register}

theorem Apart.symm {first second : String × Word} (apart : register.Apart first second) :
    register.Apart second first := by
  intro field other named alsoNamed
  have separate := apart other field alsoNamed named
  rw [Field.overlaps, BitVec.and_comm]
  exact separate

theorem assign_cases (register : Register) (assignment : String × Word) :
    (∃ cause, ∀ word, register.assign word assignment = .error cause) ∨
    ∃ field, register.field assignment.1 = .ok field ∧
      ∀ word, register.assign word assignment = .ok (field.insert word assignment.2) := by
  cases named : register.field assignment.1 with
  | error cause =>
    refine .inl ⟨cause, fun word => ?_⟩
    rw [assign, named]
    rfl
  | ok field =>
    by_cases fits : field.fits assignment.2 = true
    · refine .inr ⟨field, rfl, fun word => ?_⟩
      simp only [assign, named, bind, Except.bind, if_pos fits]
      rfl
    · refine .inl ⟨.valueOutOfRange, fun word => ?_⟩
      simp only [assign, named, bind, Except.bind, if_neg fits]
      rfl

theorem assign_comm {first second : String × Word} (apart : register.Apart first second) (word : Word) :
    ((register.assign word first).bind (register.assign · second)).toOption =
      ((register.assign word second).bind (register.assign · first)).toOption := by
  obtain ⟨cause, refused⟩ | ⟨field, named, replaces⟩ := register.assign_cases first <;>
    obtain ⟨other, alsoRefused⟩ | ⟨other, alsoNamed, alsoReplaces⟩ := register.assign_cases second
  · simp only [refused, alsoRefused]
    rfl
  · simp only [refused, alsoReplaces, Except.bind]
  · simp only [replaces, alsoRefused, Except.bind]
  · simp only [replaces, alsoReplaces, Except.bind]
    rw [field.insert_comm (apart field other named alsoNamed)]

theorem foldlM_assign_perm {values others : List (String × Word)} (same : values.Perm others)
    (apart : values.Pairwise register.Apart) (base : Word) :
    (values.foldlM register.assign base).toOption = (others.foldlM register.assign base).toOption := by
  induction same generalizing base with
  | nil => rfl
  | cons assignment _ ih =>
    rw [List.foldlM_cons, List.foldlM_cons]
    cases register.assign base assignment with
    | error cause => rfl
    | ok word => exact ih (List.pairwise_cons.mp apart).2 word
  | swap first second rest =>
    have pair : register.Apart second first := (List.pairwise_cons.mp apart).1 first List.mem_cons_self
    have joined (one two : String × Word) : ((one :: two :: rest).foldlM register.assign base).toOption =
        ((register.assign base one).bind (register.assign · two)).toOption.bind fun word =>
          (rest.foldlM register.assign word).toOption := by
      rw [List.foldlM_cons]
      cases register.assign base one with
      | error cause => rfl
      | ok word =>
        simp only [bind, Except.bind, List.foldlM_cons]
        cases register.assign word two <;> rfl
    rw [joined, joined, assign_comm pair]
  | trans between _ opens goes =>
    exact (opens apart base).trans (goes ((between.pairwise_iff Apart.symm).mp apart) base)

theorem pack_perm {values others : List (String × Word)} (same : values.Perm others)
    (apart : values.Pairwise register.Apart) (base : Word) :
    (register.pack base values).toOption = (register.pack base others).toOption := by
  rw [pack, pack]
  split
  · exact foldlM_assign_perm same apart base
  · rfl

end Order

section Fields

variable {register : Register} (formed : register.WellFormed) {field : Field} (member : field ∈ register.fields)

include formed member

theorem refusal?_shown (word : Word) : register.refusal? (field.name, field.extract word) = none := by
  have bounded : (field.extract word).toNat < 2 ^ field.width := by
    rw [toNat_lt_two_pow_iff]
    intro bit above
    rw [field.getLsbD_extract, decide_eq_false (Nat.not_lt.mpr above), Bool.false_and]
  simp only [refusal?, find?_name formed member, if_pos bounded]

theorem assignedBit?_shown (word : Word) (bit : Nat) :
    register.assignedBit? bit (field.name, field.extract word) =
      if field.Covers bit then some (word.getLsbD bit) else none := by
  by_cases covers : field.Covers bit
  · have inside : bit - field.offset < field.width := Nat.sub_lt_left_of_lt_add covers.1 covers.2
    simp only [assignedBit?, find?_name formed member, if_pos covers, field.getLsbD_extract, decide_eq_true inside,
      Bool.true_and, Nat.add_sub_cancel' covers.1]
  · simp only [assignedBit?, find?_name formed member, if_neg covers]

end Fields

section Reencoding

variable {register : Register} (formed : register.WellFormed)

include formed

/-- What the fields of a view say of a bit: that of the word, if any of them covers it. However they overlap, they
never disagree. -/
theorem shown_bit (word : Word) (bit : Nat) :
    (View.mk register word).fields.findSomeRev? (register.assignedBit? bit) =
      if ∃ field ∈ register.fields, field.Covers bit then some (word.getLsbD bit) else none := by
  rw [List.findSomeRev?_eq_findSome?_reverse]
  split
  next covered =>
    obtain ⟨field, member, covers⟩ := covered
    have shown := assignedBit?_shown formed member word bit
    cases found : (View.mk register word).fields.reverse.findSome? (register.assignedBit? bit) with
    | none =>
      rw [List.findSome?_eq_none_iff.mp found _ (List.mem_reverse.mpr (List.mem_map_of_mem member)),
        if_pos covers] at shown
      cases shown
    | some value =>
      obtain ⟨assignment, listed, tells⟩ := List.exists_of_findSome?_eq_some found
      obtain ⟨other, alsoMember, rfl⟩ := List.mem_map.mp (List.mem_reverse.mp listed)
      rw [assignedBit?_shown formed alsoMember] at tells
      split at tells
      · exact tells.symm
      · cases tells
  next uncovered =>
    rw [List.findSome?_eq_none_iff]
    intro assignment listed
    obtain ⟨field, member, rfl⟩ := List.mem_map.mp (List.mem_reverse.mp listed)
    rw [assignedBit?_shown formed member, if_neg fun covers => uncovered ⟨field, member, covers⟩]

theorem pack_fields (word : Word) {base : Word} (holds : register.holds base = true) :
    ∃ packed, register.pack base (View.mk register word).fields = .ok packed ∧
      ∀ bit, packed.getLsbD bit =
        if ∃ field ∈ register.fields, field.Covers bit then word.getLsbD bit else base.getLsbD bit := by
  have accepted : (View.mk register word).fields.findSome? register.refusal? = none := by
    rw [List.findSome?_eq_none_iff]
    intro assignment listed
    obtain ⟨field, member, rfl⟩ := List.mem_map.mp listed
    exact refusal?_shown formed member word
  obtain ⟨packed, folded, bits⟩ := (foldlM_assign formed base (View.mk register word).fields).2 accepted
  refine ⟨packed, ?_, fun bit => ?_⟩
  · rw [pack, if_pos holds]
    exact folded
  · rw [bits, shown_bit formed]
    split <;> rfl

end Reencoding

/-- Packing in parts is packing once. An update of a view packs over its word, so any chain of them is one; assignments to fields apart from each
other may be made in any order; and the fields of a word, packed over another word, give back the bits that they
cover. All of it holds however the fields overlap. -/
theorem packing_laws {register : Register} (valid : register.validate = .ok ()) :
    (∀ base first rest,
      register.pack base (first ++ rest) = (register.pack base first).bind (register.pack · rest)) ∧
    (∀ base values others, values.Perm others → values.Pairwise register.Apart →
      (register.pack base values).toOption = (register.pack base others).toOption) ∧
    ∀ word : Word, word.toNat < 2 ^ register.width → ∃ view, register.unpack word = .ok view ∧
      (∀ values, view.withFields values = (register.pack word values).map (View.mk register)) ∧
      (∀ updates : List View.Update,
        updates.foldlM View.update view = view.withFields (updates.flatMap View.Update.values)) ∧
      ∀ base : Word, base.toNat < 2 ^ register.width → ∃ packed, register.pack base view.fields = .ok packed ∧
        (∀ bit < registerWidth, packed.getLsbD bit =
          if ∃ field ∈ register.fields, field.Covers bit then word.getLsbD bit else base.getLsbD bit) ∧
        (base = word → packed = word) ∧
        ((∀ bit < register.width, ∃ field ∈ register.fields, field.Covers bit) → packed = word) := by
  have formed := register.validate_ok_iff.mp valid
  refine ⟨pack_append formed, fun base values others same apart => pack_perm same apart base, fun word within => ?_⟩
  have holds := (register.holds_iff_toNat_lt word).mpr within
  refine ⟨⟨register, word⟩, if_pos holds, View.withFields_eq ⟨register, word⟩, foldlM_update formed rfl holds, fun base fits => ?_⟩
  obtain ⟨packed, packs, bits⟩ := pack_fields formed word ((register.holds_iff_toNat_lt base).mpr fits)
  refine ⟨packed, packs, fun bit _ => bits bit, fun same => ?_, fun covered => ?_⟩
  · apply BitVec.eq_of_getLsbD_eq
    intro bit _
    rw [bits, same, ite_self]
  · apply BitVec.eq_of_getLsbD_eq
    intro bit _
    rw [bits]
    by_cases inside : bit < register.width
    · rw [if_pos (covered bit inside)]
    · have high := (register.holds_iff word).mp holds bit (Nat.not_lt.mp inside)
      have blank := (toNat_lt_two_pow_iff base register.width).mp fits bit (Nat.not_lt.mp inside)
      rw [high, blank, ite_self]

/-- A narrow register with an alias, a partial overlap and two bits that no field covers. -/
theorem packing_laws_overlapping :
    let register : Register :=
      { name := "LED_CTRL", address := .base 24, width := 8
        fields := [⟨"mode", 0, 4⟩, ⟨"blink", 0, 4⟩, ⟨"rate", 2, 3⟩, .bit "force" 7] }
    let values : List (String × Word) := [("mode", 5), ("force", 1)]
    register.validate = .ok () ∧ values.Pairwise register.Apart ∧
    (register.pack 0x60 values).toOption = (register.pack 0x60 values.reverse).toOption ∧
    ∃ view, register.unpack 0xC3 = .ok view ∧
      [.field "rate" 7, .fields values].foldlM View.update view = view.withFields (("rate", 7) :: values) ∧
      register.pack 0x20 view.fields = .ok 0xA3 := by
  intro register values
  have valid : register.validate = .ok () := rfl
  have apart : values.Pairwise register.Apart := by
    refine List.pairwise_pair.mpr fun field other named alsoNamed => ?_
    cases named
    cases alsoNamed
    rfl
  obtain ⟨-, reordered, reencoded⟩ := packing_laws valid
  obtain ⟨view, unpacks, updates, chained, repacked⟩ := reencoded 0xC3 (by decide)
  obtain ⟨packed, packs, bits, -⟩ := repacked 0x20 (by decide)
  have same : packed = 0xA3 := by
    have expected : ∀ bit < 16, (if ∃ field ∈ register.fields, field.Covers bit then (0xC3 : Word).getLsbD bit
        else (0x20 : Word).getLsbD bit) = (0xA3 : Word).getLsbD bit := by decide
    exact BitVec.eq_of_getLsbD_eq fun bit low => (bits bit low).trans (expected bit low)
  exact ⟨valid, apart, reordered 0x60 _ _ values.reverse_perm.symm apart, view, unpacks, chained _, same ▸ packs⟩

end Register
end Clause22
