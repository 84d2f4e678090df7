import Clause22.Proofs.MapBuilding
import Clause22.Proofs.PackingLaws
import Clause22.Proofs.RegisterAccess
import Clause22.Proofs.StoringBus

/-! Updates of a register in place. Over any bus an update is one read and at most one write of the same address; over
a bus that keeps what is written to it, all bits but those of the named fields are left as they were. -/

namespace Clause22

namespace Register

theorem and_wordMask {register : Register} {word : Word} (holds : register.holds word = true) :
    word &&& register.wordMask = word := by
  apply BitVec.eq_of_getLsbD_eq
  intro bit inside
  rw [BitVec.getLsbD_and, wordMask, getLsbD_lowMask]
  by_cases within : bit < register.width
  · simp [inside, within]
  · simp [(register.holds_iff word).mp holds bit (Nat.not_lt.mp within)]

variable {register : Register} (formed : register.WellFormed)

include formed

theorem Apart.assignedBit? {first second : String × Word} (apart : register.Apart first second) (bit : Nat) :
    register.assignedBit? bit first = none ∨ register.assignedBit? bit second = none := by
  simp only [Register.assignedBit?]
  cases named : register.fields.find? (fun field => field.name = first.1) with
  | none => exact .inl rfl
  | some field =>
    cases alsoNamed : register.fields.find? (fun field => field.name = second.1) with
    | none => exact .inr rfl
    | some other =>
      have separate := apart field other (by rw [Register.field, named]) (by rw [Register.field, alsoNamed])
      by_cases covers : field.Covers bit
      · refine .inr (if_neg fun alsoCovers => ?_)
        have inside := (formed.inside field (List.mem_of_find?_eq_some named)).2
        have low : bit < 16 := Nat.lt_of_lt_of_le covers.2 (Nat.le_trans inside formed.narrow.2)
        rw [(field.overlaps_iff other).mpr ⟨bit, low, covers, alsoCovers⟩] at separate
        cases separate
      · exact .inl (if_neg covers)

/-- Two lists of assignments apart from each other may change places, however those of one list overlap. -/
theorem pack_comm {first second : List (String × Word)}
    (apart : ∀ one ∈ first, ∀ other ∈ second, register.Apart one other) {base word : Word}
    (packed : register.pack base (first ++ second) = .ok word) : register.pack base (second ++ first) = .ok word := by
  obtain ⟨holds, accepted, bits⟩ := (pack_eq_ok_iff formed).mp packed
  refine (pack_eq_ok_iff formed).mpr ⟨holds, ?_, fun bit => ?_⟩
  · rw [List.findSome?_eq_none_iff] at accepted ⊢
    exact fun assignment member => accepted assignment (List.mem_append.mpr (List.mem_append.mp member).symm)
  rw [bits]
  refine congrArg (Option.getD · _) ?_
  simp only [List.findSomeRev?_eq_findSome?_reverse, List.reverse_append, List.findSome?_append]
  cases told : first.reverse.findSome? (register.assignedBit? bit) with
  | none => rw [Option.none_or, Option.or_none]
  | some value =>
    obtain ⟨one, listed, tells⟩ := List.exists_of_findSome?_eq_some told
    have silent : second.reverse.findSome? (register.assignedBit? bit) = none := by
      refine List.findSome?_eq_none_iff.mpr fun assignment member => ?_
      have separate := apart one (List.mem_reverse.mp listed) assignment (List.mem_reverse.mp member)
      refine (separate.assignedBit? formed bit).resolve_left fun none => ?_
      rw [tells] at none
      cases none
    rw [silent, Option.none_or, Option.or_none]

theorem getLsbD_pack {base word : Word} {values : List (String × Word)}
    (packed : register.pack base values = .ok word) {bit : Nat}
    (uncovered : ∀ assignment ∈ values, ∀ field, register.field assignment.1 = .ok field → ¬ field.Covers bit) :
    word.getLsbD bit = base.getLsbD bit := by
  obtain ⟨-, -, bits⟩ := (pack_eq_ok_iff formed).mp packed
  have silent : values.findSomeRev? (register.assignedBit? bit) = none := by
    rw [List.findSomeRev?_eq_findSome?_reverse, List.findSome?_eq_none_iff]
    intro assignment member
    rw [Register.assignedBit?]
    cases named : register.fields.find? (fun field => field.name = assignment.1) with
    | none => rfl
    | some field =>
      exact if_neg (uncovered assignment (List.mem_reverse.mp member) field (by rw [Register.field, named]))
  rw [bits, silent]
  rfl

end Register

namespace Client

/-- How an update of a register goes, whatever its bus: the transactions that it makes, each with its answer, and the
outcome. One word is read; what the assignments make of it goes back to the same address. -/
inductive Updates (client : Client) (phy : Nat) (register : Register) (values : List (String × Word)) :
    List (Request × Reply) → Except Error View → Prop
  | unread {reading : Course} {cause : Error} (fits : reading.Fits client phy register.address)
      (fails : reading.reply (.read register.address) = .word (.error cause)) :
      Updates client phy register values (reading.events phy (.read register.address)) (.error cause)
  | refused {reading : Course} {word : Word} {cause : FieldError} (fits : reading.Fits client phy register.address)
      (reads : reading.reply (.read register.address) = .word (.ok word))
      (refuses : register.pack (word &&& register.wordMask) values = .error cause) :
      Updates client phy register values (reading.events phy (.read register.address)) (.error (.field cause))
  | stored {reading writing : Course} {word packed : Word} {outcome : Except Error Unit}
      (fits : reading.Fits client phy register.address)
      (reads : reading.reply (.read register.address) = .word (.ok word))
      (packs : register.pack (word &&& register.wordMask) values = .ok packed)
      (alsoFits : writing.Fits client phy register.address)
      (writes : writing.reply (.write register.address packed) = .done outcome) :
      Updates client phy register values
        (reading.events phy (.read register.address) ++ writing.events phy (.write register.address packed))
        (outcome.map fun _ => ⟨register, packed⟩)

section Recorded

variable {β : Type} [Bus β] {client : Client} {phy : Nat}

theorem readRaw_course (address : RegisterAddress) (recorded : RecordedBus β) :
    ∃ course : Course, course.Fits client phy address ∧ ∃ outcome after,
      client.readRaw phy address recorded =
        (outcome, ⟨after, recorded.log ++ course.events phy (.read address)⟩) ∧
      course.reply (.read address) = .word outcome := by
  obtain ⟨course, fits, after, served⟩ := @RawCall.serve_course β _ client phy (.read address) recorded
  rcases performed : client.readRaw phy address recorded with ⟨outcome, reached⟩
  rw [RawCall.serve, performed] at served
  obtain ⟨answered, rfl⟩ := Prod.ext_iff.mp served
  exact ⟨course, fits, outcome, after, rfl, answered.symm⟩

theorem writeRaw_course (address : RegisterAddress) (value : Word) (recorded : RecordedBus β) :
    ∃ course : Course, course.Fits client phy address ∧ ∃ outcome after,
      client.writeRaw phy address value recorded =
        (outcome, ⟨after, recorded.log ++ course.events phy (.write address value)⟩) ∧
      course.reply (.write address value) = .done outcome := by
  obtain ⟨course, fits, after, served⟩ := @RawCall.serve_course β _ client phy (.write address value) recorded
  rcases performed : client.writeRaw phy address value recorded with ⟨outcome, reached⟩
  rw [RawCall.serve, performed] at served
  obtain ⟨answered, rfl⟩ := Prod.ext_iff.mp served
  exact ⟨course, fits, outcome, after, rfl, answered.symm⟩

theorem modifyRegister_updates {handle : Handle} {register : Register}
    (resolved : client.map.definition handle = .ok register) (values : List (String × Word))
    (recorded : RecordedBus β) :
    ∃ outcome after log, client.modifyRegister phy handle values recorded = (outcome, ⟨after, recorded.log ++ log⟩) ∧
      Updates client phy register values log outcome := by
  obtain ⟨reading, fits, outcome, middle, read, reply⟩ := readRaw_course register.address recorded
  rw [modifyRegister_eq resolved, read]
  cases outcome with
  | error cause => exact ⟨_, middle, _, rfl, .unread fits reply⟩
  | ok word =>
    cases packs : register.pack (word &&& register.wordMask) values with
    | error cause => exact ⟨_, middle, _, by simp only [packs], .refused fits reply packs⟩
    | ok packed =>
      obtain ⟨writing, alsoFits, outcome, after, written, done⟩ := writeRaw_course register.address packed
        ⟨middle, recorded.log ++ reading.events phy (.read register.address)⟩
      refine ⟨outcome.map fun _ => ⟨register, packed⟩, after, _, ?_, .stored fits reply packs alsoFits done⟩
      simp only [packs, written, List.append_assoc]

end Recorded

/-- What an update leaves of all that a bus holds. The word of the register changes at most in the named fields, and no
other word changes but that of the register that turns the page. -/
structure Keeps {κ : Type} (client : Client) (register : Register) (values : List (String × Word)) (place : Nat → κ)
    (before after : κ → Word) : Prop where
  packed : register.pack (before (place register.address.index.toNat) &&& register.wordMask) values =
    .ok (after (place register.address.index.toNat))
  kept : ∀ bit < register.width,
    (∀ assignment ∈ values, ∀ field, register.field assignment.1 = .ok field → ¬ field.Covers bit) →
    (after (place register.address.index.toNat)).getLsbD bit = (before (place register.address.index.toNat)).getLsbD bit
  blank : ∀ bit, register.width ≤ bit → (after (place register.address.index.toNat)).getLsbD bit = false
  others : ∀ key, key ≠ place register.address.index.toNat →
    (∀ pageSelect ∈ client.turning? register.address, key ≠ place pageSelect) → after key = before key

/-- Updates of a register, on the buses of some kind, as replacements of the word at its place. -/
structure InPlace {β κ : Type} [Bus β] (client : Client) (phy : Nat) (handle : Handle) (register : Register)
    (place : Nat → κ) (content : β → κ → Word) (Ready : β → Prop) : Prop where
  accepts : (register.address.bank = .extended → client.config.pageSelect ≠ none) → ∀ bus values packed, Ready bus →
    register.pack (content bus (place register.address.index.toNat) &&& register.wordMask) values = .ok packed →
    ∃ after, client.modifyRegister phy handle values bus = (.ok ⟨register, packed⟩, after)
  keeps : ∀ bus values view after, Ready bus → client.modifyRegister phy handle values bus = (.ok view, after) →
    Ready after ∧ view = ⟨register, content after (place register.address.index.toNat)⟩ ∧
      Keeps client register values place (content bus) (content after)
  /-- Updates of fields apart from each other may be made in either order. -/
  commutes : ∀ bus first second one middle view after, Ready bus →
    (∀ assignment ∈ first, ∀ other ∈ second, register.Apart assignment other) →
    client.modifyRegister phy handle first bus = (.ok one, middle) →
    client.modifyRegister phy handle second middle = (.ok view, after) →
    ∃ other between beyond, client.modifyRegister phy handle second bus = (.ok other, between) ∧
      client.modifyRegister phy handle first between = (.ok view, beyond) ∧ content beyond = content after

section Stored

variable {β κ : Type} [Bus β] [DecidableEq κ] {phy : Nat} {place : Nat → κ} {content : β → κ → Word} {Ready : β → Prop}
  {client : Client} {handle : Handle} {register : Register} {values : List (String × Word)} {bus : β}
  (stores : Stores phy place content Ready) (resolved : client.map.definition handle = .ok register)
  (reachable : client.Reachable register.address phy) (ready : Ready bus)

include stores resolved reachable ready

theorem modifyRegister_refused {cause : FieldError}
    (refuses : register.pack (content bus (place register.address.index.toNat) &&& register.wordMask) values =
      .error cause) :
    ∃ after, client.modifyRegister phy handle values bus = (.error (.field cause), after) := by
  obtain ⟨after, reads, -⟩ := readRaw_stored stores reachable ready
  rw [modifyRegister_eq resolved, reads]
  exact ⟨after, by simp only [refuses]⟩

theorem modifyRegister_accepted {packed : Word}
    (packs : register.pack (content bus (place register.address.index.toNat) &&& register.wordMask) values =
      .ok packed) :
    ∃ after, client.modifyRegister phy handle values bus = (.ok ⟨register, packed⟩, after) ∧ Ready after ∧
      content after = client.settled register.address place
        (Function.update (content bus) (place register.address.index.toNat) packed) := by
  obtain ⟨middle, reads, still, kept⟩ := readRaw_stored stores reachable ready
  obtain ⟨after, writes, last, replaced⟩ := writeRaw_stored stores reachable packed still
  rw [kept, settled_update _ stores.distinct reachable.apart] at replaced
  rw [modifyRegister_eq resolved, reads]
  refine ⟨after, ?_, last, replaced⟩
  simp only [packs, writes]
  rfl

omit reachable in
theorem modifyRegister_ok (fits : phy ≤ 31) (selects : ∀ index ∈ client.config.pageSelect, index ≤ 31)
    (apart : client.turning? register.address ≠ some register.address.index.toNat) {view : View} {after : β}
    (modified : client.modifyRegister phy handle values bus = (.ok view, after)) :
    client.Reachable register.address phy ∧ ∃ packed,
      register.pack (content bus (place register.address.index.toNat) &&& register.wordMask) values = .ok packed ∧
      view = ⟨register, packed⟩ ∧ Ready after ∧ content after = client.settled register.address place
        (Function.update (content bus) (place register.address.index.toNat) packed) := by
  have paged : register.address.bank = .extended → client.config.pageSelect ≠ none := fun extended unpaged => by
    rw [modifyRegister_eq resolved, readRaw, withBank_unpaged _ fits extended unpaged] at modified
    cases modified
  have reachable : client.Reachable register.address phy := ⟨fits, paged, selects, apart⟩
  refine ⟨reachable, ?_⟩
  cases packs : register.pack (content bus (place register.address.index.toNat) &&& register.wordMask) values with
  | error cause =>
    obtain ⟨_, refused⟩ := modifyRegister_refused stores resolved reachable ready packs
    cases refused.symm.trans modified
  | ok packed =>
    obtain ⟨_, accepted, last, replaced⟩ := modifyRegister_accepted stores resolved reachable ready packs
    cases accepted.symm.trans modified
    exact ⟨packed, rfl, rfl, last, replaced⟩

end Stored

section InPlace

variable {β κ : Type} [Bus β] [DecidableEq κ] {phy : Nat} {place : Nat → κ} {content : β → κ → Word} {Ready : β → Prop}
  {client : Client} {handle : Handle} {register : Register} (stores : Stores phy place content Ready)
  (resolved : client.map.definition handle = .ok register) (formed : register.WellFormed) (fits : phy ≤ 31)
  (selects : ∀ index ∈ client.config.pageSelect, index ≤ 31)
  (apart : client.turning? register.address ≠ some register.address.index.toNat)

include stores resolved formed fits selects apart

theorem modifyRegister_keeps {bus after : β} {values : List (String × Word)} {view : View} (ready : Ready bus)
    (modified : client.modifyRegister phy handle values bus = (.ok view, after)) :
    Ready after ∧ view = ⟨register, content after (place register.address.index.toNat)⟩ ∧
      Keeps client register values place (content bus) (content after) := by
  obtain ⟨-, packed, packs, rfl, last, replaced⟩ :=
    modifyRegister_ok stores resolved ready fits selects apart modified
  have home : content after (place register.address.index.toNat) = packed := by
    rw [replaced, settled_home _ stores.distinct apart, Function.update_self]
  rw [home]
  refine ⟨last, rfl, home.symm ▸ packs, fun bit inside uncovered => ?_, fun bit above => ?_, fun key away other => ?_⟩
  · rw [home, Register.getLsbD_pack formed packs uncovered, BitVec.getLsbD_and, Register.wordMask, getLsbD_lowMask]
    have low : bit < 16 := Nat.lt_of_lt_of_le inside formed.narrow.2
    simp [low, inside]
  · rw [home]
    exact (register.holds_iff packed).mp (Register.holds_packed formed packs) bit above
  · rw [replaced, settled_other _ other, Function.update_of_ne away]

theorem modifyRegister_comm {bus middle after : β} {first second : List (String × Word)} {one view : View}
    (ready : Ready bus) (separate : ∀ assignment ∈ first, ∀ other ∈ second, register.Apart assignment other)
    (opens : client.modifyRegister phy handle first bus = (.ok one, middle))
    (goes : client.modifyRegister phy handle second middle = (.ok view, after)) :
    ∃ other between beyond, client.modifyRegister phy handle second bus = (.ok other, between) ∧
      client.modifyRegister phy handle first between = (.ok view, beyond) ∧ content beyond = content after := by
  -- The word in the middle is the one packed, in either order, so the two packings are one with all assignments.
  have home (words : κ → Word) (packed : Word) : client.settled register.address place
      (Function.update words (place register.address.index.toNat) packed) (place register.address.index.toNat) =
        packed := by
    rw [settled_home _ stores.distinct apart, Function.update_self]
  obtain ⟨reachable, packed, packs, -, still, replaced⟩ :=
    modifyRegister_ok stores resolved ready fits selects apart opens
  obtain ⟨-, word, completes, rfl, -, last⟩ := modifyRegister_ok stores resolved still fits selects apart goes
  rw [replaced, home, Register.and_wordMask (Register.holds_packed formed packs)] at completes
  rw [replaced, settled_update _ stores.distinct apart, Function.update_idem] at last
  have joined := Register.pack_append formed
    (content bus (place register.address.index.toNat) &&& register.wordMask) first second
  rw [packs] at joined
  have swapped := Register.pack_comm formed separate (joined.trans completes)
  rw [Register.pack_append formed] at swapped
  cases alsoPacks : register.pack (content bus (place register.address.index.toNat) &&& register.wordMask) second with
  | error cause =>
    rw [alsoPacks] at swapped
    cases swapped
  | ok other =>
    rw [alsoPacks] at swapped
    obtain ⟨between, alsoOpens, ready, kept⟩ := modifyRegister_accepted stores resolved reachable ready alsoPacks
    have rest : register.pack (content between (place register.address.index.toNat) &&& register.wordMask) first =
        .ok word := by
      rw [kept, home, Register.and_wordMask (Register.holds_packed formed alsoPacks)]
      exact swapped
    obtain ⟨beyond, alsoGoes, -, same⟩ := modifyRegister_accepted stores resolved reachable ready rest
    rw [kept, settled_update _ stores.distinct apart, Function.update_idem] at same
    exact ⟨_, between, beyond, alsoOpens, alsoGoes, same.trans last.symm⟩

theorem inPlace : InPlace client phy handle register place content Ready where
  accepts paged _ _ _ ready packs := by
    obtain ⟨after, accepted, -⟩ :=
      modifyRegister_accepted stores resolved ⟨fits, paged, selects, apart⟩ ready packs
    exact ⟨after, accepted⟩
  keeps _ _ _ _ ready modified := modifyRegister_keeps stores resolved formed fits selects apart ready modified
  commutes _ _ _ _ _ _ _ ready separate opens goes :=
    modifyRegister_comm stores resolved formed fits selects apart ready separate opens goes

end InPlace

theorem eq_of_create {map : RegisterMap} {config : Config} {client : Client}
    (valid : create map config = .ok client) : client = ⟨map, config⟩ := by
  rw [create] at valid
  cases checked : config.validate with
  | error cause =>
    rw [checked] at valid
    cases valid
  | ok =>
    rw [checked] at valid
    cases valid
    rfl

/-- An update of a register reads its address once, and stores there once what accepted assignments make of the word, on
any bus. Over a table of words, or over frames to a PHY without pages, an update that succeeds changes the bits of the
named fields alone, clears those above the width, and leaves all other registers but the one that turns the page; and
updates of fields apart from each other may be made in either order. A reset is an update of the reset field. -/
theorem modify_in_place {registerCapacity fieldCapacity : Nat} {calls : List BuilderCall} {config : Config}
    {client : Client} (valid : create (.built registerCapacity fieldCapacity calls) config = .ok client) (phy : Nat) :
    (∀ handle register, client.map.definition handle = .ok register → phy ≤ 31 →
      (∀ {β : Type} [Bus β] (bus : β) (values : List (String × Word)), ∃ outcome after log,
        client.modifyRegister phy handle values bus = (outcome, after) ∧
        client.modifyRegister phy handle values (RecordedBus.mk bus []) = (outcome, ⟨after, log⟩) ∧
        Updates client phy register values log outcome) ∧
      ((register.address.bank = .extended → config.pageSelect ≠ some register.address.index.toNat) →
        InPlace client phy handle register (phy, ·) MemoryBus.content (fun bus => bus.busy = false) ∧
        ∀ page, InPlace client phy handle register (page, ·) Engine.content (Engine.Unpaged phy page))) ∧
    ∀ {β : Type} [Bus β] (bus : β),
      (client.map.register? config.resetRegister = none →
        client.reset phy bus = (.error (.config .unknownRegister), bus)) ∧
      ∀ target, client.map.register? config.resetRegister = some target →
        target.address = config.resetRegister ∧
        client.reset phy bus =
          let (outcome, after) := client.modifyRegister phy target [(config.resetField, 1)] bus
          (outcome.map fun _ => (), after) := by
  have selects := select_le valid
  obtain rfl := eq_of_create valid
  refine ⟨fun handle register resolved fits => ⟨fun {β _} bus values => ?_, fun apart => ?_⟩,
    fun {β _} bus => ⟨fun unknown => reset_unknown unknown bus, fun target known => ?_⟩⟩
  · obtain ⟨outcome, after, log, recorded, updates⟩ := modifyRegister_updates resolved values (RecordedBus.mk bus [])
    obtain ⟨_, _, _, watched, plain, rfl⟩ :=
      alike_modifyRegister (RecordedBus.matched_records phy) selects handle values ⟨bus, []⟩ bus rfl
    cases watched.symm.trans recorded
    exact ⟨_, _, _, plain, recorded, updates⟩
  · have formed := (RegisterMap.sound_built registerCapacity fieldCapacity calls).wellFormed register
      (RegisterMap.mem_table_of_definition resolved)
    have turning : turning? ⟨.built registerCapacity fieldCapacity calls, config⟩ register.address ≠
        some register.address.index.toNat := by
      rw [turning?]
      cases bank : register.address.bank with
      | base => exact (Option.some_ne_none _).symm
      | extended => exact apart bank
    exact ⟨inPlace (MemoryBus.stores phy) resolved formed fits selects turning,
      fun page => inPlace (Engine.stores phy page) resolved formed fits selects turning⟩
  · exact ⟨(RegisterMap.register?_some known).2, reset_known known bus⟩

/-- A narrow register behind the page, where a word has bits above the width, in a table and over frames. -/
theorem modify_in_place_narrow :
    let led : Register := ⟨"LED_CTRL", .extended 4, 8, [⟨"mode", 0, 4⟩, ⟨"blink", 0, 4⟩, .bit "force" 7]⟩
    let client : Client := ⟨.built 1 3 [.load led], { pageSelect := some 22 }⟩
    let memory : MemoryBus := { word := fun _ _ => some 0xAA5C }
    let registers : PagedRegisters := { word := fun _ _ => 0xAA5C }
    let engine := Engine.create ({ phy := { address := some 3, registers } } : Bench) {}
    create client.map client.config = .ok client ∧ client.map.definition ⟨0, .extended 4⟩ = .ok led ∧
    (∃ after beyond,
      client.modifyRegister 3 ⟨0, .extended 4⟩ [("blink", 3)] memory = (.ok ⟨led, 0x53⟩, after) ∧
      client.modifyRegister 3 ⟨0, .extended 4⟩ [("blink", 3)] engine = (.ok ⟨led, 0x53⟩, beyond) ∧
      after.content (3, 5) = 0xAA5C ∧ beyond.content (0, 5) = 0xAA5C) ∧
    client.reset 3 memory = (.error (.config .unknownRegister), memory) := by
  intro led client memory registers engine
  have valid : create client.map client.config = .ok client := rfl
  have resolved : client.map.definition ⟨0, .extended 4⟩ = .ok led := rfl
  have free : memory.busy = false := rfl
  have unpaged : engine.Unpaged 3 0 := ⟨⟨rfl, ⟨0, rfl⟩, rfl⟩, rfl, rfl, rfl⟩
  have apart : led.address.bank = .extended → client.config.pageSelect ≠ some led.address.index.toNat := by decide
  have paged : led.address.bank = .extended → client.config.pageSelect ≠ none := by decide
  have packs : led.pack (0xAA5C &&& led.wordMask) [("blink", 3)] = .ok 0x53 := by
    have shown : (led.pack (0xAA5C &&& led.wordMask) [("blink", 3)]).toOption = some 0x53 := by decide +kernel
    cases made : led.pack (0xAA5C &&& led.wordMask) [("blink", 3)] with
    | error cause =>
      rw [made] at shown
      cases shown
    | ok packed =>
      rw [made] at shown
      exact congrArg Except.ok (Option.some.inj shown)
  have beside : ∀ pageSelect ∈ client.turning? led.address, 5 ≠ pageSelect := by decide
  obtain ⟨modifies, resets⟩ := modify_in_place valid 3
  obtain ⟨-, stored⟩ := modifies _ _ resolved (by decide)
  obtain ⟨inTable, overFrames⟩ := stored apart
  obtain ⟨after, modified⟩ := inTable.accepts paged memory [("blink", 3)] 0x53 free packs
  obtain ⟨beyond, alsoModified⟩ := (overFrames 0).accepts paged engine [("blink", 3)] 0x53 unpaged packs
  obtain ⟨-, -, kept⟩ := inTable.keeps _ _ _ _ free modified
  obtain ⟨-, -, alsoKept⟩ := (overFrames 0).keeps _ _ _ _ unpaged alsoModified
  refine ⟨valid, resolved, ⟨after, beyond, modified, alsoModified, ?_, ?_⟩, (resets memory).1 rfl⟩
  · exact kept.others (3, 5) (by decide) fun pageSelect turning same =>
      beside pageSelect turning (congrArg Prod.snd same)
  · exact alsoKept.others (0, 5) (by decide) fun pageSelect turning same =>
      beside pageSelect turning (congrArg Prod.snd same)

end Client
end Clause22
