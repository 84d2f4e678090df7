import Clause22.Proofs.RegisterAccess

/-! Dumps. The registers of a map are visited once each, in the order of their addresses, and the first read that
fails ends the visit. -/

namespace Clause22

theorem RegisterAddress.raw_ascending : all.Pairwise fun first second => first.raw < second.raw := by
  decide +kernel

namespace RegisterMap

variable {map : RegisterMap}

theorem registersByAddress_ascending (map : RegisterMap) :
    map.registersByAddress.Pairwise fun first second => first.address.raw < second.address.raw := by
  refine RegisterAddress.raw_ascending.filterMap _ fun address later below handle found other alsoFound => ?_
  rw [(register?_some found).2, (register?_some alsoFound).2]
  exact below

/-- Every address is tried once, so no register is lost and none comes twice. -/
theorem registersByAddress_perm (orderly : map.Orderly) : map.registersByAddress.Perm map.registers := by
  have distinct : map.registers.Nodup := by
    have apart := orderly.distinct
    rw [← addresses_registers, List.Nodup, List.pairwise_map] at apart
    exact apart.imp fun differ same => differ (congrArg Handle.address same)
  have visitedOnce : map.registersByAddress.Nodup := by
    refine map.registersByAddress_ascending.imp ?_
    rintro handle _ below rfl
    exact Nat.lt_irrefl _ below
  refine (List.perm_ext_iff_of_nodup visitedOnce distinct).mpr fun handle => ⟨fun member => ?_, fun member => ?_⟩
  · obtain ⟨address, -, found⟩ := List.mem_filterMap.mp member
    exact (register?_some found).1
  · exact List.mem_filterMap.mpr ⟨handle.address, RegisterAddress.mem_all _, register?_of_mem orderly member⟩

theorem registersByAddress_banks (map : RegisterMap) : ∃ bases extendeds,
    map.registersByAddress = bases ++ extendeds ∧ (∀ handle ∈ bases, handle.address.bank = .base) ∧
      ∀ handle ∈ extendeds, handle.address.bank = .extended := by
  refine ⟨_, _, List.filterMap_append, fun handle member => ?_, fun handle member => ?_⟩
  all_goals
    obtain ⟨address, listed, found⟩ := List.mem_filterMap.mp member
    obtain ⟨index, -, rfl⟩ := List.mem_map.mp listed
    rw [(register?_some found).2]
    rfl

section Banks

variable {bases extendeds : List Handle} (split : map.registersByAddress = bases ++ extendeds)
  (ofBase : ∀ handle ∈ bases, handle.address.bank = .base)
  (ofExtended : ∀ handle ∈ extendeds, handle.address.bank = .extended)

include split ofBase ofExtended

theorem filter_base : map.registersByAddress.filter (·.address.bank = .base) = bases := by
  have others : ∀ handle ∈ extendeds, ¬ handle.address.bank = .base := fun handle member base => by
    rw [ofExtended handle member] at base
    cases base
  rw [split, List.filter_append, List.filter_eq_self.mpr (by simpa using ofBase),
    List.filter_eq_nil_iff.mpr (by simpa using others), List.append_nil]

theorem any_extended (orderly : map.Orderly) :
    (∃ handle ∈ map.registers, handle.address.bank = .extended) ↔ extendeds ≠ [] := by
  have listed (handle : Handle) : handle ∈ bases ++ extendeds ↔ handle ∈ map.registers := by
    rw [← split]
    exact (registersByAddress_perm orderly).mem_iff
  constructor
  · rintro ⟨handle, member, extended⟩ rfl
    rw [← listed, List.append_nil] at member
    rw [ofBase handle member] at extended
    cases extended
  · intro some
    obtain ⟨handle, member⟩ := List.exists_mem_of_ne_nil extendeds some
    exact ⟨handle, (listed handle).mp (List.mem_append_right _ member), ofExtended handle member⟩

end Banks

end RegisterMap

namespace Client

variable {β : Type} [Bus β] {client : Client} {phy : Nat}

/-- Registers read one after another. Each is fetched from its address, and its word cut to its width. -/
inductive ReadsInTurn (client : Client) (phy : Nat) : List (Handle × View) → β → β → Prop
  | nil (bus : β) : ReadsInTurn client phy [] bus bus
  | cons {handle : Handle} {register : Register} {word : Word} {rest : List (Handle × View)} {before middle after : β}
      (resolved : client.map.definition handle = .ok register)
      (fetched : client.readRaw phy register.address before = (.ok word, middle))
      (read : client.readRegister phy handle before = (.ok ⟨register, word &&& register.wordMask⟩, middle))
      (later : ReadsInTurn client phy rest middle after) :
      ReadsInTurn client phy ((handle, ⟨register, word &&& register.wordMask⟩) :: rest) before after

/-- All registers are read, or those before the first whose read fails. -/
theorem readAll_inTurn (handles : List Handle) (bus : β) : ∃ visited middle,
    ReadsInTurn client phy visited bus middle ∧
    ((visited.map Prod.fst = handles ∧
        client.readAll phy handles bus = ((visited.map Prod.snd, .ok ()), middle)) ∨
      ∃ handle rest cause after, handles = visited.map Prod.fst ++ handle :: rest ∧
        client.readRegister phy handle middle = (.error cause, after) ∧
        client.readAll phy handles bus = ((visited.map Prod.snd, .error cause), after)) := by
  induction handles generalizing bus with
  | nil => exact ⟨[], bus, .nil bus, .inl ⟨rfl, rfl⟩⟩
  | cons handle rest ih =>
    rcases read : client.readRegister phy handle bus with ⟨cause | view, middle⟩
    · refine ⟨[], bus, .nil bus, .inr ⟨handle, rest, cause, middle, rfl, read, ?_⟩⟩
      rw [readAll_cons, read]
      rfl
    · obtain ⟨register, word, resolved, fetched, rfl⟩ := readRegister_ok read
      obtain ⟨visited, last, reads, outcome⟩ := ih middle
      refine ⟨_, last, .cons resolved fetched read reads, ?_⟩
      have all (views : List View) (outcome : Except Error Unit) (reached : β)
          (rests : client.readAll phy rest middle = ((views, outcome), reached)) :
          client.readAll phy (handle :: rest) bus =
            ((⟨register, word &&& register.wordMask⟩ :: views, outcome), reached) := by
        rw [readAll_cons, read]
        simp only [rests]
        rfl
      rcases outcome with ⟨rfl, whole⟩ | ⟨next, others, cause, after, rfl, failed, stopped⟩
      · exact .inl ⟨rfl, all _ _ _ whole⟩
      · exact .inr ⟨next, others, cause, after, rfl, failed, all _ _ _ stopped⟩

section Unpaged

variable (fits : phy ≤ 31) (unpaged : client.config.pageSelect = none)

include fits

theorem readRaw_direct {address : RegisterAddress} (base : address.bank = .base) (bus : β) :
    client.readRaw phy address bus = Bus.read phy address.index.toNat bus := by
  rw [readRaw, withBank_base _ fits base]

include unpaged

theorem ReadsInTurn.bases {visited : List (Handle × View)} {before after : β}
    (reads : ReadsInTurn client phy visited before after) :
    ∀ handle ∈ visited.map Prod.fst, handle.address.bank = .base := by
  induction reads with
  | nil => exact fun _ member => nomatch member
  | @cons handle register word rest before middle after resolved fetched read later ih =>
    refine List.forall_mem_cons.mpr ⟨?_, ih⟩
    rw [← RegisterMap.definition_address resolved]
    cases bank : register.address.bank with
    | base => rfl
    | extended =>
      rw [readRaw, withBank_unpaged _ fits bank unpaged] at fetched
      cases fetched

theorem readRegister_unpaged {handle : Handle} {register : Register}
    (resolved : client.map.definition handle = .ok register) {before after : RecordedBus β} {cause : Error}
    (failed : client.readRegister phy handle before = (.error cause, after)) :
    (handle.address.bank = .extended ∧ cause = .config .invalidRegisterAddress) ∨
      ∃ event ∈ after.log, event.2.failure? = some cause := by
  rw [readRegister_eq resolved] at failed
  rw [← RegisterMap.definition_address resolved]
  cases bank : register.address.bank with
  | base =>
    rw [readRaw_direct fits bank, RecordedBus.read_eq] at failed
    rcases asked : Bus.read phy register.address.index.toNat before.bus with ⟨reason | word, bus⟩
    · rw [asked] at failed
      cases failed
      exact .inr ⟨_, List.mem_concat_self, rfl⟩
    · rw [asked] at failed
      cases failed
  | extended =>
    rw [readRaw, withBank_unpaged _ fits bank unpaged] at failed
    cases failed
    exact .inl ⟨rfl, rfl⟩

end Unpaged

theorem ReadsInTurn.definitions {visited : List (Handle × View)} {before after : β}
    (reads : ReadsInTurn client phy visited before after) :
    (visited.map Prod.snd).map (fun view => .ok view.register) =
      (visited.map Prod.fst).map client.map.definition := by
  induction reads with
  | nil => rfl
  | cons resolved _ _ _ ih => exact congrArg₂ _ resolved.symm ih

theorem bases_unique {bases extendeds first later : List Handle} (same : first ++ later = bases ++ extendeds)
    (ofBase : ∀ handle ∈ bases, handle.address.bank = .base)
    (ofExtended : ∀ handle ∈ extendeds, handle.address.bank = .extended)
    (firstBase : ∀ handle ∈ first, handle.address.bank = .base)
    (laterExtended : ∀ handle ∈ later.head?, handle.address.bank = .extended) : first = bases ∧ later = extendeds := by
  have stops (rest : List Handle) (extended : ∀ handle ∈ rest.head?, handle.address.bank = .extended) :
      rest.takeWhile (·.address.bank = .base) = [] := by
    cases rest with
    | nil => rfl
    | cons handle rest =>
      rw [List.takeWhile_cons_of_neg]
      simp [extended handle rfl]
  have cut := congrArg (List.takeWhile (·.address.bank = .base)) same
  rw [List.takeWhile_append_of_pos (by simpa using firstBase), List.takeWhile_append_of_pos (by simpa using ofBase),
    stops later laterExtended,
    stops extendeds fun handle head => ofExtended handle (List.mem_of_mem_head? head), List.append_nil,
    List.append_nil] at cut
  exact ⟨cut, List.append_cancel_left (cut ▸ same)⟩

/-- Without a page select register, and with no read of the base bank failing, only the extended bank stops a dump. -/
theorem dump_unpaged (orderly : client.map.Orderly) (fits : phy ≤ 31) (unpaged : client.config.pageSelect = none)
    {recorded after : RecordedBus β} {views : List View} {outcome : Except Error Unit}
    (dumped : client.dump phy recorded = ((views, outcome), after))
    (unfailing : ∀ event ∈ after.log, event.2.failure? = none) :
    views.map (fun view => .ok view.register) =
        (client.map.registersByAddress.filter (·.address.bank = .base)).map client.map.definition ∧
      outcome = if ∃ handle ∈ client.map.registers, handle.address.bank = .extended then
        .error (.config .invalidRegisterAddress) else .ok () := by
  obtain ⟨bases, extendeds, split, ofBase, ofExtended⟩ := client.map.registersByAddress_banks
  obtain ⟨visited, middle, reads, done⟩ :=
    @readAll_inTurn (RecordedBus β) _ client phy client.map.registersByAddress recorded
  have visitedBases := reads.bases fits unpaged
  have shown := reads.definitions
  rw [RegisterMap.filter_base split ofBase ofExtended]
  simp only [RegisterMap.any_extended split ofBase ofExtended orderly]
  rcases done with ⟨whole, read⟩ | ⟨handle, rest, cause, last, whole, failed, stopped⟩
  · cases dumped.symm.trans read
    have same : visited.map Prod.fst ++ [] = bases ++ extendeds := (List.append_nil _).trans (whole.trans split)
    obtain ⟨rfl, rfl⟩ := bases_unique same ofBase ofExtended visitedBases nofun
    exact ⟨shown, (if_neg (not_not_intro rfl)).symm⟩
  · cases dumped.symm.trans stopped
    have listed : handle ∈ client.map.registersByAddress := by
      rw [whole]
      exact List.mem_append_right _ List.mem_cons_self
    obtain ⟨register, resolved⟩ :=
      RegisterMap.definition_of_mem orderly ((RegisterMap.registersByAddress_perm orderly).mem_iff.mp listed)
    rcases readRegister_unpaged fits unpaged resolved failed with ⟨extended, rfl⟩ | ⟨event, logged, blamed⟩
    · have head : ∀ other ∈ (handle :: rest).head?, other.address.bank = .extended := by
        rintro _ ⟨⟩
        exact extended
      obtain ⟨rfl, rfl⟩ := bases_unique (whole.symm.trans split) ofBase ofExtended visitedBases head
      exact ⟨shown, (if_pos (List.cons_ne_nil handle rest)).symm⟩
    · rw [unfailing event logged] at blamed
      cases blamed

/-- The registers of a map that was built, in the order in which a dump visits them: all of them once, by ascending
address. A dump reads them one after another and gives the views of those before the first whose read fails, with the
error of that read. Without a page select register it reads the base bank, and then refuses the first register of the
extended bank. -/
theorem dump_in_order (registerCapacity fieldCapacity : Nat) (calls : List BuilderCall) (config : Config) (phy : Nat)
    (bus : β) :
    let map := RegisterMap.built registerCapacity fieldCapacity calls
    let client : Client := ⟨map, config⟩
    let handles := map.registersByAddress
    (handles.Perm map.registers ∧ handles.Pairwise (fun first second => first.address.raw < second.address.raw) ∧
      ∃ bases extendeds, handles = bases ++ extendeds ∧ (∀ handle ∈ bases, handle.address.bank = .base) ∧
        ∀ handle ∈ extendeds, handle.address.bank = .extended) ∧
    (∃ visited middle, ReadsInTurn client phy visited bus middle ∧
      ((visited.map Prod.fst = handles ∧ client.dump phy bus = ((visited.map Prod.snd, .ok ()), middle)) ∨
        ∃ handle rest cause after, handles = visited.map Prod.fst ++ handle :: rest ∧
          client.readRegister phy handle middle = (.error cause, after) ∧
          client.dump phy bus = ((visited.map Prod.snd, .error cause), after))) ∧
    (phy ≤ 31 → config.pageSelect = none →
      let recorded := client.dump phy (RecordedBus.mk bus [])
      (recorded.1, recorded.2.bus) = client.dump phy bus ∧
      ((∀ event ∈ recorded.2.log, event.2.failure? = none) →
        recorded.1.1.map (fun view => .ok view.register) =
          (handles.filter (·.address.bank = .base)).map map.definition ∧
        recorded.1.2 = if ∃ handle ∈ map.registers, handle.address.bank = .extended then
          .error (.config .invalidRegisterAddress) else .ok ())) := by
  intro map client handles
  have orderly := (RegisterMap.sound_built registerCapacity fieldCapacity calls).orderly
  refine ⟨⟨RegisterMap.registersByAddress_perm orderly, map.registersByAddress_ascending,
    map.registersByAddress_banks⟩, readAll_inTurn handles bus, fun fits unpaged => ?_⟩
  intro recorded
  have selects : ∀ index ∈ client.config.pageSelect, index ≤ 31 := by
    rw [show client.config.pageSelect = none from unpaged]
    nofun
  obtain ⟨answer, after, beyond, watched, plain, same⟩ :=
    alike_readAll (RecordedBus.matched_records phy) selects handles ⟨bus, []⟩ bus rfl
  have answered : recorded = (answer, after) := watched
  refine ⟨?_, fun unfailing => ?_⟩
  · rw [answered, same]
    exact plain.symm
  · rw [answered] at unfailing ⊢
    exact dump_unpaged orderly fits unpaged answered unfailing

/-- A map whose register of the extended bank was defined first, over a bus that never fails. -/
theorem dump_in_order_unpaged :
    let calls : List BuilderCall :=
      [.define (.register "FIBER" (.extended 4)), .define (.register "STATUS" (.base 1)),
        .define (.register "CONTROL" (.base 0))]
    let map := RegisterMap.built 4 4 calls
    let bus : MemoryBus := { word := fun _ reg => some (.ofNat 16 (0x1000 + reg)) }
    let recorded := dump ⟨map, {}⟩ 3 (RecordedBus.mk bus [])
    (∀ event ∈ recorded.2.log, event.2.failure? = none) ∧
    recorded.1.2 = .error (.config .invalidRegisterAddress) ∧
    recorded.1.1.map (fun view => (view.register.name, view.word)) = [("CONTROL", 0x1000), ("STATUS", 0x1001)] := by
  intro calls map bus recorded
  have unfailing : ∀ event ∈ recorded.2.log, event.2.failure? = none := by decide +kernel
  obtain ⟨-, -, unpaged⟩ := dump_in_order 4 4 calls {} 3 bus
  obtain ⟨-, reports⟩ := unpaged (by decide) rfl
  obtain ⟨-, outcome⟩ := reports unfailing
  exact ⟨unfailing, outcome.trans (if_pos (by decide +kernel)), by decide +kernel⟩

end Client
end Clause22
