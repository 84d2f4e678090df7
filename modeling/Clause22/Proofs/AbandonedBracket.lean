import Clause22.Proofs.EngineCalls
import Clause22.Proofs.InterruptedAccess
import Clause22.Proofs.RawCalls

/-! An access to the extended bank that the transport breaks off. A failed frame leaves the engine busy, so the
write that should turn the page back is refused, and a recovery does not make up for it. -/

namespace Clause22

/-- The PHY at an address has turned to a page and holds these words where it was spared a write. What the page
select register itself holds is left open. -/
structure Phy.TurnedTo (address pageSelect : Nat) (spared : (page index : Nat) → Prop)
    (word : (page index : Nat) → Word) (page : Nat) (phy : Phy) : Prop where
  here : phy.address = some address
  selects : phy.registers.pageSelect = some pageSelect
  shows : phy.registers.page = page
  kept : ∀ some index, index ≠ pageSelect → spared some index → phy.registers.word some index = word some index

namespace Phy.TurnedTo

variable {address pageSelect page : Nat} {spared : (page index : Nat) → Prop} {word : (page index : Nat) → Word}
  {phy : Phy} (turned : phy.TurnedTo address pageSelect spared word page)

include turned

theorem quiet (decoder : Decoder) (events : Array PhyEvent) :
    TurnedTo address pageSelect spared word page { phy with decoder, events } :=
  ⟨turned.here, turned.selects, turned.shows, turned.kept⟩

theorem written_select (value : Word) :
    (phy.written address pageSelect value).TurnedTo address pageSelect spared word (value.toNat % 256) := by
  have answers : phy.answersTo address = true := decide_eq_true turned.here
  rw [written, if_pos answers, PagedRegisters.store, if_pos turned.selects]
  refine ⟨turned.here, turned.selects, rfl, fun some index apart spares => ?_⟩
  exact (if_neg fun same => apart same.2).trans (turned.kept some index apart spares)

theorem written_apart {index : Nat} (apart : index ≠ pageSelect) (given : ¬ spared page index) (value : Word) :
    (phy.written address index value).TurnedTo address pageSelect spared word page := by
  have answers : phy.answersTo address = true := decide_eq_true turned.here
  have other : phy.registers.pageSelect ≠ some index :=
    fun same => apart (Option.some.inj (same.symm.trans turned.selects))
  rw [written, if_pos answers, PagedRegisters.store, if_neg other, turned.shows]
  refine ⟨turned.here, turned.selects, turned.shows, fun some target beside spares => ?_⟩
  refine (if_neg fun same => given ?_).trans (turned.kept some target beside spares)
  rwa [← same.1, ← same.2]

end Phy.TurnedTo

/-- The page that a PHY shows after a recovery, if the fault cut the bracket around a frame of some length. Of a
write that turns the page the first 144 attempts go into preamble, header and turnaround. -/
def Client.leftPage (length count : Nat) : Nat :=
  if count < 144 then 0
  else if count < 341 + length then (Frame.flooded extendedPage (count / 3)).toNat % 256
  else (Frame.flooded basePage ((count - (197 + length)) / 3)).toNat % 256

/-- A restoring write that misses a single bit selects a page of ones. -/
theorem Client.leftPage_eq_zero_iff (length count : Nat) :
    leftPage length count = 0 ↔ count < 144 ∨ 389 + length ≤ count := by
  rw [leftPage]
  split
  next early => exact iff_of_true rfl (.inl early)
  next selected =>
    split
    next turned =>
      have odd : (Frame.flooded extendedPage (count / 3)).toNat % 2 = 1 := by
        have bit : (Frame.flooded extendedPage (count / 3)).getLsbD 0 = true := by
          rw [Frame.flooded, BitVec.getLsbD_or]
          rfl
        rwa [BitVec.getLsbD, Nat.testBit_zero, decide_eq_true_iff] at bit
      omega
    next restoring =>
      by_cases whole : 389 + length ≤ count
      · rw [Frame.flooded_whole _ (by omega)]
        exact iff_of_true rfl (.inr whole)
      · have ones : ∀ sent < 16, ((0xFFFF : Word) >>> sent).toNat % 256 ≠ 0 := by decide
        have turned := ones ((count - (197 + length)) / 3 - 48) (by omega)
        have zero : (0 : Word) ||| (0xFFFF : Word) >>> ((count - (197 + length)) / 3 - 48) = _ := BitVec.zero_or
        rw [Frame.flooded, basePage, zero]
        exact iff_of_false turned (by omega)

namespace Engine.Interruptible

variable {check : TurnaroundCheck}

/-- Of the three accesses to an extended register only the first to fail matters: while the engine is busy, the
base page cannot be restored. -/
theorem onExtendedPage {access : Access (Engine Bench) α} {phy pageSelect first middle last : Nat}
    {before turned accessed finished : Phy → Prop} {selecting accessing restoring : Nat → Phy → Prop}
    (selects : Interruptible check (Bus.write phy pageSelect Client.extendedPage) first before selecting turned)
    (accesses : Interruptible check access middle turned accessing accessed)
    (restores : Interruptible check (Bus.write phy pageSelect Client.basePage) last accessed restoring finished) :
    Interruptible check (Client.onExtendedPage phy pageSelect access) (first + middle + last) before
      (fun count =>
        if count < first then selecting count
        else if count < first + middle then accessing (count - first)
        else restoring (count - (first + middle)))
      finished := by
  constructor
  · intro engine count resting cut
    -- The fault falls into the selecting write, the access itself, or the restoring write.
    by_cases early : count < first
    · obtain ⟨abandoned, failed, stuck⟩ := selects.stops resting early
      refine ⟨abandoned, ?_, by simpa only [if_pos early] using stuck⟩
      simp only [Client.onExtendedPage, failed]
    · obtain ⟨count, rfl⟩ := Nat.exists_eq_add_of_le (Nat.not_lt.mp early)
      obtain ⟨_, extended, selected, left, rests⟩ := selects.finishes count resting
      simp only [if_neg early, Nat.add_lt_add_iff_left, Nat.add_sub_cancel_left, Nat.add_sub_add_left]
      by_cases amid : count < middle
      · obtain ⟨abandoned, failed, stuck⟩ := accesses.stops rests amid
        obtain ⟨_, refused⟩ := write_refused_busy stuck.busy phy pageSelect Client.basePage
        have restored : Bus.write phy pageSelect Client.basePage abandoned = _ := refused
        rw [left] at failed
        refine ⟨abandoned, ?_, by simpa only [if_pos amid] using stuck⟩
        simp only [Client.onExtendedPage, selected, failed, restored]
        rfl
      · obtain ⟨count, rfl⟩ := Nat.exists_eq_add_of_le (Nat.not_lt.mp amid)
        obtain ⟨_, done, succeeded, spent, still⟩ := accesses.finishes count rests
        have late : count < last := by omega
        obtain ⟨abandoned, failed, stuck⟩ := restores.stops still late
        rw [left] at succeeded
        rw [spent] at failed
        simp only [if_neg amid, Nat.add_sub_cancel_left]
        refine ⟨abandoned, ?_, stuck⟩
        simp only [Client.onExtendedPage, selected, succeeded, failed]
        rfl
  · intro engine count resting
    rw [Nat.add_assoc, Nat.add_assoc]
    obtain ⟨_, extended, selected, left, rests⟩ := selects.finishes (middle + (last + count)) resting
    obtain ⟨value, done, succeeded, spent, still⟩ := accesses.finishes (last + count) rests
    obtain ⟨_, restored, restoring, unspent, back⟩ := restores.finishes count still
    rw [left] at succeeded
    rw [spent] at restoring
    refine ⟨value, restored, ?_, unspent, back⟩
    simp only [Client.onExtendedPage, selected, succeeded, restoring]
    rfl

section Bracket

variable {address pageSelect length : Nat} {spared : (page index : Nat) → Prop}
  {word : (page index : Nat) → Word} (fits : Addressable address pageSelect)

include fits

theorem turn (value : Word) (page : Nat) :
    Interruptible check (Bus.write address pageSelect value) 197 (Phy.TurnedTo address pageSelect spared word page)
      (fun count => Phy.TurnedTo address pageSelect spared word
        (if count < 144 then page else (Frame.flooded value (count / 3)).toNat % 256))
      (Phy.TurnedTo address pageSelect spared word (value.toNat % 256)) := by
  refine write fits value (fun turned early => ?_) (fun turned late => ?_) fun turned => turned.written_select value
  · rw [if_pos early]
    exact turned.quiet ..
  · rw [if_neg (Nat.not_lt.mpr late)]
    exact turned.written_select _

theorem bracket {access : Access (Engine Bench) α}
    (accesses : Interruptible check access length (Phy.TurnedTo address pageSelect spared word 1)
      (fun _ => Phy.TurnedTo address pageSelect spared word 1) (Phy.TurnedTo address pageSelect spared word 1)) :
    Interruptible check (Client.onExtendedPage address pageSelect access) (197 + length + 197)
      (Phy.TurnedTo address pageSelect spared word 0)
      (fun count => Phy.TurnedTo address pageSelect spared word (Client.leftPage length count))
      (Phy.TurnedTo address pageSelect spared word 0) := by
  refine (onExtendedPage (turn fits _ 0) accesses (turn fits _ 1)).weaken fun count _ phy turned => ?_
  have sent : 197 ≤ count → (Frame.flooded Client.extendedPage (count / 3)).toNat % 256 = 1 := by
    intro whole
    rw [Frame.flooded_whole _ (by omega)]
    rfl
  rw [Client.leftPage]
  split at turned
  next early => rwa [if_pos (show count < 341 + length by omega)]
  next selected =>
    have extended := sent (Nat.not_lt.mp selected)
    rw [if_neg (show ¬ count < 144 by omega)]
    split at turned
    next amid => rwa [if_pos (by omega), extended]
    next late =>
      split at turned
      next soon => rwa [if_pos (by omega), extended]
      next far => rwa [if_neg (by omega)]

end Bracket

end Engine.Interruptible

namespace Client
open Engine

variable {client : Client} {phy pageSelect : Nat} (paged : client.config.pageSelect = some pageSelect)

section Raw

variable {address : RegisterAddress} (extended : address.bank = .extended) (fits : Addressable phy pageSelect)
  {check : TurnaroundCheck} {spared : (page index : Nat) → Prop} {word : (page index : Nat) → Word}

include paged extended fits

theorem readRaw_interruptible :
    Interruptible check (client.readRaw phy address) (197 + Frame.readAttempts check + 197)
      (Phy.TurnedTo phy pageSelect spared word 0)
      (fun count => Phy.TurnedTo phy pageSelect spared word (leftPage (Frame.readAttempts check) count))
      (Phy.TurnedTo phy pageSelect spared word 0) := by
  rw [readRaw, withBank_extended _ fits.phy extended paged]
  have indexed : Addressable phy address.index.toNat := ⟨fits.phy, address.index_le⟩
  exact .bracket fits (.read indexed Phy.TurnedTo.here fun events turned => turned.quiet _ events)

theorem writeRaw_interruptible (apart : address.index.toNat ≠ pageSelect) (given : ¬ spared 1 address.index.toNat)
    (value : Word) :
    Interruptible check (client.writeRaw phy address value) (197 + 197 + 197)
      (Phy.TurnedTo phy pageSelect spared word 0)
      (fun count => Phy.TurnedTo phy pageSelect spared word (leftPage 197 count))
      (Phy.TurnedTo phy pageSelect spared word 0) := by
  rw [writeRaw, withBank_extended _ fits.phy extended paged]
  have indexed : Addressable phy address.index.toNat := ⟨fits.phy, address.index_le⟩
  exact .bracket fits (.write indexed value (fun turned _ => turned.quiet ..)
    (fun turned _ => turned.written_apart apart given _)
    fun turned => turned.written_apart apart given _)

end Raw

theorem readRaw_base {client : Client} {phy : Nat} {engine : Engine Bench} (listening : engine.Listening)
    (here : engine.bench.phy.address = some phy) (phyFits : phy ≤ Wire.maxPhyAddress) {address : RegisterAddress}
    (base : address.bank = .base) :
    ∃ after,
      client.readRaw phy address engine = (.ok (engine.bench.phy.registers.load address.index.toNat), after) := by
  obtain ⟨_, hunting⟩ := listening.hunting
  have indexed : Addressable phy address.index.toNat := ⟨phyFits, address.index_le⟩
  have lasts := Bench.lasts_of_healthy listening.healthy
  rw [readRaw, withBank_base _ phyFits base]
  exact ⟨_, Prod.ext (read_undisturbed listening.idle hunting here indexed (lasts _)).1 rfl⟩

namespace RawCall

/-- The attempts of the frame in which a call makes its access. -/
def attempts (check : TurnaroundCheck) : RawCall → Nat
  | .read _ => Frame.readAttempts check
  | .write .. => 197

def Spares : RawCall → (page index : Nat) → Prop
  | .read _, _, _ => True
  | .write address _, page, index => ¬ (page = address.page ∧ index = address.index.toNat)

theorem not_spares_write {address : RegisterAddress} (extended : address.bank = .extended) (value : Word) :
    ¬ (write address value).Spares 1 address.index.toNat := by
  have home : address.page = 1 := by rw [RegisterAddress.page, extended]
  exact fun spares => spares ⟨home.symm, rfl⟩

variable {call : RawCall} (extended : call.address.bank = .extended)

include paged extended

theorem serve_unready {σ : Type} [Lines σ] {engine : Engine σ} {cause : Error}
    (refused : engine.ready phy pageSelect = .error cause) :
    call.serve client phy engine = (call.failed cause, engine) := by
  by_cases phyFits : phy ≤ Wire.maxPhyAddress
  · have select : Bus.write phy pageSelect extendedPage engine = _ := write_refused refused extendedPage
    cases call with
    | read address =>
      rw [RawCall.address] at extended
      simp only [serve, readRaw, withBank_extended _ phyFits extended paged, onExtendedPage, select, failed]
    | write address value =>
      rw [RawCall.address] at extended
      simp only [serve, writeRaw, withBank_extended _ phyFits extended paged, onExtendedPage, select, failed]
  · have beyond : Wire.maxPhyAddress < phy := Nat.not_le.mp phyFits
    rw [ready_phy beyond] at refused
    cases refused
    exact serve_refused beyond call engine

variable (apart : call.address.index.toNat ≠ pageSelect) (fits : Addressable phy pageSelect) {check : TurnaroundCheck}
  {word : (page index : Nat) → Word} {engine : Engine Bench}
  (resting : engine.Resting check (Phy.TurnedTo phy pageSelect call.Spares word 0))

include apart fits resting

theorem serve_stopped {count : Nat} (cut : count < 197 + call.attempts check + 197) :
    ∃ abandoned,
      call.serve client phy ((Step.failAfter count).perform engine) = (call.failed (.io .transport), abandoned) ∧
      abandoned.Stuck (Phy.TurnedTo phy pageSelect call.Spares word (leftPage (call.attempts check) count)) := by
  cases call with
  | read address =>
    rw [RawCall.address] at extended
    obtain ⟨abandoned, fails, stuck⟩ := (readRaw_interruptible paged extended fits).stops resting cut
    exact ⟨abandoned, by simp only [serve, fails, failed], stuck⟩
  | write address value =>
    rw [RawCall.address] at extended apart
    have given := not_spares_write extended value
    obtain ⟨abandoned, fails, stuck⟩ := (writeRaw_interruptible paged extended fits apart given value).stops resting cut
    exact ⟨abandoned, by simp only [serve, fails, failed], stuck⟩

theorem serve_whole {count : Nat} (whole : 197 + call.attempts check + 197 ≤ count) :
    ∃ reply done, call.serve client phy ((Step.failAfter count).perform engine) = (reply, done) ∧
      reply.failure? = none := by
  obtain ⟨more, rfl⟩ := Nat.exists_eq_add_of_le whole
  cases call with
  | read address =>
    rw [RawCall.address] at extended
    obtain ⟨value, done, succeeds, _⟩ := (readRaw_interruptible paged extended fits).finishes more resting
    exact ⟨.word (.ok value), done, by simp only [serve, attempts, succeeds], rfl⟩
  | write address value =>
    rw [RawCall.address] at extended apart
    have given := not_spares_write extended value
    obtain ⟨_, done, succeeds, _⟩ :=
      (writeRaw_interruptible paged extended fits apart given value).finishes more resting
    exact ⟨.done (.ok ()), done, by simp only [serve, attempts, succeeds], rfl⟩

end RawCall

end Client

namespace Engine
open Client

/-- A call to the extended bank that the transport breaks off leaves the base bank in sight if and only if the
page was not selected yet, or all bits of the write that restores it were sent. -/
theorem recover_abandoned_bracket {start abandoned : Engine Bench} {ones : Nat}
    (hunting : start.bench.phy.decoder = .hunt ones) (steps : List Step) {client : Client} {phy pageSelect : Nat}
    (paged : client.config.pageSelect = some pageSelect) (here : (start.run steps).bench.phy.address = some phy)
    (selects : (start.run steps).bench.phy.registers.pageSelect = some pageSelect)
    (onBase : (start.run steps).bench.phy.registers.page = 0) {call : RawCall}
    (extended : call.address.bank = .extended) (apart : call.address.index.toNat ≠ pageSelect) (count : Nat)
    {reply : Reply} (serves : call.serve client phy ((Step.failAfter count).perform (start.run steps)) =
      (reply, abandoned)) :
    let before := start.run steps
    let length := call.attempts before.turnaround
    (reply.failure? = some (.io .transport) ↔
      before.phase = .idle ∧ Addressable phy pageSelect ∧ count < 197 + length + 197) ∧
    (reply.failure? = some (.io .transport) → ∃ recovered,
      (Step.heal.perform abandoned).recover = (.ok (), recovered) ∧
      recovered.bench.phy.registers.page = leftPage length count ∧
      (recovered.bench.phy.registers.page = 0 ↔ count < 144 ∨ 389 + length ≤ count) ∧
      (∀ page index, index ≠ pageSelect → call.Spares page index →
        recovered.bench.phy.registers.word page index = before.bench.phy.registers.word page index) ∧
      ∀ address : RegisterAddress, address.bank = .base → ∃ after,
        client.readRaw phy address recovered =
          (.ok (recovered.bench.phy.registers.load address.index.toNat), after)) := by
  intro before length
  have attuned := attuned_run (attuned_of_hunting hunting) steps
  cases ready : before.ready phy pageSelect with
  | error cause =>
    have refused : ((Step.failAfter count).perform before).ready phy pageSelect = .error cause := ready
    rw [RawCall.serve_unready paged extended refused] at serves
    cases serves
    have other : ¬ (call.failed cause).failure? = some (.io .transport) := by
      rw [RawCall.failure?_failed]
      obtain ⟨_, rfl⟩ | ⟨_, _, rfl⟩ | ⟨_, _, _, rfl⟩ := ready_error ready <;> nofun
    refine ⟨iff_of_false other ?_, fun failed => absurd failed other⟩
    rintro ⟨idle, fits, _⟩
    rw [ready_ok idle fits] at ready
    cases ready
  | ok =>
    obtain ⟨idle, fits⟩ := ready_ok_iff.mp ready
    have turned : before.bench.phy.TurnedTo phy pageSelect call.Spares before.bench.phy.registers.word 0 :=
      ⟨here, selects, onBase, fun _ _ _ _ => rfl⟩
    have resting : before.Resting before.turnaround _ := ⟨idle, attuned.hunting idle, rfl, turned⟩
    by_cases cut : count < 197 + length + 197
    · obtain ⟨_, stops, stuck⟩ := RawCall.serve_stopped paged extended apart fits resting cut
      cases serves.symm.trans stops
      refine ⟨iff_of_true (RawCall.failure?_failed ..) ⟨idle, fits, cut⟩, fun _ => ?_⟩
      obtain ⟨recovered, recovers, listening, left⟩ := stuck.recover
      refine ⟨recovered, recovers, left.shows, ?_, left.kept, fun _ base => ?_⟩
      · rw [left.shows]
        exact leftPage_eq_zero_iff ..
      · exact readRaw_base listening left.here fits.phy base
    · obtain ⟨_, _, succeeds, sound⟩ := RawCall.serve_whole paged extended apart fits resting (Nat.not_lt.mp cut)
      cases serves.symm.trans succeeds
      have unfailed : ¬ reply.failure? = some (.io .transport) := by
        rw [sound]
        nofun
      exact ⟨iff_of_false unfailed fun ⟨_, _, short⟩ => cut short, fun failed => absurd failed unfailed⟩

/-- Nine of the sixteen bits of the restored page came through. -/
theorem recover_abandoned_bracket_restoring :
    let client : Client := ⟨.empty 0 0, { pageSelect := some 22 }⟩
    let phy : Phy := { address := some 3, registers := { pageSelect := some 22 } }
    let start := Engine.create ({ phy } : Bench) { turnaround := .verify }
    let before := start.run [.setRegister 0 4 0x1234]
    let call : RawCall := .write (.extended 4) 0xBEEF
    ∃ reply abandoned recovered,
      call.serve client 3 ((Step.failAfter 566).perform before) = (reply, abandoned) ∧
      reply.failure? = some (.io .transport) ∧
      (Step.heal.perform abandoned).recover = (.ok (), recovered) ∧
      recovered.bench.phy.registers.page = 127 ∧ recovered.bench.phy.registers.word 0 4 = 0x1234 := by
  intro client phy start before call
  have hunting : start.bench.phy.decoder = .hunt 0 := rfl
  have paged : client.config.pageSelect = some 22 := rfl
  have apart : call.address.index.toNat ≠ 22 := by decide
  have extended : call.address.bank = .extended := rfl
  obtain ⟨fails, recovery⟩ := recover_abandoned_bracket hunting [.setRegister 0 4 0x1234] paged rfl rfl rfl
    extended apart 566 (Prod.eta _).symm
  have stopped := fails.mpr ⟨rfl, by decide, by decide⟩
  obtain ⟨recovered, recovers, page, _, kept, _⟩ := recovery stopped
  refine ⟨_, _, recovered, (Prod.eta _).symm, stopped, recovers, page.trans (by decide), ?_⟩
  exact kept 0 4 (by decide) fun same => absurd same.1 (by decide)

/-- The read itself breaks off, and the base bank shows the registers of the extended one. -/
theorem recover_shadows_base :
    let client : Client := ⟨.empty 0 0, { pageSelect := some 22 }⟩
    let phy : Phy := { address := some 3, registers := { pageSelect := some 22, word := fun page _ => .ofNat 16 page } }
    let engine := Engine.create ({ phy } : Bench) {}
    ∃ abandoned recovered after,
      client.readRaw 3 (.extended 4) ((Step.failAfter 300).perform engine) = (.error (.io .transport), abandoned) ∧
      (Step.heal.perform abandoned).recover = (.ok (), recovered) ∧
      recovered.bench.phy.registers.page = 1 ∧ recovered.bench.phy.registers.word 0 4 = 0 ∧
      client.readRaw 3 (.base 4) recovered = (.ok 1, after) := by
  intro client phy engine
  have paged : client.config.pageSelect = some 22 := rfl
  have fits : Addressable 3 22 := by decide
  have turned : engine.bench.phy.TurnedTo 3 22 (fun _ _ => True) phy.registers.word 0 :=
    ⟨rfl, rfl, rfl, fun _ _ _ _ => rfl⟩
  have resting : engine.Resting .ignore _ := ⟨rfl, ⟨0, rfl⟩, rfl, turned⟩
  have extended : (RegisterAddress.extended 4).bank = .extended := rfl
  have cut : 300 < 197 + Frame.readAttempts .ignore + 197 := by decide
  obtain ⟨abandoned, fails, stuck⟩ := (readRaw_interruptible paged extended fits).stops resting cut
  obtain ⟨recovered, recovers, listening, left⟩ := stuck.recover
  have base : (RegisterAddress.base 4).bank = .base := rfl
  obtain ⟨after, reads⟩ : ∃ after, client.readRaw 3 (.base 4) recovered = _ :=
    readRaw_base listening left.here fits.phy base
  have page : recovered.bench.phy.registers.page = 1 := left.shows.trans (by decide)
  have shown : recovered.bench.phy.registers.load 4 = 1 := by
    have apart : recovered.bench.phy.registers.pageSelect ≠ some 4 := by
      rw [left.selects]
      decide
    rw [PagedRegisters.load, if_neg apart, page]
    exact left.kept 1 4 (by decide) trivial
  exact ⟨abandoned, recovered, after, fails, recovers, page, left.kept 0 4 (by decide) trivial, shown ▸ reads⟩

end Engine
end Clause22
