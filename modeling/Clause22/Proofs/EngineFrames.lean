import Clause22.Proofs.BenchPlay

/-! An idle engine answers a valid request by one frame. On a bench a frame either ends idle, with
what the PHY made of it, or is cut short by the fault and leaves the engine busy. -/

namespace Clause22

/-- The addresses of a request fit into a frame. -/
structure Addressable (phy reg : Nat) : Prop where
  phy : phy ≤ Wire.maxPhyAddress
  reg : reg ≤ Wire.maxRegisterIndex

instance (phy reg : Nat) : Decidable (Addressable phy reg) :=
  decidable_of_iff (phy ≤ Wire.maxPhyAddress ∧ reg ≤ Wire.maxRegisterIndex)
    ⟨fun fits => ⟨fits.1, fits.2⟩, fun fits => ⟨fits.phy, fits.reg⟩⟩

theorem validateAddress_ok {phy reg : Nat} (fits : Addressable phy reg) : validateAddress phy reg = .ok () := by
  rw [validateAddress, if_neg (Nat.not_lt.mpr fits.phy), if_neg (Nat.not_lt.mpr fits.reg)]

namespace Frame

theorem read_busy {check : TurnaroundCheck} {phy reg : Nat} {segment : Segment}
    (member : segment ∈ read check phy reg) : segment.phase ≠ .idle := by
  simp only [read, header, trailer, List.mem_append, List.mem_cons, List.not_mem_nil, or_false] at member
  rcases member with (rfl | rfl | rfl | rfl | rfl) | (rfl | rfl | rfl) <;> nofun

theorem write_busy {phy reg : Nat} {value : Word} {segment : Segment} (member : segment ∈ write phy reg value) :
    segment.phase ≠ .idle := by
  simp only [write, header, trailer, List.mem_append, List.mem_cons, List.not_mem_nil, or_false] at member
  rcases member with (rfl | rfl | rfl | rfl | rfl) | (rfl | rfl | rfl) <;> nofun

theorem recovery_busy {segment : Segment} (member : segment ∈ recovery) : segment.phase ≠ .idle := by
  rw [List.mem_singleton.mp member]
  nofun

end Frame

namespace Engine

variable {σ : Type} {engine : Engine σ} {phy reg : Nat}

theorem ready_ok (idle : engine.phase = .idle) (fits : Addressable phy reg) : engine.ready phy reg = .ok () := by
  simp only [ready, validateAddress_ok fits, isBusy, idle]
  rfl

theorem ready_phy (beyond : Wire.maxPhyAddress < phy) :
    engine.ready phy reg = .error (.config .invalidPhyAddress) := by
  rw [ready, validateAddress, if_pos beyond]
  rfl

theorem ready_reg (fits : phy ≤ Wire.maxPhyAddress) (beyond : Wire.maxRegisterIndex < reg) :
    engine.ready phy reg = .error (.config .invalidRegisterAddress) := by
  rw [ready, validateAddress, if_neg (Nat.not_lt.mpr fits), if_pos beyond]
  rfl

theorem ready_ok_iff : engine.ready phy reg = .ok () ↔ engine.phase = .idle ∧ Addressable phy reg := by
  refine ⟨fun ready => ?_, fun ⟨idle, fits⟩ => ready_ok idle fits⟩
  have phyFits : phy ≤ Wire.maxPhyAddress := Nat.not_lt.mp fun beyond => by
    rw [ready_phy beyond] at ready
    cases ready
  have regFits : reg ≤ Wire.maxRegisterIndex := Nat.not_lt.mp fun beyond => by
    rw [ready_reg phyFits beyond] at ready
    cases ready
  refine ⟨?_, phyFits, regFits⟩
  by_cases idle : engine.phase = .idle
  · exact idle
  · have busy : engine.isBusy = true := decide_eq_true idle
    rw [Engine.ready, validateAddress_ok ⟨phyFits, regFits⟩, busy] at ready
    cases ready

variable [Lines σ]

theorem read_refused {cause : Error} (refused : engine.ready phy reg = .error cause) :
    engine.read phy reg = (.error cause, engine) := by
  rw [read, refused]

theorem write_refused {cause : Error} (refused : engine.ready phy reg = .error cause) (value : Word) :
    engine.write phy reg value = (.error cause, engine) := by
  rw [write, refused]

end Engine

namespace Engine

variable {engine : Engine Bench} {phy reg : Nat}

abbrev bench (engine : Engine Bench) : Bench := engine.station.lines

theorem transmit_lasting {segments : List Segment} (lasts : engine.bench.Lasts (Frame.script segments)) :
    engine.transmit segments = (.ok (Bench.heard (Frame.script segments) engine.bench),
      { engine with station.lines := engine.bench.after (Frame.script segments), phase := .idle }) :=
  transmit_ok (Bench.play_lasting _ lasts)

theorem transmit_failing {segments : List Segment} (fails : ¬ engine.bench.Lasts (Frame.script segments)) :
    ∃ segment ∈ segments, engine.transmit segments = (.error .transport,
      { engine with
        station.lines := engine.bench.after (engine.bench.reach (Frame.script segments))
        phase := segment.phase }) :=
  transmit_error (Bench.play_failing _ fails)

theorem read_lasting (ready : engine.ready phy reg = .ok ())
    (lasts : engine.bench.Lasts (Frame.script (Frame.read engine.turnaround phy reg))) :
    let outcome := Frame.answer engine.turnaround
      (Bench.heard (Frame.script (Frame.read engine.turnaround phy reg)) engine.bench)
    engine.read phy reg = (outcome.mapError .io,
      { engine with
        station.lines := engine.bench.after (Frame.script (Frame.read engine.turnaround phy reg))
        phase := .idle
        stats := tallyRead outcome engine.stats }) := by
  rw [read, ready]
  simp only [transmit_lasting lasts]

theorem read_failing (ready : engine.ready phy reg = .ok ())
    (fails : ¬ engine.bench.Lasts (Frame.script (Frame.read engine.turnaround phy reg))) :
    ∃ segment ∈ Frame.read engine.turnaround phy reg, engine.read phy reg = (.error (.io .transport),
      { engine with
        station.lines := engine.bench.after
          (engine.bench.reach (Frame.script (Frame.read engine.turnaround phy reg)))
        phase := segment.phase }) := by
  obtain ⟨segment, member, failed⟩ := transmit_failing fails
  refine ⟨segment, member, ?_⟩
  rw [read, ready]
  simp only [failed]

theorem write_lasting (ready : engine.ready phy reg = .ok ()) (value : Word)
    (lasts : engine.bench.Lasts (Frame.script (Frame.write phy reg value))) :
    engine.write phy reg value = (.ok (),
      { engine with
        station.lines := engine.bench.after (Frame.script (Frame.write phy reg value))
        phase := .idle
        stats.writes := engine.stats.writes + 1 }) := by
  rw [write, ready]
  simp only [transmit_lasting lasts]

theorem write_failing (ready : engine.ready phy reg = .ok ()) (value : Word)
    (fails : ¬ engine.bench.Lasts (Frame.script (Frame.write phy reg value))) :
    ∃ segment ∈ Frame.write phy reg value, engine.write phy reg value = (.error (.io .transport),
      { engine with
        station.lines := engine.bench.after (engine.bench.reach (Frame.script (Frame.write phy reg value)))
        phase := segment.phase }) := by
  obtain ⟨segment, member, failed⟩ := transmit_failing fails
  refine ⟨segment, member, ?_⟩
  rw [write, ready]
  simp only [failed]

theorem recover_lasting (lasts : engine.bench.Lasts (Frame.script Frame.recovery)) :
    engine.recover = (.ok (),
      { engine with
        station.lines := engine.bench.after (Frame.script Frame.recovery)
        phase := .idle
        stats.recoveries := engine.stats.recoveries + 1 }) := by
  rw [recover]
  simp only [transmit_lasting lasts]

theorem recover_failing (fails : ¬ engine.bench.Lasts (Frame.script Frame.recovery)) :
    ∃ segment ∈ Frame.recovery, engine.recover = (.error .transport,
      { engine with
        station.lines := engine.bench.after (engine.bench.reach (Frame.script Frame.recovery))
        phase := segment.phase }) := by
  obtain ⟨segment, member, failed⟩ := transmit_failing fails
  refine ⟨segment, member, ?_⟩
  rw [recover]
  simp only [failed]

theorem read_bench (engine : Engine Bench) (phy reg : Nat) :
    ∃ script, (engine.read phy reg).2.bench = engine.bench.after script := by
  cases ready : engine.ready phy reg with
  | error cause => exact ⟨[], by rw [read_refused ready]; rfl⟩
  | ok =>
    by_cases lasts : engine.bench.Lasts (Frame.script (Frame.read engine.turnaround phy reg))
    · exact ⟨_, by rw [read_lasting ready lasts]⟩
    · obtain ⟨_, -, failed⟩ := read_failing ready lasts
      exact ⟨_, by rw [failed]⟩

theorem write_bench (engine : Engine Bench) (phy reg : Nat) (value : Word) :
    ∃ script, (engine.write phy reg value).2.bench = engine.bench.after script := by
  cases ready : engine.ready phy reg with
  | error cause => exact ⟨[], by rw [write_refused ready]; rfl⟩
  | ok =>
    by_cases lasts : engine.bench.Lasts (Frame.script (Frame.write phy reg value))
    · exact ⟨_, by rw [write_lasting ready value lasts]⟩
    · obtain ⟨_, -, failed⟩ := write_failing ready value lasts
      exact ⟨_, by rw [failed]⟩

theorem recover_bench (engine : Engine Bench) : ∃ script, engine.recover.2.bench = engine.bench.after script := by
  by_cases lasts : engine.bench.Lasts (Frame.script Frame.recovery)
  · exact ⟨_, by rw [recover_lasting lasts]⟩
  · obtain ⟨_, -, failed⟩ := recover_failing lasts
    exact ⟨_, by rw [failed]⟩

end Engine
end Clause22
