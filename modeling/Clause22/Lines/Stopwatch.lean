import Clause22.Lines.Basic

/-! Counting waits instead of spending them. -/

namespace Clause22

structure Stopwatch where
  total : Nat := 0
  calls : Nat := 0
deriving DecidableEq

namespace Stopwatch

def wait (nanoseconds : Nat) (watch : Stopwatch) : Stopwatch :=
  ⟨watch.total + nanoseconds, watch.calls + 1⟩

/-- The most whole microseconds that 32 bits of nanoseconds can express. -/
def longestMicroseconds : Nat := 0xFFFFFFFF / 1000

/-- A wait in microseconds is one wait in nanoseconds, behind as many of the longest as it takes. -/
def waitMicroseconds (microseconds : Nat) (watch : Stopwatch) : Stopwatch :=
  if longestMicroseconds < microseconds then
    (watch.wait (1000 * longestMicroseconds)).waitMicroseconds (microseconds - longestMicroseconds)
  else
    watch.wait (1000 * microseconds)
termination_by microseconds
decreasing_by
  have positive : 0 < longestMicroseconds := by decide
  omega

/-- No time is lost between the parts of a wait, and there are no more of them than it takes. -/
theorem waitMicroseconds_eq (microseconds : Nat) (watch : Stopwatch) :
    watch.waitMicroseconds microseconds =
      ⟨watch.total + 1000 * microseconds, watch.calls + (microseconds - 1) / longestMicroseconds + 1⟩ := by
  fun_induction waitMicroseconds microseconds watch with
  | case1 microseconds watch long ih =>
    rw [ih]
    simp only [wait, longestMicroseconds, mk.injEq] at long ⊢
    omega
  | case2 microseconds watch short =>
    have none : (microseconds - 1) / longestMicroseconds = 0 := Nat.div_eq_of_lt (by
      have positive : 0 < longestMicroseconds := by decide
      omega)
    rw [wait, none]

end Stopwatch

/-- Lines whose waits are counted. -/
structure Timed (σ : Type) where
  lines : σ
  watch : Stopwatch := {}

instance [Lines σ] : Lines (Timed σ) where
  drive word timed :=
    let (done, lines) := Lines.drive word timed.lines
    (done, { timed with lines })
  sample timed :=
    let (word, lines) := Lines.sample timed.lines
    (word, { timed with lines })
  wait nanoseconds timed :=
    ⟨Lines.wait nanoseconds timed.lines, timed.watch.wait nanoseconds⟩

end Clause22
