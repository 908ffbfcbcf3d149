/-!
# Time

A grading under a time limit reads a clock. A duration is longer than the clock can tell if it is
long enough: the seconds of a duration fill 64 bits, and those of an instant 63 bits. So what is a
duration later than an instant need not be an instant (`Instant.add?`).
-/

namespace CircuitGrading

/-- The number of nanoseconds of a second. -/
def nanosecondsPerSecond : Nat := 1000000000

/-- A length of time. -/
structure Duration where
  /-- The whole seconds. -/
  seconds : UInt64
  /-- The nanoseconds beyond the whole seconds. -/
  fraction : Nat
  /-- They are less than a second. -/
  isFraction : fraction < nanosecondsPerSecond
  deriving DecidableEq

namespace Duration

/-- A duration of whole seconds. -/
def ofSeconds (seconds : UInt64) : Duration := ⟨seconds, 0, by decide⟩

/-- The longest duration. -/
def longest : Duration := ⟨18446744073709551615, 999999999, by decide⟩

/-- A duration in nanoseconds. -/
def nanoseconds (duration : Duration) : Nat :=
  duration.seconds.toNat * nanosecondsPerSecond + duration.fraction

end Duration

/-- The number of nanoseconds after which the clock ends: its seconds are a signed number of 64
bits. -/
def Instant.limit : Nat := Nat.pow 2 63 * nanosecondsPerSecond

/-- What the clock shows at some time. -/
structure Instant where
  /-- The nanoseconds since the clock has started. -/
  nanoseconds : Nat
  /-- The clock has not ended. -/
  inRange : nanoseconds < Instant.limit
  deriving DecidableEq

namespace Instant

/-- Instants are ordered in time. -/
instance : LE Instant := ⟨fun first second => first.nanoseconds ≤ second.nanoseconds⟩

/-- Which of two instants is earlier can be computed. -/
instance (first second : Instant) : Decidable (first ≤ second) :=
  inferInstanceAs (Decidable (first.nanoseconds ≤ second.nanoseconds))

/-- The instant that is a duration later, if the clock shows it at all. -/
def add? (instant : Instant) (duration : Duration) : Option Instant :=
  if inside : instant.nanoseconds + duration.nanoseconds < limit then some ⟨_, inside⟩ else none

/-- A later instant is the one that the clock shows after the duration. -/
theorem add?_eq_some_iff {instant later : Instant} {duration : Duration} :
    instant.add? duration = some later ↔
      later.nanoseconds = instant.nanoseconds + duration.nanoseconds := by
  by_cases inside : instant.nanoseconds + duration.nanoseconds < limit
  · rw [add?, dif_pos inside, Option.some.injEq]
    constructor
    · rintro rfl
      rfl
    · intro same
      cases later
      congr 1
      exact same.symm
  · rw [add?, dif_neg inside]
    constructor
    · intro added
      contradiction
    · intro same
      exact absurd (same ▸ later.inRange) inside

/-- There is no later instant exactly if the clock ends before. -/
theorem add?_eq_none_iff {instant : Instant} {duration : Duration} :
    instant.add? duration = none ↔ limit ≤ instant.nanoseconds + duration.nanoseconds := by
  rw [add?]
  split
  · rename_i inside
    exact iff_of_false (Option.some_ne_none _) (Nat.not_le_of_lt inside)
  · rename_i outside
    exact iff_of_true rfl (Nat.le_of_not_lt outside)

end Instant

/-- What the clock shows in a run. -/
structure Clock where
  /-- The instant at which the deadline is set. -/
  start : Instant
  /-- The instant of the look at the clock before each case. -/
  looks : Nat → Instant

end CircuitGrading
