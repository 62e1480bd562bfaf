/-!
# Instants and spans

An instant is a number of nanoseconds since 1970-01-01T00:00:00Z. A written time may lie inside
a leap second; it then counts as the last second before it and carries a mark, which only its
text shows. A span is a number of nanoseconds.

Instants are compared without their marks. A marked one comes from a text alone: no clock of the
service carries a mark, and no block time does, which is given as a number of seconds; the service
compares no other instants.
-/

namespace SwapFloor

/-- A point in time. -/
structure Instant where
  nanos : Int
  /-- Written as a sixty-first second. -/
  leap : Bool := false
  deriving DecidableEq, Inhabited

namespace Instant

/-- Nanoseconds in a second. -/
abbrev perSecond : Int := 1000000000

/-- Nanoseconds in a millisecond. -/
abbrev perMilli : Int := 1000000

/-- Nanoseconds in an hour. -/
abbrev perHour : Int := 3600 * perSecond

/-- The instant a number of milliseconds after the start of 1970. -/
def ofMillis (ms : Int) : Instant := ⟨ms * perMilli, false⟩

/-- The instant a number of seconds after the start of 1970. -/
def ofSeconds (s : Int) : Instant := ⟨s * perSecond, false⟩

/-- Whole seconds since the start of 1970, towards the past. -/
def seconds (t : Instant) : Int := t.nanos.fdiv perSecond

/-- Whole milliseconds since the start of 1970, towards the past. -/
def millis (t : Instant) : Int := t.nanos.fdiv perMilli

/-- Nanoseconds within the second. -/
def subsec (t : Instant) : Nat := (t.nanos.fmod perSecond).toNat

/-- The span from `earlier` to `t`. -/
def since (t earlier : Instant) : Int := t.nanos - earlier.nanos

/-- A span later. -/
def plus (t : Instant) (span : Int) : Instant := { t with nanos := t.nanos + span }

/-- A span earlier. -/
def minus (t : Instant) (span : Int) : Instant := { t with nanos := t.nanos - span }

/-- Strictly later, of instants without a mark. -/
def isAfter (t other : Instant) : Bool := other.nanos < t.nanos

/-- Not earlier, of instants without a mark. -/
def notBefore (t other : Instant) : Bool := other.nanos ≤ t.nanos

/-- The later of two instants, the first of equal ones. -/
def latest (t other : Instant) : Instant := if other.isAfter t then other else t

/-- The most hours that a span of 64-bit milliseconds holds. -/
abbrev maxHours : Int := 2562047788015

/-- The span of a number of hours, none when it has no 64-bit milliseconds. -/
def hours? (h : Int) : Option Int :=
  if -maxHours ≤ h ∧ h ≤ maxHours then some (h * perHour) else none

theorem latest_nanos (t other : Instant) :
    (t.latest other).nanos = max t.nanos other.nanos := by
  unfold latest isAfter
  split
  · rename_i h
    exact (Int.max_eq_right (Int.le_of_lt (of_decide_eq_true h))).symm
  · rename_i h
    exact (Int.max_eq_left (Int.not_lt.1 fun hl => h (decide_eq_true hl))).symm

end Instant

end SwapFloor
