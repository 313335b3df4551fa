import CalendarRules.Time.Date

/-!
# Instants

An instant is a point in universal time: a day, a second of that day and nanoseconds.  A leap second
is the last second of a minute with a thousand million nanoseconds or more; it comes after the
ordinary nanoseconds of that second and before the next second, so instants are ordered by day,
second and nanosecond.

## Differences

The difference of two instants is a whole number of nanoseconds.  A leap second counts in it only
when it lies on the way, seen by the time of day: from a leap second to a later second of the day,
or from a later second back to it.

## Range

Instants reach from the year -262143 to the year 262142.
-/

namespace CalendarRules

namespace Instant

/-- The first day of the year -262143. -/
def firstDay : Int := -96465292

/-- The last day of the year 262142. -/
def lastDay : Int := 95026236

end Instant

/-- A day in range, a second of the day, and nanoseconds that exceed a second only in a leap
second. -/
def IsInstant (day : Int) (second nano : Nat) : Prop :=
  Instant.firstDay ≤ day ∧ day ≤ Instant.lastDay ∧ second < 86400 ∧ nano < 2000000000 ∧
    (1000000000 ≤ nano → second % 60 = 59)

instance (day : Int) (second nano : Nat) : Decidable (IsInstant day second nano) :=
  inferInstanceAs (Decidable (_ ∧ _ ∧ _ ∧ _ ∧ (_ → _)))

structure Instant where
  /-- Days since 1970-01-01. -/
  day : Int
  second : Nat
  nano : Nat
  isInstant : IsInstant day second nano
  deriving DecidableEq

namespace Instant

/-- The instant with the given parts, if it is in range. -/
def ofParts? (day : Int) (second nano : Nat) : Option Instant :=
  if h : IsInstant day second nano then some ⟨day, second, nano, h⟩ else none

/-- Seconds since the beginning of 1970, leap seconds not counted. -/
def seconds (t : Instant) : Int := t.day * 86400 + t.second

/-- The instant so many seconds and nanoseconds after the beginning of 1970. -/
def ofSeconds? (seconds : Int) (nano : Nat) : Option Instant :=
  ofParts? (seconds / 86400) (seconds % 86400).toNat nano

theorem nano_of_ofSeconds? {seconds : Int} {nano : Nat} {t : Instant}
    (h : ofSeconds? seconds nano = some t) : t.nano = nano := by
  unfold ofSeconds? ofParts? at h
  split at h
  · cases h
    rfl
  · cases h

/-- Inside a leap second. -/
def isLeap (t : Instant) : Bool := 1000000000 ≤ t.nano

/-! ## Order -/

/-- A number that orders instants: no two instants share it, and it grows with time. -/
def rank (t : Instant) : Int := t.seconds * 2000000000 + t.nano

def lt (a b : Instant) : Bool := a.rank < b.rank

def le (a b : Instant) : Bool := a.rank ≤ b.rank

/-- The later of two instants. -/
def later (a b : Instant) : Instant := if a.le b then b else a

/-- The earlier of two instants. -/
def earlier (a b : Instant) : Instant := if a.le b then a else b

theorem rank_inj {a b : Instant} (h : a.rank = b.rank) : a = b := by
  obtain ⟨da, sa, na, ha⟩ := a
  obtain ⟨db, sb, nb, hb⟩ := b
  simp only [IsInstant] at ha hb
  simp only [rank, seconds] at h
  have : da = db ∧ sa = sb ∧ na = nb := by omega
  obtain ⟨rfl, rfl, rfl⟩ := this
  rfl

/-! ## Differences -/

/-- The leap second between two times of day, if there is one: 1 on the way up, -1 on the way
down. -/
def leapBetween (a b : Instant) : Int :=
  if b.second < a.second ∧ b.isLeap then 1
  else if a.second < b.second ∧ a.isLeap then -1
  else 0

/-- Nanoseconds from `b` to `a`. -/
def minus (a b : Instant) : Int :=
  (a.seconds - b.seconds + leapBetween a b) * 1000000000 + (a.nano - b.nano)

/-- Whole milliseconds of a difference, its part toward zero. -/
def wholeMillis (nanos : Int) : Int := nanos.tdiv 1000000

/-- Whole minutes of a difference, its part toward zero. -/
def wholeMinutes (nanos : Int) : Int := nanos.tdiv 60000000000

/-- The instant so many nanoseconds after one that is not in a leap second, if it is in range. -/
def plus? (t : Instant) (nanos : Int) : Option Instant :=
  let total := t.seconds * 1000000000 + t.nano + nanos
  ofSeconds? (total / 1000000000) (total % 1000000000).toNat

/-- Milliseconds since the beginning of 1970; a leap second runs past a thousand of them. -/
def millis (t : Instant) : Int := t.seconds * 1000 + (t.nano / 1000000 : Nat)

/-! ## Parts -/

def date (t : Instant) : Date := Date.ofDay t.day

def hour (t : Instant) : Nat := t.second / 3600

def minute (t : Instant) : Nat := t.second / 60 % 60

/-- The second of the minute; a leap second shares the number of the second before it. -/
def secondOfMinute (t : Instant) : Nat := t.second % 60

/-- The very beginning of a day. -/
def isMidnight (t : Instant) : Bool := t.second == 0 && t.nano == 0

end Instant
end CalendarRules
