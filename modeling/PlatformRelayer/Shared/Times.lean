import PlatformRelayer.Db.Models

/-!
# Go times and timestamp columns

A `time.Time` is an instant and the location it is shown in, of which only the
offset from UTC at that instant matters. A `timestamp` column has no zone:
what pgx writes to it is the time as the wall clock of its location shows it,
and what it reads back is that wall clock in UTC. So an instant comes back
from the database if its location is UTC there, and only then
(`stored_eq_instant_iff`). A column counts microseconds, so that of the
nanoseconds of a time only whole microseconds come back (`GoTime.column`).
-/

namespace PlatformRelayer

def second : Duration := 1000000000

/-- A `time.Time`. -/
structure GoTime where
  instant : Time
  /-- The offset from UTC of the time's location, at the instant. -/
  offset : Duration := 0
deriving DecidableEq, Repr

/-- A time zone: its offset from UTC at each instant. -/
abbrev Zone := Time → Duration

/-- `time.Unix(sec, 0)`, on a server whose local zone is `loc`. -/
def timeUnix (loc : Zone) (sec : Int64) : GoTime :=
  let instant := sec.toInt * second
  ⟨instant, loc instant⟩

/-- `time.Now()`, on a server whose local zone is `loc`. -/
def timeNow (loc : Zone) (now : Time) : GoTime := ⟨now, loc now⟩

namespace GoTime

/-- The zero `time.Time`. -/
def zero : GoTime := ⟨Time.zero, 0⟩

/-- `t.UTC()`. -/
def utc (t : GoTime) : GoTime := ⟨t.instant, 0⟩

/-- What the wall clock of the time's location shows, as the instant at which a
clock in UTC shows the same. -/
def wallClock (t : GoTime) : Time := t.instant + t.offset

end GoTime

/-- A value of a `timestamp` column: a wall clock. -/
structure Timestamp where
  wallClock : Time
deriving DecidableEq, Repr

/-- How pgx writes a `pgtype.Timestamp`. -/
def GoTime.encode (t : GoTime) : Timestamp := ⟨t.wallClock⟩

/-- How pgx reads a `pgtype.Timestamp`. -/
def Timestamp.decode (x : Timestamp) : GoTime := ⟨x.wallClock, 0⟩

/-- The instant that is read back once the time was written to a column. -/
def GoTime.stored (t : GoTime) : Time := t.encode.decode.instant

theorem stored_eq_instant_iff (t : GoTime) : t.stored = t.instant ↔ t.offset = 0 := by
  change t.instant + t.offset = t.instant ↔ t.offset = 0
  exact ⟨fun h => Int.add_left_cancel (h.trans (Int.add_zero _).symm), fun h => h ▸ Int.add_zero _⟩

def microsecond : Duration := 1000

/-- The instant that is read back from a column, which counts microseconds. -/
def GoTime.column (t : GoTime) : Time := t.stored / microsecond * microsecond

/-- The offset of a location is a number of seconds. -/
theorem column_eq_instant_iff {t : GoTime} (h : microsecond ∣ t.offset) :
    t.column = t.instant ↔ t.offset = 0 ∧ microsecond ∣ t.instant := by
  have hfloor (instant offset : Int) (h : 1000 ∣ offset) :
      (instant + offset) / 1000 * 1000 = instant ↔ offset = 0 ∧ 1000 ∣ instant := by omega
  exact hfloor t.instant t.offset h

end PlatformRelayer
