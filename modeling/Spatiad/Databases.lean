import Spatiad.Sql
import Spatiad.Rfc3339
import Mathlib.Data.String.Basic

/-! # The two databases

SQLite keeps the time of an event as a text, PostgreSQL as a number of microseconds.
-/

namespace Spatiad

/-- Unreadable times are replaced by the current one; a literal past the largest
    integer is read as a floating-point number. -/
def sqlite : Dialect where
  Time := String
  order := inferInstance
  encode := toRfc3339
  decode text now := (parseFromRfc3339 text).getD now
  walInUse := .walAppend "UNIQUE constraint failed: wal.seq"
  eventInUse := .eventStore "UNIQUE constraint failed: job_events.job_id, job_events.sequence"
  limitTooLarge := .eventStore "datatype mismatch"

abbrev SqliteBackend := SqlBackend sqlite

def SqliteBackend.blank : SqliteBackend := SqlBackend.blank

/-- 2000-01-01, the origin of `TIMESTAMPTZ`. -/
def postgresEpoch : DateTime := seconds (86400 * (daysBeforeYear 2000 - epochDays))

/-- Whole microseconds, rounded towards the origin; a larger limit is cast to a
    negative one. -/
def postgres : Dialect where
  Time := Int
  order := inferInstance
  encode t := (t - postgresEpoch).tdiv 1000
  decode micros _ := postgresEpoch + 1000 * micros
  walInUse :=
    .walAppend "db error: ERROR: duplicate key value violates unique constraint \"wal_pkey\""
  eventInUse :=
    .eventStore "db error: ERROR: duplicate key value violates unique constraint \"job_events_pkey\""
  limitTooLarge := .eventStore "db error: ERROR: LIMIT must not be negative"

abbrev PostgresBackend := SqlBackend postgres

end Spatiad
