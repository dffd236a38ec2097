import Spatiad.Storage
import Spatiad.Foundation.Table
import Mathlib.Data.Prod.Lex
import Mathlib.Data.List.Sort

/-! # SQL backends

The tables and statements that `SqliteBackend` and `PostgresBackend` share; how a
time is stored and an error is worded is their `Dialect`.  Sequence numbers stay far
below 2^63, where their cast to an SQL integer changes nothing; blobs decode to what
was encoded.
-/

namespace Spatiad

open Foundation

structure Dialect where
  /-- The column type of `occurred_at`. -/
  Time : Type
  order : LinearOrder Time
  encode : DateTime → Time
  /-- Read a stored time; the instant is what the clock shows. -/
  decode : Time → DateTime → DateTime
  /-- Refusals of a sequence number in use, and of a limit past the largest integer. -/
  walInUse : StorageError
  eventInUse : StorageError
  limitTooLarge : StorageError

attribute [instance] Dialect.order

structure JobEventRow (d : Dialect) where
  occurredAt : d.Time
  kindJson : Json

structure SqlBackend (d : Dialect) where
  wal : Table Nat Command
  snapshots : Table Nat EngineSnapshot
  jobEvents : Table (Uuid ×ₗ Nat) (JobEventRow d)
  /-- A snapshot is stored under its own position. -/
  snapshotsKeyed : ∀ row ∈ snapshots.rows, row.1 = row.2.walSequence

namespace SqlBackend

variable {d : Dialect}

/-- `open` on a new database. -/
def blank : SqlBackend d := ⟨.empty, .empty, .empty, fun _ member => by cases member⟩

def appendWal (store : SqlBackend d) (seq : Nat) (cmd : Command) :
    Except StorageError Unit × SqlBackend d :=
  match store.wal.insert seq cmd with
  | none => (.error d.walInUse, store)
  | some wal => (.ok (), { store with wal })

/-- Keeps the latest two. -/
def writeSnapshot (store : SqlBackend d) (snapshot : EngineSnapshot) :
    Except StorageError Unit × SqlBackend d :=
  (.ok (), { store with
    snapshots := (store.snapshots.upsert snapshot.walSequence snapshot).newest 2
    snapshotsKeyed := by
      intro row member
      rcases Table.mem_upsert (Table.mem_newest member) with rfl | old
      · rfl
      · exact store.snapshotsKeyed row old })

def latestSnapshot (store : SqlBackend d) : Option EngineSnapshot :=
  store.snapshots.rows.getLast?.map Prod.snd

def compactWal (store : SqlBackend d) (upToSeq : Nat) : Except StorageError Unit × SqlBackend d :=
  (.ok (), { store with wal := store.wal.restrict fun seq => upToSeq < seq })

def appendJobEvent (store : SqlBackend d) (jobId : Uuid) (event : StoredJobEvent) :
    Except StorageError Unit × SqlBackend d :=
  match store.jobEvents.insert (toLex (jobId, event.sequence))
      ⟨d.encode event.occurredAt, event.kindJson⟩ with
  | none => (.error d.eventInUse, store)
  | some jobEvents => (.ok (), { store with jobEvents })

def ofJob (jobId : Uuid) (key : Uuid ×ₗ Nat) : Bool := (ofLex key).1 == jobId

def jobRows (store : SqlBackend d) (jobId : Uuid) : List (Nat × JobEventRow d) :=
  (store.jobEvents.restrict (ofJob jobId)).rows.map fun row => ((ofLex row.1).2, row.2)

/-- `occurred_at < $2 OR (occurred_at = $2 AND sequence < $3)` -/
def rowBefore (cursor : EventCursor) (row : Nat × JobEventRow d) : Bool :=
  decide (row.2.occurredAt < d.encode cursor.occurredAt ∨
    row.2.occurredAt = d.encode cursor.occurredAt ∧ (row.1 : Int) < asI64 cursor.sequence)

/-- `ORDER BY occurred_at DESC, sequence DESC` -/
def newerRow (a b : Nat × JobEventRow d) : Prop :=
  b.2.occurredAt < a.2.occurredAt ∨ b.2.occurredAt = a.2.occurredAt ∧ b.1 ≤ a.1

instance : DecidableRel (@newerRow d) := fun a b =>
  inferInstanceAs (Decidable (b.2.occurredAt < a.2.occurredAt ∨ _))

def rowsBefore (store : SqlBackend d) (jobId : Uuid) :
    Option EventCursor → List (Nat × JobEventRow d)
  | none => store.jobRows jobId
  | some cursor => (store.jobRows jobId).filter (rowBefore cursor)

def newestRows (store : SqlBackend d) (jobId : Uuid) (cursor : Option EventCursor)
    (count : Nat) : List (Nat × JobEventRow d) :=
  ((store.rowsBefore jobId cursor).insertionSort newerRow).take count

/-- The kind filter is accepted and not used. -/
def queryJobEvents (store : SqlBackend d) (jobId : Uuid) (limit : Nat)
    (cursor : Option EventCursor) (_kindFilter : Option (List Json)) (now : DateTime) :
    Except StorageError (List StoredJobEvent) :=
  if 2 ^ 63 ≤ maxItems limit then .error d.limitTooLarge
  else
    .ok ((store.newestRows jobId cursor (maxItems limit)).map fun (sequence, row) =>
      ⟨sequence, d.decode row.occurredAt now, row.kindJson⟩)

end SqlBackend

instance (d : Dialect) : StorageBackend (SqlBackend d) where
  appendWal := SqlBackend.appendWal
  writeSnapshot := SqlBackend.writeSnapshot
  loadSnapshot store := .ok store.latestSnapshot
  loadWalAfter store afterSeq := .ok (store.wal.rows.filter fun row => afterSeq < row.1)
  compactWal := SqlBackend.compactWal
  appendJobEvent := SqlBackend.appendJobEvent
  queryJobEvents := SqlBackend.queryJobEvents
  isPersistent _ := true

namespace SqlBackend

variable {d : Dialect}

theorem appendWal_above (store : SqlBackend d) {seq : Nat} (cmd : Command)
    (fresh : ∀ row ∈ store.wal.rows, row.1 < seq) :
    store.appendWal seq cmd = (.ok (), { store with wal := store.wal.upsert seq cmd }) := by
  simp only [appendWal, Table.insert_above fresh]

theorem latestSnapshot_write (store : SqlBackend d) {snapshot : EngineSnapshot}
    (newest : ∀ old, store.latestSnapshot = some old → old.walSequence ≤ snapshot.walSequence) :
    (store.writeSnapshot snapshot).2.latestSnapshot = some snapshot := by
  have top : ∀ row ∈ store.snapshots.rows, row.1 ≤ snapshot.walSequence := by
    intro row member
    cases isLast : store.snapshots.rows.getLast? with
    | none =>
        rw [List.getLast?_eq_none_iff] at isLast
        rw [isLast] at member
        cases member
    | some last =>
        have older := newest last.2 (by rw [latestSnapshot, isLast]; rfl)
        rw [← store.snapshotsKeyed last (List.mem_of_getLast? isLast)] at older
        exact le_trans (Table.le_getLast isLast row member) older
  simp only [latestSnapshot, writeSnapshot]
  rw [Table.getLast_newest (by decide), Table.getLast_upsert top]
  rfl

theorem jobRows_append_other (store : SqlBackend d) {jobId j : Uuid} (event : StoredJobEvent)
    (different : j ≠ jobId) : (store.appendJobEvent jobId event).2.jobRows j = store.jobRows j := by
  simp only [appendJobEvent, Table.insert]
  by_cases used : toLex (jobId, event.sequence) ∈ store.jobEvents.keys
  · simp only [if_pos used]
  · simp only [if_neg used, jobRows]
    rw [Table.restrict_upsert_other (ofJob j)]
    simpa [ofJob] using fun same => different same.symm

theorem jobRows_append (store : SqlBackend d) (jobId : Uuid) (event : StoredJobEvent)
    (fresh : ∀ row ∈ store.jobRows jobId, row.1 < event.sequence) :
    (store.appendJobEvent jobId event).2.jobRows jobId =
      store.jobRows jobId ++ [(event.sequence, ⟨d.encode event.occurredAt, event.kindJson⟩)] := by
  have above : ∀ row ∈ store.jobEvents.rows, ofJob jobId row.1 = true →
      row.1 < toLex (jobId, event.sequence) := by
    intro row member selected
    have listed : ((ofLex row.1).2, row.2) ∈ store.jobRows jobId :=
      List.mem_map.mpr ⟨row, List.mem_filter.mpr ⟨member, selected⟩, rfl⟩
    exact Prod.Lex.lt_iff.mpr (.inr ⟨eq_of_beq selected, fresh _ listed⟩)
  have unused : toLex (jobId, event.sequence) ∉ store.jobEvents.keys := by
    intro used
    obtain ⟨row, member, same⟩ := List.mem_map.mp used
    have selected : ofJob jobId row.1 = true := by rw [same]; simp [ofJob]
    exact absurd (same ▸ above row member selected) (lt_irrefl _)
  simp only [appendJobEvent, Table.insert, if_neg unused, jobRows]
  rw [Table.restrict_upsert_top (ofJob jobId) (by simp [ofJob]) above, List.map_append]
  rfl

end SqlBackend

instance (d : Dialect) : LawfulBackend (SqlBackend d) where
  snapshot := SqlBackend.latestSnapshot
  wal store := store.wal.rows
  events store jobId := (store.jobRows jobId).map fun row => (row.1, row.2.kindJson)
  isPersistent_eq _ := rfl
  loadSnapshot_eq _ := rfl
  loadWalAfter_eq _ _ := rfl
  appendWal_spec store seq cmd fresh := by
    refine ⟨_, SqlBackend.appendWal_above store cmd fresh, rfl, ?_, rfl⟩
    exact Table.rows_upsert_above fresh
  writeSnapshot_spec store snap newest :=
    ⟨_, rfl, SqlBackend.latestSnapshot_write store newest, rfl, rfl⟩
  compactWal_spec store seq := ⟨_, rfl, rfl, rfl, rfl⟩
  appendJobEvent_spec store jobId event := by
    refine ⟨?_, ?_, ?_⟩
    · simp only [StorageBackend.appendJobEvent, SqlBackend.appendJobEvent]
      split <;> rfl
    · simp only [StorageBackend.appendJobEvent, SqlBackend.appendJobEvent]
      split <;> rfl
    · intro fresh
      funext j
      have above : ∀ row ∈ store.jobRows jobId, row.1 < event.sequence := fun row member =>
        fresh _ (List.mem_map_of_mem member)
      simp only [StorageBackend.appendJobEvent, Function.update_apply]
      split
      · rename_i same
        rw [same, SqlBackend.jobRows_append store jobId event above, List.map_append]
        rfl
      · rename_i different
        rw [SqlBackend.jobRows_append_other store event different]

end Spatiad
