import Spatiad.AnswerFrame

/-! # Failing reads during a recovery

A recovery from SQLite makes a handful of calls, and each of them may fail.  All but one
failure end it; what the snapshot query returns is read with `.ok()`, which makes no
difference between a failure and a database without a snapshot.
-/

namespace Spatiad

open Foundation StorageBackend

/-! ## A connection whose calls may fail -/

/-- An error of `rusqlite`. -/
inductive SqliteError where
  | queryReturnedNoRows
  | failure (message : String)
  deriving DecidableEq, Repr

/-- The calls of a recovery that fail, and the texts of their errors.  A row of the log is
    given by its number. -/
structure SqliteFaults where
  prepareSnapshot : Option String
  /-- An error of the query other than that it returned no rows. -/
  snapshotRow : Option String
  decodeSnapshot : Option String
  prepareWal : Option String
  queryWal : Option String
  walRow : Nat → Option String
  decodeCommand : Nat → Option String
  insertEvent : Uuid → Nat → Option String

def SqliteFaults.none : SqliteFaults :=
  ⟨.none, .none, .none, .none, .none, fun _ => .none, fun _ => .none, fun _ _ => .none⟩

structure SqliteConnection where
  store : SqliteBackend
  faults : SqliteFaults

namespace SqliteConnection

variable (conn : SqliteConnection)

/-- `stmt.query_row([], |row| row.get(0))` -/
def queryRow : Except SqliteError EngineSnapshot :=
  match conn.faults.snapshotRow, conn.store.latestSnapshot with
  | some message, _ => .error (.failure message)
  | none, none => .error .queryReturnedNoRows
  | none, some blob => .ok blob

def loadSnapshot : Except StorageError (Option EngineSnapshot) :=
  match conn.faults.prepareSnapshot with
  | some message => .error (.snapshotLoad message)
  | none =>
      -- `.ok()`
      match conn.queryRow.toOption with
      | none => .ok none
      | some blob =>
          match conn.faults.decodeSnapshot with
          | some message => .error (.snapshotLoad message)
          | none => .ok (some blob)

def readEntries : List (Nat × Command) → Except StorageError (List (Nat × Command))
  | [] => .ok []
  | (seq, cmd) :: rest =>
      match conn.faults.walRow seq, conn.faults.decodeCommand seq with
      | some message, _ | none, some message => .error (.walLoad message)
      | none, none => (readEntries rest).map fun entries => (seq, cmd) :: entries

def loadWalAfter (afterSeq : Nat) : Except StorageError (List (Nat × Command)) :=
  match conn.faults.prepareWal, conn.faults.queryWal with
  | some message, _ | none, some message => .error (.walLoad message)
  | none, none => conn.readEntries (conn.store.wal.rows.filter fun row => afterSeq < row.1)

def appendJobEvent (jobId : Uuid) (event : StoredJobEvent) :
    Except StorageError Unit × SqliteConnection :=
  match conn.faults.insertEvent jobId event.sequence with
  | some message => (.error (.eventStore message), conn)
  | none =>
      let (result, store) := conn.store.appendJobEvent jobId event
      (result, { conn with store })

/-- Calls that no recovery makes go through to the store. -/
instance : StorageBackend SqliteConnection where
  appendWal conn seq cmd :=
    let (result, store) := conn.store.appendWal seq cmd
    (result, { conn with store })
  writeSnapshot conn snapshot :=
    let (result, store) := conn.store.writeSnapshot snapshot
    (result, { conn with store })
  loadSnapshot := loadSnapshot
  loadWalAfter := loadWalAfter
  compactWal conn upToSeq :=
    let (result, store) := conn.store.compactWal upToSeq
    (result, { conn with store })
  appendJobEvent := appendJobEvent
  queryJobEvents conn := conn.store.queryJobEvents
  isPersistent _ := true

/-! ## When a read succeeds -/

/-- Every row of the log after this number can be read. -/
structure WalReadable (afterSeq : Nat) : Prop where
  prepared : conn.faults.prepareWal = none
  queried : conn.faults.queryWal = none
  rows : ∀ row ∈ conn.store.wal.rows, afterSeq < row.1 →
    conn.faults.walRow row.1 = none ∧ conn.faults.decodeCommand row.1 = none

theorem readEntries_cases (entries : List (Nat × Command)) :
    ((∀ row ∈ entries, conn.faults.walRow row.1 = none ∧ conn.faults.decodeCommand row.1 = none) ∧
      conn.readEntries entries = .ok entries) ∨
    (¬ ∀ row ∈ entries, conn.faults.walRow row.1 = none ∧ conn.faults.decodeCommand row.1 = none) ∧
      ∃ err, conn.readEntries entries = .error err := by
  induction entries with
  | nil => exact .inl ⟨by simp, rfl⟩
  | cons row rest ih =>
      obtain ⟨seq, cmd⟩ := row
      rw [List.forall_mem_cons]
      simp only [readEntries]
      cases got : conn.faults.walRow seq with
      | some message => exact .inr ⟨fun readable => Option.some_ne_none _ readable.1.1, _, rfl⟩
      | none =>
          cases decoded : conn.faults.decodeCommand seq with
          | some message => exact .inr ⟨fun readable => Option.some_ne_none _ readable.1.2, _, rfl⟩
          | none =>
              rcases ih with ⟨readable, same⟩ | ⟨unreadable, err, same⟩
              · rw [same]
                exact .inl ⟨⟨⟨rfl, rfl⟩, readable⟩, rfl⟩
              · rw [same]
                exact .inr ⟨fun readable => unreadable readable.2, err, rfl⟩

theorem loadWalAfter_cases (afterSeq : Nat) :
    (conn.WalReadable afterSeq ∧ conn.loadWalAfter afterSeq =
      .ok (conn.store.wal.rows.filter fun row => afterSeq < row.1)) ∨
    ¬ conn.WalReadable afterSeq ∧ ∃ err, conn.loadWalAfter afterSeq = .error err := by
  unfold loadWalAfter
  cases prepared : conn.faults.prepareWal with
  | some message =>
      refine .inr ⟨fun readable => ?_, _, rfl⟩
      cases prepared.symm.trans readable.prepared
  | none =>
      cases queried : conn.faults.queryWal with
      | some message =>
          refine .inr ⟨fun readable => ?_, _, rfl⟩
          cases queried.symm.trans readable.queried
      | none =>
          have filtered : (∀ row ∈ conn.store.wal.rows.filter fun row => decide (afterSeq < row.1),
              conn.faults.walRow row.1 = none ∧ conn.faults.decodeCommand row.1 = none) ↔
              conn.WalReadable afterSeq := by
            simp only [List.mem_filter, decide_eq_true_eq, and_imp]
            exact ⟨fun rows => ⟨prepared, queried, rows⟩, fun readable => readable.rows⟩
          have read := conn.readEntries_cases
            (conn.store.wal.rows.filter fun row => decide (afterSeq < row.1))
          rw [filtered] at read
          exact read

/-- A query that fails is taken for a database without snapshots, once its statement is
    prepared. -/
theorem loadSnapshot_failed (prepared : conn.faults.prepareSnapshot = none)
    (failed : conn.faults.snapshotRow ≠ none) : conn.loadSnapshot = .ok none := by
  obtain ⟨message, failed⟩ := Option.ne_none_iff_exists'.mp failed
  simp only [loadSnapshot, queryRow, prepared, failed, Except.toOption]

theorem loadSnapshot_cases
    (sound : conn.faults.snapshotRow = none ∨ conn.faults.prepareSnapshot ≠ none) :
    conn.loadSnapshot = .ok conn.store.latestSnapshot ∨
      ∃ err, conn.loadSnapshot = .error err := by
  simp only [loadSnapshot, queryRow]
  cases prepared : conn.faults.prepareSnapshot with
  | some message => exact .inr ⟨_, rfl⟩
  | none =>
      rw [sound.resolve_right fun different => different prepared]
      cases conn.store.latestSnapshot with
      | none => exact .inl rfl
      | some snap =>
          simp only [Except.toOption]
          cases conn.faults.decodeSnapshot with
          | none => exact .inl rfl
          | some message => exact .inr ⟨_, rfl⟩

theorem queryRow_failure {err : SqliteError} (failed : conn.queryRow = .error err)
    (other : err ≠ .queryReturnedNoRows) : conn.faults.snapshotRow ≠ none := by
  intro sound
  simp only [queryRow, sound] at failed
  cases latest : conn.store.latestSnapshot with
  | none =>
      rw [latest] at failed
      exact other (Except.error.inj failed).symm
  | some snap =>
      rw [latest] at failed
      cases failed

end SqliteConnection

/-! ## What a recovery yields -/

section recovery

variable (host : Host) (h3Resolution : Nat) (conn : SqliteConnection) (tick : Nat)

/-- The engine of a snapshot, or an empty one, after the commands of the log that follow. -/
def recoveredFrom (snapshot : Option EngineSnapshot) : Engine SqliteConnection :=
  let base := Engine.restored host h3Resolution snapshot conn tick
  base.replayEntries host (conn.store.wal.rows.filter fun row => base.walSequence < row.1)

/-- A recovery that is told of an error by the snapshot query fails, and one that succeeds has
    started from what is stored. -/
structure RecoversFaithfully : Prop where
  failedRead : ∀ err, conn.queryRow = .error err → err ≠ .queryReturnedNoRows →
    ∃ message, Engine.recover host h3Resolution conn tick = .error message
  fromStored : ∀ e, Engine.recover host h3Resolution conn tick = .ok e →
    e = recoveredFrom host h3Resolution conn tick conn.store.latestSnapshot

theorem recover_loaded {snapshot : Option EngineSnapshot} (loads : conn.loadSnapshot = .ok snapshot) :
    let base := Engine.restored host h3Resolution snapshot conn tick
    (conn.WalReadable base.walSequence ∧ Engine.recover host h3Resolution conn tick =
      .ok (recoveredFrom host h3Resolution conn tick snapshot)) ∨
    ¬ conn.WalReadable base.walSequence ∧
      ∃ message, Engine.recover host h3Resolution conn tick = .error message := by
  intro base
  have stored : base.storage = conn := by
    cases snapshot <;> rfl
  have loaded : StorageBackend.loadSnapshot conn = .ok snapshot := loads
  rcases conn.loadWalAfter_cases base.walSequence with ⟨readable, same⟩ | ⟨unreadable, err, same⟩
  · have entries : StorageBackend.loadWalAfter base.storage base.walSequence =
        .ok (conn.store.wal.rows.filter fun row => base.walSequence < row.1) := by
      rw [stored]
      exact same
    simp only [Engine.recover, loaded, base] at entries ⊢
    rw [entries]
    exact .inl ⟨readable, rfl⟩
  · have refused : StorageBackend.loadWalAfter base.storage base.walSequence = .error err := by
      rw [stored]
      exact same
    simp only [Engine.recover, loaded, base] at refused ⊢
    rw [refused]
    exact .inr ⟨unreadable, _, rfl⟩

theorem recover_unloaded {err : StorageError} (fails : conn.loadSnapshot = .error err) :
    Engine.recover host h3Resolution conn tick = .error err.toString := by
  have failed : StorageBackend.loadSnapshot conn = .error err := fails
  simp only [Engine.recover, failed]

variable {host h3Resolution conn tick}

theorem RecoversFaithfully.of_refused {message : String}
    (refused : Engine.recover host h3Resolution conn tick = .error message) :
    RecoversFaithfully host h3Resolution conn tick where
  failedRead _ _ _ := ⟨message, refused⟩
  fromStored e recovered := by cases refused.symm.trans recovered

theorem RecoversFaithfully.of_loaded (loads : conn.loadSnapshot = .ok conn.store.latestSnapshot)
    (sound : conn.faults.snapshotRow = none ∨ conn.faults.prepareSnapshot ≠ none) :
    RecoversFaithfully host h3Resolution conn tick where
  failedRead err failed other := by
    have failed := conn.queryRow_failure failed other
    obtain ⟨message, unprepared⟩ := Option.ne_none_iff_exists'.mp (sound.resolve_left failed)
    simp only [SqliteConnection.loadSnapshot, unprepared] at loads
    cases loads
  fromStored e recovered := by
    cases recover_loaded host h3Resolution conn tick loads with
    | inl whole => exact Except.ok.inj (recovered.symm.trans whole.2)
    | inr refused =>
        obtain ⟨_, message, refused⟩ := refused
        cases recovered.symm.trans refused

end recovery

/-- A recovery is faithful unless the snapshot query fails, with an error other than that it
    returned no rows, between a statement that was prepared and a log that can be read. -/
theorem recovers_faithfully_iff (host : Host) (h3Resolution : Nat) (conn : SqliteConnection)
    (tick : Nat) :
    RecoversFaithfully host h3Resolution conn tick ↔
      conn.faults.snapshotRow = none ∨ conn.faults.prepareSnapshot ≠ none ∨
        ¬ conn.WalReadable 0 := by
  constructor
  · intro faithful
    by_contra swallowed
    obtain ⟨failed, rest⟩ := not_or.mp swallowed
    obtain ⟨prepared, readable⟩ := not_or.mp rest
    have loads := conn.loadSnapshot_failed (not_not.mp prepared) failed
    obtain ⟨message, row⟩ := Option.ne_none_iff_exists'.mp failed
    have told : conn.queryRow = .error (.failure message) := by
      simp only [SqliteConnection.queryRow, row]
    obtain ⟨text, refused⟩ := faithful.failedRead _ told SqliteError.noConfusion
    rcases recover_loaded host h3Resolution conn tick loads with ⟨_, same⟩ | ⟨unreadable, _⟩
    · cases refused.symm.trans same
    · exact unreadable (not_not.mp readable)
  · intro condition
    by_cases sound : conn.faults.snapshotRow = none ∨ conn.faults.prepareSnapshot ≠ none
    · cases conn.loadSnapshot_cases sound with
      | inl loads => exact .of_loaded loads sound
      | inr fails =>
          obtain ⟨err, fails⟩ := fails
          exact .of_refused (recover_unloaded host h3Resolution conn tick fails)
    · obtain ⟨failed, prepared⟩ := not_or.mp sound
      have loads := conn.loadSnapshot_failed (not_not.mp prepared) failed
      cases recover_loaded host h3Resolution conn tick loads with
      | inl whole => exact absurd whole.1 ((condition.resolve_left failed).resolve_left prepared)
      | inr refused =>
          obtain ⟨_, message, refused⟩ := refused
          exact .of_refused refused

/-- Job 1 is registered and in a snapshot, the log is compacted, and the next process cannot
    read the snapshot: it starts without the job. -/
theorem unread_snapshot_taken_for_none :
    let e := [.registerJob (jobAtOrigin 1), .createSnapshot].foldl (Engine.mutate stillHost)
      (Engine.withStorage 8 SqliteBackend.blank 0)
    let conn : SqliteConnection :=
      ⟨e.storage, { SqliteFaults.none with snapshotRow := some "disk I/O error" }⟩
    Reachable stillHost e ∧ (e.jobs.lookup 1).isSome ∧
      (∃ e', Engine.recover stillHost 8 conn 2 = .ok e' ∧ e'.jobs.lookup 1 = none ∧
        e'.walSequence = 0) ∧
      ¬ RecoversFaithfully stillHost 8 conn 2 := by
  intro e conn
  have reachable : Reachable stillHost e := (Reachable.fresh 8 SqliteBackend.blank 0).run _
  have loads : conn.loadSnapshot = .ok none := rfl
  have empty : conn.store.wal.rows = [] := by decide +kernel
  have readable : conn.WalReadable 0 := ⟨rfl, rfl, fun _ _ _ => ⟨rfl, rfl⟩⟩
  rcases recover_loaded stillHost 8 conn 2 loads with ⟨_, same⟩ | ⟨unreadable, _⟩
  · refine ⟨reachable, by decide +kernel, ⟨_, same, ?_, ?_⟩, fun faithful => ?_⟩
    · simp only [recoveredFrom, empty]
      rfl
    · simp only [recoveredFrom, empty]
      rfl
    · obtain ⟨_, refused⟩ := faithful.failedRead (.failure "disk I/O error") rfl
        SqliteError.noConfusion
      cases refused.symm.trans same
  · exact absurd readable unreadable

end Spatiad
