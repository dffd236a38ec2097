import Spatiad.Types
import Spatiad.Foundation.WriteAheadLog

/-! # Commands, snapshots and the storage trait

A `Command` carries everything needed to replay one mutation.  `Ledger` is the
part of an engine that commands rewrite and a snapshot saves.
-/

namespace Spatiad

open Foundation

inductive StorageError where
  | walAppend (message : String)
  | snapshotWrite (message : String)
  | snapshotLoad (message : String)
  | walLoad (message : String)
  | eventStore (message : String)
  deriving DecidableEq, Repr

/-- A command that mutates engine state. -/
inductive Command where
  | upsertDriverLocation (driverId : Uuid) (category : String) (position : Coordinates)
      (status : DriverStatus) (timestamp : DateTime)
  | registerJob (job : JobRequest)
  | createOffer (offer : OfferRecord)
  | acceptOffer (offerId : Uuid) (respondedAt : DateTime)
  | rejectOffer (offerId : Uuid) (respondedAt : DateTime)
  | markOfferExpired (offerId : Uuid)
  | markOfferCancelled (offerId : Uuid)
  | cancelJob (jobId : Uuid)
  | removeDriver (driverId : Uuid)
  | recordWebhookDeliveryFailed (jobId offerId : Uuid)
  deriving DecidableEq, Repr

/-- The maps that commands rewrite. -/
structure Ledger where
  drivers : HashMap Uuid DriverSnapshot
  jobs : HashMap Uuid JobRequest
  offers : HashMap Uuid OfferRecord
  cancelledJobs : Finset Uuid
  jobEventSequences : HashMap Uuid Nat

def Ledger.empty : Ledger := ⟨∅, ∅, ∅, ∅, ∅⟩

structure EngineSnapshot extends Ledger where
  h3Resolution : Nat
  walSequence : Nat

/-- The JSON values that event kinds and filter kinds serialize to. -/
inductive Json where
  | text (value : String)
  | uuid (value : Uuid)
  | variant (tag : String) (fields : List (String × Json))

structure StoredJobEvent where
  sequence : Nat
  occurredAt : DateTime
  kindJson : Json

structure EventCursor where
  occurredAt : DateTime
  sequence : Nat
  deriving DecidableEq, Repr

def maxItems (limit : Nat) : Nat := if limit = 0 then 50 else limit

/-- `trait StorageBackend`.  A backend is changed through a shared reference, so
    a method that writes also returns the backend it leaves behind. -/
class StorageBackend (β : Type) where
  /-- Append a command to the write-ahead log. Called before applying it. -/
  appendWal : β → Nat → Command → Except StorageError Unit × β
  writeSnapshot : β → EngineSnapshot → Except StorageError Unit × β
  /-- The latest snapshot, if any. -/
  loadSnapshot : β → Except StorageError (Option EngineSnapshot)
  /-- Entries after the given sequence number, ascending. -/
  loadWalAfter : β → Nat → Except StorageError (List (Nat × Command))
  /-- Delete entries up to and including the given sequence number. -/
  compactWal : β → Nat → Except StorageError Unit × β
  appendJobEvent : β → Uuid → StoredJobEvent → Except StorageError Unit × β
  /-- Newest first, at most `limit` events, those before the cursor.  The instant is
      what the clock shows, should a stored time be unreadable. -/
  queryJobEvents : β → Uuid → Nat → Option EventCursor → Option (List Json) → DateTime →
    Except StorageError (List StoredJobEvent)
  isPersistent : β → Bool

/-- What the trait documents, for a persistent backend: its contents and what the
    methods do to them.  Appending asks for a sequence number above those in the log,
    a snapshot is the latest when it is no older than the one before. -/
class LawfulBackend (β : Type) [StorageBackend β] where
  snapshot : β → Option EngineSnapshot
  wal : β → List (Nat × Command)
  /-- Sequence numbers and kinds of a job's stored events, in ascending order. -/
  events : β → Uuid → List (Nat × Json)
  isPersistent_eq : ∀ store : β, StorageBackend.isPersistent store = true
  loadSnapshot_eq : ∀ store : β, StorageBackend.loadSnapshot store = .ok (snapshot store)
  loadWalAfter_eq : ∀ (store : β) seq, StorageBackend.loadWalAfter store seq =
    .ok ((wal store).filter fun entry => seq < entry.1)
  appendWal_spec : ∀ (store : β) seq cmd, (∀ entry ∈ wal store, entry.1 < seq) →
    ∃ store', StorageBackend.appendWal store seq cmd = (.ok (), store') ∧
      snapshot store' = snapshot store ∧ wal store' = wal store ++ [(seq, cmd)] ∧
      events store' = events store
  writeSnapshot_spec : ∀ (store : β) snap,
    (∀ old, snapshot store = some old → old.walSequence ≤ snap.walSequence) →
    ∃ store', StorageBackend.writeSnapshot store snap = (.ok (), store') ∧
      snapshot store' = some snap ∧ wal store' = wal store ∧ events store' = events store
  compactWal_spec : ∀ (store : β) seq,
    ∃ store', StorageBackend.compactWal store seq = (.ok (), store') ∧
      snapshot store' = snapshot store ∧
      wal store' = (wal store).filter (fun entry => seq < entry.1) ∧ events store' = events store
  /-- An event under a sequence number its job has used already may be refused. -/
  appendJobEvent_spec : ∀ (store : β) jobId event,
    snapshot (StorageBackend.appendJobEvent store jobId event).2 = snapshot store ∧
    wal (StorageBackend.appendJobEvent store jobId event).2 = wal store ∧
    ((∀ old ∈ events store jobId, old.1 < event.sequence) →
      events (StorageBackend.appendJobEvent store jobId event).2 =
        Function.update (events store) jobId
          (events store jobId ++ [(event.sequence, event.kindJson)]))

namespace LawfulBackend

open Foundation.WriteAheadLog

variable {β : Type} [StorageBackend β] [LawfulBackend β]

/-- The contents that recovery reads, as a disk of ledgers and commands. -/
def disk (store : β) : Disk Ledger Command where
  snapshot := (snapshot store).map fun snap => (snap.walSequence, snap.toLedger)
  log := wal store

/-! The methods, as operations on that disk. -/

theorem appendWal_disk (store : β) {seq : Nat} (cmd : Command)
    (fresh : ∀ entry ∈ (disk store).log, entry.1 < seq) :
    ∃ store', StorageBackend.appendWal store seq cmd = (.ok (), store') ∧
      disk store' = (disk store).append seq cmd ∧ events store' = events store := by
  obtain ⟨store', ok, snapshot, wal, events⟩ := appendWal_spec store seq cmd fresh
  refine ⟨store', ok, ?_, events⟩
  simp only [disk, Disk.append, snapshot, wal]

theorem writeSnapshot_disk (store : β) {snap : EngineSnapshot}
    (newest : (disk store).position ≤ snap.walSequence) :
    ∃ store', StorageBackend.writeSnapshot store snap = (.ok (), store') ∧
      disk store' = (disk store).writeSnapshot snap.walSequence snap.toLedger ∧
      events store' = events store := by
  have older : ∀ old, snapshot store = some old → old.walSequence ≤ snap.walSequence := by
    intro old latest
    simpa only [Disk.position, disk, latest, Option.map_some] using newest
  obtain ⟨store', ok, snapshot, wal, events⟩ := writeSnapshot_spec store snap older
  refine ⟨store', ok, ?_, events⟩
  simp only [disk, Disk.writeSnapshot, snapshot, wal, Option.map_some]

theorem compactWal_disk (store : β) (seq : Nat) :
    ∃ store', StorageBackend.compactWal store seq = (.ok (), store') ∧
      disk store' = (disk store).compact seq ∧ events store' = events store := by
  obtain ⟨store', ok, snapshot, wal, events⟩ := compactWal_spec store seq
  refine ⟨store', ok, ?_, events⟩
  simp only [disk, Disk.compact, snapshot, wal]

end LawfulBackend

/-- No-op backend of the fully in-memory engine. -/
structure InMemoryBackend where
  deriving DecidableEq, Repr

instance : StorageBackend InMemoryBackend where
  appendWal store _ _ := (.ok (), store)
  writeSnapshot store _ := (.ok (), store)
  loadSnapshot _ := .ok none
  loadWalAfter _ _ := .ok []
  compactWal store _ := (.ok (), store)
  appendJobEvent store _ _ := (.ok (), store)
  queryJobEvents _ _ _ _ _ _ := .ok []
  isPersistent _ := false

end Spatiad
