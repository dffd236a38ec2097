import Spatiad.Engine
import Spatiad.Databases
import Spatiad.Foundation.Pages

/-! # Queries of a job's events

The engine answers from its own retained events, or hands the query to a persistent
backend.  Both read the same history in the same order; only the first one looks at
the kinds that were asked for.
-/

namespace Spatiad

open Foundation

inductive JobEventFilterKind where
  | jobRegistered
  | jobCancelled
  | webhookDeliveryFailed
  | offerCreated
  | offerExpired
  | offerCancelled
  | offerRejected
  | offerAccepted
  | matchConfirmed
  | offerStatusUpdated
  deriving DecidableEq, Repr

/-- `serde_json::to_string` of a filter kind, as a JSON value. -/
def JobEventFilterKind.toJson : JobEventFilterKind → Json
  | jobRegistered => .text "JobRegistered"
  | jobCancelled => .text "JobCancelled"
  | webhookDeliveryFailed => .text "WebhookDeliveryFailed"
  | offerCreated => .text "OfferCreated"
  | offerExpired => .text "OfferExpired"
  | offerCancelled => .text "OfferCancelled"
  | offerRejected => .text "OfferRejected"
  | offerAccepted => .text "OfferAccepted"
  | matchConfirmed => .text "MatchConfirmed"
  | offerStatusUpdated => .text "OfferStatusUpdated"

def eventFilterKind : JobEventKind → JobEventFilterKind
  | .jobRegistered => .jobRegistered
  | .jobCancelled => .jobCancelled
  | .webhookDeliveryFailed _ => .webhookDeliveryFailed
  | .offerCreated _ _ => .offerCreated
  | .offerExpired _ _ => .offerExpired
  | .offerCancelled _ _ => .offerCancelled
  | .offerRejected _ _ => .offerRejected
  | .offerAccepted _ _ => .offerAccepted
  | .matchConfirmed _ _ => .matchConfirmed
  | .offerStatusUpdated _ _ => .offerStatusUpdated

structure JobEventsCursor where
  occurredAt : DateTime
  sequence : Nat
  deriving DecidableEq, Repr

namespace JobEventRecord

def beforeCursor (cursor : Option JobEventsCursor) (event : JobEventRecord) : Bool :=
  match cursor with
  | none => true
  | some value =>
      decide (event.occurredAt < value.occurredAt) ||
        event.occurredAt == value.occurredAt && decide (event.sequence < value.sequence)

/-- The event is of a requested kind; no kinds at all request every one. -/
def isRequested (kinds : Option (List JobEventFilterKind)) (event : JobEventRecord) : Bool :=
  match kinds with
  | none => true
  | some requested => requested.isEmpty || requested.contains (eventFilterKind event.kind)

end JobEventRecord

namespace Engine

variable {β : Type} [StorageBackend β] (host : Host)

/-- Stored events whose kind cannot be read are dropped, errors give no events. -/
def queryPersistentEvents (e : Engine β) (jobId : Uuid) (limit : Nat)
    (cursor : Option EventCursor) (kinds : Option (List JobEventFilterKind)) :
    List JobEventRecord :=
  let kindFilter := kinds.map fun requested => requested.map JobEventFilterKind.toJson
  match StorageBackend.queryJobEvents e.storage jobId limit cursor kindFilter
      (host.clock e.tick) with
  | .error _ => []
  | .ok stored =>
      stored.filterMap fun event =>
        (JobEventKind.fromJson event.kindJson).map fun kind =>
          ⟨event.sequence, event.occurredAt, kind⟩

def jobEventsCursorFiltered (e : Engine β) (jobId : Uuid) (limit : Nat)
    (cursor : Option JobEventsCursor) (kinds : Option (List JobEventFilterKind)) :
    List JobEventRecord :=
  if StorageBackend.isPersistent e.storage then
    let storageCursor := cursor.map fun c => ⟨c.occurredAt, c.sequence⟩
    e.queryPersistentEvents host jobId limit storageCursor kinds
  else
    match e.jobEvents.lookup jobId with
    | none => []
    | some events =>
        ((events.reverse.filter (JobEventRecord.beforeCursor cursor)).filter
          (JobEventRecord.isRequested kinds)).take (maxItems limit)

def pushAll (e : Engine β) (pushes : List (Uuid × JobEventKind)) : Engine β :=
  pushes.foldl (fun e (jobId, kind) => e.pushJobEvent host jobId kind) e

end Engine

/-! ## The history of a job -/

/-- What was pushed for one job by a sequence of pushes that began at this tick, when
    the job had so many events already. -/
def jobHistory (host : Host) (jobId : Uuid) (tick sequence : Nat) :
    List (Uuid × JobEventKind) → List JobEventRecord
  | [] => []
  | (j, kind) :: rest =>
      if j = jobId then
        ⟨sequence + 1, host.clock tick, kind⟩ :: jobHistory host jobId (tick + 1) (sequence + 1) rest
      else jobHistory host jobId (tick + 1) sequence rest

theorem jobHistory_sequences (host : Host) (jobId : Uuid) (tick sequence : Nat)
    (pushes : List (Uuid × JobEventKind)) :
    (jobHistory host jobId tick sequence pushes).Pairwise (fun a b => a.sequence < b.sequence) ∧
      ∀ event ∈ jobHistory host jobId tick sequence pushes, sequence < event.sequence ∧
        event.sequence ≤ sequence + (jobHistory host jobId tick sequence pushes).length := by
  induction pushes generalizing tick sequence with
  | nil => simp [jobHistory]
  | cons push rest ih =>
      obtain ⟨j, kind⟩ := push
      simp only [jobHistory]
      split
      · obtain ⟨ascending, range⟩ := ih (tick + 1) (sequence + 1)
        refine ⟨List.pairwise_cons.mpr ⟨fun event member => (range event member).1, ascending⟩, ?_⟩
        intro event member
        rw [List.length_cons]
        rcases List.mem_cons.mp member with rfl | later
        · constructor <;> dsimp only <;> omega
        · have bounds := range event later
          omega
      · exact ih (tick + 1) sequence

def JobEventRecord.row (d : Dialect) (event : JobEventRecord) : Nat × JobEventRow d :=
  (event.sequence, ⟨d.encode event.occurredAt, event.kind.toJson⟩)

section pushes

variable {host : Host} {jobId : Uuid}

def Ledger.lastSequence (s : Ledger) (jobId : Uuid) : Nat :=
  (s.jobEventSequences.lookup jobId).getD 0

theorem lastSequence_push {β : Type} [StorageBackend β] (e : Engine β) (j : Uuid)
    (kind : JobEventKind) : (e.pushJobEvent host j kind).lastSequence jobId =
      if j = jobId then e.lastSequence jobId + 1 else e.lastSequence jobId := by
  simp only [Ledger.lastSequence, Engine.pushJobEvent, HashMap.lookup_insert_if, eq_comm]
  split
  · rename_i same
    rw [same]
    rfl
  · rfl

theorem pushAll_retains {β : Type} [StorageBackend β] (e : Engine β)
    (pushes : List (Uuid × JobEventKind))
    (short : ((e.jobEvents.lookup jobId).getD []).length +
      (jobHistory host jobId e.tick (e.lastSequence jobId) pushes).length ≤ maxJobEvents) :
    ((e.pushAll host pushes).jobEvents.lookup jobId).getD [] =
      (e.jobEvents.lookup jobId).getD [] ++
        jobHistory host jobId e.tick (e.lastSequence jobId) pushes := by
  induction pushes generalizing e with
  | nil => simp [Engine.pushAll, jobHistory]
  | cons push rest ih =>
      obtain ⟨j, kind⟩ := push
      have later := ih (e.pushJobEvent host j kind)
      have ticks : (e.pushJobEvent host j kind).tick = e.tick + 1 := rfl
      rw [ticks, lastSequence_push] at later
      simp only [jobHistory] at short ⊢
      by_cases same : j = jobId
      · subst same
        have pushed : ((e.pushJobEvent host j kind).jobEvents.lookup j).getD [] =
            (e.jobEvents.lookup j).getD [] ++
              [⟨e.lastSequence j + 1, host.clock e.tick, kind⟩] := by
          simp only [if_true, List.length_cons] at short
          let entries := (e.jobEvents.lookup j).getD [] ++
            [(⟨e.lastSequence j + 1, host.clock e.tick, kind⟩ : JobEventRecord)]
          have inserted : (e.pushJobEvent host j kind).jobEvents =
              e.jobEvents.insert j (entries.drop (entries.length - maxJobEvents)) := rfl
          have room : entries.length - maxJobEvents = 0 := by
            rw [List.length_append, List.length_singleton]
            omega
          rw [inserted, room, AList.lookup_insert]
          rfl
        simp only [if_true, List.length_cons] at short later ⊢
        rw [pushed, List.length_append, List.length_singleton] at later
        have rest := later (by omega)
        rw [List.append_assoc] at rest
        exact rest
      · have kept : (e.pushJobEvent host j kind).jobEvents.lookup jobId =
            e.jobEvents.lookup jobId := by
          simp only [Engine.pushJobEvent, HashMap.lookup_insert_if, if_neg (Ne.symm same)]
        rw [kept] at later
        simp only [if_neg same] at short later ⊢
        exact later short

theorem pushAll_stores {d : Dialect} (e : Engine (SqlBackend d))
    (pushes : List (Uuid × JobEventKind))
    (used : ∀ row ∈ e.storage.jobRows jobId, row.1 ≤ e.lastSequence jobId) :
    (e.pushAll host pushes).storage.jobRows jobId = e.storage.jobRows jobId ++
      (jobHistory host jobId e.tick (e.lastSequence jobId) pushes).map
        (JobEventRecord.row d) := by
  induction pushes generalizing e with
  | nil => simp [Engine.pushAll, jobHistory]
  | cons push rest ih =>
      obtain ⟨j, kind⟩ := push
      have later := ih (e.pushJobEvent host j kind)
      have ticks : (e.pushJobEvent host j kind).tick = e.tick + 1 := rfl
      rw [ticks, lastSequence_push] at later
      have stores : (e.pushJobEvent host j kind).storage =
          (e.storage.appendJobEvent j ⟨e.lastSequence j + 1, host.clock e.tick, kind.toJson⟩).2 :=
        rfl
      rw [stores] at later
      simp only [jobHistory]
      by_cases same : j = jobId
      · subst same
        simp only [if_true] at later ⊢
        have appended := e.storage.jobRows_append j
          ⟨e.lastSequence j + 1, host.clock e.tick, kind.toJson⟩
          fun row member => Nat.lt_succ_of_le (used row member)
        rw [appended] at later
        have rest := later (by
          intro row member
          rcases List.mem_append.mp member with old | new
          · exact Nat.le_succ_of_le (used row old)
          · rw [List.mem_singleton.mp new])
        rw [List.append_assoc] at rest
        exact rest
      · rw [SqlBackend.jobRows_append_other _ _ (Ne.symm same)] at later
        simp only [if_neg same] at later ⊢
        exact later used

end pushes

end Spatiad
