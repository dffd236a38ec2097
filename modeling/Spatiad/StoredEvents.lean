import Spatiad.CommandEvents
import Spatiad.CrashRuns

/-! # What a process stores of its events

Events are pushed under consecutive numbers of their job, and the primary key
drops those that are there already.  A process that dies stores the first of them.
-/

namespace Spatiad

open Foundation WriteAheadLog StorageBackend

/-- The primary key of the events: a number that its job has used is refused. -/
class KeyedEvents (β : Type) [StorageBackend β] [LawfulBackend β] : Prop where
  append_used : ∀ (store : β) jobId event,
    (∃ old ∈ LawfulBackend.events store jobId, old.1 = event.sequence) →
    LawfulBackend.events (appendJobEvent store jobId event).2 = LawfulBackend.events store

instance (d : Dialect) : KeyedEvents (SqlBackend d) where
  append_used store jobId event := by
    rintro ⟨old, member, same⟩
    obtain ⟨listed, inRows, rfl⟩ := List.mem_map.mp member
    obtain ⟨row, selected, rfl⟩ := List.mem_map.mp inRows
    obtain ⟨inTable, ofJob⟩ := List.mem_filter.mp selected
    have key : row.1 = toLex (jobId, event.sequence) := by
      rw [← same, ← eq_of_beq ofJob]
      rfl
    have used : toLex (jobId, event.sequence) ∈ store.jobEvents.keys :=
      List.mem_map.mpr ⟨row, inTable, key⟩
    simp only [appendJobEvent, SqlBackend.appendJobEvent, Table.insert, if_pos used]

section storing

variable {β : Type} [StorageBackend β] [LawfulBackend β]

/-- The events of each job are these, numbered from one. -/
def StoredAs (store : β) (kinds : Uuid → List JobEventKind) : Prop :=
  ∀ j, LawfulBackend.events store j = number 0 ((kinds j).map JobEventKind.toJson)

theorem StoredAs.unique {store : β} {kinds kinds' : Uuid → List JobEventKind}
    (stored : StoredAs store kinds) (stored' : StoredAs store kinds') : kinds = kinds' := by
  have injective : Function.Injective JobEventKind.toJson := by
    intro a b same
    have read := congrArg JobEventKind.fromJson same
    rw [JobEventKind.fromJson_toJson, JobEventKind.fromJson_toJson] at read
    exact Option.some.inj read
  funext j
  have same := congrArg (List.map Prod.snd) ((stored j).symm.trans (stored' j))
  rw [map_number, map_number] at same
  exact List.map_injective_iff.mpr injective same

theorem StoredAs.append [KeyedEvents β] {store : β} {kinds : Uuid → List JobEventKind}
    (stored : StoredAs store kinds) {jobId : Uuid} {n : Nat} (reached : n ≤ (kinds jobId).length)
    (kind : JobEventKind) (now : DateTime) :
    StoredAs (appendJobEvent store jobId ⟨n + 1, now, kind.toJson⟩).2
      (Function.update kinds jobId (firstWrite (kinds jobId) n kind)) := by
  have length : ((kinds jobId).map JobEventKind.toJson).length = (kinds jobId).length :=
    List.length_map _
  intro j
  unfold firstWrite
  by_cases used : n < (kinds jobId).length
  · obtain ⟨old, member, numbered⟩ := @number_used Json 0 n _ (length ▸ used)
    have inUse : old.1 = n + 1 := by omega
    rw [if_pos used, Function.update_eq_self, KeyedEvents.append_used store jobId]
    · exact stored j
    · exact ⟨old, stored jobId ▸ member, inUse⟩
  · have last : n = (kinds jobId).length := by omega
    have fresh : ∀ old ∈ LawfulBackend.events store jobId, old.1 < n + 1 := by
      intro old member
      rw [stored jobId] at member
      have bound := (number_above member).2
      omega
    obtain ⟨_, _, stores⟩ :=
      LawfulBackend.appendJobEvent_spec store jobId ⟨n + 1, now, kind.toJson⟩
    rw [stores fresh, if_neg used]
    by_cases same : j = jobId
    · subst same
      rw [Function.update_self, Function.update_self, stored, List.map_append, number_append,
        length, ← last, Nat.zero_add]
      rfl
    · rw [Function.update_of_ne same, Function.update_of_ne same]
      exact stored j

end storing

/-! ## Pushing on a backend that may die -/

section pushing

variable {β : Type} [StorageBackend β] [LawfulBackend β] {host : Host}
variable {e : Engine (Crashing β)} {kinds : Uuid → List JobEventKind}

theorem Crashing.appendWal_events {d : Crashing β} {seq : Nat} (cmd : Command)
    (fresh : ∀ entry ∈ LawfulBackend.wal d.backend, entry.1 < seq) :
    LawfulBackend.events (appendWal d seq cmd).2.backend = LawfulBackend.events d.backend := by
  obtain ⟨store, ok, _, events⟩ := LawfulBackend.appendWal_disk d.backend cmd fresh
  by_cases dead : d.callsLeft = some 0
  · rw [Crashing.appendWal_dead dead]
  · simp only [appendWal, call, dead, if_false, ok, note]
    exact events

namespace Engine

omit [LawfulBackend β] in
theorem pushJobEvents_dead (dead : e.storage.callsLeft = some 0) (jobId : Uuid)
    (events : List JobEventKind) : (e.pushJobEvents host jobId events).storage = e.storage := by
  refine @pushJobEvents_storage _ _ host e (fun d => d = e.storage) ?_ rfl jobId events
  rintro _ jobId event rfl
  simp only [appendJobEvent, Crashing.call, dead, if_true]

theorem pushJobEvent_stored [KeyedEvents β] (alive : e.storage.callsLeft ≠ some 0)
    (stored : StoredAs e.storage.backend kinds) {jobId : Uuid}
    (reached : e.counted jobId ≤ (kinds jobId).length) (kind : JobEventKind) :
    StoredAs (e.pushJobEvent host jobId kind).storage.backend
      (Function.update kinds jobId (firstWrite (kinds jobId) (e.counted jobId) kind)) := by
  have persistent : isPersistent e.storage = true := LawfulBackend.isPersistent_eq e.storage.backend
  simp only [pushJobEvent, persistent, if_true, appendJobEvent, Crashing.call, alive, if_false]
  exact stored.append reached kind (host.clock e.tick)

/-- Events are pushed under consecutive numbers, until the process dies. -/
theorem pushJobEvents_stored [KeyedEvents β] (stored : StoredAs e.storage.backend kinds)
    {jobId : Uuid} (reached : e.counted jobId ≤ (kinds jobId).length)
    (events : List JobEventKind) :
    ∃ q, StoredAs (e.pushJobEvents host jobId events).storage.backend (Function.update kinds jobId
        (firstWrites (kinds jobId) (e.counted jobId) (events.take q))) ∧
      ((e.pushJobEvents host jobId events).storage.callsLeft ≠ some 0 → events.length ≤ q) := by
  induction events generalizing e kinds with
  | nil =>
      refine ⟨0, ?_, fun _ => Nat.le_refl 0⟩
      rw [List.take_nil, firstWrites, Function.update_eq_self]
      exact stored
  | cons kind events ih =>
      by_cases dead : e.storage.callsLeft = some 0
      · refine ⟨0, ?_, ?_⟩
        · rw [pushJobEvents_dead dead, List.take_zero, firstWrites, Function.update_eq_self]
          exact stored
        · rw [pushJobEvents_dead dead]
          exact fun alive => absurd dead alive
      · let e₁ := e.pushJobEvent host jobId kind
        have counted : e₁.counted jobId = e.counted jobId + 1 := by
          have pushed := Ledger.counted_pushEvents e.toLedger jobId jobId 1
          rw [if_pos rfl] at pushed
          exact pushed
        have first : StoredAs e₁.storage.backend _ := pushJobEvent_stored dead stored reached kind
        have reached₁ : e₁.counted jobId ≤ (Function.update kinds jobId
            (firstWrite (kinds jobId) (e.counted jobId) kind) jobId).length := by
          rw [counted, Function.update_self]
          exact length_firstWrite reached kind
        obtain ⟨q, rest, all⟩ := ih first reached₁
        rw [Function.update_self, Function.update_idem, counted] at rest
        exact ⟨q + 1, rest, fun alive => Nat.succ_le_succ (all alive)⟩

theorem applyCommand_stored [KeyedEvents β] (stored : StoredAs e.storage.backend kinds)
    (reached : ∀ j, e.counted j ≤ (kinds j).length) (cmd : Command) :
    ∃ q, StoredAs (e.applyCommand host cmd).storage.backend (fun j =>
        firstWrites (kinds j) (e.counted j) ((e.emitted (host.order e.tick) cmd j).take q)) ∧
      ((e.applyCommand host cmd).storage.callsLeft ≠ some 0 →
        ∀ j, (e.emitted (host.order e.tick) cmd j).length ≤ q) := by
  obtain ⟨mid, jobId, events, same, after, kinds_eq⟩ := e.applyCommand_pushes host cmd
  have counted : mid.counted = e.counted := by
    funext j
    rw [Ledger.counted, same.sequences, Ledger.counted]
  have midStored : StoredAs mid.storage.backend kinds := by
    rw [same.storage]
    exact stored
  obtain ⟨q, pushed, all⟩ :=
    @pushJobEvents_stored _ _ _ host mid kinds _ midStored jobId (counted ▸ reached jobId) events
  rw [after, kinds_eq]
  refine ⟨q, ?_, fun alive j => ?_⟩
  · have written : (fun j => firstWrites (kinds j) (e.counted j) ((only jobId events j).take q)) =
        Function.update kinds jobId
          (firstWrites (kinds jobId) (mid.counted jobId) (events.take q)) := by
      funext j
      unfold only
      by_cases ofJob : j = jobId
      · subst ofJob
        rw [if_pos rfl, Function.update_self, counted]
      · rw [if_neg ofJob, Function.update_of_ne ofJob, List.take_nil, firstWrites]
    rw [written]
    exact pushed
  · unfold only
    split
    · exact all alive
    · exact Nat.zero_le q

end Engine

end pushing

end Spatiad
