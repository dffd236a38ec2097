import Spatiad.AnswerFrame

/-! # What is retained of a job's events

Events change only by being pushed, so the list of a job is the end of all that was ever
pushed for it, numbered from 1 on, and no other job's events matter to it.
-/

namespace Spatiad

open Foundation

variable {β : Type} [StorageBackend β] {host : Host} {e e' e'' : Engine β}

/-- From one engine to another, with every record that was pushed on the way and the job it
    was pushed for.  Whatever else happens leaves the events and their counters alone. -/
inductive Pushing (host : Host) (e : Engine β) : List (Uuid × JobEventRecord) → Engine β → Prop where
  | start : Pushing host e [] e
  | push {made e'} (before : Pushing host e made e') (jobId : Uuid) (kind : JobEventKind) :
      Pushing host e
        (made ++ [(jobId, ⟨e'.lastSequence jobId + 1, host.clock e'.tick, kind⟩)])
        (e'.pushJobEvent host jobId kind)
  | other {made e' e''} (before : Pushing host e made e')
      (jobEvents : e''.jobEvents = e'.jobEvents)
      (sequences : e''.jobEventSequences = e'.jobEventSequences) : Pushing host e made e''

def madeFor (jobId : Uuid) (made : List (Uuid × JobEventRecord)) : List JobEventRecord :=
  (made.filter fun entry => entry.1 = jobId).map Prod.snd

theorem madeFor_push (jobId j : Uuid) (made : List (Uuid × JobEventRecord))
    (record : JobEventRecord) :
    madeFor j (made ++ [(jobId, record)]) =
      if jobId = j then madeFor j made ++ [record] else madeFor j made := by
  unfold madeFor
  rw [List.filter_append, List.map_append]
  split
  · rename_i same
    simp [same]
  · rename_i other
    simp [other]

/-! ## Every operation pushes -/

namespace Pushing

variable {made more : List (Uuid × JobEventRecord)}

theorem trans (first : Pushing host e made e') (second : Pushing host e' more e'') :
    Pushing host e (made ++ more) e'' := by
  induction second with
  | start =>
      rw [List.append_nil]
      exact first
  | push _ jobId kind ih =>
      rw [← List.append_assoc]
      exact ih.push jobId kind
  | other _ jobEvents sequences ih => exact ih.other jobEvents sequences

theorem pushJobEvents (host : Host) (e : Engine β) (jobId : Uuid) (kinds : List JobEventKind) :
    ∃ made, Pushing host e made (e.pushJobEvents host jobId kinds) := by
  apply Engine.pushJobEvents_rule (P := fun e' => ∃ made, Pushing host e made e') ⟨[], .start⟩
  rintro mid kind ⟨made, before⟩
  exact ⟨_, before.push jobId kind⟩

theorem pushes {kinds : Uuid → List JobEventKind} (pushes : e.Pushes host e' kinds) :
    ∃ made, Pushing host e made e' := by
  obtain ⟨mid, jobId, events, same, rfl, _⟩ := pushes
  obtain ⟨made, later⟩ := pushJobEvents host mid jobId events
  exact ⟨_, (Pushing.start.other same.jobEvents same.sequences).trans later⟩

theorem trace {may : Ledger → Command → Prop} {log : List Command}
    (trace : Trace host may e log e') : ∃ made, Pushing host e made e' := by
  apply trace.rule (P := fun e' => ∃ made, Pushing host e made e') ⟨[], .start⟩
  case drawn =>
    rintro mid ⟨made, before⟩
    exact ⟨made, before.other rfl rfl⟩
  case logged =>
    rintro mid cmd - - ⟨made, before⟩
    have logged : Pushing host e made (mid.logged cmd) := before.other rfl rfl
    obtain ⟨more, applied⟩ := pushes ((mid.logged cmd).applyCommand_pushes host cmd)
    exact ⟨made ++ more, logged.trans applied⟩

theorem step {activity : Activity} (taken : engineStep host e activity e') :
    ∃ made, Pushing host e made e' := by
  unfold engineStep at taken
  subst taken
  cases activity with
  | reading => exact ⟨[], .other .start rfl rfl⟩
  | mutation mutation =>
      simp only [Engine.undergo]
      apply Engine.mutate_rule (P := fun e' => ∃ made, Pushing host e made e')
      case logged => exact trace
      case written => exact fun _ _ _ => pushes (Engine.setOfferStatus_pushes host e _ _ _)
      case snapshot =>
        have ledger := e.createSnapshot_frame.1
        exact ⟨[], .other .start e.createSnapshot_jobEvents
          (congrArg Ledger.jobEventSequences ledger)⟩

theorem run {past : List Activity} (run : Run (engineStep host) anyStep e past e') :
    ∃ made, Pushing host e made e' := by
  refine run.state_invariant (fun e' => ∃ made, Pushing host e made e') ⟨[], .start⟩ ?_
  rintro mid activity e' ⟨made, before⟩ taken
  obtain ⟨more, later⟩ := step taken
  exact ⟨made ++ more, before.trans later⟩

theorem untouched (pushing : Pushing host e made e') {jobId : Uuid}
    (others : ∀ entry ∈ made, entry.1 ≠ jobId) :
    e'.jobEvents.lookup jobId = e.jobEvents.lookup jobId ∧
      e'.jobEventSequences.lookup jobId = e.jobEventSequences.lookup jobId := by
  induction pushing with
  | start => exact ⟨rfl, rfl⟩
  | @push made e' _ j kind ih =>
      have elsewhere : jobId ≠ j := (others _ (List.mem_append_right _ List.mem_cons_self)).symm
      have before := ih fun entry member => others entry (List.mem_append_left _ member)
      have adds := (pushJobEvent_adds host e' j kind).others jobId elsewhere
      exact ⟨adds.1.trans before.1, adds.2.trans before.2⟩
  | other _ jobEvents sequences ih =>
      rw [jobEvents, sequences]
      exact ih others

end Pushing

/-! ## What is left of it -/

/-- Of all that was pushed for a job the engine keeps the newest and the number. -/
structure KeepsNewest (e : Engine β) (jobId : Uuid) (pushed : List JobEventRecord) : Prop where
  retained : e.retained jobId = newest pushed
  numbered : pushed.map JobEventRecord.sequence = List.range' 1 pushed.length
  counter : e.jobEventSequences.lookup jobId =
    if pushed.length = 0 then none else some pushed.length

namespace KeepsNewest

variable {jobId : Uuid} {pushed : List JobEventRecord}

omit [StorageBackend β] in
theorem lastSequence (keeps : KeepsNewest e jobId pushed) : e.lastSequence jobId = pushed.length := by
  rw [Ledger.lastSequence, keeps.counter]
  split
  · rename_i empty
    rw [empty]
    rfl
  · rfl

theorem push (keeps : KeepsNewest e jobId pushed) (kind : JobEventKind) :
    KeepsNewest (e.pushJobEvent host jobId kind) jobId
      (pushed ++ [⟨e.lastSequence jobId + 1, host.clock e.tick, kind⟩]) where
  retained := by
    rw [(pushJobEvent_adds host e jobId kind).retained, keeps.retained, newest_append]
  numbered := by
    rw [List.map_append, keeps.numbered, List.length_append, List.length_singleton,
      List.range'_1_concat, List.map_singleton, keeps.lastSequence, Nat.add_comm 1]
  counter := by
    have count : (e.pushJobEvent host jobId kind).jobEventSequences.lookup jobId =
        some (e.lastSequence jobId + 1) := AList.lookup_insert _
    rw [count, keeps.lastSequence, List.length_append, List.length_singleton,
      if_neg (Nat.succ_ne_zero _)]

theorem of_pushing {start : Engine β} {made : List (Uuid × JobEventRecord)}
    (pushing : Pushing host start made e) (empty : KeepsNewest start jobId []) :
    KeepsNewest e jobId (madeFor jobId made) := by
  induction pushing with
  | start => exact empty
  | @push made e' _ j kind ih =>
      rw [madeFor_push]
      split
      · rename_i same
        subst same
        exact ih.push kind
      · rename_i other
        obtain ⟨jobEvents, sequences⟩ := (pushJobEvent_adds host e' j kind).others jobId (Ne.symm other)
        refine ⟨?_, ih.numbered, sequences.trans ih.counter⟩
        rw [← ih.retained, Engine.retained, jobEvents, Engine.retained]
  | @other made e' e'' _ jobEvents sequences ih =>
      refine ⟨?_, ih.numbered, by rw [sequences, ih.counter]⟩
      rw [← ih.retained, Engine.retained, jobEvents, Engine.retained]

omit [StorageBackend β] in
theorem kept (keeps : KeepsNewest e jobId pushed) :
    let n := pushed.length
    e.retained jobId = pushed.drop (n - min maxJobEvents n) ∧
      (e.retained jobId).map JobEventRecord.sequence =
        List.range' (n - min maxJobEvents n + 1) (min maxJobEvents n) := by
  intro n
  have dropped : n - min maxJobEvents n = n - maxJobEvents := by omega
  have left : n - (n - maxJobEvents) = min maxJobEvents n := by omega
  refine ⟨by rw [keeps.retained, newest, dropped], ?_⟩
  rw [keeps.retained, newest, List.map_drop, keeps.numbered, List.drop_range', Nat.mul_one]
  change List.range' (1 + (n - maxJobEvents)) (n - (n - maxJobEvents)) = _
  rw [left, dropped, Nat.add_comm]

end KeepsNewest

/-- For every job the list is the last `min 200 n` of the `n` events pushed for it, numbered
    up to `n`, which is the job's counter; and an operation that pushes only for other jobs
    leaves it as it is. -/
theorem newest_events_retained (host : Host) (h3Resolution tick : Nat) (past : List Activity)
    (e : Engine InMemoryBackend)
    (run : Run (engineStep host) anyStep (Engine.withStorage h3Resolution InMemoryBackend.mk tick)
      past e) :
    let start : Engine InMemoryBackend := Engine.withStorage h3Resolution InMemoryBackend.mk tick
    (∃ made, Pushing host start made e) ∧
    (∀ made, Pushing host start made e → ∀ jobId,
      let pushed := madeFor jobId made
      let n := pushed.length
      e.retained jobId = pushed.drop (n - min maxJobEvents n) ∧
      (e.retained jobId).map JobEventRecord.sequence =
        List.range' (n - min maxJobEvents n + 1) (min maxJobEvents n) ∧
      e.jobEventSequences.lookup jobId = if n = 0 then none else some n) ∧
    ∀ activity, (∃ made, Pushing host e made (e.undergo host activity)) ∧
      ∀ made, Pushing host e made (e.undergo host activity) → ∀ jobId,
        (∀ entry ∈ made, entry.1 ≠ jobId) →
        (e.undergo host activity).jobEvents.lookup jobId = e.jobEvents.lookup jobId := by
  intro start
  refine ⟨Pushing.run run, fun made pushing jobId => ?_, fun activity => ⟨Pushing.step rfl, ?_⟩⟩
  · have empty : KeepsNewest start jobId [] := ⟨rfl, rfl, rfl⟩
    have keeps := KeepsNewest.of_pushing pushing empty
    exact ⟨keeps.kept.1, keeps.kept.2, keeps.counter⟩
  · intro made pushing jobId others
    exact (pushing.untouched others).1

theorem undergo_run (host : Host) (e : Engine β) (activities : List Activity) :
    Run (engineStep host) anyStep e activities (activities.foldl (Engine.undergo host) e) := by
  induction activities using List.reverseRecOn with
  | nil => exact .start
  | append_singleton past activity before =>
      rw [List.foldl_append]
      exact before.next trivial rfl

/-- Of 201 registrations the first is gone. -/
theorem first_registration_dropped :
    let registrations := List.replicate 201 (Activity.mutation (.registerJob (jobAtOrigin 1)))
    let e := registrations.foldl (Engine.undergo stillHost)
      (Engine.withStorage 8 InMemoryBackend.mk 0)
    (e.retained 1).map JobEventRecord.sequence = List.range' 2 200 := by
  intro registrations e
  have run := undergo_run stillHost (Engine.withStorage 8 InMemoryBackend.mk 0) registrations
  obtain ⟨⟨made, pushing⟩, all, _⟩ := newest_events_retained stillHost 8 0 registrations e run
  obtain ⟨_, sequences, counter⟩ := all made pushing 1
  have counted : e.jobEventSequences.lookup 1 = some 201 := by decide +kernel
  rw [counted] at counter
  have length : (madeFor 1 made).length = 201 := by
    split at counter
    · cases counter
    · exact (Option.some.inj counter).symm
  rw [length] at sequences
  exact sequences

end Spatiad
