import Spatiad.AnswerFrame
import Spatiad.Deployment

/-! # Events outlive the servers

The rows of a job's events are numbered from 1 on, in the order of their times, and there
is never one less.  Recovery pushes again what the log says, and the numbers that are in
use turn it down; what is new goes to the end.
-/

namespace Spatiad

open Foundation StorageBackend

/-! ## What is done to an engine -/

section engines

variable {β : Type} [StorageBackend β] {host : Host} {P : Engine β → Prop} {e e' : Engine β}

/-- Everything that is done to an engine is made of this, and a property is kept by it. -/
structure Engine.Kept (host : Host) (P : Engine β → Prop) : Prop where
  draws : ∀ e, P e → P e.drawn
  maps : ∀ e mid, e.SameEvents mid → P e → P mid
  moves : ∀ e seq, P e → P { e with walSequence := seq }
  pushes : ∀ e jobId kind, P e → P (e.pushJobEvent host jobId kind)
  logs : ∀ e cmd, P e → P (e.logged cmd)
  snapshots : ∀ e, P e → P e.createSnapshot.1

namespace Engine.Kept

theorem applyCommand (kept : Engine.Kept host P) (held : P e) (cmd : Command) :
    P (e.applyCommand host cmd) := by
  obtain ⟨mid, jobId, events, same, pushed, _⟩ := e.applyCommand_pushes host cmd
  rw [pushed]
  exact pushJobEvents_rule (kept.maps e mid same held)
    (fun mid kind held => kept.pushes mid jobId kind held) events

theorem perform (kept : Engine.Kept host P) (sound : Sound host e) (held : P e) (op : Op) :
    P (perform host e op).1 := by
  obtain ⟨log, trace⟩ := perform_trace sound.keyed sound.ids op
  apply trace.rule held
  case drawn => exact kept.draws
  case logged => exact fun e cmd _ _ held => kept.applyCommand (kept.logs e cmd held) cmd

theorem touches (kept : Engine.Kept host P) (sound : Sound host e) (touched : e.Touches host e')
    (held : P e) : P e' := by
  cases touched with
  | kept => exact held
  | draws => exact kept.draws e held
  | snapshot => exact kept.snapshots e held
  | performs op => exact kept.perform sound held op
  | drawsAndPerforms op =>
      exact kept.perform (GoesOn.drawn sound).sound (kept.draws e held) op

theorem recover (kept : Engine.Kept host P) {h3Resolution tick : Nat} {storage : β}
    (recovered : Engine.recover host h3Resolution storage tick = .ok e)
    (base : ∀ snapshot, loadSnapshot storage = .ok snapshot →
      P (restored host h3Resolution snapshot storage tick)) : P e :=
  recover_rule recovered base fun e cmd seq held =>
    kept.moves (e.applyCommand host cmd) seq (kept.applyCommand held cmd)

end Engine.Kept

end engines

/-! ## Rows of a database -/

namespace SqlBackend

variable {d : Dialect}

/-- An event under a number that its job has used is turned down. -/
theorem appendJobEvent_used (store : SqlBackend d) {jobId : Uuid} {event : StoredJobEvent}
    (used : event.sequence ∈ (store.jobRows jobId).map Prod.fst) :
    (store.appendJobEvent jobId event).2 = store := by
  obtain ⟨_, listed, same⟩ := List.mem_map.mp used
  obtain ⟨row, selected, rfl⟩ := List.mem_map.mp listed
  obtain ⟨inTable, ofJob⟩ := List.mem_filter.mp selected
  have key : row.1 = toLex (jobId, event.sequence) := by
    rw [← same, ← eq_of_beq ofJob]
    rfl
  have inUse : toLex (jobId, event.sequence) ∈ store.jobEvents.keys :=
    List.mem_map.mpr ⟨row, inTable, key⟩
  simp only [appendJobEvent, Table.insert, if_pos inUse]

theorem appendJobEvent_snapshots (store : SqlBackend d) (jobId : Uuid) (event : StoredJobEvent) :
    (store.appendJobEvent jobId event).2.snapshots = store.snapshots := by
  unfold appendJobEvent
  split <;> rfl

theorem appendWal_frame (store : SqlBackend d) (seq : Nat) (cmd : Command) :
    (store.appendWal seq cmd).2.jobEvents = store.jobEvents ∧
      (store.appendWal seq cmd).2.snapshots = store.snapshots := by
  unfold appendWal
  split <;> exact ⟨rfl, rfl⟩

end SqlBackend

theorem Crashing.appendWal_frame {d : Dialect} (s : Crashing (SqlBackend d)) (seq : Nat)
    (cmd : Command) :
    let s' := (appendWal s seq cmd).2
    s'.backend.jobEvents = s.backend.jobEvents ∧ s'.backend.snapshots = s.backend.snapshots ∧
      (s'.callsLeft ≠ some 0 → s.callsLeft ≠ some 0) := by
  have noted : ∀ result : Except StorageError Unit × Crashing (SqlBackend d),
      (note seq cmd result).2.backend = result.2.backend ∧
        (note seq cmd result).2.callsLeft = result.2.callsLeft := by
    rintro ⟨_ | ⟨⟨⟩⟩, s'⟩ <;> exact ⟨rfl, rfl⟩
  obtain ⟨backend, callsLeft⟩ := noted (s.call fun store => appendWal store seq cmd)
  intro s'
  have backend : s'.backend = (s.call fun store => appendWal store seq cmd).2.backend := backend
  have callsLeft : s'.callsLeft = (s.call fun store => appendWal store seq cmd).2.callsLeft :=
    callsLeft
  rw [backend, callsLeft, call]
  split
  · exact ⟨rfl, rfl, id⟩
  · rename_i alive
    obtain ⟨events, snapshots⟩ := s.backend.appendWal_frame seq cmd
    exact ⟨events, snapshots, fun _ => alive⟩

/-- What storage does to write a snapshot leaves the events and the other snapshots. -/
structure KeepsEvents {d : Dialect} (snapshot : EngineSnapshot)
    (before after : Crashing (SqlBackend d)) : Prop where
  events : after.backend.jobEvents = before.backend.jobEvents
  alive : after.callsLeft ≠ some 0 → before.callsLeft ≠ some 0
  snapshots : ∀ row ∈ after.backend.snapshots.rows, row ∈ before.backend.snapshots.rows ∨
    before.callsLeft ≠ some 0 ∧ row.2 = snapshot

theorem KeepsEvents.createSnapshot {d : Dialect} (e : Engine (Crashing (SqlBackend d))) :
    KeepsEvents e.toSnapshot e.storage e.createSnapshot.1.storage := by
  have dying : ∀ s : Crashing (SqlBackend d), s.callsLeft = some 0 →
      s.callsLeft.map (· - 1) = some 0 := by
    intro s dead
    rw [dead]
    rfl
  have written : KeepsEvents e.toSnapshot e.storage (writeSnapshot e.storage e.toSnapshot).2 := by
    simp only [writeSnapshot, Crashing.call]
    split
    · exact ⟨rfl, id, fun _ => .inl⟩
    · rename_i alive
      refine ⟨rfl, fun _ => alive, fun row member => ?_⟩
      cases Table.mem_upsert (Table.mem_newest member) with
      | inl new => exact .inr ⟨alive, by rw [new]⟩
      | inr old => exact .inl old
  have compacted : ∀ storage seq, KeepsEvents e.toSnapshot e.storage storage →
      KeepsEvents e.toSnapshot e.storage (compactWal storage seq).2 := by
    intro storage seq kept
    simp only [compactWal, Crashing.call]
    split
    · exact kept
    · rename_i alive
      exact ⟨kept.events, fun _ => kept.alive alive, kept.snapshots⟩
  unfold Engine.createSnapshot
  generalize writeSnapshot e.storage e.toSnapshot = result at written
  obtain ⟨_ | ⟨⟨⟩⟩, storage⟩ := result
  · exact written
  · have compacted := compacted storage e.walSequence written
    simp only
    generalize compactWal storage e.walSequence = result at compacted
    obtain ⟨_ | ⟨⟨⟩⟩, storage⟩ := result <;> exact compacted

/-- The rows of each job are its events, numbered from 1 on in the order of their times;
    what reaches the database, and what is recovered from a snapshot, counts no further. -/
structure FiledAs {d : Dialect} (host : Host) (e : Engine (Crashing (SqlBackend d)))
    (log : Uuid → List JobEventRecord) : Prop where
  rows : ∀ j, e.storage.backend.jobRows j = (log j).map (JobEventRecord.row d)
  numbered : ∀ j, (log j).map JobEventRecord.sequence = List.range' 1 (log j).length
  nondecreasing : ∀ j, (log j).Pairwise fun a b => a.occurredAt ≤ b.occurredAt
  stamped : ∀ j, ∀ event ∈ log j, ∃ n < e.tick, event.occurredAt = host.clock n
  reached : e.storage.callsLeft ≠ some 0 → ∀ j, e.lastSequence j ≤ (log j).length
  saved : ∀ row ∈ e.storage.backend.snapshots.rows, ∀ j, row.2.lastSequence j ≤ (log j).length

namespace FiledAs

variable {d : Dialect} {host : Host} {e e' : Engine (Crashing (SqlBackend d))}
  {log : Uuid → List JobEventRecord}

theorem frame (filed : FiledAs host e log)
    (events : e'.storage.backend.jobEvents = e.storage.backend.jobEvents)
    (later : e.tick ≤ e'.tick)
    (reached : e'.storage.callsLeft ≠ some 0 → ∀ j, e'.lastSequence j ≤ (log j).length)
    (saved : ∀ row ∈ e'.storage.backend.snapshots.rows, ∀ j,
      row.2.lastSequence j ≤ (log j).length) :
    FiledAs host e' log where
  rows j := by
    rw [← filed.rows j, SqlBackend.jobRows, events, SqlBackend.jobRows]
  numbered := filed.numbered
  nondecreasing := filed.nondecreasing
  stamped j event member := by
    obtain ⟨n, early, stamp⟩ := filed.stamped j event member
    exact ⟨n, early.trans_le later, stamp⟩
  reached := reached
  saved := saved

theorem mem_numbers (filed : FiledAs host e log) {j : Uuid} {n : Nat} :
    n ∈ (e.storage.backend.jobRows j).map Prod.fst ↔ 1 ≤ n ∧ n ≤ (log j).length := by
  have numbers : (e.storage.backend.jobRows j).map Prod.fst =
      (log j).map JobEventRecord.sequence := by
    rw [filed.rows j, List.map_map]
    rfl
  rw [numbers, filed.numbered j, List.mem_range'_1]
  omega

/-- An event under the next number goes to the end. -/
theorem append (filed : FiledAs host e log) (monotone : Monotone host.clock) {jobId : Uuid}
    {kind : JobEventKind} (next : e.lastSequence jobId = (log jobId).length)
    (backend : e'.storage.backend = (e.storage.backend.appendJobEvent jobId
      ⟨e.lastSequence jobId + 1, host.clock e.tick, kind.toJson⟩).2)
    (later : e.tick < e'.tick) (counters : ∀ j, e'.lastSequence j =
      if jobId = j then e.lastSequence j + 1 else e.lastSequence j)
    (reached : ∀ j, e.lastSequence j ≤ (log j).length) :
    FiledAs host e' (Function.update log jobId
      (log jobId ++ [⟨e.lastSequence jobId + 1, host.clock e.tick, kind⟩])) := by
  -- what is to be shown of every job is shown of this one and of the others
  have split := @Function.forall_update_iff _ _ _ log jobId
    (log jobId ++ [⟨e.lastSequence jobId + 1, host.clock e.tick, kind⟩])
  constructor
  case rows =>
    refine (split fun j events => _ = events.map (JobEventRecord.row d)).mpr ⟨?_, fun j other => ?_⟩
    · have fresh : ∀ row ∈ e.storage.backend.jobRows jobId, row.1 < e.lastSequence jobId + 1 := by
        intro row member
        have number := filed.mem_numbers.mp (List.mem_map_of_mem member)
        omega
      rw [List.map_append, ← filed.rows jobId, backend]
      exact SqlBackend.jobRows_append _ jobId _ fresh
    · rw [← filed.rows j, backend]
      exact SqlBackend.jobRows_append_other _ _ other
  case numbered =>
    refine (split fun _ events => events.map JobEventRecord.sequence =
      List.range' 1 events.length).mpr ⟨?_, fun j _ => filed.numbered j⟩
    rw [List.map_append, filed.numbered jobId, List.length_append, List.length_singleton,
      List.range'_1_concat, List.map_singleton, next, Nat.add_comm 1]
  case nondecreasing =>
    refine (split fun _ events => events.Pairwise fun a b => a.occurredAt ≤ b.occurredAt).mpr
      ⟨?_, fun j _ => filed.nondecreasing j⟩
    rw [List.pairwise_append]
    refine ⟨filed.nondecreasing jobId, List.pairwise_singleton _ _, fun old member new last => ?_⟩
    obtain ⟨n, early, stamp⟩ := filed.stamped jobId old member
    rw [List.mem_singleton.mp last, stamp]
    exact monotone early.le
  case stamped =>
    have before : ∀ j, ∀ event ∈ log j, ∃ n < e'.tick, event.occurredAt = host.clock n := by
      intro j event member
      obtain ⟨n, early, stamp⟩ := filed.stamped j event member
      exact ⟨n, early.trans later, stamp⟩
    refine (split fun _ events => ∀ event ∈ events, ∃ n < e'.tick,
      event.occurredAt = host.clock n).mpr ⟨fun event member => ?_, fun j _ => before j⟩
    cases List.mem_append.mp member with
    | inl old => exact before jobId event old
    | inr new => exact ⟨e.tick, later, by rw [List.mem_singleton.mp new]⟩
  case reached =>
    intro _
    refine (split fun j events => e'.lastSequence j ≤ events.length).mpr ⟨?_, fun j other => ?_⟩
    · rw [counters jobId, if_pos rfl, List.length_append, List.length_singleton, next]
    · rw [counters j, if_neg (Ne.symm other)]
      exact reached j
  case saved =>
    rw [backend, SqlBackend.appendJobEvent_snapshots]
    intro row member
    refine (split fun j events => row.2.lastSequence j ≤ events.length).mpr
      ⟨?_, fun j _ => filed.saved row member j⟩
    rw [List.length_append]
    exact (filed.saved row member jobId).trans (Nat.le_add_right _ _)

/-- An event is pushed: to no effect, under a number in use, or to the end. -/
theorem push (filed : FiledAs host e log) (monotone : Monotone host.clock) (jobId : Uuid)
    (kind : JobEventKind) :
    ∃ log', FiledAs host (e.pushJobEvent host jobId kind) log' ∧ ∀ j, log j <+: log' j := by
  let event : StoredJobEvent := ⟨e.lastSequence jobId + 1, host.clock e.tick, kind.toJson⟩
  have storage : (e.pushJobEvent host jobId kind).storage =
      (e.storage.call fun store => appendJobEvent store jobId event).2 := rfl
  have counters : ∀ j, (e.pushJobEvent host jobId kind).lastSequence j =
      if jobId = j then e.lastSequence j + 1 else e.lastSequence j :=
    fun j => lastSequence_push e jobId kind
  have later : e.tick < (e.pushJobEvent host jobId kind).tick := Nat.lt_succ_self _
  generalize e.pushJobEvent host jobId kind = e' at *
  by_cases dead : e.storage.callsLeft = some 0
  · have same : e'.storage = e.storage := by rw [storage, Crashing.call, if_pos dead]
    refine ⟨log, filed.frame (by rw [same]) later.le ?_ (by rw [same]; exact filed.saved),
      fun _ => List.prefix_rfl⟩
    rw [same]
    exact fun alive => absurd dead alive
  · have reached := filed.reached dead
    have backend : e'.storage.backend = (e.storage.backend.appendJobEvent jobId event).2 := by
      rw [storage, Crashing.call, if_neg dead]
      rfl
    by_cases used : e.lastSequence jobId < (log jobId).length
    · have inUse : event.sequence ∈ (e.storage.backend.jobRows jobId).map Prod.fst :=
        filed.mem_numbers.mpr ⟨Nat.le_add_left 1 _, used⟩
      rw [SqlBackend.appendJobEvent_used _ inUse] at backend
      refine ⟨log, filed.frame (by rw [backend]) later.le (fun _ j => ?_)
        (by rw [backend]; exact filed.saved), fun _ => List.prefix_rfl⟩
      rw [counters]
      split
      · rename_i same
        rw [← same]
        exact used
      · exact reached j
    · have next : e.lastSequence jobId = (log jobId).length :=
        le_antisymm (reached jobId) (Nat.le_of_not_lt used)
      refine ⟨_, filed.append monotone next backend later counters reached, fun j => ?_⟩
      rw [Function.update_apply]
      split
      · rename_i same
        rw [same]
        exact List.prefix_append _ _
      · exact List.prefix_rfl

theorem snapshot (filed : FiledAs host e log) : FiledAs host e.createSnapshot.1 log := by
  have kept := KeepsEvents.createSnapshot e
  obtain ⟨ledger, tick⟩ := e.createSnapshot_frame
  apply filed.frame kept.events tick.ge
  case reached =>
    intro alive j
    rw [ledger]
    exact filed.reached (kept.alive alive) j
  case saved =>
    intro row member j
    cases kept.snapshots row member with
    | inl old => exact filed.saved row old j
    | inr new =>
        obtain ⟨alive, taken⟩ := new
        rw [taken]
        exact filed.reached alive j

theorem restored (filed : FiledAs host e log) (h3Resolution : Nat) (calls : Option Nat)
    {snapshot : Option EngineSnapshot}
    (loads : loadSnapshot (e.storage.limited calls) = .ok snapshot) :
    FiledAs host (Engine.restored host h3Resolution snapshot (e.storage.limited calls) e.tick)
      log := by
  have latest : e.storage.backend.latestSnapshot = snapshot := Except.ok.inj loads
  cases snapshot with
  | none => exact filed.frame rfl (le_refl _) (fun _ _ => Nat.zero_le _) filed.saved
  | some snap =>
      refine filed.frame rfl (le_refl _) (fun _ j => ?_) filed.saved
      obtain ⟨row, last, same⟩ := Option.map_eq_some_iff.mp latest
      rw [← same]
      exact filed.saved row (List.mem_of_getLast? last) j

end FiledAs

/-! ## Events are only added -/

/-- The database has these events of each job, and perhaps later ones. -/
def FilesOn {d : Dialect} (host : Host) (log : Uuid → List JobEventRecord)
    (e : Engine (Crashing (SqlBackend d))) : Prop :=
  ∃ log', FiledAs host e log' ∧ ∀ j, log j <+: log' j

theorem filesOn_kept {d : Dialect} {host : Host} (monotone : Monotone host.clock)
    (log : Uuid → List JobEventRecord) :
    Engine.Kept host (FilesOn (d := d) host log) := by
  constructor
  case draws =>
    rintro e ⟨log', filed, before⟩
    exact ⟨log', filed.frame rfl (Nat.le_succ _) filed.reached filed.saved, before⟩
  case moves =>
    rintro e seq ⟨log', filed, before⟩
    exact ⟨log', filed.frame rfl (le_refl _) filed.reached filed.saved, before⟩
  case snapshots =>
    rintro e ⟨log', filed, before⟩
    exact ⟨log', filed.snapshot, before⟩
  case pushes =>
    rintro e jobId kind ⟨log', filed, before⟩
    obtain ⟨log'', filed', later⟩ := filed.push monotone jobId kind
    exact ⟨log'', filed', fun j => (before j).trans (later j)⟩
  case maps =>
    rintro e mid same ⟨log', filed, before⟩
    refine ⟨log', filed.frame (by rw [same.storage]) same.tick.ge ?_ ?_, before⟩
    · rw [same.storage]
      intro alive j
      rw [Ledger.lastSequence, same.sequences]
      exact filed.reached alive j
    · rw [same.storage]
      exact filed.saved
  case logs =>
    rintro e cmd ⟨log', filed, before⟩
    obtain ⟨events, snapshots, alive⟩ := e.storage.appendWal_frame (e.walSequence + 1) cmd
    refine ⟨log', filed.frame events (le_refl _) (fun reaches => ?_) ?_, before⟩
    · exact filed.reached (alive reaches)
    · show ∀ row ∈ (appendWal e.storage (e.walSequence + 1) cmd).2.backend.snapshots.rows, _
      rw [snapshots]
      exact filed.saved

namespace Deployment

variable {dialect : Dialect} {host : Host} {log : Uuid → List JobEventRecord}
  {d d' : Deployment (SqlBackend dialect)}

theorem filesOn_step {x : Incident} (monotone : Monotone host.clock) (steady : d.Steady host)
    (taken : deploymentStep host d x d') (files : FilesOn host log d.engine) :
    FilesOn host log d'.engine := by
  have kept := @filesOn_kept dialect host monotone log
  cases passes steady.working taken with
  | works up touched => exact kept.touches (steady.backed.sound up) touched files
  | dies up _ calls touched =>
      have limited : FilesOn host log (d.engine.limited (some calls)) := by
        obtain ⟨log', filed, before⟩ := files
        refine ⟨log', filed.frame rfl (le_refl _) (fun _ => filed.reached ?_) filed.saved, before⟩
        rw [show d.engine.storage.callsLeft = none from steady.backed.living up]
        exact (Option.some_ne_none 0).symm
      have sound : Sound host (d.engine.limited (some calls)) :=
        ⟨(steady.backed.sound up).keyed, (steady.backed.sound up).ids⟩
      exact kept.touches sound touched limited
  | restarts _ _ recovered =>
      obtain ⟨log', filed, before⟩ := files
      exact kept.recover recovered fun snapshot loads => ⟨log', filed.restored _ _ loads, before⟩

theorem filesOn_run {past : List Incident} (monotone : Monotone host.clock)
    (steady : d.Steady host) (run : Run (deploymentStep host) anyStep d past d')
    (files : FilesOn host log d.engine) : d'.Steady host ∧ FilesOn host log d'.engine := by
  refine run.state_invariant (fun d => d.Steady host ∧ FilesOn host log d.engine)
    ⟨steady, files⟩ ?_
  rintro d x d' ⟨steady, files⟩ taken
  exact ⟨steady.step taken, filesOn_step monotone steady taken files⟩

theorem filed_blank {h3Resolution tick : Nat} :
    FiledAs host (Engine.withStorage h3Resolution
      (⟨.blank, none, []⟩ : Crashing (SqlBackend dialect)) tick) fun _ => [] where
  rows _ := rfl
  numbered _ := rfl
  nondecreasing _ := .nil
  stamped _ _ member := nomatch member
  reached _ _ := Nat.zero_le _
  saved _ member := nomatch member

/-- Whatever servers come and go on a database that was blank, the events it has of a job are
    numbered from 1 on without a gap, in the order of their times, and each of them stays as
    it is: what is filed later goes to the end. -/
theorem stored_events_outlive_servers (host : Host) (monotone : Monotone host.clock)
    (dialect : Dialect) (h3Resolution tick : Nat) (api : ApiState (Crashing (SqlBackend dialect)))
    (engine : api.dispatch = Engine.withStorage h3Resolution ⟨.blank, none, []⟩ tick)
    (past : List Incident) (d : Deployment (SqlBackend dialect))
    (run : Run (deploymentStep host) anyStep (Deployment.start api) past d)
    (later : List Incident) (d' : Deployment (SqlBackend dialect))
    (goesOn : Run (deploymentStep host) anyStep d later d') (jobId : Uuid) :
    ∃ events more : List JobEventRecord,
      d.engine.storage.backend.jobRows jobId = events.map (JobEventRecord.row dialect) ∧
      d'.engine.storage.backend.jobRows jobId = (events ++ more).map (JobEventRecord.row dialect) ∧
      (events ++ more).map JobEventRecord.sequence = List.range' 1 (events ++ more).length ∧
      (events ++ more).Pairwise fun a b => a.occurredAt ≤ b.occurredAt := by
  have steady : (Deployment.start api).Steady host :=
    @Steady.start _ _ host _ h3Resolution .blank tick api rfl engine
  have nothing : FilesOn host (fun _ => []) (Deployment.start api).engine := by
    refine ⟨fun _ => [], ?_, fun _ => List.prefix_rfl⟩
    show FiledAs host api.dispatch _
    rw [engine]
    exact filed_blank
  obtain ⟨steady, log, filed, _⟩ := filesOn_run monotone steady run nothing
  obtain ⟨_, log', filed', begins⟩ :=
    filesOn_run monotone steady goesOn ⟨log, filed, fun _ => List.prefix_rfl⟩
  obtain ⟨more, split⟩ := begins jobId
  refine ⟨log jobId, more, filed.rows jobId, ?_, ?_, ?_⟩
  · rw [split]
    exact filed'.rows jobId
  · rw [split]
    exact filed'.numbered jobId
  · rw [split]
    exact filed'.nondecreasing jobId

/-- The match that driver 100 made adds two events to the two of the offer, and the server
    that follows adds none. -/
theorem match_events_outlive :
    (offeredDeployment.engine.storage.backend.jobRows 1).map Prod.fst = [1, 2] ∧
    (matchedDeployment.engine.storage.backend.jobRows 1).map Prod.fst = [1, 2, 3, 4] ∧
    ∃ events more : List JobEventRecord,
      offeredDeployment.engine.storage.backend.jobRows 1 =
        events.map (JobEventRecord.row sqlite) ∧
      matchedDeployment.engine.storage.backend.jobRows 1 =
        (events ++ more).map (JobEventRecord.row sqlite) ∧
      (events ++ more).map JobEventRecord.sequence = List.range' 1 (events ++ more).length ∧
      (events ++ more).Pairwise fun a b => a.occurredAt ≤ b.occurredAt := by
  have monotone : Monotone stillHost.clock := monotone_const
  obtain ⟨up, past, run⟩ := offeredDeployment_lives
  have steady := blankDeployment_steady.run run
  obtain ⟨_, later, goesOn⟩ := matchedDeployment_follows ⟨up, [], .start⟩ steady
  exact ⟨by decide +kernel, by decide +kernel, stored_events_outlive_servers stillHost monotone
    _ 8 0 _ rfl past _ run later _ goesOn 1⟩

end Deployment

end Spatiad
