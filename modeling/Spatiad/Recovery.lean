import Spatiad.EmittedEvents

/-! # Snapshots and recovery

`Engine::recover` and `Engine::create_snapshot`.  Recovery from a backend with
given contents ends in the ledger and at the position that the contents' disk
recovers to.
-/

namespace Spatiad

open Foundation StorageBackend

/-- The `Display` text of an error. -/
def StorageError.toString : StorageError → String
  | .walAppend message => "WAL append failed: " ++ message
  | .snapshotWrite message => "snapshot write failed: " ++ message
  | .snapshotLoad message => "snapshot load failed: " ++ message
  | .walLoad message => "WAL load failed: " ++ message
  | .eventStore message => "event store error: " ++ message

namespace Engine

variable {β : Type} [StorageBackend β] (host : Host)

/-- An engine in the state of a snapshot: the spatial index is rebuilt from the
    positions, the event lists start empty. -/
def fromSnapshot (snap : EngineSnapshot) (storage : β) (tick : Nat) : Engine β where
  toLedger := snap.toLedger
  h3Resolution := snap.h3Resolution
  spatial :=
    (host.order tick snap.drivers.keys).foldl (fun spatial id =>
      match snap.drivers.lookup id with
      | none => spatial
      | some d => spatial.upsertDriver host id d.position) (.new snap.h3Resolution)
  jobEvents := ∅
  storage := storage
  walSequence := snap.walSequence
  tick := tick
  driversTick := tick

def restored (h3Resolution : Nat) (snapshot : Option EngineSnapshot) (storage : β) (tick : Nat) :
    Engine β :=
  match snapshot with
  | some snap => fromSnapshot host snap storage tick
  | none => withStorage h3Resolution storage tick

def replayEntries (e : Engine β) (entries : List (Nat × Command)) : Engine β :=
  entries.foldl (fun e entry => { e.applyCommand host entry.2 with walSequence := entry.1 }) e

def recover (h3Resolution : Nat) (storage : β) (tick : Nat) : Except String (Engine β) :=
  match loadSnapshot storage with
  | .error err => .error err.toString
  | .ok snapshot =>
      let engine := restored host h3Resolution snapshot storage tick
      match loadWalAfter engine.storage engine.walSequence with
      | .error err => .error err.toString
      | .ok walEntries => .ok (engine.replayEntries host walEntries)

def createSnapshot (e : Engine β) : Engine β × Except String Unit :=
  match writeSnapshot e.storage e.toSnapshot with
  | (.error err, storage) => ({ e with storage }, .error err.toString)
  | (.ok (), storage) =>
      match compactWal storage e.walSequence with
      | (.error err, storage) => ({ e with storage }, .error err.toString)
      | (.ok (), storage) => ({ e with storage }, .ok ())

/-! ## Commands reach storage through events alone -/

section storage

variable {host} {e : Engine β} {P : β → Prop}
variable (kept : ∀ storage jobId event, P storage → P (appendJobEvent storage jobId event).2)

include kept in
theorem pushJobEvent_storage (held : P e.storage) (jobId : Uuid) (kind : JobEventKind) :
    P (e.pushJobEvent host jobId kind).storage := by
  simp only [pushJobEvent]
  split
  · exact kept _ _ _ held
  · exact held

include kept in
theorem pushJobEvents_storage (held : P e.storage) (jobId : Uuid) (kinds : List JobEventKind) :
    P (e.pushJobEvents host jobId kinds).storage :=
  pushJobEvents_rule (P := fun e : Engine β => P e.storage) held
    (fun _ kind held => pushJobEvent_storage kept held jobId kind) kinds

include kept in
theorem Pushes.storage {e' : Engine β} {kinds : Uuid → List JobEventKind}
    (pushes : e.Pushes host e' kinds) (held : P e.storage) : P e'.storage := by
  obtain ⟨mid, jobId, events, same, rfl, _⟩ := pushes
  rw [← same.storage] at held
  exact pushJobEvents_storage kept held jobId events

include kept in
theorem setOfferStatus_storage (held : P e.storage) (offerId : Uuid) (status : OfferStatus)
    (kind : Uuid → JobEventKind) : P (e.setOfferStatus host offerId status kind).storage :=
  (e.setOfferStatus_pushes host offerId status kind).storage kept held

include kept in
theorem applyCommand_storage (held : P e.storage) (cmd : Command) :
    P (e.applyCommand host cmd).storage :=
  (e.applyCommand_pushes host cmd).storage kept held

theorem trace_storage {may : Ledger → Command → Prop} {log : List Command} {e' : Engine β}
    (logs : ∀ storage seq cmd, P storage → P (appendWal storage seq cmd).2)
    (kept : ∀ storage jobId event, P storage → P (appendJobEvent storage jobId event).2)
    (trace : Trace host may e log e') (held : P e.storage) : P e'.storage := by
  apply trace.rule (P := fun e : Engine β => P e.storage) held
  case drawn => exact fun _ held => held
  case logged =>
    intro e cmd _ _ held
    refine applyCommand_storage kept ?_ cmd
    exact logs _ _ _ held

theorem createSnapshot_storage (writes : ∀ storage snap, P storage → P (writeSnapshot storage snap).2)
    (compacts : ∀ storage seq, P storage → P (compactWal storage seq).2) (held : P e.storage) :
    P e.createSnapshot.1.storage := by
  have written := writes e.storage e.toSnapshot held
  unfold createSnapshot
  generalize writeSnapshot e.storage e.toSnapshot = result at written
  obtain ⟨_ | ⟨⟨⟩⟩, storage⟩ := result
  · exact written
  · have compacted := compacts storage e.walSequence written
    simp only
    generalize compactWal storage e.walSequence = result at compacted
    obtain ⟨_ | ⟨⟨⟩⟩, storage⟩ := result <;> exact compacted

theorem createSnapshot_only (e : Engine β) : ∃ storage, e.createSnapshot.1 = { e with storage } := by
  unfold createSnapshot
  split
  · exact ⟨_, rfl⟩
  · split <;> exact ⟨_, rfl⟩

end storage

/-! ## Recovery follows the disk -/

section replay

variable {host} {e : Engine β}

/-- The rule for a replay: what each command keeps, with the position it sets, the log keeps. -/
theorem replayEntries_rule {P : Engine β → Prop} (held : P e)
    (replayed : ∀ e cmd seq, P e → P { e.applyCommand host cmd with walSequence := seq })
    (entries : List (Nat × Command)) : P (e.replayEntries host entries) :=
  List.foldlRecOn entries _ held fun e held entry _ => replayed e entry.2 entry.1 held

/-- The rule for a recovery: what holds of the restored engine and is kept by every command that
    is replayed. -/
theorem recover_rule {P : Engine β → Prop} {h3Resolution tick : Nat} {storage : β}
    (recovered : recover host h3Resolution storage tick = .ok e)
    (base : ∀ snapshot, loadSnapshot storage = .ok snapshot →
      P (restored host h3Resolution snapshot storage tick))
    (replayed : ∀ e cmd seq, P e → P { e.applyCommand host cmd with walSequence := seq }) : P e := by
  unfold recover at recovered
  cases loads : loadSnapshot storage with
  | error err =>
      rw [loads] at recovered
      cases recovered
  | ok snapshot =>
      have start := base snapshot loads
      simp only [loads] at recovered
      generalize restored host h3Resolution snapshot storage tick = engine at recovered start
      cases tail : loadWalAfter engine.storage engine.walSequence with
      | error err =>
          rw [tail] at recovered
          cases recovered
      | ok entries =>
          rw [tail] at recovered
          cases recovered
          exact replayEntries_rule start replayed entries

theorem replayEntries_state (entries : List (Nat × Command)) :
    ((e.replayEntries host entries).walSequence, (e.replayEntries host entries).toLedger) =
      entries.foldl (fun acc entry => (entry.1, acc.2.apply entry.2))
        (e.walSequence, e.toLedger) := by
  unfold replayEntries
  induction entries generalizing e with
  | nil => rfl
  | cons entry entries ih =>
      simp only [List.foldl_cons]
      rw [ih]
      congr 2
      exact applyCommand_toLedger host e entry.2

theorem replayEntries_tick (entries : List (Nat × Command)) :
    e.tick ≤ (e.replayEntries host entries).tick := by
  apply replayEntries_rule (P := fun e' => e.tick ≤ e'.tick) (Nat.le_refl _)
  exact fun mid cmd _ later => later.trans (tick_applyCommand host mid cmd)

theorem replayEntries_storage {P : β → Prop}
    (kept : ∀ storage jobId event, P storage → P (appendJobEvent storage jobId event).2)
    (held : P e.storage) (entries : List (Nat × Command)) :
    P (e.replayEntries host entries).storage := by
  apply replayEntries_rule (P := fun e : Engine β => P e.storage) held
  exact fun _ cmd _ held => applyCommand_storage kept held cmd

end replay

open WriteAheadLog in
/-- Recovery from a backend that reads as the disk `d` replays the tail of `d` from its
    base. -/
theorem recover_replays (h3Resolution : Nat) (storage : β) (tick : Nat)
    {snapshot : Option EngineSnapshot} {log : List (Nat × Command)}
    (loads : loadSnapshot storage = .ok snapshot)
    (tails : ∀ seq, loadWalAfter storage seq = .ok (log.filter fun entry => seq < entry.1)) :
    let d : Disk Ledger Command := ⟨snapshot.map fun snap => (snap.walSequence, snap.toLedger), log⟩
    ∃ engine : Engine β, engine.storage = storage ∧ engine.tick = tick ∧
      engine.walSequence = d.position ∧ engine.toLedger = d.base Ledger.empty ∧
      recover host h3Resolution storage tick = .ok (engine.replayEntries host d.tail) := by
  refine ⟨restored host h3Resolution snapshot storage tick, ?_, ?_, ?_, ?_, ?_⟩
  · cases snapshot <;> rfl
  · cases snapshot <;> rfl
  · cases snapshot <;> rfl
  · cases snapshot <;> rfl
  · have stored : (restored host h3Resolution snapshot storage tick).storage = storage := by
      cases snapshot <;> rfl
    simp only [recover, loads]
    rw [stored, tails]
    cases snapshot <;> rfl

open WriteAheadLog in
theorem recover_spec (h3Resolution : Nat) (storage : β) (tick : Nat)
    {snapshot : Option EngineSnapshot} {log : List (Nat × Command)}
    (loads : loadSnapshot storage = .ok snapshot)
    (tails : ∀ seq, loadWalAfter storage seq = .ok (log.filter fun entry => seq < entry.1)) :
    ∃ e, recover host h3Resolution storage tick = .ok e ∧
      (e.walSequence, e.toLedger) = WriteAheadLog.recover Ledger.apply Ledger.empty
        ⟨snapshot.map fun snap => (snap.walSequence, snap.toLedger), log⟩ ∧
      tick ≤ e.tick ∧
      ∀ P : β → Prop, (∀ storage jobId event, P storage →
        P (appendJobEvent storage jobId event).2) → P storage → P e.storage := by
  obtain ⟨engine, stored, drawn, position, ledger, ok⟩ :=
    recover_replays host h3Resolution storage tick loads tails
  refine ⟨_, ok, ?_, ?_, ?_⟩
  · rw [replayEntries_state, position, ledger]
    rfl
  · rw [← drawn]
    exact replayEntries_tick _
  · intro P kept held
    exact replayEntries_storage kept (stored ▸ held) _

end Engine

end Spatiad
