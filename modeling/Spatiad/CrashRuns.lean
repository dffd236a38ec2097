import Spatiad.Recovery
import Spatiad.ServiceRuns
import Spatiad.Databases

/-! # Runs with crashes

A process on a backend that outlives it.  `Crashing` counts the storage calls a
process still completes and keeps a record of every append that returned; a
process that has used up its calls reaches storage no more, and the next one
starts by recovery.
-/

namespace Spatiad

open Foundation WriteAheadLog StorageBackend

/-- A backend with the record of what was appended, in the hands of a process that
    completes `callsLeft` more calls, or any number of them. -/
structure Crashing (β : Type) where
  backend : β
  callsLeft : Option Nat
  appended : List (Nat × Command)

namespace Crashing

variable {β : Type} [StorageBackend β]

def issued (d : Crashing β) : List Command := d.appended.map Prod.snd

def limited (d : Crashing β) (calls : Option Nat) : Crashing β := { d with callsLeft := calls }

/-- One writing call, if the process gets that far. -/
def call (d : Crashing β) (method : β → Except StorageError Unit × β) :
    Except StorageError Unit × Crashing β :=
  if d.callsLeft = some 0 then (.error (.walAppend "process has crashed"), d)
  else
    ((method d.backend).1,
      { d with backend := (method d.backend).2, callsLeft := d.callsLeft.map (· - 1) })

def note (seq : Nat) (cmd : Command) :
    Except StorageError Unit × Crashing β → Except StorageError Unit × Crashing β
  | (.ok (), d) => (.ok (), { d with appended := d.appended ++ [(seq, cmd)] })
  | failed => failed

instance : StorageBackend (Crashing β) where
  appendWal d seq cmd := note seq cmd (d.call fun store => appendWal store seq cmd)
  writeSnapshot d snapshot := d.call fun store => writeSnapshot store snapshot
  loadSnapshot d := loadSnapshot d.backend
  loadWalAfter d seq := loadWalAfter d.backend seq
  compactWal d seq := d.call fun store => compactWal store seq
  appendJobEvent d jobId event := d.call fun store => appendJobEvent store jobId event
  queryJobEvents d := queryJobEvents d.backend
  isPersistent d := isPersistent d.backend

end Crashing

/-- The process, running or gone, and what it left behind. -/
structure World (β : Type) where
  engine : Engine (Crashing β)
  alive : Bool

/-- What happens to a process; `calls` is the number of storage calls after which it
    dies, if it does. -/
inductive Turn where
  | perform (op : Op) (calls : Option Nat) (reply : Reply)
  | snapshot (calls : Option Nat)
  | recover (calls : Option Nat)

variable {β : Type} [StorageBackend β]

def Engine.limited (e : Engine (Crashing β)) (calls : Option Nat) : Engine (Crashing β) :=
  { e with storage := e.storage.limited calls }

inductive worldStep (host : Host) : World β → Turn → World β → Prop where
  | perform {e : Engine (Crashing β)} {op calls e' reply}
      (result : Spatiad.perform host (e.limited calls) op = (e', reply)) :
      worldStep host ⟨e, true⟩ (.perform op calls reply) ⟨e', calls.isNone⟩
  | snapshot {e : Engine (Crashing β)} {calls} :
      worldStep host ⟨e, true⟩ (.snapshot calls) ⟨(e.limited calls).createSnapshot.1, calls.isNone⟩
  | recover {e : Engine (Crashing β)} {h3Resolution calls e'}
      (result : Engine.recover host h3Resolution (e.storage.limited calls) e.tick = .ok e') :
      worldStep host ⟨e, false⟩ (.recover calls) ⟨e', calls.isNone⟩

theorem worldStep_perform (host : Host) (e : Engine (Crashing β)) (op : Op) (calls : Option Nat) :
    worldStep host ⟨e, true⟩ (.perform op calls (Spatiad.perform host (e.limited calls) op).2)
      ⟨(Spatiad.perform host (e.limited calls) op).1, calls.isNone⟩ := .perform rfl

def Engine.recovered (host : Host) (e : Engine (Crashing β)) : Engine (Crashing β) :=
  match Engine.recover host 8 (e.storage.limited none) e.tick with
  | .ok e' => e'
  | .error _ => e

def World.start (h3Resolution : Nat) (storage : β) (tick : Nat) : World β where
  engine := Engine.withStorage h3Resolution ⟨storage, none, []⟩ tick
  alive := false

/-! ## What storage calls leave -/

namespace Crashing

variable [LawfulBackend β] {d d' : Crashing β}

/-- `d'` reads and remembers as `d` does, and is not revived. -/
structure SameHistory (d d' : Crashing β) : Prop where
  disk : LawfulBackend.disk d'.backend = LawfulBackend.disk d.backend
  appended : d'.appended = d.appended
  dead : d.callsLeft = some 0 → d'.callsLeft = some 0

theorem SameHistory.refl (d : Crashing β) : SameHistory d d := ⟨rfl, rfl, fun dead => dead⟩

theorem SameHistory.appendJobEvent {start d : Crashing β} (same : SameHistory start d)
    (jobId : Uuid) (event : StoredJobEvent) :
    SameHistory start (StorageBackend.appendJobEvent d jobId event).2 := by
  obtain ⟨snapshot, wal, _⟩ := LawfulBackend.appendJobEvent_spec d.backend jobId event
  simp only [StorageBackend.appendJobEvent, call]
  split
  · exact same
  · rename_i alive
    refine ⟨?_, same.appended, fun dead => absurd (same.dead dead) alive⟩
    rw [← same.disk]
    simp only [LawfulBackend.disk, snapshot, wal]

omit [LawfulBackend β] in
theorem appendWal_dead (dead : d.callsLeft = some 0) (seq : Nat) (cmd : Command) :
    (StorageBackend.appendWal d seq cmd).2 = d := by
  simp [StorageBackend.appendWal, call, note, dead]

theorem appendWal_alive (alive : d.callsLeft ≠ some 0) {seq : Nat} (cmd : Command)
    (fresh : ∀ entry ∈ LawfulBackend.wal d.backend, entry.1 < seq) :
    LawfulBackend.disk (StorageBackend.appendWal d seq cmd).2.backend =
        (LawfulBackend.disk d.backend).append seq cmd ∧
      (StorageBackend.appendWal d seq cmd).2.appended = d.appended ++ [(seq, cmd)] := by
  obtain ⟨store, ok, disk, _⟩ := LawfulBackend.appendWal_disk d.backend cmd fresh
  simp only [StorageBackend.appendWal, call, alive, if_false, ok, note]
  exact ⟨disk, trivial⟩

omit [LawfulBackend β]

/-- The record only grows, and a process without a limit keeps none. -/
structure Continues (d d' : Crashing β) : Prop where
  grows : d.appended <+: d'.appended
  unlimited : d.callsLeft = none → d'.callsLeft = none

omit [StorageBackend β] in
theorem Continues.refl (d : Crashing β) : Continues d d := ⟨List.prefix_rfl, fun none => none⟩

omit [StorageBackend β] in
theorem Continues.call {start d : Crashing β} (continues : Continues start d)
    (method : β → Except StorageError Unit × β) : Continues start (d.call method).2 := by
  simp only [Crashing.call]
  split
  · exact continues
  · exact ⟨continues.grows, fun none => by rw [continues.unlimited none]; rfl⟩

theorem Continues.appendWal {start d : Crashing β} (continues : Continues start d) (seq : Nat)
    (cmd : Command) : Continues start (StorageBackend.appendWal d seq cmd).2 := by
  have called := continues.call fun store => StorageBackend.appendWal store seq cmd
  simp only [StorageBackend.appendWal]
  generalize d.call _ = result at called
  obtain ⟨_ | ⟨⟨⟩⟩, d'⟩ := result
  · exact called
  · exact ⟨called.grows.trans (List.prefix_append _ _), called.unlimited⟩

end Crashing

/-! ## The invariant -/

/-- Every offer id of the ledger was drawn before the tick. -/
def Ledger.IdsBelow (host : Host) (tick : Nat) (s : Ledger) : Prop :=
  ∀ k o, s.offers.lookup k = some o → ∃ n < tick, k = host.newV4 n

theorem Ledger.IdsBelow.mono {host : Host} {tick later : Nat} {s : Ledger}
    (below : s.IdsBelow host tick) (le : tick ≤ later) : s.IdsBelow host later := by
  intro k o found
  obtain ⟨n, early, same⟩ := below k o found
  exact ⟨n, Nat.lt_of_lt_of_le early le, same⟩

variable [LawfulBackend β] {host : Host} {P : Ledger → Prop}

def Crashing.replayed (d : Crashing β) : Ledger := Ledger.empty.replay d.issued

/-- The backend backs what was appended; the engine that still reaches it is in the
    state this leads to. -/
structure Logged (host : Host) (P : Ledger → Prop) (e : Engine (Crashing β)) : Prop where
  backs : Backs Ledger.apply Ledger.empty e.storage.issued (LawfulBackend.disk e.storage.backend)
  numbered : e.storage.appended = number 0 e.storage.issued
  keyed : e.storage.replayed.Keyed
  ids : e.storage.replayed.IdsBelow host e.tick
  held : P e.storage.replayed
  sync : e.storage.callsLeft = some 0 ∨
    e.toLedger = e.storage.replayed ∧ e.walSequence = e.storage.issued.length

namespace Logged

variable {e e' : Engine (Crashing β)}

theorem same_history (logged : Logged host P e)
    (same : Crashing.SameHistory e.storage e'.storage) (later : e.tick ≤ e'.tick)
    (sync : e.storage.callsLeft ≠ some 0 →
      e'.toLedger = e.toLedger ∧ e'.walSequence = e.walSequence) : Logged host P e' := by
  have issued : e'.storage.issued = e.storage.issued := by
    rw [Crashing.issued, same.appended, Crashing.issued]
  have replayed : e'.storage.replayed = e.storage.replayed := by
    rw [Crashing.replayed, issued, Crashing.replayed]
  constructor
  · rw [issued, same.disk]
    exact logged.backs
  · rw [issued, same.appended]
    exact logged.numbered
  · rw [replayed]
    exact logged.keyed
  · rw [replayed]
    exact logged.ids.mono later
  · rw [replayed]
    exact logged.held
  · rw [replayed, issued]
    by_cases dead : e.storage.callsLeft = some 0
    · exact .inl (same.dead dead)
    · obtain ⟨ledger, position⟩ := sync dead
      rw [ledger, position]
      rcases logged.sync with dead' | synced
      · exact absurd dead' dead
      · exact .inr synced

theorem fresh (logged : Logged host P e) (position : e.walSequence = e.storage.issued.length) :
    ∀ entry ∈ LawfulBackend.wal e.storage.backend, entry.1 < e.walSequence + 1 := by
  intro entry member
  rw [position]
  exact Nat.lt_succ_of_le (logged.backs.log_le member)

/-- A process that still reaches its storage adds to the log what it applies. -/
theorem appendWal (logged : Logged host P e) (alive : e.storage.callsLeft ≠ some 0)
    (cmd : Command) :
    LawfulBackend.disk (StorageBackend.appendWal e.storage (e.walSequence + 1) cmd).2.backend =
        (LawfulBackend.disk e.storage.backend).append (e.storage.issued.length + 1) cmd ∧
      (StorageBackend.appendWal e.storage (e.walSequence + 1) cmd).2.appended =
        e.storage.appended ++ [(e.storage.issued.length + 1, cmd)] ∧
      (StorageBackend.appendWal e.storage (e.walSequence + 1) cmd).2.replayed =
        e.storage.replayed.apply cmd := by
  obtain ⟨_, position⟩ := logged.sync.resolve_left alive
  obtain ⟨disk, appended⟩ := Crashing.appendWal_alive alive cmd (logged.fresh position)
  rw [← position]
  refine ⟨disk, appended, ?_⟩
  simp only [Crashing.replayed, Crashing.issued, appended, List.map_append, List.map_cons,
    List.map_nil, Ledger.replay_snoc]

theorem events_follow (e : Engine (Crashing β)) (cmd : Command) :
    Crashing.SameHistory (StorageBackend.appendWal e.storage (e.walSequence + 1) cmd).2
      (e.appendAndApply host cmd).storage := by
  let mid : Engine (Crashing β) :=
    { e with
      walSequence := e.walSequence + 1
      storage := (StorageBackend.appendWal e.storage (e.walSequence + 1) cmd).2 }
  exact @Engine.applyCommand_storage _ _ host mid (Crashing.SameHistory mid.storage)
    (fun _ jobId event same => same.appendJobEvent jobId event) (.refl _) cmd

theorem replayed_appendAndApply (logged : Logged host P e) (alive : e.storage.callsLeft ≠ some 0)
    (cmd : Command) :
    (e.appendAndApply host cmd).storage.replayed = e.storage.replayed.apply cmd := by
  obtain ⟨_, _, grown⟩ := logged.appendWal alive cmd
  rw [← grown, Crashing.replayed, Crashing.issued, (events_follow e cmd).appended]
  rfl

theorem appendAndApply (logged : Logged host P e) {cmd : Command}
    (drawnId : ∀ offer, cmd = .createOffer offer → ∃ n < e.tick, offer.offerId = host.newV4 n)
    (preserved : e.toLedger.Keyed → P e.toLedger → P (e.toLedger.apply cmd)) :
    Logged host P (e.appendAndApply host cmd) := by
  let mid : Engine (Crashing β) :=
    { e with
      walSequence := e.walSequence + 1
      storage := (StorageBackend.appendWal e.storage (e.walSequence + 1) cmd).2 }
  have events : Crashing.SameHistory mid.storage (e.appendAndApply host cmd).storage :=
    events_follow e cmd
  have later := Engine.tick_appendAndApply host e cmd
  by_cases dead : e.storage.callsLeft = some 0
  · have untouched : mid.storage = e.storage := Crashing.appendWal_dead dead _ cmd
    rw [untouched] at events
    exact logged.same_history events later fun alive => absurd dead alive
  · obtain ⟨ledger, position⟩ := logged.sync.resolve_left dead
    obtain ⟨disk, appended, grown⟩ := logged.appendWal dead cmd
    have issued : mid.storage.issued = e.storage.issued ++ [cmd] := by
      simp only [Crashing.issued, mid, appended, List.map_append, List.map_cons, List.map_nil]
    have replayed : mid.storage.replayed = e.toLedger.apply cmd := by
      rw [ledger]
      exact grown
    -- the ledger has moved on, the events are still to be stored
    have stepped : Logged host P { mid with toLedger := e.toLedger.apply cmd } := by
      constructor
      · show Backs _ _ mid.storage.issued (LawfulBackend.disk mid.storage.backend)
        rw [issued, disk]
        exact logged.backs.append cmd
      · show mid.storage.appended = number 0 mid.storage.issued
        rw [issued, number_append, ← logged.numbered, Nat.zero_add]
        exact appended
      · show mid.storage.replayed.Keyed
        rw [replayed, ledger]
        exact logged.keyed.apply cmd
      · show mid.storage.replayed.IdsBelow host e.tick
        rw [replayed]
        intro k o' found
        rcases Ledger.offer_origin found with ⟨created, key⟩ | ⟨o, before, _⟩
        · obtain ⟨n, early, drawn⟩ := drawnId o' created
          exact ⟨n, early, key.trans drawn⟩
        · rw [ledger] at before
          exact logged.ids k o before
      · show P mid.storage.replayed
        rw [replayed]
        exact preserved (ledger ▸ logged.keyed) (ledger ▸ logged.held)
      · refine .inr ⟨replayed.symm, ?_⟩
        show e.walSequence + 1 = mid.storage.issued.length
        rw [issued, List.length_append, position]
        rfl
    refine stepped.same_history events later fun _ => ⟨?_, ?_⟩
    · exact Engine.appendAndApply_toLedger host e cmd
    · exact Engine.applyCommand_walSequence host mid cmd

theorem trace (logged : Logged host P e) {may : Ledger → Command → Prop} {log : List Command}
    (trace : Trace host may e log e')
    (preserved : ∀ s cmd, s.Keyed → P s → may s cmd → P (s.apply cmd)) : Logged host P e' := by
  apply trace.rule logged
  case drawn =>
    intro e logged
    exact logged.same_history (.refl _) (Nat.le_succ _) fun _ => ⟨rfl, rfl⟩
  case logged =>
    intro e cmd permitted drawnId logged
    exact logged.appendAndApply drawnId fun keyed held => preserved _ _ keyed held permitted

theorem restored (logged : Logged host P e)
    (synced : e.toLedger = e.storage.replayed ∧ e.walSequence = e.storage.issued.length)
    {storage : Crashing β} (appended : storage.appended = e.storage.appended)
    (backs : Backs Ledger.apply Ledger.empty e.storage.issued (LawfulBackend.disk storage.backend)) :
    Logged host P { e with storage } := by
  have issued : storage.issued = e.storage.issued := by
    rw [Crashing.issued, appended, Crashing.issued]
  have replayed : storage.replayed = e.storage.replayed := by
    rw [Crashing.replayed, issued, Crashing.replayed]
  refine ⟨?_, ?_, ?_, ?_, ?_, .inr ?_⟩
  · show Backs _ _ storage.issued _
    rw [issued]
    exact backs
  · show storage.appended = number 0 storage.issued
    rw [issued, appended]
    exact logged.numbered
  · show storage.replayed.Keyed
    rw [replayed]
    exact logged.keyed
  · show storage.replayed.IdsBelow host e.tick
    rw [replayed]
    exact logged.ids
  · show P storage.replayed
    rw [replayed]
    exact logged.held
  · show e.toLedger = storage.replayed ∧ e.walSequence = storage.issued.length
    rw [replayed, issued]
    exact synced

theorem limited (logged : Logged host P e)
    (synced : e.toLedger = e.storage.replayed ∧ e.walSequence = e.storage.issued.length)
    (calls : Option Nat) : Logged host P (e.limited calls) :=
  logged.restored synced rfl logged.backs

theorem behind (logged : Logged host P e) (position : e.walSequence = e.storage.issued.length) :
    (LawfulBackend.disk e.storage.backend).position ≤ e.walSequence := by
  rw [position]
  exact logged.backs.covered

/-- A snapshot, or as much of it as the process lives to write. -/
theorem createSnapshot (logged : Logged host P e)
    (synced : e.toLedger = e.storage.replayed ∧ e.walSequence = e.storage.issued.length) :
    Logged host P e.createSnapshot.1 := by
  by_cases dead : e.storage.callsLeft = some 0
  · simpa [Engine.createSnapshot, writeSnapshot, Crashing.call, dead] using logged
  · obtain ⟨store, ok, disk, _⟩ := @LawfulBackend.writeSnapshot_disk _ _ _ e.storage.backend
      e.toSnapshot (logged.behind synced.2)
    have disk : LawfulBackend.disk store = (LawfulBackend.disk e.storage.backend).writeSnapshot
        e.storage.issued.length (e.storage.issued.foldl Ledger.apply Ledger.empty) := by
      rw [disk, ← synced.2]
      exact congrArg _ synced.1
    have backs := logged.backs.writeSnapshot
    rw [← disk] at backs
    simp only [Engine.createSnapshot, writeSnapshot, Crashing.call, dead, if_false, ok]
    by_cases dying : e.storage.callsLeft.map (· - 1) = some 0
    · simp only [compactWal, Crashing.call, dying, if_true]
      exact logged.restored synced rfl backs
    · obtain ⟨store', ok', disk', _⟩ := LawfulBackend.compactWal_disk store e.walSequence
      have safe : e.walSequence ≤ (LawfulBackend.disk store).position := by
        rw [disk, synced.2]
        exact Nat.le_refl _
      simp only [compactWal, Crashing.call, dying, if_false, ok']
      refine logged.restored synced rfl ?_
      rw [disk']
      exact backs.compact safe

end Logged

/-! ## Steps of the world -/

/-- A process that is running has no limit and is in step with what it appended. -/
structure World.Logged (host : Host) (P : Ledger → Prop) (w : World β) : Prop where
  logged : Spatiad.Logged host P w.engine
  living : w.alive = true → w.engine.storage.callsLeft = none

namespace World.Logged

variable {w w' : World β}

/-- What else is known of the appended history can be carried along. -/
theorem also {Q : Ledger → Prop} (logged : w.Logged host P)
    (held : Q w.engine.storage.replayed) : w.Logged host Q where
  logged := { logged.logged with held := held }
  living := logged.living

theorem synced (logged : w.Logged host P) (alive : w.alive = true) :
    w.engine.toLedger = w.engine.storage.replayed ∧
      w.engine.walSequence = w.engine.storage.issued.length := by
  refine logged.logged.sync.resolve_left fun dead => ?_
  rw [logged.living alive] at dead
  cases dead

theorem sound (logged : w.Logged host P) (alive : w.alive = true) : Sound host w.engine where
  keyed := by
    rw [(logged.synced alive).1]
    exact logged.logged.keyed
  ids := by
    show w.engine.toLedger.IdsBelow host w.engine.tick
    rw [(logged.synced alive).1]
    exact logged.logged.ids

theorem recover (logged : w.Logged host P) (h3Resolution : Nat) (calls : Option Nat) :
    ∃ e, Engine.recover host h3Resolution (w.engine.storage.limited calls) w.engine.tick = .ok e ∧
      e.toLedger = w.engine.storage.replayed ∧ e.walSequence = w.engine.storage.issued.length ∧
      w.engine.tick ≤ e.tick ∧ Crashing.SameHistory (w.engine.storage.limited calls) e.storage ∧
      Crashing.Continues (w.engine.storage.limited calls) e.storage := by
  obtain ⟨e, ok, state, later, events⟩ := Engine.recover_spec host h3Resolution
    (w.engine.storage.limited calls) w.engine.tick
    (LawfulBackend.loadSnapshot_eq w.engine.storage.backend)
    (LawfulBackend.loadWalAfter_eq w.engine.storage.backend)
  have recovered := WriteAheadLog.recover_eq logged.logged.backs
  rw [LawfulBackend.disk] at recovered
  rw [recovered, Prod.mk.injEq] at state
  refine ⟨e, ok, state.2, state.1, later, ?_, ?_⟩
  · exact events (Crashing.SameHistory _) (fun _ jobId event same => same.appendJobEvent jobId event)
      (.refl _)
  · exact events (Crashing.Continues _) (fun _ _ _ continues => continues.call _) (.refl _)

/-- What a step stores continues what was stored, with the calls that the step was given. -/
theorem continues {turn : Turn} (taken : worldStep host w turn w') (logged : w.Logged host P) :
    ∃ calls, Crashing.Continues (w.engine.storage.limited calls) w'.engine.storage ∧
      w'.alive = calls.isNone := by
  cases taken with
  | @perform e op calls e' reply result =>
      have sound : Sound host (e.limited calls) := ⟨(logged.sound rfl).keyed, (logged.sound rfl).ids⟩
      obtain ⟨log, trace⟩ := perform_trace sound.keyed sound.ids op
      rw [result] at trace
      have continues : Crashing.Continues (e.storage.limited calls) e'.storage :=
        Engine.trace_storage (fun _ _ _ continues => continues.appendWal _ _)
          (fun _ _ _ continues => continues.call _) trace (.refl _)
      exact ⟨calls, continues, rfl⟩
  | @snapshot e calls =>
      have continues : Crashing.Continues (e.storage.limited calls)
          (e.limited calls).createSnapshot.1.storage :=
        Engine.createSnapshot_storage (fun _ _ continues => continues.call _)
          (fun _ _ continues => continues.call _) (.refl _)
      exact ⟨calls, continues, rfl⟩
  | @recover e h3Resolution calls e' result =>
      obtain ⟨e₁, ok, _, _, _, _, continues⟩ := logged.recover h3Resolution calls
      obtain rfl := Except.ok.inj (result.symm.trans ok)
      exact ⟨calls, continues, rfl⟩

theorem step {turn : Turn} (taken : worldStep host w turn w') (logged : w.Logged host P)
    (preserved : ∀ op calls reply, turn = .perform op calls reply →
      ∀ s cmd, s.Keyed → P s → Issues w.engine.toLedger op s cmd → P (s.apply cmd)) :
    w'.Logged host P := by
  obtain ⟨given, continues, state⟩ := continues taken logged
  refine ⟨?_, fun alive => continues.unlimited (Option.isNone_iff_eq_none.mp (state ▸ alive))⟩
  cases taken with
  | @perform e op calls e' reply result =>
      have limited : Spatiad.Logged host P (e.limited calls) :=
        logged.logged.limited (logged.synced rfl) calls
      have sound : Sound host (e.limited calls) := ⟨(logged.sound rfl).keyed, (logged.sound rfl).ids⟩
      obtain ⟨log, trace⟩ := perform_trace sound.keyed sound.ids op
      rw [result] at trace
      exact limited.trace trace (preserved op calls reply rfl)
  | @snapshot e calls =>
      have limited : Spatiad.Logged host P (e.limited calls) :=
        logged.logged.limited (logged.synced rfl) calls
      exact limited.createSnapshot (logged.synced rfl)
  | @recover e h3Resolution calls e' result =>
      obtain ⟨e₁, ok, ledger, position, later, same, _⟩ := logged.recover h3Resolution calls
      obtain rfl := Except.ok.inj (result.symm.trans ok)
      have unchanged : Spatiad.Logged host P { e' with storage := e.storage.limited calls } := by
        refine ⟨logged.logged.backs, logged.logged.numbered, logged.logged.keyed,
          logged.logged.ids.mono later, logged.logged.held, .inr ⟨ledger, position⟩⟩
      exact unchanged.same_history same (Nat.le_refl _) fun _ => ⟨rfl, rfl⟩

theorem grows {turn : Turn} (taken : worldStep host w turn w') (logged : w.Logged host P) :
    w.engine.storage.appended <+: w'.engine.storage.appended := by
  obtain ⟨calls, continues, _⟩ := continues taken logged
  exact continues.grows

end World.Logged

theorem World.logged_start (h3Resolution : Nat) {storage : β} (tick : Nat)
    (blank : LawfulBackend.disk storage = Disk.empty) (held : P Ledger.empty) :
    (World.start h3Resolution storage tick).Logged host P where
  logged :=
    { backs := by
        show Backs _ _ [] (LawfulBackend.disk storage)
        rw [blank]
        exact backs_empty
      numbered := rfl
      keyed := Ledger.keyed_empty
      ids := by
        intro k o found
        simp [World.start, Engine.withStorage, Crashing.replayed, Crashing.issued, Ledger.replay,
          Ledger.empty] at found
      held := held
      sync := .inr ⟨rfl, rfl⟩ }
  living := Bool.noConfusion

/-- What every permitted command preserves holds in every world a run reaches. -/
theorem World.Logged.run {allow : List Turn → World β → Turn → Prop} {start w : World β}
    {past : List Turn} (logged : start.Logged host P)
    (preserved : ∀ past w op calls reply, allow past w (.perform op calls reply) →
      ∀ s cmd, s.Keyed → P s → Issues w.engine.toLedger op s cmd → P (s.apply cmd))
    (run : Run (worldStep host) allow start past w) : w.Logged host P := by
  refine run.invariant (fun _ w => w.Logged host P) logged ?_
  intro past w turn w' logged allowed taken
  refine logged.step taken ?_
  rintro op calls reply rfl
  exact preserved past w op calls reply allowed

theorem World.Logged.run_any {start w : World β} {past : List Turn}
    (logged : start.Logged host fun _ => True) (run : Run (worldStep host) anyStep start past w) :
    w.Logged host (fun _ => True) ∧
      start.engine.storage.appended <+: w.engine.storage.appended := by
  refine run.invariant (fun _ w => w.Logged host (fun _ => True) ∧
    start.engine.storage.appended <+: w.engine.storage.appended) ⟨logged, List.prefix_rfl⟩ ?_
  rintro past w turn w' ⟨logged, grown⟩ _ taken
  exact ⟨logged.step taken fun _ _ _ _ _ _ _ _ _ => trivial, grown.trans (logged.grows taken)⟩

end Spatiad
