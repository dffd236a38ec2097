import Spatiad.CrashRuns
import Spatiad.Foundation.HoledLog

/-! # Appends that fail

`append_and_apply` logs a failed append and applies the command all the same.
`Lossy` is a backend some of whose appends fail; it keeps a record of what the
engine applied.  After a crash recovery steps over the gaps.
-/

namespace Spatiad

open Foundation WriteAheadLog HoledLog StorageBackend

/-- A backend some of whose appends fail, with the record of the commands that led the
    engine to its state. -/
structure Lossy (β : Type) where
  backend : β
  /-- Sequence numbers whose append fails. -/
  fails : Nat → Bool
  applied : List (Applied Command)
  /-- How many of these the latest snapshot covers. -/
  saved : Nat

namespace Lossy

variable {β : Type} [StorageBackend β]

def blank (storage : β) : Lossy β := ⟨storage, fun _ => false, [], 0⟩

def note (d : Lossy β) (command : Command) (stored : Bool) : Lossy β :=
  { d with applied := d.applied ++ [⟨command, stored⟩] }

instance : StorageBackend (Lossy β) where
  appendWal d seq cmd :=
    if d.fails seq then (.error (.walAppend "append failed"), d.note cmd false)
    else match appendWal d.backend seq cmd with
      | (.ok (), backend) => (.ok (), { d with backend }.note cmd true)
      | (.error err, backend) => (.error err, { d with backend }.note cmd false)
  writeSnapshot d snapshot :=
    match writeSnapshot d.backend snapshot with
    | (.ok (), backend) => (.ok (), { d with backend, saved := d.applied.length })
    | (.error err, backend) => (.error err, { d with backend })
  loadSnapshot d := loadSnapshot d.backend
  loadWalAfter d seq := loadWalAfter d.backend seq
  compactWal d seq :=
    ((compactWal d.backend seq).1, { d with backend := (compactWal d.backend seq).2 })
  appendJobEvent d jobId event :=
    ((appendJobEvent d.backend jobId event).1,
      { d with backend := (appendJobEvent d.backend jobId event).2 })
  queryJobEvents d := queryJobEvents d.backend
  isPersistent d := isPersistent d.backend

/-- What a process finds that starts here: the commands it replays are those it will
    have applied. -/
def restarted (d : Lossy β) : Lossy β := { d with applied := survivors d.saved d.applied }

end Lossy

/-- What happens to a process: `fails` says which appends fail meanwhile, and `recover`
    is the start of its successor after a crash. -/
inductive LossyTurn where
  | perform (op : Op) (fails : Nat → Bool) (reply : Reply)
  | snapshot
  | recover

variable {β : Type} [StorageBackend β]

def Engine.failing (e : Engine (Lossy β)) (fails : Nat → Bool) : Engine (Lossy β) :=
  { e with storage := { e.storage with fails } }

inductive lossyStep (host : Host) : Engine (Lossy β) → LossyTurn → Engine (Lossy β) → Prop where
  | perform {e : Engine (Lossy β)} {op fails e' reply}
      (result : Spatiad.perform host (e.failing fails) op = (e', reply)) :
      lossyStep host e (.perform op fails reply) e'
  | snapshot {e : Engine (Lossy β)} : lossyStep host e .snapshot e.createSnapshot.1
  | recover {e : Engine (Lossy β)} {h3Resolution e'}
      (result : Engine.recover host h3Resolution e.storage.restarted e.tick = .ok e') :
      lossyStep host e .recover e'

/-! ## What storage calls leave -/

variable [LawfulBackend β] {host : Host}

namespace Lossy

variable {d d' : Lossy β}

/-- Nothing but events was stored. -/
structure SameLog (d d' : Lossy β) : Prop where
  disk : LawfulBackend.disk d'.backend = LawfulBackend.disk d.backend
  applied : d'.applied = d.applied
  saved : d'.saved = d.saved

theorem SameLog.refl (d : Lossy β) : SameLog d d := ⟨rfl, rfl, rfl⟩

theorem SameLog.appendJobEvent {start d : Lossy β} (same : SameLog start d) (jobId : Uuid)
    (event : StoredJobEvent) : SameLog start (StorageBackend.appendJobEvent d jobId event).2 := by
  obtain ⟨snapshot, wal, _⟩ := LawfulBackend.appendJobEvent_spec d.backend jobId event
  refine ⟨?_, same.applied, same.saved⟩
  rw [← same.disk]
  simp only [StorageBackend.appendJobEvent, LawfulBackend.disk, snapshot, wal]

/-- An append is noted whether it fails or not; the disk takes it if it does not. -/
theorem appendWal_holds {top : Nat}
    (holds : Holds Ledger.apply Ledger.empty d.applied d.saved top (LawfulBackend.disk d.backend))
    (cmd : Command) :
    let d' := (StorageBackend.appendWal d (top + 1) cmd).2
    Holds Ledger.apply Ledger.empty d'.applied d'.saved (top + 1)
        (LawfulBackend.disk d'.backend) ∧
      commands d'.applied = commands d.applied ++ [cmd] := by
  simp only [StorageBackend.appendWal]
  by_cases lost : d.fails (top + 1) = true
  · simp only [lost, if_true, note]
    exact ⟨holds.lose cmd, commands_append _ _⟩
  · obtain ⟨store, ok, disk, _⟩ := LawfulBackend.appendWal_disk d.backend cmd
      fun entry member => Nat.lt_succ_of_le (holds.log_le entry member)
    simp only [lost, ok, note, Bool.false_eq_true, if_false]
    refine ⟨?_, commands_append _ _⟩
    rw [disk]
    exact holds.append cmd

end Lossy

/-! ## The invariant -/

theorem Ledger.idsBelow_replay {s : Ledger} {tick : Nat} {log : List Command}
    (below : s.IdsBelow host tick)
    (drawn : ∀ offer, .createOffer offer ∈ log → ∃ n < tick, offer.offerId = host.newV4 n) :
    (s.replay log).IdsBelow host tick := by
  induction log generalizing s with
  | nil => exact below
  | cons cmd log ih =>
      refine ih ?_ fun offer later => drawn offer (List.mem_cons_of_mem _ later)
      intro k o' found
      rcases Ledger.offer_origin found with ⟨created, key⟩ | ⟨o, before, _⟩
      · obtain ⟨n, early, drawn⟩ := drawn o' (created ▸ List.mem_cons_self)
        exact ⟨n, early, key.trans drawn⟩
      · exact below k o before

/-- The record tells how the engine got to its state and what of it the backend holds. -/
structure Patchy (host : Host) (e : Engine (Lossy β)) : Prop where
  holds : Holds Ledger.apply Ledger.empty e.storage.applied e.storage.saved e.walSequence
    (LawfulBackend.disk e.storage.backend)
  live : e.toLedger = Ledger.empty.replay (commands e.storage.applied)
  drawn : ∀ offer, .createOffer offer ∈ commands e.storage.applied →
    ∃ n < e.tick, offer.offerId = host.newV4 n

theorem patchy_start (h3Resolution : Nat) {storage : β} (tick : Nat)
    (blank : LawfulBackend.disk storage = Disk.empty) :
    Patchy host (Engine.withStorage h3Resolution (Lossy.blank storage) tick) where
  holds := by
    show Holds _ _ [] 0 0 (LawfulBackend.disk storage)
    rw [blank]
    exact holds_empty
  live := rfl
  drawn := by
    intro offer member
    cases member

namespace Patchy

variable {e e' : Engine (Lossy β)}

theorem sound (patchy : Patchy host e) : Sound host e where
  keyed := by
    rw [patchy.live]
    exact Ledger.keyed_empty.replay _
  ids := by
    show e.toLedger.IdsBelow host e.tick
    rw [patchy.live]
    refine Ledger.idsBelow_replay ?_ patchy.drawn
    intro k o found
    simp [Ledger.empty] at found

theorem same_log (patchy : Patchy host e) (same : Lossy.SameLog e.storage e'.storage)
    (ledger : e'.toLedger = e.toLedger) (position : e'.walSequence = e.walSequence)
    (later : e.tick ≤ e'.tick) : Patchy host e' where
  holds := by
    rw [same.applied, same.saved, same.disk, position]
    exact patchy.holds
  live := by
    rw [ledger, same.applied]
    exact patchy.live
  drawn := by
    intro offer member
    rw [same.applied] at member
    obtain ⟨n, early, drawn⟩ := patchy.drawn offer member
    exact ⟨n, Nat.lt_of_lt_of_le early later, drawn⟩

theorem failing (patchy : Patchy host e) (fails : Nat → Bool) : Patchy host (e.failing fails) :=
  patchy.same_log ⟨rfl, rfl, rfl⟩ rfl rfl (Nat.le_refl _)

theorem appendAndApply (patchy : Patchy host e) {cmd : Command}
    (drawnId : ∀ offer, cmd = .createOffer offer → ∃ n < e.tick, offer.offerId = host.newV4 n) :
    Patchy host (e.appendAndApply host cmd) := by
  let storage := (StorageBackend.appendWal e.storage (e.walSequence + 1) cmd).2
  let mid : Engine (Lossy β) := { e with walSequence := e.walSequence + 1, storage }
  obtain ⟨holds, grown⟩ := Lossy.appendWal_holds patchy.holds cmd
  have noted : Patchy host { mid with toLedger := e.toLedger.apply cmd } := by
    refine ⟨holds, ?_, ?_⟩
    · show e.toLedger.apply cmd = Ledger.empty.replay (commands storage.applied)
      rw [show commands storage.applied = _ from grown, Ledger.replay_snoc, ← patchy.live]
    · intro offer member
      rw [show commands storage.applied = _ from grown, List.mem_append,
        List.mem_singleton] at member
      cases member with
      | inl old => exact patchy.drawn offer old
      | inr created => exact drawnId offer created.symm
  have same : Lossy.SameLog storage (e.appendAndApply host cmd).storage :=
    @Engine.applyCommand_storage _ _ host mid (Lossy.SameLog storage)
      (fun _ jobId event same => same.appendJobEvent jobId event) (.refl _) cmd
  refine noted.same_log same ?_ ?_ ?_
  · exact Engine.appendAndApply_toLedger host e cmd
  · exact Engine.applyCommand_walSequence host mid cmd
  · exact Engine.tick_appendAndApply host e cmd

theorem trace (patchy : Patchy host e) {may : Ledger → Command → Prop} {log : List Command}
    (trace : Trace host may e log e') : Patchy host e' := by
  apply trace.rule patchy
  case drawn => exact fun _ patchy => patchy.same_log (.refl _) rfl rfl (Nat.le_succ _)
  case logged => exact fun _ _ _ drawnId patchy => patchy.appendAndApply drawnId

theorem createSnapshot (patchy : Patchy host e) : Patchy host e.createSnapshot.1 := by
  obtain ⟨store, ok, disk, _⟩ := @LawfulBackend.writeSnapshot_disk _ _ _ e.storage.backend
    e.toSnapshot patchy.holds.position_le
  obtain ⟨store', ok', disk', _⟩ := LawfulBackend.compactWal_disk store e.walSequence
  have holds := patchy.holds.writeSnapshot
  have disk : LawfulBackend.disk store = (LawfulBackend.disk e.storage.backend).writeSnapshot
      e.walSequence ((commands e.storage.applied).foldl Ledger.apply Ledger.empty) :=
    disk.trans (congrArg _ patchy.live)
  rw [← disk] at holds
  have safe : e.walSequence ≤ (LawfulBackend.disk store).position := by
    rw [disk]
    exact Nat.le_refl _
  simp only [Engine.createSnapshot, StorageBackend.writeSnapshot, ok, StorageBackend.compactWal,
    ok']
  refine ⟨?_, patchy.live, patchy.drawn⟩
  show Holds _ _ e.storage.applied e.storage.applied.length e.walSequence
    (LawfulBackend.disk store')
  rw [disk']
  exact holds.compact safe

/-- Recovery succeeds and applies what survives, gaps left out. -/
theorem recover (patchy : Patchy host e) (h3Resolution : Nat) :
    ∃ e', Engine.recover host h3Resolution e.storage.restarted e.tick = .ok e' ∧
      e'.toLedger = Ledger.empty.replay (commands (survivors e.storage.saved e.storage.applied)) ∧
      Patchy host e' := by
  obtain ⟨e', ok, state, later, stored⟩ := Engine.recover_spec host h3Resolution
    e.storage.restarted e.tick (LawfulBackend.loadSnapshot_eq e.storage.backend)
    (LawfulBackend.loadWalAfter_eq e.storage.backend)
  obtain ⟨last, replayed, holds⟩ := patchy.holds.recover
  rw [LawfulBackend.disk] at replayed
  rw [replayed, Prod.mk.injEq] at state
  have same := stored (Lossy.SameLog e.storage.restarted)
    (fun _ jobId event same => same.appendJobEvent jobId event) (.refl _)
  refine ⟨e', ok, state.2, ?_⟩
  have start : Patchy host { e' with storage := e.storage.restarted } := by
    refine ⟨?_, state.2, ?_⟩
    · show Holds _ _ _ _ e'.walSequence _
      rw [state.1]
      exact holds
    · intro offer member
      have before : .createOffer offer ∈ commands e.storage.applied := by
        obtain ⟨a, survived, created⟩ := List.mem_map.mp member
        refine List.mem_map.mpr ⟨a, ?_, created⟩
        cases List.mem_append.mp survived with
        | inl covered => exact List.mem_of_mem_take covered
        | inr after => exact List.mem_of_mem_drop (List.mem_of_mem_filter after)
      obtain ⟨n, early, drawn⟩ := patchy.drawn offer before
      exact ⟨n, Nat.lt_of_lt_of_le early later, drawn⟩
  exact start.same_log same rfl rfl (Nat.le_refl _)

theorem step {turn : LossyTurn} (patchy : Patchy host e) (taken : lossyStep host e turn e') :
    Patchy host e' := by
  cases taken with
  | @perform op fails _ reply result =>
      have sound := (patchy.failing fails).sound
      obtain ⟨log, trace⟩ := perform_trace sound.keyed sound.ids op
      rw [result] at trace
      exact (patchy.failing fails).trace trace
  | snapshot => exact patchy.createSnapshot
  | @recover h3Resolution _ result =>
      obtain ⟨e₁, ok, _, recovered⟩ := patchy.recover h3Resolution
      obtain rfl := Except.ok.inj (result.symm.trans ok)
      exact recovered

theorem run {start : Engine (Lossy β)} {past : List LossyTurn} (patchy : Patchy host start)
    (run : Run (lossyStep host) anyStep start past e) : Patchy host e :=
  run.state_invariant (Patchy host) patchy fun _ _ _ patchy taken => patchy.step taken

end Patchy

/-! ## What recovery finds -/

/-- Whatever appends fail, the live engine is where the commands it applied lead, its
    latest snapshot where the first `saved` of them do, and recovery succeeds: it
    applies these and, of the later ones, those whose append succeeded.  Unless one
    of them follows a failed append, this is what the live engine was after a prefix
    of its commands, at or after the snapshot. -/
theorem recovery_skips_lost_appends (host : Host) (h3Resolution : Nat) (storage : β) (tick : Nat)
    (blank : LawfulBackend.disk storage = Disk.empty) (past : List LossyTurn)
    (e : Engine (Lossy β))
    (run : Run (lossyStep host) anyStep
      (Engine.withStorage h3Resolution (Lossy.blank storage) tick) past e) :
    let applied := e.storage.applied
    let saved := e.storage.saved
    e.toLedger = Ledger.empty.replay (commands applied) ∧
    (LawfulBackend.disk e.storage.backend).base Ledger.empty =
      Ledger.empty.replay (commands (applied.take saved)) ∧
    ∀ h3Resolution', ∃ e',
      Engine.recover host h3Resolution' e.storage.restarted e.tick = .ok e' ∧
      e'.toLedger = Ledger.empty.replay (commands (survivors saved applied)) ∧
      (Unbroken saved applied → ∃ n, saved ≤ n ∧ n ≤ applied.length ∧
        e'.toLedger = Ledger.empty.replay (commands (applied.take n))) := by
  have patchy := (patchy_start h3Resolution tick blank).run run
  refine ⟨patchy.live, patchy.holds.snapshot, fun h3Resolution' => ?_⟩
  obtain ⟨e', ok, ledger, _⟩ := patchy.recover h3Resolution'
  refine ⟨e', ok, ledger, fun unbroken => ?_⟩
  obtain ⟨n, covering, inside, front⟩ := survivors_first patchy.holds.covered unbroken
  exact ⟨n, covering, inside, front ▸ ledger⟩

/-- Two drivers come online; the first append fails if `first` says so, the second if
    `second` does. -/
def twoOnline (first second : Bool) : Engine (Lossy SqliteBackend) :=
  let e₀ := Engine.withStorage 8 (Lossy.blank SqliteBackend.blank) 0
  let e₁ := (perform stillHost (e₀.failing fun _ => first) (comesOnline 100)).1
  (perform stillHost (e₁.failing fun _ => second) (comesOnline 200)).1

theorem twoOnline_run (first second : Bool) :
    ∃ past, Run (lossyStep stillHost) anyStep
      (Engine.withStorage 8 (Lossy.blank SqliteBackend.blank) 0) past (twoOnline first second) := by
  let e₀ : Engine (Lossy SqliteBackend) := Engine.withStorage 8 (Lossy.blank SqliteBackend.blank) 0
  let e₁ := (perform stillHost (e₀.failing fun _ => first) (comesOnline 100)).1
  have one : lossyStep stillHost e₀ (.perform (comesOnline 100) (fun _ => first) _) e₁ :=
    .perform rfl
  have two : lossyStep stillHost e₁ (.perform (comesOnline 200) (fun _ => second) _)
    (twoOnline first second) := .perform rfl
  exact ⟨_, (Run.start.next trivial one).next trivial two⟩

/-- The second append fails: recovery brings back the first driver alone. -/
theorem lost_tail_recovered :
    ∃ e', Engine.recover stillHost 8 (twoOnline false true).storage.restarted
        (twoOnline false true).tick = .ok e' ∧
      ∃ n, e'.toLedger =
        Ledger.empty.replay (commands ((twoOnline false true).storage.applied.take n)) := by
  obtain ⟨past, run⟩ := twoOnline_run false true
  obtain ⟨_, _, recovers⟩ :=
    recovery_skips_lost_appends stillHost 8 SqliteBackend.blank 0 rfl past _ run
  obtain ⟨e', ok, _, unbroken⟩ := recovers 8
  obtain ⟨n, _, _, ledger⟩ := unbroken (by decide +kernel)
  exact ⟨e', ok, n, ledger⟩

def Ledger.SameMaps (s t : Ledger) : Prop :=
  s.drivers = t.drivers ∧ s.jobs = t.jobs ∧ s.offers = t.offers ∧ s.cancelledJobs = t.cancelledJobs

/-- The first append fails: recovery brings back the second driver without the first,
    which no prefix of the two commands leads to. -/
theorem gap_recovered_to_no_prefix :
    ∃ past e, Run (lossyStep stillHost) anyStep
      (Engine.withStorage 8 (Lossy.blank SqliteBackend.blank) 0) past e ∧
    ∃ e', Engine.recover stillHost 8 e.storage.restarted e.tick = .ok e' ∧
      ∀ n, ¬ e'.SameMaps (Ledger.empty.replay (commands (e.storage.applied.take n))) := by
  obtain ⟨past, run⟩ := twoOnline_run true false
  refine ⟨past, twoOnline true false, run, _, rfl, ?_⟩
  rintro n ⟨drivers, _⟩
  match n with
  | 0 =>
      have second := congrArg (fun drivers => (drivers.lookup 200).isSome) drivers
      revert second
      decide +kernel
  | 1 =>
      have first := congrArg (fun drivers => (drivers.lookup 100).isSome) drivers
      revert first
      decide +kernel
  | n + 2 =>
      have all : (twoOnline true false).storage.applied.take (n + 2) =
          (twoOnline true false).storage.applied := List.take_of_length_le (Nat.le_add_left 2 n)
      have first := congrArg (fun drivers => (drivers.lookup 100).isSome) drivers
      rw [all] at first
      revert first
      decide +kernel

end Spatiad
