import Spatiad.StoredEvents

/-! # Replay and the stored events

Replay pushes the events of a command again under the numbers they had, so those
that were stored are dropped and the others are added.  A sweep that was cut
short may be replayed in another order; unless that happens, the stored events
of every job are those of the recovered commands, each once.
-/

namespace Spatiad

open Foundation WriteAheadLog StorageBackend

variable {β : Type} [StorageBackend β] [LawfulBackend β] {host : Host}

namespace Crashing

/-- The stored events of each job are those of the commands issued, each once. -/
def Whole (d : Crashing β) : Prop :=
  ∃ kinds, StoredAs d.backend kinds ∧ Ledger.Complete d.issued kinds

/-- Of the last command at most the first `k` events are stored, of those before all. -/
structure TornAt (d : Crashing β) (before : List Command) (cmd : Command)
    (kinds : Uuid → List JobEventKind) (order : List Uuid → List Uuid) (k : Nat) : Prop where
  issued : d.issued = before ++ [cmd]
  uncovered : (LawfulBackend.disk d.backend).position ≤ before.length
  complete : Ledger.Complete before kinds
  arranged : ∀ ks, (order ks).Perm ks
  stored : StoredAs d.backend fun j =>
    kinds j ++ ((Ledger.empty.replay before).emitted order cmd j).take k

/-- Some but not all of the cancellations are stored that the last command sweeps for. -/
def PartlySwept (d : Crashing β) : Prop :=
  ∃ before cmd j, d.issued = before ++ [cmd] ∧
    let s := Ledger.empty.replay before
    s.counted j < (LawfulBackend.events d.backend j).length ∧
      (LawfulBackend.events d.backend j).length < s.counted j + s.sweeps cmd

variable {d : Crashing β}

/-- Each event that a command produces is stored just as often as the
    commands produce it. -/
theorem Whole.perm (whole : d.Whole) (j : Uuid) :
    ((LawfulBackend.events d.backend j).filterMap fun event =>
      JobEventKind.fromJson event.2).Perm (Ledger.empty.productions j d.issued).flatten := by
  obtain ⟨kinds, stored, complete⟩ := whole
  have read : (LawfulBackend.events d.backend j).filterMap (fun event =>
      JobEventKind.fromJson event.2) = kinds j := by
    have values := map_number 0 ((kinds j).map JobEventKind.toJson)
    rw [← stored j] at values
    calc
      _ = ((LawfulBackend.events d.backend j).map Prod.snd).filterMap JobEventKind.fromJson := by
        rw [List.filterMap_map]
        rfl
      _ = kinds j := by
        rw [values, List.filterMap_map]
        simp [JobEventKind.fromJson_toJson]
  rw [read]
  exact (complete j).perm

/-- A sweep is stored in part only if the last command issued sweeps. -/
theorem not_partlySwept (unswept : ∀ cmd, d.issued.getLast? = some cmd →
    ∀ s : Ledger, s.sweeps cmd = 0) : ¬ d.PartlySwept := by
  rintro ⟨before, cmd, j, issued, stored, part⟩
  have none := unswept cmd (by rw [issued, List.getLast?_concat]) (Ledger.empty.replay before)
  rw [none] at part
  exact absurd stored (Nat.not_lt_of_lt part)

variable {before : List Command} {cmd : Command}
variable {kinds : Uuid → List JobEventKind} {order : List Uuid → List Uuid} {k : Nat}

theorem TornAt.whole (torn : d.TornAt before cmd kinds order k)
    (all : ∀ j, ((Ledger.empty.replay before).emitted order cmd j).length ≤ k) : d.Whole := by
  refine ⟨_, torn.stored, ?_⟩
  rw [torn.issued]
  have complete := torn.complete.snoc torn.arranged cmd
  have taken : ∀ j, ((Ledger.empty.replay before).emitted order cmd j).take k =
      (Ledger.empty.replay before).emitted order cmd j := fun j => List.take_of_length_le (all j)
  simpa only [taken] using complete

end Crashing

/-- Every command's events are stored, but for those of the last one when the process
    has died over them. -/
structure Chronicled (e : Engine (Crashing β)) : Prop where
  recorded : e.storage.Whole ∨ ∃ before cmd kinds order k,
    e.storage.TornAt before cmd kinds order k
  whole : e.storage.callsLeft ≠ some 0 → e.storage.Whole

/-! ## Operations -/

namespace Chronicled

variable {e e' : Engine (Crashing β)} {P : Ledger → Prop}

omit [LawfulBackend β] in
theorem appendAndApply_dead (dead : e.storage.callsLeft = some 0) (cmd : Command) :
    (e.appendAndApply host cmd).storage = e.storage := by
  let mid : Engine (Crashing β) :=
    { e with
      walSequence := e.walSequence + 1
      storage := (appendWal e.storage (e.walSequence + 1) cmd).2 }
  have untouched : mid.storage = e.storage := Crashing.appendWal_dead dead _ cmd
  refine @Engine.applyCommand_storage _ _ host mid (fun d => d = e.storage) ?_ untouched cmd
  rintro _ jobId event rfl
  simp only [appendJobEvent, Crashing.call, dead, if_true]

theorem appendAndApply [KeyedEvents β] (chronicled : Chronicled e) (logged : Logged host P e)
    (cmd : Command) : Chronicled (e.appendAndApply host cmd) := by
  by_cases dead : e.storage.callsLeft = some 0
  · constructor <;> rw [appendAndApply_dead dead]
    · exact chronicled.recorded
    · exact chronicled.whole
  · let mid : Engine (Crashing β) :=
      { e with
        walSequence := e.walSequence + 1
        storage := (appendWal e.storage (e.walSequence + 1) cmd).2 }
    obtain ⟨kinds, stored, complete⟩ := chronicled.whole dead
    obtain ⟨ledger, position⟩ := logged.sync.resolve_left dead
    obtain ⟨disk, appended, _⟩ := logged.appendWal dead cmd
    have midStored : StoredAs mid.storage.backend kinds := by
      intro j
      rw [Crashing.appendWal_events cmd (logged.fresh position)]
      exact stored j
    have counted : ∀ j, mid.counted j = (kinds j).length := by
      intro j
      rw [complete.length j]
      show e.toLedger.counted j = _
      rw [ledger]
      rfl
    obtain ⟨q, pushed, all⟩ := @Engine.applyCommand_stored _ _ _ host mid kinds _ midStored
      (fun j => Nat.le_of_eq (counted j)) cmd
    have same : Crashing.SameHistory mid.storage (e.appendAndApply host cmd).storage :=
      Logged.events_follow e cmd
    have torn : (e.appendAndApply host cmd).storage.TornAt e.storage.issued cmd kinds
        (host.order e.tick) q := by
      refine ⟨?_, ?_, complete, host.order_perm e.tick, ?_⟩
      · rw [Crashing.issued, same.appended]
        show ((appendWal e.storage (e.walSequence + 1) cmd).2.appended).map Prod.snd = _
        rw [appended, List.map_append]
        rfl
      · rw [same.disk]
        show (LawfulBackend.disk (appendWal e.storage (e.walSequence + 1) cmd).2.backend).position ≤ _
        rw [disk]
        exact logged.backs.covered
      · have written : (fun j => firstWrites (kinds j) (mid.counted j)
            ((mid.emitted (host.order mid.tick) cmd j).take q)) = fun j => kinds j ++
              ((Ledger.empty.replay e.storage.issued).emitted (host.order e.tick) cmd j).take q := by
          funext j
          rw [firstWrites_eq (Nat.le_of_eq (counted j)), counted, Nat.sub_self, List.drop_zero,
            show Ledger.empty.replay e.storage.issued = e.toLedger from ledger.symm]
        rw [← written]
        exact pushed
    refine ⟨.inr ⟨_, _, _, _, _, torn⟩, fun alive => torn.whole ?_⟩
    rw [show Ledger.empty.replay e.storage.issued = e.toLedger from ledger.symm]
    exact all alive

theorem trace [KeyedEvents β] (chronicled : Chronicled e) (logged : Logged host (fun _ => True) e)
    {may : Ledger → Command → Prop} {log : List Command} (trace : Trace host may e log e') :
    Chronicled e' := by
  suffices both : Chronicled e' ∧ Logged host (fun _ => True) e' from both.1
  apply trace.rule ⟨chronicled, logged⟩
  case drawn =>
    rintro e ⟨chronicled, logged⟩
    exact ⟨⟨chronicled.recorded, chronicled.whole⟩,
      logged.same_history (.refl _) (Nat.le_succ _) fun _ => ⟨rfl, rfl⟩⟩
  case logged =>
    rintro e cmd - drawnId ⟨chronicled, logged⟩
    exact ⟨chronicled.appendAndApply logged cmd, logged.appendAndApply drawnId fun _ _ => trivial⟩

theorem createSnapshot (chronicled : Chronicled e) (logged : Logged host P e)
    (synced : e.walSequence = e.storage.issued.length) : Chronicled e.createSnapshot.1 := by
  by_cases dead : e.storage.callsLeft = some 0
  · simpa [Engine.createSnapshot, writeSnapshot, Crashing.call, dead] using chronicled
  · obtain ⟨store, ok, _, events⟩ := @LawfulBackend.writeSnapshot_disk _ _ _ e.storage.backend
      e.toSnapshot (logged.behind synced)
    obtain ⟨store', ok', _, events'⟩ := LawfulBackend.compactWal_disk store e.walSequence
    obtain ⟨kinds, stored, complete⟩ := chronicled.whole dead
    have whole : e.createSnapshot.1.storage.Whole := by
      simp only [Engine.createSnapshot, writeSnapshot, Crashing.call, dead, if_false, ok]
      by_cases dying : e.storage.callsLeft.map (· - 1) = some 0
      · simp only [compactWal, Crashing.call, dying, if_true]
        exact ⟨kinds, fun j => events ▸ stored j, complete⟩
      · simp only [compactWal, Crashing.call, dying, if_false, ok']
        exact ⟨kinds, fun j => events' ▸ events ▸ stored j, complete⟩
    exact ⟨.inl whole, fun _ => whole⟩

end Chronicled

/-! ## Recovery -/

section recovery

variable {e : Engine (Crashing β)} {kinds : Uuid → List JobEventKind}

omit [LawfulBackend β] in
theorem Engine.replayEntries_ledger {base : Nat} (position : e.walSequence = base)
    (log : List Command) :
    (e.replayEntries host (number base log)).toLedger = e.toLedger.replay log := by
  have state := @replayEntries_state _ _ host e (number base log)
  rw [position, foldl_number] at state
  exact congrArg Prod.snd state

/-- Replaying what is stored stores nothing. -/
theorem Engine.replayEntries_covered [KeyedEvents β] (stored : StoredAs e.storage.backend kinds)
    (log : List Command) (base : Nat)
    (covered : ∀ j, (e.toLedger.replay log).counted j ≤ (kinds j).length) :
    StoredAs (e.replayEntries host (number base log)).storage.backend kinds := by
  induction log generalizing e base with
  | nil => exact stored
  | cons cmd log ih =>
      let next : Engine (Crashing β) := { e.applyCommand host cmd with walSequence := base + 1 }
      have ledger : next.toLedger = e.toLedger.apply cmd := applyCommand_toLedger host e cmd
      -- the numbers of this command end before those of the whole log
      have inside : ∀ j, e.counted j + (e.emitted (host.order e.tick) cmd j).length ≤
          (kinds j).length := by
        intro j
        rw [← Ledger.counted_apply (host.order_perm e.tick)]
        refine Nat.le_trans ?_ (covered j)
        have later := Ledger.counted_replay (e.toLedger.apply cmd) log j
        exact Nat.le.intro later.symm
      obtain ⟨q, pushed, _⟩ := @applyCommand_stored _ _ _ host e kinds _ stored
        (fun j => Nat.le_of_add_right_le (inside j)) cmd
      have kept : (fun j => firstWrites (kinds j) (e.counted j)
          ((e.emitted (host.order e.tick) cmd j).take q)) = kinds := by
        funext j
        refine firstWrites_covered (Nat.le_trans ?_ (inside j))
        exact Nat.add_le_add_left (List.length_take_le' _ _) _
      rw [kept] at pushed
      have covered' : ∀ j, (next.toLedger.replay log).counted j ≤ (kinds j).length := by
        rw [ledger]
        exact covered
      exact @ih next pushed (base + 1) covered'

/-- A replay of the torn command resumes it, in one of the two orders. -/
theorem Crashing.TornAt.resume {d : Crashing β} {before : List Command} {cmd : Command}
    {order order' : List Uuid → List Uuid} {k : Nat} (torn : d.TornAt before cmd kinds order k)
    (unswept : ¬ d.PartlySwept) (arranged' : ∀ ks, (order' ks).Perm ks) (q : Nat) :
    let s := Ledger.empty.replay before
    ∃ order'' k', (∀ ks, (order'' ks).Perm ks) ∧
      (∀ j, firstWrites (kinds j ++ (s.emitted order cmd j).take k) (kinds j).length
          ((s.emitted order' cmd j).take q) = kinds j ++ (s.emitted order'' cmd j).take k') ∧
      ((∀ j, (s.emitted order' cmd j).length ≤ q) →
        ∀ j, (s.emitted order'' cmd j).length ≤ k') := by
  intro s
  obtain ⟨jobId, sweep, rest, emits⟩ := s.emits cmd
  have same : (sweep order).length = (sweep order').length := by
    rw [emits.length order torn.arranged, emits.length order' arranged']
  have count : (LawfulBackend.events d.backend jobId).length =
      s.counted jobId + ((sweep order ++ rest).take k).length := by
    rw [torn.stored jobId, length_number, List.length_map, List.length_append,
      torn.complete.length, emits.emitted, only, if_pos rfl]
  have unbroken : ((sweep order ++ rest).take k).length = 0 ∨
      (sweep order).length ≤ ((sweep order ++ rest).take k).length := by
    by_contra broken
    refine unswept ⟨before, cmd, jobId, torn.issued, ?_, ?_⟩
    · show s.counted jobId < _
      omega
    · show _ < s.counted jobId + s.sweeps cmd
      rw [← emits.length order torn.arranged]
      omega
  obtain ⟨first, one, k', resumed, all⟩ :=
    @firstWrites_resume _ _ _ rest same (kinds jobId) k q unbroken
  have order'' : ∃ order'', (∀ ks, (order'' ks).Perm ks) ∧ sweep order'' = first := by
    rcases one with rfl | rfl
    · exact ⟨order, torn.arranged, rfl⟩
    · exact ⟨order', arranged', rfl⟩
  obtain ⟨order'', arranged'', rfl⟩ := order''
  refine ⟨order'', k', arranged'', fun j => ?_, fun whole j => ?_⟩
  · rw [emits.emitted, emits.emitted, emits.emitted]
    by_cases ofJob : j = jobId
    · subst ofJob
      simp only [only, if_true]
      exact resumed
    · simp only [only, ofJob, if_false, List.take_nil, List.append_nil, firstWrites]
  · have written := whole jobId
    rw [emits.emitted, only, if_pos rfl] at written
    rw [emits.emitted]
    by_cases ofJob : j = jobId
    · rw [only, if_pos ofJob]
      exact all written
    · rw [only, if_neg ofJob]
      exact Nat.zero_le k'

variable {P : Ledger → Prop} {e' : Engine (Crashing β)} {host' : Host}

/-- Recovery replays over the snapshot what the snapshot lacks. -/
theorem Logged.replays (logged : Logged host P e) (host' : Host) (h3Resolution tick : Nat)
    (calls : Option Nat) :
    let position := (LawfulBackend.disk e.storage.backend).position
    ∃ engine : Engine (Crashing β), engine.storage = e.storage.limited calls ∧
      engine.walSequence = position ∧
      engine.toLedger = Ledger.empty.replay (e.storage.issued.take position) ∧
      Engine.recover host' h3Resolution (e.storage.limited calls) tick =
        .ok (engine.replayEntries host' (number position (e.storage.issued.drop position))) := by
  obtain ⟨engine, stored, _, position, ledger, ok⟩ := Engine.recover_replays host' h3Resolution
    (e.storage.limited calls) tick (LawfulBackend.loadSnapshot_eq e.storage.backend)
    (LawfulBackend.loadWalAfter_eq e.storage.backend)
  have tail := logged.backs.tail_eq
  have base := logged.backs.snapshot
  rw [LawfulBackend.disk] at tail base
  refine ⟨engine, stored, position, ledger.trans base, ok.trans ?_⟩
  rw [tail]
  rfl

theorem Logged.recover_frame (logged : Logged host P e) {h3Resolution tick : Nat}
    {calls : Option Nat}
    (result : Engine.recover host' h3Resolution (e.storage.limited calls) tick = .ok e') :
    Crashing.SameHistory (e.storage.limited calls) e'.storage ∧
      Crashing.Continues (e.storage.limited calls) e'.storage ∧
      e'.storage.issued = e.storage.issued := by
  obtain ⟨engine, stored, _, _, ok⟩ := logged.replays host' h3Resolution tick calls
  obtain rfl := Except.ok.inj (result.symm.trans ok)
  have start : Crashing.SameHistory (e.storage.limited calls) engine.storage := by
    rw [stored]
    exact .refl _
  have continues : Crashing.Continues (e.storage.limited calls) engine.storage := by
    rw [stored]
    exact .refl _
  have same := @Engine.replayEntries_storage _ _ host' engine
    (Crashing.SameHistory (e.storage.limited calls))
    (fun _ jobId event same => same.appendJobEvent jobId event) start
    (number (LawfulBackend.disk e.storage.backend).position
      (e.storage.issued.drop (LawfulBackend.disk e.storage.backend).position))
  refine ⟨same, ?_, ?_⟩
  · exact Engine.replayEntries_storage (fun _ _ _ continues => continues.call _) continues _
  · rw [Crashing.issued, same.appended]
    rfl

/-- Recovery from a torn command stores the events of that command once more, as far as
    they are not there and it gets. -/
theorem Crashing.TornAt.replayed [KeyedEvents β] {before : List Command} {cmd : Command}
    {order : List Uuid → List Uuid} {k : Nat} (torn : e.storage.TornAt before cmd kinds order k)
    (logged : Logged host P e) {h3Resolution tick : Nat} {calls : Option Nat}
    (result : Engine.recover host' h3Resolution (e.storage.limited calls) tick = .ok e') :
    let s := Ledger.empty.replay before
    ∃ later q, StoredAs e'.storage.backend (fun j =>
        firstWrites (kinds j ++ (s.emitted order cmd j).take k) (kinds j).length
          ((s.emitted (host'.order later) cmd j).take q)) ∧
      (e'.storage.callsLeft ≠ some 0 → ∀ j, (s.emitted (host'.order later) cmd j).length ≤ q) := by
  intro s
  obtain ⟨engine, stored, position, ledger, ok⟩ := logged.replays host' h3Resolution tick calls
  have replayed := Except.ok.inj (result.symm.trans ok)
  let n := (LawfulBackend.disk e.storage.backend).position
  let mid := engine.replayEntries host' (number n (before.drop n))
  have reached : ∀ j, s.counted j ≤ (kinds j ++ (s.emitted order cmd j).take k).length := by
    intro j
    rw [List.length_append, torn.complete.length]
    exact Nat.le_add_right _ _
  -- everything before the last command is there
  have arrived : engine.toLedger.replay (before.drop n) = s := by
    rw [ledger, torn.issued, List.take_append_of_le_length torn.uncovered, ← Ledger.replay_append,
      List.take_append_drop]
  have midLedger : mid.toLedger = s := (Engine.replayEntries_ledger position _).trans arrived
  have midStored : StoredAs mid.storage.backend fun j =>
      kinds j ++ (s.emitted order cmd j).take k := by
    refine Engine.replayEntries_covered (stored ▸ torn.stored) _ _ fun j => ?_
    rw [arrived]
    exact reached j
  -- and the last command is applied
  have last : e'.storage = (mid.applyCommand host' cmd).storage := by
    rw [replayed, torn.issued, List.drop_append_of_le_length torn.uncovered, number_append,
      Engine.replayEntries, List.foldl_append]
    rfl
  obtain ⟨q, pushed, all⟩ := @Engine.applyCommand_stored _ _ _ host' mid _ _ midStored
    (fun j => midLedger ▸ reached j) cmd
  rw [midLedger] at pushed all
  refine ⟨mid.tick, q, ?_, last ▸ all⟩
  simp only [torn.complete.length]
  exact last ▸ pushed

theorem Chronicled.recover [KeyedEvents β] (chronicled : Chronicled e) (logged : Logged host P e)
    (unswept : ¬ e.storage.PartlySwept) {h3Resolution tick : Nat} {calls : Option Nat}
    (result : Engine.recover host' h3Resolution (e.storage.limited calls) tick = .ok e') :
    Chronicled e' := by
  obtain ⟨engine, stored, position, ledger, ok⟩ := logged.replays host' h3Resolution tick calls
  have replayed := Except.ok.inj (result.symm.trans ok)
  obtain ⟨same, _, issued⟩ := logged.recover_frame result
  rcases chronicled.recorded with ⟨kinds, known, complete⟩ | ⟨before, cmd, kinds, order, k, torn⟩
  · have whole : e'.storage.Whole := by
      refine ⟨kinds, ?_, issued ▸ complete⟩
      rw [replayed]
      refine Engine.replayEntries_covered (stored ▸ known) _ _ fun j => ?_
      rw [ledger, ← Ledger.replay_append, List.take_append_drop, complete.length]
    exact ⟨.inl whole, fun _ => whole⟩
  · obtain ⟨later, q, pushed, all⟩ := torn.replayed logged result
    obtain ⟨order', k', arranged, resumed, through⟩ :=
      torn.resume unswept (host'.order_perm later) q
    have torn' : e'.storage.TornAt before cmd kinds order' k' := by
      refine ⟨issued.trans torn.issued, ?_, torn.complete, arranged, ?_⟩
      · rw [same.disk]
        exact torn.uncovered
      · rw [← funext resumed]
        exact pushed
    exact ⟨.inr ⟨_, _, _, _, _, torn'⟩, fun alive => torn'.whole (through (all alive))⟩

/-! ## Exactness -/

theorem Crashing.Whole.unswept {d : Crashing β} (whole : d.Whole) : ¬ d.PartlySwept := by
  obtain ⟨kinds, stored, complete⟩ := whole
  rintro ⟨before, cmd, j, issued, some, part⟩
  obtain ⟨jobId, sweep, rest, emits⟩ := (Ledger.empty.replay before).emits cmd
  have count := complete.length j
  rw [issued, Ledger.replay_snoc, emits.counted] at count
  rw [stored j, length_number, List.length_map, count] at some part
  split at count <;> rename_i ofJob
  · rw [if_pos ofJob] at part
    omega
  · rw [if_neg ofJob] at some
    omega

/-- A sweep stored in part can be replayed in an order that starts with an event that is
    not stored: this one is dropped, and one that is stored repeated. -/
theorem Crashing.TornAt.misordered {before : List Command} {cmd : Command}
    {order : List Uuid → List Uuid} {k : Nat} (torn : e.storage.TornAt before cmd kinds order k)
    (swept : e.storage.PartlySwept) :
    let s := Ledger.empty.replay before
    ∃ order' j, (∀ ks, (order' ks).Perm ks) ∧
      ¬ (firstWrites (kinds j ++ (s.emitted order cmd j).take k) (kinds j).length
        (s.emitted order' cmd j)).Perm (kinds j ++ s.emitted order' cmd j) := by
  intro s
  obtain ⟨before', cmd', j, issued, some, part⟩ := swept
  obtain ⟨rfl, same⟩ := List.append_inj' (torn.issued.symm.trans issued) rfl
  obtain rfl := List.singleton_injective same
  obtain ⟨jobId, sweep, rest, emits⟩ := s.emits cmd
  rw [torn.stored j, length_number, List.length_map, List.length_append, torn.complete.length,
    emits.emitted] at some part
  by_cases ofJob : j = jobId
  · subst ofJob
    rw [only, if_pos rfl] at some part
    have begun : 0 < ((sweep order ++ rest).take k).length := Nat.lt_add_right_iff_pos.mp some
    have short : ((sweep order ++ rest).take k).length < (sweep order).length := by
      rw [emits.length order torn.arranged]
      exact Nat.lt_of_add_lt_add_left part
    rw [List.length_take, List.length_append] at begun short
    have within : k < (sweep order).length := by omega
    obtain ⟨order', more, arranged', next⟩ :=
      emits.leads order torn.arranged (sweep order)[k] (List.getElem_mem within)
    refine ⟨order', j, arranged', ?_⟩
    have kept : ((sweep order ++ rest).take k).length = k := by
      rw [List.length_take, List.length_append]
      omega
    rw [emits.emitted, emits.emitted, only, only, if_pos rfl, if_pos rfl, firstWrites_perm_iff,
      kept, next, List.cons_append]
    exact not_perm_next (emits.distinct (Ledger.keyed_empty.replay before) order torn.arranged)
      (Nat.lt_of_lt_of_le begun (Nat.min_le_left _ _)) within _
  · rw [only, if_neg ofJob, List.take_nil] at some
    exact absurd some (Nat.lt_irrefl _)

theorem Chronicled.breaks [KeyedEvents β] (chronicled : Chronicled e) (logged : Logged host P e)
    (swept : e.storage.PartlySwept) (h3Resolution tick : Nat) :
    ∃ host' e', Engine.recover host' h3Resolution (e.storage.limited none) tick = .ok e' ∧
      ¬ e'.storage.Whole := by
  rcases chronicled.recorded with whole | ⟨before, cmd, kinds, order, k, torn⟩
  · exact absurd swept whole.unswept
  · obtain ⟨order', j, arranged, wrong⟩ := torn.misordered swept
    let host' : Host := { host with order := fun _ => order', order_perm := fun _ => arranged }
    obtain ⟨engine, stored, _, _, ok⟩ := logged.replays host' h3Resolution tick none
    let e' := engine.replayEntries host' (number (LawfulBackend.disk e.storage.backend).position
      (e.storage.issued.drop (LawfulBackend.disk e.storage.backend).position))
    refine ⟨host', e', ok, fun whole => wrong ?_⟩
    obtain ⟨kinds', stored', complete'⟩ := whole
    obtain ⟨_, continues, issued⟩ := logged.recover_frame ok
    obtain ⟨later, q, pushed, all⟩ := torn.replayed logged ok
    have alive : e'.storage.callsLeft ≠ some 0 := by
      rw [continues.unlimited rfl]
      exact (Option.some_ne_none 0).symm
    have taken : ((Ledger.empty.replay before).emitted order' cmd j).take q =
        (Ledger.empty.replay before).emitted order' cmd j := List.take_of_length_le (all alive j)
    have written : kinds' j = firstWrites
        (kinds j ++ ((Ledger.empty.replay before).emitted order cmd j).take k) (kinds j).length
        ((Ledger.empty.replay before).emitted order' cmd j) :=
      (congrFun (stored'.unique pushed) j).trans (congrArg _ taken)
    have complete := (complete' j).perm
    rw [issued, torn.issued, written] at complete
    exact complete.trans (torn.complete.snoc arranged cmd j).perm.symm

end recovery

/-! ## Runs -/

/-- No recovery starts on a sweep that is stored in part. -/
def NoTornSweep (_past : List Turn) (w : World β) (turn : Turn) : Prop :=
  ∀ calls, turn = .recover calls → ¬ w.engine.storage.PartlySwept

variable [KeyedEvents β] {w w' : World β} {P : Ledger → Prop}

omit [KeyedEvents β] in
theorem World.Logged.limited (logged : w.Logged host P) (chronicled : Chronicled w.engine)
    (alive : w.alive = true) (calls : Option Nat) :
    Spatiad.Logged host P (w.engine.limited calls) ∧ Chronicled (w.engine.limited calls) := by
  have unlimited : w.engine.storage.callsLeft ≠ some 0 := by
    rw [logged.living alive]
    exact (Option.some_ne_none 0).symm
  have whole : (w.engine.limited calls).storage.Whole := chronicled.whole unlimited
  exact ⟨logged.logged.limited (logged.synced alive) calls, .inl whole, fun _ => whole⟩

theorem World.Logged.chronicled_step {past : List Turn} {turn : Turn}
    (logged : w.Logged host fun _ => True) (chronicled : Chronicled w.engine)
    (allowed : NoTornSweep past w turn) (taken : worldStep host w turn w') :
    Chronicled w'.engine := by
  cases taken with
  | @perform e op calls e' reply result =>
      obtain ⟨limited, ready⟩ := logged.limited chronicled rfl calls
      have sound : Sound host (e.limited calls) := ⟨(logged.sound rfl).keyed, (logged.sound rfl).ids⟩
      obtain ⟨log, trace⟩ := perform_trace sound.keyed sound.ids op
      rw [result] at trace
      exact ready.trace limited trace
  | @snapshot e calls =>
      obtain ⟨limited, ready⟩ := logged.limited chronicled rfl calls
      exact ready.createSnapshot limited (logged.synced rfl).2
  | @recover e h3Resolution calls e' result =>
      exact chronicled.recover logged.logged (allowed calls rfl) result

theorem World.chronicled_run {h3Resolution : Nat} {storage : β} {tick : Nat}
    (blank : LawfulBackend.disk storage = Disk.empty)
    (silent : ∀ j, LawfulBackend.events storage j = []) {past : List Turn}
    (run : Run (worldStep host) NoTornSweep (World.start h3Resolution storage tick) past w) :
    w.Logged host (fun _ => True) ∧ Chronicled w.engine := by
  have whole : (World.start h3Resolution storage tick).engine.storage.Whole :=
    ⟨fun _ => [], silent, Ledger.complete_nil⟩
  refine run.invariant (fun _ w => w.Logged host (fun _ => True) ∧ Chronicled w.engine)
    ⟨World.logged_start h3Resolution tick blank trivial, .inl whole, fun _ => whole⟩ ?_
  rintro past w turn w' ⟨logged, chronicled⟩ allowed taken
  exact ⟨logged.step taken fun _ _ _ _ _ _ _ _ _ => trivial,
    logged.chronicled_step chronicled allowed taken⟩

/-- A process that still reaches its storage, after a recovery or any other turn, finds
    the events of each job complete, as long as no recovery of the run started on a
    sweep stored in part.  The next recovery completes them in whatever order it
    iterates if and only if there is no such sweep now. -/
theorem replay_completes_events (host : Host) (h3Resolution : Nat) (storage : β) (tick : Nat)
    (blank : LawfulBackend.disk storage = Disk.empty)
    (silent : ∀ j, LawfulBackend.events storage j = []) (past : List Turn) (w : World β)
    (run : Run (worldStep host) NoTornSweep (World.start h3Resolution storage tick) past w) :
    (w.engine.storage.callsLeft ≠ some 0 →
      w.engine.toLedger = Ledger.empty.replay w.engine.storage.issued ∧ w.engine.storage.Whole) ∧
    ((∀ host' h3Resolution' e', Engine.recover host' h3Resolution' (w.engine.storage.limited none)
        w.engine.tick = .ok e' → e'.storage.Whole) ↔ ¬ w.engine.storage.PartlySwept) := by
  obtain ⟨logged, chronicled⟩ := World.chronicled_run blank silent run
  refine ⟨fun alive => ?_, fun all swept => ?_, fun unswept host' h3Resolution' e' ok => ?_⟩
  · exact ⟨(logged.logged.sync.resolve_left alive).1, chronicled.whole alive⟩
  · obtain ⟨host', e', ok, incomplete⟩ :=
      chronicled.breaks logged.logged swept h3Resolution w.engine.tick
    exact incomplete (all host' h3Resolution e' ok)
  · obtain ⟨_, continues, _⟩ := logged.logged.recover_frame ok
    refine (chronicled.recover logged.logged unswept ok).whole ?_
    rw [continues.unlimited rfl]
    exact (Option.some_ne_none 0).symm

/-- A submission dies over its first event; recovery stores it. -/
theorem lost_registration_completed :
    ∃ w : World SqliteBackend, w.alive = true ∧ w.engine.storage.Whole ∧
      (LawfulBackend.events w.engine.storage.backend 1).length = 1 := by
  let e₀ : Engine (Crashing SqliteBackend) := Engine.withStorage 8 ⟨SqliteBackend.blank, none, []⟩ 0
  let e₁ := e₀.recovered stillHost
  let e₂ := (perform stillHost (e₁.limited (some 1)) (.submitJob (jobAtOrigin 1))).1
  let e₃ := e₂.recovered stillHost
  have first : worldStep stillHost ⟨e₀, false⟩ (.recover none) ⟨e₁, true⟩ := .recover rfl
  have second : worldStep stillHost ⟨e₁, true⟩ (.perform (.submitJob (jobAtOrigin 1)) (some 1) _)
    ⟨e₂, false⟩ := worldStep_perform ..
  have third : worldStep stillHost ⟨e₂, false⟩ (.recover none) ⟨e₃, true⟩ := .recover rfl
  have registered : e₂.storage.issued.getLast? = some (.registerJob (jobAtOrigin 1)) := by
    decide +kernel
  have unswept : ¬ e₂.storage.PartlySwept := by
    refine Crashing.not_partlySwept fun cmd last s => ?_
    obtain rfl := Option.some.inj (registered.symm.trans last)
    rfl
  have run : Run (worldStep stillHost) NoTornSweep ⟨e₀, false⟩ _ ⟨e₃, true⟩ :=
    ((Run.start.next (fun _ _ => Crashing.not_partlySwept fun _ last => by cases last) first).next
      (fun _ same => by cases same) second).next (fun _ _ => unswept) third
  have complete := (replay_completes_events stillHost 8 SqliteBackend.blank 0 rfl (fun _ => rfl) _
    ⟨e₃, true⟩ run).1
  have alive : e₃.storage.callsLeft ≠ some 0 := by decide +kernel
  exact ⟨⟨e₃, true⟩, rfl, (complete alive).2, by decide +kernel⟩

/-- A host whose maps iterate the other way round from the tenth draw on. -/
def turningHost : Host :=
  { stillHost with
    order := fun tick ks => if tick < 10 then ks else ks.reverse
    order_perm := by
      intro tick ks
      split
      · exact .refl ks
      · exact ks.reverse_perm }

/-- A job with two pending offers is cancelled, and the process dies over the second
    event: recovery stores the cancellation of the one offer twice, of the other never. -/
theorem cancellation_stored_twice :
    ∃ past w, Run (worldStep turningHost) anyStep (World.start 8 SqliteBackend.blank 0) past w ∧
      w.alive = true ∧
      ((LawfulBackend.events w.engine.storage.backend 1).filterMap fun event =>
        JobEventKind.fromJson event.2) =
        [.jobRegistered, .offerCreated 3 100, .jobRegistered, .offerCreated 7 100,
          .offerCancelled 7 100, .offerCancelled 7 100, .jobCancelled] ∧
      ¬ w.engine.storage.Whole := by
  let e₀ : Engine (Crashing SqliteBackend) := Engine.withStorage 8 ⟨SqliteBackend.blank, none, []⟩ 0
  let e₁ := e₀.recovered turningHost
  let e₂ := (perform turningHost (e₁.limited none) (comesOnline 100)).1
  let e₃ := (perform turningHost (e₂.limited none) (.submitJob (jobAtOrigin 1))).1
  let e₄ := (perform turningHost (e₃.limited none) (.submitJob (jobAtOrigin 1))).1
  let e₅ := (perform turningHost (e₄.limited (some 2)) (.cancelJob 1)).1
  let e₆ := e₅.recovered turningHost
  have recovers : worldStep turningHost ⟨e₀, false⟩ (.recover none) ⟨e₁, true⟩ := .recover rfl
  have online : worldStep turningHost ⟨e₁, true⟩ (.perform (comesOnline 100) none _)
    ⟨e₂, true⟩ := worldStep_perform ..
  have submits : worldStep turningHost ⟨e₂, true⟩ (.perform (.submitJob (jobAtOrigin 1)) none _)
    ⟨e₃, true⟩ := worldStep_perform ..
  have resubmits : worldStep turningHost ⟨e₃, true⟩
    (.perform (.submitJob (jobAtOrigin 1)) none _) ⟨e₄, true⟩ := worldStep_perform ..
  have cancels : worldStep turningHost ⟨e₄, true⟩ (.perform (.cancelJob 1) (some 2) _)
    ⟨e₅, false⟩ := worldStep_perform ..
  have recovers' : worldStep turningHost ⟨e₅, false⟩ (.recover none) ⟨e₆, true⟩ := .recover rfl
  have run : Run (worldStep turningHost) anyStep ⟨e₀, false⟩ _ ⟨e₆, true⟩ :=
    (((((Run.start.next trivial recovers).next trivial online).next trivial submits).next trivial
      resubmits).next trivial cancels).next trivial recovers'
  refine ⟨_, ⟨e₆, true⟩, run, rfl, by decide +kernel, fun whole => ?_⟩
  have perm := whole.perm 1
  revert perm
  decide +kernel

end Spatiad
