import Spatiad.EmittedEvents
import Spatiad.ServiceRuns
import Spatiad.Recovery
import Spatiad.Databases

/-! # The event history determines the state

On a backend that stores what it is given, the stored events of every job are
the ones its commands emitted, over any run of the engine; so the engine's maps
can be read off them.
-/

namespace Spatiad

open Foundation StorageBackend

/-! ## What a backend stores -/

variable {β : Type} [StorageBackend β] [LawfulBackend β] {host : Host}

def Engine.history (e : Engine β) (jobId : Uuid) : List JobEventKind :=
  (LawfulBackend.events e.storage jobId).filterMap fun event => JobEventKind.fromJson event.2

/-- What an engine has stored reaches no further than its own counters, and each
    stored event can be read back. -/
structure Backed (e : Engine β) : Prop where
  wal : ∀ entry ∈ LawfulBackend.wal e.storage, entry.1 ≤ e.walSequence
  snapshot : ∀ old, LawfulBackend.snapshot e.storage = some old → old.walSequence ≤ e.walSequence
  numbered : ∀ j, ∀ event ∈ LawfulBackend.events e.storage j,
    event.1 ≤ (e.jobEventSequences.lookup j).getD 0
  readable : ∀ j, (LawfulBackend.events e.storage j).map Prod.snd =
    (e.history j).map JobEventKind.toJson

/-- A change to the other maps alone leaves store and counters in step. -/
theorem Backed.of_same {e mid : Engine β} (backed : Backed e) (stored : mid.storage = e.storage)
    (position : mid.walSequence = e.walSequence)
    (sequences : mid.jobEventSequences = e.jobEventSequences) : Backed mid := by
  have sameHistory : ∀ j, mid.history j = e.history j := by
    intro j
    simp only [Engine.history, stored]
  refine ⟨?_, ?_, ?_, ?_⟩
  · rw [stored, position]
    exact backed.wal
  · rw [stored, position]
    exact backed.snapshot
  · rw [stored, sequences]
    exact backed.numbered
  · intro j
    rw [stored, sameHistory]
    exact backed.readable j

/-- From `e` to `e'` these events were stored, and all is still in step. -/
structure Tells (e e' : Engine β) (kinds : Uuid → List JobEventKind) : Prop where
  backed : Backed e'
  history : ∀ j, e'.history j = e.history j ++ kinds j

namespace Tells

variable {e e' e'' : Engine β} {kinds more : Uuid → List JobEventKind}

theorem silent (backed : Backed e) : Tells e e fun _ => [] where
  backed := backed
  history _ := (List.append_nil _).symm

theorem trans (first : Tells e e' kinds) (second : Tells e' e'' more) :
    Tells e e'' fun j => kinds j ++ more j where
  backed := second.backed
  history j := by rw [second.history, first.history, List.append_assoc]

theorem after {mid : Engine β} (told : Tells mid e' kinds) (stored : mid.storage = e.storage) :
    Tells e e' kinds where
  backed := told.backed
  history j := by
    rw [told.history]
    simp only [Engine.history, stored]

end Tells

namespace Engine

variable (host) {e : Engine β}

theorem pushJobEvent_tells (backed : Backed e) (jobId : Uuid) (kind : JobEventKind) :
    Tells e (e.pushJobEvent host jobId kind) (only jobId [kind]) := by
  let sequence := (e.jobEventSequences.lookup jobId).getD 0 + 1
  let event : StoredJobEvent := ⟨sequence, host.clock e.tick, kind.toJson⟩
  have fresh : ∀ old ∈ LawfulBackend.events e.storage jobId, old.1 < event.sequence :=
    fun old member => Nat.lt_succ_of_le (backed.numbered jobId old member)
  obtain ⟨snapshot, wal, stores⟩ := LawfulBackend.appendJobEvent_spec e.storage jobId event
  have stored : (e.pushJobEvent host jobId kind).storage =
      (appendJobEvent e.storage jobId event).2 := by
    simp only [pushJobEvent, LawfulBackend.isPersistent_eq, if_true]
    rfl
  have events : ∀ j, LawfulBackend.events (e.pushJobEvent host jobId kind).storage j =
      LawfulBackend.events e.storage j ++ if j = jobId then [(sequence, kind.toJson)] else [] := by
    intro j
    rw [stored, stores fresh]
    by_cases same : j = jobId
    · subst same
      simp [event]
    · simp [same]
  have history : ∀ j, (e.pushJobEvent host jobId kind).history j =
      e.history j ++ only jobId [kind] j := by
    intro j
    simp only [Engine.history, events, List.filterMap_append, only]
    split
    · simp [JobEventKind.fromJson_toJson]
    · rfl
  refine ⟨⟨?_, ?_, ?_, ?_⟩, history⟩
  · rw [stored, wal]
    exact backed.wal
  · rw [stored, snapshot]
    exact backed.snapshot
  · intro j old member
    show old.1 ≤ ((e.jobEventSequences.insert jobId sequence).lookup j).getD 0
    rw [HashMap.lookup_insert_if]
    rw [events] at member
    by_cases same : j = jobId
    · subst same
      simp only [if_true, List.mem_append, List.mem_singleton, Option.getD_some] at member ⊢
      rcases member with before | rfl
      · exact Nat.le_of_lt (fresh old before)
      · exact Nat.le_refl _
    · simp only [same, if_false, List.append_nil] at member ⊢
      exact backed.numbered j old member
  · intro j
    rw [events, history, List.map_append, List.map_append, backed.readable]
    simp only [only]
    split <;> rfl

theorem pushJobEvents_tells (backed : Backed e) (jobId : Uuid) (kinds : List JobEventKind) :
    Tells e (e.pushJobEvents host jobId kinds) (only jobId kinds) := by
  unfold pushJobEvents
  induction kinds generalizing e with
  | nil =>
      have silent : only jobId [] = fun _ => [] := by
        funext j
        exact ite_self _
      rw [silent]
      exact .silent backed
  | cons kind kinds ih =>
      have first : Tells e (e.pushJobEvent host jobId kind) (only jobId [kind]) :=
        pushJobEvent_tells host backed jobId kind
      have both := first.trans (ih first.backed)
      rw [only_append] at both
      exact both

variable {host} in
theorem Pushes.tells {e' : Engine β} {kinds : Uuid → List JobEventKind}
    (pushes : e.Pushes host e' kinds) (backed : Backed e) : Tells e e' kinds := by
  obtain ⟨mid, jobId, events, same, rfl, rfl⟩ := pushes
  have midBacked : Backed mid := backed.of_same same.storage same.walSequence same.sequences
  exact (pushJobEvents_tells host midBacked jobId events).after same.storage

theorem appendAndApply_tells (backed : Backed e) (cmd : Command) :
    Tells e (e.appendAndApply host cmd) (e.emitted (host.order e.tick) cmd) := by
  let mid := { e with
    walSequence := e.walSequence + 1
    storage := (appendWal e.storage (e.walSequence + 1) cmd).2 }
  obtain ⟨store, result, snapshot, wal, events⟩ := LawfulBackend.appendWal_spec e.storage
    (e.walSequence + 1) cmd fun entry member => Nat.lt_succ_of_le (backed.wal entry member)
  have stored : mid.storage = store := congrArg Prod.snd result
  have sameHistory : ∀ j, mid.history j = e.history j := by
    intro j
    simp only [Engine.history, stored, events]
  have midBacked : Backed mid := by
    refine ⟨?_, ?_, ?_, ?_⟩
    · rw [stored, wal]
      intro entry member
      rcases List.mem_append.mp member with old | new
      · exact Nat.le_succ_of_le (backed.wal entry old)
      · rw [List.mem_singleton.mp new]
    · rw [stored, snapshot]
      exact fun old latest => Nat.le_succ_of_le (backed.snapshot old latest)
    · rw [stored, events]
      exact backed.numbered
    · intro j
      rw [sameHistory, stored, events]
      exact backed.readable j
  have told : Tells mid _ _ := (mid.applyCommand_pushes host cmd).tells midBacked
  refine ⟨told.backed, fun j => ?_⟩
  rw [← sameHistory]
  exact told.history j

omit [LawfulBackend β] in
theorem createSnapshot_frame (e : Engine β) :
    e.createSnapshot.1.toLedger = e.toLedger ∧ e.createSnapshot.1.tick = e.tick := by
  obtain ⟨storage, same⟩ := e.createSnapshot_only
  rw [same]
  exact ⟨rfl, rfl⟩

omit [LawfulBackend β] in
theorem createSnapshot_jobEvents (e : Engine β) : e.createSnapshot.1.jobEvents = e.jobEvents := by
  obtain ⟨storage, same⟩ := e.createSnapshot_only
  rw [same]

theorem createSnapshot_tells (backed : Backed e) : Tells e e.createSnapshot.1 fun _ => [] := by
  obtain ⟨store, written, snapshot, wal, events⟩ :=
    LawfulBackend.writeSnapshot_spec e.storage e.toSnapshot backed.snapshot
  obtain ⟨store', compacted, snapshot', wal', events'⟩ :=
    LawfulBackend.compactWal_spec store e.walSequence
  simp only [createSnapshot, written, compacted]
  have sameHistory : ∀ j, { e with storage := store' }.history j = e.history j := by
    intro j
    simp only [Engine.history, events', events]
  refine ⟨⟨?_, ?_, ?_, ?_⟩, fun j => by rw [sameHistory, List.append_nil]⟩
  · simp only [wal', wal]
    exact fun entry member => backed.wal entry (List.mem_of_mem_filter member)
  · simp only [snapshot', snapshot]
    intro old latest
    rw [← Option.some.inj latest]
    exact Nat.le_refl _
  · simp only [events', events]
    exact backed.numbered
  · intro j
    rw [sameHistory]
    simp only [events', events]
    exact backed.readable j

end Engine

/-! ## Runs of the engine -/

/-- The public mutations of an engine. -/
inductive Mutation where
  | upsertDriverLocation (driverId : Uuid) (category : String) (position : Coordinates)
      (status : DriverStatus)
  | registerJob (job : JobRequest)
  | cancelJob (jobId : Uuid)
  | recordWebhookDeliveryFailed (jobId offerId : Uuid)
  | expireStaleDrivers (ttl : Int)
  | createOffer (jobId driverId : Uuid) (timeoutSeconds : Nat)
  | markOfferStatus (offerId : Uuid) (status : OfferStatus)
  | expirePendingOffersForDriver (driverId : Uuid)
  | expirePendingOffersGlobal
  | createNextOfferForJob (jobId : Uuid)
  | handleOfferResponse (offerId : Uuid) (accepted : Bool)
  | createSnapshot
  deriving DecidableEq, Repr

omit [LawfulBackend β] in
def Engine.mutate (host : Host) (e : Engine β) : Mutation → Engine β
  | .upsertDriverLocation driverId category position status =>
      e.upsertDriverLocation host driverId category position status
  | .registerJob job => e.registerJob host job
  | .cancelJob jobId => (e.cancelJob host jobId).1
  | .recordWebhookDeliveryFailed jobId offerId => e.recordWebhookDeliveryFailed host jobId offerId
  | .expireStaleDrivers ttl => (e.expireStaleDrivers host ttl).1
  | .createOffer jobId driverId timeoutSeconds =>
      (e.createOffer host jobId driverId timeoutSeconds).1
  | .markOfferStatus offerId status => (e.markOfferStatus host offerId status).1
  | .expirePendingOffersForDriver driverId => (e.expirePendingOffersForDriver host driverId).1
  | .expirePendingOffersGlobal => (e.expirePendingOffersGlobal host).1
  | .createNextOfferForJob jobId => (e.createNextOfferForJob host jobId).1
  | .handleOfferResponse offerId accepted => (e.handleOfferResponse host offerId accepted).1
  | .createSnapshot => e.createSnapshot.1

/-- What a mutation does: it draws from the host and logs commands, or writes a status that
    has no command, or takes a snapshot. -/
inductive Effect (host : Host) (may : Ledger → Command → Prop) (e : Engine β) :
    Mutation → Engine β → Prop where
  | logged {mutation log e'} (trace : Trace host may e log e') : Effect host may e mutation e'
  | written {offerId status} (known : (e.offers.lookup offerId).isSome)
      (notCancelled : status ≠ .cancelled) (notExpired : status ≠ .expired) :
      Effect host may e (.markOfferStatus offerId status)
        (e.setOfferStatus host offerId status fun _ => .offerStatusUpdated offerId status)
  | snapshot : Effect host may e .createSnapshot e.createSnapshot.1

section effects

variable {may : Ledger → Command → Prop} {e : Engine β}

omit [LawfulBackend β] in
theorem Engine.mutate_effect (others : ∀ s cmd, (∀ offer, cmd ≠ .createOffer offer) → may s cmd)
    (creates : ∀ jobId driverId timeoutSeconds,
      may e.toLedger (.createOffer (e.newOffer host jobId driverId timeoutSeconds)))
    (mutation : Mutation) : Effect host may e mutation (e.mutate host mutation) := by
  have single : ∀ (e : Engine β) (cmd : Command), (∀ offer, cmd ≠ .createOffer offer) →
      Trace host may e [cmd] (e.appendAndApply host cmd) :=
    fun _ cmd other => .single (others _ cmd other) other
  have none : Trace host may e [] e := .done e
  cases mutation with
  | upsertDriverLocation driverId category position status =>
      exact .logged (.draw (single e.drawn
        (.upsertDriverLocation driverId category position status (host.clock e.tick))
        fun _ => Command.noConfusion))
  | registerJob job => exact .logged (single e (.registerJob job) fun _ => Command.noConfusion)
  | cancelJob jobId =>
      simp only [Engine.mutate, Engine.cancelJob]
      split
      · exact .logged (single e (.cancelJob jobId) fun _ => Command.noConfusion)
      · exact .logged none
  | recordWebhookDeliveryFailed jobId offerId =>
      simp only [Engine.mutate, Engine.recordWebhookDeliveryFailed]
      split
      · exact .logged (single e (.recordWebhookDeliveryFailed jobId offerId)
          fun _ => Command.noConfusion)
      · exact .logged none
  | expireStaleDrivers ttl =>
      exact .logged (.draw (removeDrivers_trace
        (fun s driverId => others s (.removeDriver driverId) fun _ => Command.noConfusion) _))
  | createOffer jobId driverId timeoutSeconds => exact .logged (createOffer_trace (creates _ _ _))
  | markOfferStatus offerId status =>
      simp only [Engine.mutate, Engine.markOfferStatus]
      cases found : e.offers.lookup offerId with
      | none => exact .logged none
      | some o =>
          have known : (e.offers.lookup offerId).isSome := by rw [found]; rfl
          cases status with
          | cancelled =>
              exact .logged (single e (.markOfferCancelled offerId) fun _ => Command.noConfusion)
          | expired =>
              exact .logged (single e (.markOfferExpired offerId) fun _ => Command.noConfusion)
          | pending | accepted | rejected =>
              exact .written known OfferStatus.noConfusion OfferStatus.noConfusion
  | expirePendingOffersForDriver | expirePendingOffersGlobal =>
      exact .logged (.draw (expireOffers_trace_any _
        fun s offerId => others s (.markOfferExpired offerId) fun _ => Command.noConfusion))
  | createNextOfferForJob jobId =>
      simp only [Engine.mutate]
      rcases createNextOfferForJob_cases host e jobId with same | ⟨driverId, job, _, same⟩
      · rw [same]
        exact .logged none
      · rw [same]
        exact .logged (createOffer_trace (creates _ _ _))
  | handleOfferResponse offerId accepted =>
      let now := host.clock e.drawn.tick
      simp only [Engine.mutate, Engine.handleOfferResponse]
      split
      · exact .logged none
      · split
        · exact .logged none
        · split
          · exact .logged (.draw (single e.drawn (.markOfferExpired offerId)
              fun _ => Command.noConfusion))
          · split
            · exact .logged (.draw (.draw (single e.drawn.drawn (.acceptOffer offerId now)
                fun _ => Command.noConfusion)))
            · exact .logged (.draw (.draw (single e.drawn.drawn (.rejectOffer offerId now)
                fun _ => Command.noConfusion)))
  | createSnapshot => exact .snapshot

omit [LawfulBackend β] in
theorem Engine.mutate_effect_any (host : Host) (e : Engine β) (mutation : Mutation) :
    Effect host (fun _ _ => True) e mutation (e.mutate host mutation) :=
  mutate_effect (fun _ _ _ => trivial) (fun _ _ _ => trivial) mutation

omit [LawfulBackend β] in
/-- The rule for a mutation: what holds after logged commands, after a status written and
    after a snapshot holds after any mutation. -/
theorem Engine.mutate_rule {P : Engine β → Prop}
    (logged : ∀ {log e'}, Trace host (fun _ _ => True) e log e' → P e')
    (written : ∀ offerId status kind, P (e.setOfferStatus host offerId status kind))
    (snapshot : P e.createSnapshot.1) (mutation : Mutation) : P (e.mutate host mutation) := by
  have effect := e.mutate_effect_any host mutation
  generalize e.mutate host mutation = e' at effect
  cases effect with
  | logged trace => exact logged trace
  | written => exact written _ _ _
  | snapshot => exact snapshot

end effects

def CreatesFresh (s : Ledger) (cmd : Command) : Prop :=
  ∀ offer, cmd = .createOffer offer → s.Fresh offer

/-- The history of each job tells the state it has led to. -/
structure Told (host : Host) (e : Engine β) : Prop where
  sound : Sound host e
  backed : Backed e
  recounted : e.toLedger.Recounted e.history

namespace Told

variable {e e' : Engine β}

theorem start (h3Resolution : Nat) {storage : β} (tick : Nat)
    (blank : LawfulBackend.disk storage = WriteAheadLog.Disk.empty)
    (eventless : ∀ j, LawfulBackend.events storage j = []) :
    Told host (Engine.withStorage h3Resolution storage tick) := by
  have history : (Engine.withStorage h3Resolution storage tick).history = fun _ => [] := by
    funext j
    show List.filterMap _ (LawfulBackend.events storage j) = []
    rw [eventless]
    rfl
  obtain ⟨snapshot, wal⟩ := WriteAheadLog.Disk.mk.inj blank
  refine ⟨sound_withStorage h3Resolution storage tick, ⟨?_, ?_, ?_, ?_⟩, ?_⟩
  · intro entry member
    have inLog : entry ∈ LawfulBackend.wal storage := member
    rw [wal] at inLog
    cases inLog
  · intro old latest
    have saved : LawfulBackend.snapshot storage = some old := latest
    rw [Option.map_eq_none_iff.mp snapshot] at saved
    cases saved
  · intro j event member
    have stored : event ∈ LawfulBackend.events storage j := member
    rw [eventless] at stored
    cases stored
  · intro j
    show (LawfulBackend.events storage j).map _ = _
    rw [history, eventless]
    rfl
  · rw [history]
    exact Ledger.recounted_empty

theorem drawn (told : Told host e) : Told host e.drawn where
  sound := told.sound.drawn
  backed := told.backed.of_same rfl rfl rfl
  recounted := told.recounted

theorem appendAndApply (told : Told host e) {cmd : Command} (fresh : CreatesFresh e.toLedger cmd)
    (drawnId : ∀ offer, cmd = .createOffer offer → ∃ n < e.tick, offer.offerId = host.newV4 n) :
    Told host (e.appendAndApply host cmd) := by
  have logged : Trace host CreatesFresh e [cmd] (e.appendAndApply host cmd) :=
    .log fresh drawnId (.done _)
  have tells := Engine.appendAndApply_tells host told.backed cmd
  refine ⟨⟨logged.keyed told.sound.keyed, logged.idsDrawn told.sound.ids⟩, tells.backed, ?_⟩
  rw [Engine.appendAndApply_toLedger, funext tells.history]
  exact told.recounted.apply (host.order_perm e.tick) told.sound.keyed fresh

theorem trace {log : List Command} (told : Told host e) (trace : Trace host CreatesFresh e log e') :
    Told host e' := by
  apply trace.rule told
  case drawn => exact fun _ told => told.drawn
  case logged => exact fun _ _ fresh drawnId told => told.appendAndApply fresh drawnId

theorem setOfferStatus (told : Told host e) (offerId : Uuid) (status : OfferStatus) :
    Told host (e.setOfferStatus host offerId status fun _ => .offerStatusUpdated offerId status) := by
  have tells := (e.setOfferStatus_pushes host offerId status
    fun _ => .offerStatusUpdated offerId status).tells told.backed
  have later := Engine.tick_setOfferStatus host e offerId status
    fun _ => .offerStatusUpdated offerId status
  refine ⟨⟨?_, ?_⟩, tells.backed, ?_⟩
  · rw [Engine.setOfferStatus_toLedger]
    intro k o' found
    rw [Ledger.setOfferStatus_offers, Option.map_eq_some_iff] at found
    obtain ⟨o, before, rfl⟩ := found
    exact told.sound.keyed k o before
  · intro k o' found
    rw [Engine.setOfferStatus_toLedger, Ledger.setOfferStatus_offers, Option.map_eq_some_iff] at found
    obtain ⟨o, before, rfl⟩ := found
    obtain ⟨n, early, same⟩ := told.sound.ids k o before
    exact ⟨n, Nat.lt_of_lt_of_le early later, same⟩
  · rw [Engine.setOfferStatus_toLedger, funext tells.history]
    exact told.recounted.setOfferStatus offerId status

theorem createSnapshot (told : Told host e) : Told host e.createSnapshot.1 := by
  have tells := Engine.createSnapshot_tells told.backed
  obtain ⟨ledger, tick⟩ := e.createSnapshot_frame
  have sameHistory : e.createSnapshot.1.history = e.history := by
    funext j
    rw [tells.history, List.append_nil]
  refine ⟨⟨?_, ?_⟩, tells.backed, ?_⟩
  · rw [ledger]
    exact told.sound.keyed
  · unfold IdsDrawn
    rw [ledger, tick]
    exact told.sound.ids
  · rw [ledger, sameHistory]
    exact told.recounted

theorem mutate (told : Told host e) (mutation : Mutation) : Told host (e.mutate host mutation) := by
  have others : ∀ s cmd, (∀ offer, cmd ≠ .createOffer offer) → CreatesFresh s cmd :=
    fun _ _ other offer same => absurd same (other offer)
  have creates : ∀ jobId driverId timeoutSeconds, CreatesFresh e.toLedger
      (.createOffer (e.newOffer host jobId driverId timeoutSeconds)) := by
    intro jobId driverId timeoutSeconds offer same
    rw [← Command.createOffer.inj same]
    exact newOffer_fresh told.sound.ids jobId driverId timeoutSeconds
  have effect := Engine.mutate_effect others creates mutation
  generalize e.mutate host mutation = e' at effect
  cases effect with
  | logged trace => exact told.trace trace
  | written => exact told.setOfferStatus _ _
  | snapshot => exact told.createSnapshot

end Told

def mutationStep (host : Host) (e : Engine β) (mutation : Mutation) (e' : Engine β) : Prop :=
  e.mutate host mutation = e'

/-- After any run on a backend that stores every event: each offer has the status
    that its last event in the history of its job names, a job is registered iff its
    history has a `JobRegistered`, and a registered job is cancelled iff the last of
    its `JobRegistered` and `JobCancelled` events is a `JobCancelled`. -/
theorem event_history_determines_state (host : Host) (h3Resolution : Nat) (storage : β) (tick : Nat)
    (blank : LawfulBackend.disk storage = WriteAheadLog.Disk.empty)
    (eventless : ∀ j, LawfulBackend.events storage j = []) (past : List Mutation) (e : Engine β)
    (run : Run (mutationStep host) anyStep (Engine.withStorage h3Resolution storage tick) past e) :
    (∀ j, (LawfulBackend.events e.storage j).map Prod.snd =
      (e.history j).map JobEventKind.toJson) ∧
    (∀ offerId o, e.offers.lookup offerId = some o →
      latest (JobEventKind.statusOf offerId) (e.history o.jobId) = some o.status) ∧
    (∀ j, (∃ job, e.jobs.lookup j = some job) ↔ .jobRegistered ∈ e.history j) ∧
    ∀ j job, e.jobs.lookup j = some job →
      (j ∈ e.cancelledJobs ↔ latest JobEventKind.cancels (e.history j) = some true) := by
  have told : Told host e := by
    refine run.state_invariant (Told host) (.start h3Resolution tick blank eventless) ?_
    rintro e mutation e' told rfl
    exact told.mutate mutation
  refine ⟨told.backed.readable, ?_, ?_, ?_⟩
  · intro offerId o found
    rw [← told.recounted.statuses]
    simp [Ledger.statusIn, found]
  · intro j
    rw [← told.recounted.registered, Option.isSome_iff_exists]
  · intro j job registered
    rw [← told.recounted.cancellations]
    simp [Ledger.cancellationOf, registered]

/-- An accepted offer is taken back to pending past the log, then swept with its job,
    which is registered again: the stored history says so. -/
theorem history_after_override :
    ∃ (e : Engine SqliteBackend) (o : OfferRecord), e.offers.lookup 2 = some o ∧
      o.status = .cancelled ∧ latest (JobEventKind.statusOf 2) (e.history o.jobId) = some o.status ∧
      (e.history 1).length = 7 ∧ latest JobEventKind.cancels (e.history 1) ≠ some true := by
  let host := Host.plain fun _ => 0
  let e₀ : Engine SqliteBackend := Engine.withStorage 8 SqliteBackend.blank 0
  let e₁ := e₀.mutate host (.registerJob (jobAtOrigin 1))
  let e₂ := e₁.mutate host (.createOffer 1 100 30)
  let e₃ := e₂.mutate host (.markOfferStatus 2 .accepted)
  let e₄ := e₃.mutate host (.markOfferStatus 2 .pending)
  let e₅ := e₄.mutate host (.cancelJob 1)
  let e₆ := e₅.mutate host (.registerJob (jobAtOrigin 1))
  have run : Run (mutationStep host) anyStep e₀ _ e₆ :=
    (((((Run.start.next trivial (rfl : mutationStep host e₀ _ e₁)).next trivial
      (rfl : mutationStep host e₁ _ e₂)).next trivial (rfl : mutationStep host e₂ _ e₃)).next trivial
      (rfl : mutationStep host e₃ _ e₄)).next trivial (rfl : mutationStep host e₄ _ e₅)).next trivial
      (rfl : mutationStep host e₅ _ e₆)
  obtain ⟨_, statuses, _, cancellations⟩ :=
    event_history_determines_state host 8 SqliteBackend.blank 0 rfl (fun _ => rfl) _ e₆ run
  let o : OfferRecord := ⟨2, 1, 100, .cancelled, seconds 30⟩
  have found : e₆.offers.lookup 2 = some o := by decide +kernel
  have registered : e₆.jobs.lookup 1 = some (jobAtOrigin 1) := by decide +kernel
  have active : 1 ∉ e₆.cancelledJobs := by decide +kernel
  exact ⟨e₆, o, found, rfl, statuses 2 o found, by decide +kernel,
    fun last => active ((cancellations 1 _ registered).mpr last)⟩

end Spatiad
