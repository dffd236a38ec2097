import Spatiad.CrashRuns
import Spatiad.EmittedEvents

/-! # Restarts go unnoticed

Whatever a service decides it decides by its ledger and by what it draws from the
host.  Its backend, its log position and its event lists have no say, so neither a
failing store nor a restart changes an answer.
-/

namespace Spatiad

open Foundation

/-- The same ledger, and the same draws ahead. -/
structure Alike {β γ : Type} (e : Engine β) (e' : Engine γ) : Prop where
  ledger : e'.toLedger = e.toLedger
  tick : e'.tick = e.tick
  driversTick : e'.driversTick = e.driversTick

/-- Two engines that stay alike, with the same result. -/
structure AlikeResults {β γ α : Type} (r : Engine β × α) (r' : Engine γ × α) : Prop where
  alike : Alike r.1 r'.1
  result : r'.2 = r.2

theorem AlikeResults.both {β γ α : Type} {e : Engine β} {e' : Engine γ} (alike : Alike e e')
    (result : α) : AlikeResults (e, result) (e', result) := ⟨alike, rfl⟩

theorem only_injective {jobId jobId' : Uuid} {kinds kinds' : List JobEventKind}
    (same : only jobId kinds = only jobId' kinds') : kinds = kinds' := by
  have here := congrFun same jobId
  have there := congrFun same jobId'
  simp only [only, if_true] at here there
  by_cases sameJob : jobId = jobId'
  · rwa [if_pos sameJob] at here
  · rw [if_neg sameJob] at here
    rw [if_neg (Ne.symm sameJob)] at there
    rw [here, ← there]

namespace Engine

variable {β : Type} [StorageBackend β] {host : Host}

theorem pushJobEvents_tick (e : Engine β) (jobId : Uuid) (kinds : List JobEventKind) :
    (e.pushJobEvents host jobId kinds).tick = e.tick + kinds.length := by
  unfold pushJobEvents
  induction kinds generalizing e with
  | nil => rfl
  | cons kind kinds ih =>
      rw [List.foldl_cons, ih, List.length_cons]
      show e.tick + 1 + kinds.length = _
      omega

theorem pushJobEvents_driversTick (e : Engine β) (jobId : Uuid) (kinds : List JobEventKind) :
    (e.pushJobEvents host jobId kinds).driversTick = e.driversTick :=
  pushJobEvents_rule (P := fun e' => e'.driversTick = e.driversTick) rfl (fun _ _ same => same) kinds

/-- Only a report or a removal rearranges the drivers. -/
theorem applyCommand_driversTick (e : Engine β) (cmd : Command) :
    (e.applyCommand host cmd).driversTick =
      match cmd with
      | .upsertDriverLocation .. | .removeDriver _ => e.tick
      | _ => e.driversTick := by
  cases cmd with
  | upsertDriverLocation | registerJob | createOffer | removeDriver => rfl
  | rejectOffer | markOfferExpired | markOfferCancelled =>
      simp only [applyCommand, setOfferStatus]
      split <;> rfl
  | acceptOffer =>
      simp only [applyCommand]
      split
      · rfl
      · exact pushJobEvents_driversTick _ _ _
  | cancelJob =>
      simp only [applyCommand]
      split
      · split <;> exact pushJobEvents_driversTick _ _ _
      · rfl
  | recordWebhookDeliveryFailed =>
      simp only [applyCommand]
      split <;> rfl

end Engine

namespace Alike

variable {β γ : Type} [StorageBackend β] [StorageBackend γ] (host : Host)
variable {e : Engine β} {e' : Engine γ}

omit [StorageBackend β] [StorageBackend γ] in
theorem drawn (alike : Alike e e') : Alike e.drawn e'.drawn :=
  ⟨alike.ledger, congrArg (· + 1) alike.tick, alike.driversTick⟩

theorem applyCommand (alike : Alike e e') (cmd : Command) :
    Alike (e.applyCommand host cmd) (e'.applyCommand host cmd) where
  ledger := by
    rw [Engine.applyCommand_toLedger, Engine.applyCommand_toLedger, alike.ledger]
  tick := by
    obtain ⟨mid, jobId, events, same, after, kinds⟩ := Engine.applyCommand_pushes host e cmd
    obtain ⟨mid', jobId', events', same', after', kinds'⟩ := Engine.applyCommand_pushes host e' cmd
    rw [alike.ledger, alike.tick, kinds] at kinds'
    rw [after, after', Engine.pushJobEvents_tick, Engine.pushJobEvents_tick, same.tick, same'.tick,
      alike.tick, only_injective kinds']
  driversTick := by
    rw [Engine.applyCommand_driversTick, Engine.applyCommand_driversTick]
    cases cmd with
    | upsertDriverLocation | removeDriver => exact alike.tick
    | _ => exact alike.driversTick

theorem appendAndApply (alike : Alike e e') (cmd : Command) :
    Alike (e.appendAndApply host cmd) (e'.appendAndApply host cmd) := by
  unfold Engine.appendAndApply
  apply applyCommand
  exact ⟨alike.ledger, alike.tick, alike.driversTick⟩

/-! ## Engine -/

theorem registerJob (alike : Alike e e') (job : JobRequest) :
    Alike (e.registerJob host job) (e'.registerJob host job) := alike.appendAndApply host _

theorem upsertDriverLocation (alike : Alike e e') (driverId : Uuid) (category : String)
    (position : Coordinates) (status : DriverStatus) :
    Alike (e.upsertDriverLocation host driverId category position status)
      (e'.upsertDriverLocation host driverId category position status) := by
  unfold Engine.upsertDriverLocation
  rw [alike.tick]
  exact alike.drawn.appendAndApply host _

theorem cancelJob (alike : Alike e e') (jobId : Uuid) :
    AlikeResults (e.cancelJob host jobId) (e'.cancelJob host jobId) := by
  unfold Engine.cancelJob
  rw [alike.ledger]
  split
  · exact .both (alike.appendAndApply host _) _
  · exact .both alike _

theorem recordWebhookDeliveryFailed (alike : Alike e e') (jobId offerId : Uuid) :
    Alike (e.recordWebhookDeliveryFailed host jobId offerId)
      (e'.recordWebhookDeliveryFailed host jobId offerId) := by
  unfold Engine.recordWebhookDeliveryFailed
  rw [alike.ledger]
  split
  · exact alike.appendAndApply host _
  · exact alike

theorem expireStaleDrivers (alike : Alike e e') (ttl : Int) :
    AlikeResults (e.expireStaleDrivers host ttl) (e'.expireStaleDrivers host ttl) := by
  have removals : ∀ (stale : List Uuid) {e : Engine β} {e' : Engine γ}, Alike e e' →
      Alike (stale.foldl (fun e driverId => e.appendAndApply host (.removeDriver driverId)) e)
        (stale.foldl (fun e driverId => e.appendAndApply host (.removeDriver driverId)) e') := by
    intro stale
    induction stale with
    | nil => exact fun alike => alike
    | cons driverId rest ih => exact fun alike => ih (alike.appendAndApply host _)
  unfold Engine.expireStaleDrivers
  simp only [Engine.drawn_toLedger, alike.ledger, alike.tick]
  have sameOrder : e'.drawn.driversTick = e.drawn.driversTick := alike.driversTick
  rw [sameOrder]
  exact ⟨removals _ alike.drawn, rfl⟩

theorem createOffer (alike : Alike e e') (jobId driverId : Uuid) (timeoutSeconds : Nat) :
    AlikeResults (e.createOffer host jobId driverId timeoutSeconds)
      (e'.createOffer host jobId driverId timeoutSeconds) := by
  have sameOffer : e'.newOffer host jobId driverId timeoutSeconds =
      e.newOffer host jobId driverId timeoutSeconds := by
    unfold Engine.newOffer
    rw [alike.tick]
  rw [Engine.createOffer_eq, Engine.createOffer_eq, sameOffer]
  exact .both (alike.drawn.drawn.appendAndApply host _) _

omit [StorageBackend β] [StorageBackend γ] in
theorem nearestCandidatesInRadius (alike : Alike e e') (pickup : Coordinates) (category : String)
    (radiusKm : ℚ) (limit : Nat) :
    e'.nearestCandidatesInRadius host pickup category radiusKm limit =
      e.nearestCandidatesInRadius host pickup category radiusKm limit := by
  unfold Engine.nearestCandidatesInRadius
  rw [alike.ledger, alike.driversTick]

/-! ## Offers -/

theorem setOfferStatus (alike : Alike e e') (offerId : Uuid) (status : OfferStatus)
    (kind : Uuid → JobEventKind) :
    Alike (e.setOfferStatus host offerId status kind) (e'.setOfferStatus host offerId status kind) := by
  unfold Engine.setOfferStatus
  rw [alike.ledger]
  split
  · exact alike
  · constructor
    · simp only [Engine.pushJobEvent]
    · exact congrArg (· + 1) alike.tick
    · exact alike.driversTick

theorem markOfferStatus (alike : Alike e e') (offerId : Uuid) (status : OfferStatus) :
    AlikeResults (e.markOfferStatus host offerId status) (e'.markOfferStatus host offerId status) := by
  unfold Engine.markOfferStatus
  rw [alike.ledger]
  cases e.offers.lookup offerId with
  | none => exact .both alike _
  | some o =>
      cases status with
      | cancelled | expired => exact .both (alike.appendAndApply host _) _
      | pending | accepted | rejected => exact .both (alike.setOfferStatus host _ _ _) _

theorem expireOffers (alike : Alike e e') (offerIds : List Uuid) :
    AlikeResults (e.expireOffers host offerIds) (e'.expireOffers host offerIds) := by
  induction offerIds generalizing e e' with
  | nil => exact .both alike _
  | cons offerId rest ih =>
      have later := ih (alike.appendAndApply host (.markOfferExpired offerId))
      constructor
      · exact later.alike
      · simp only [Engine.expireOffers, later.result, alike.ledger]

omit [StorageBackend β] [StorageBackend γ] in
theorem dueOffers (alike : Alike e e') (p : OfferRecord → Bool) (now : DateTime) :
    e'.dueOffers host p now = e.dueOffers host p now := by
  unfold Engine.dueOffers
  rw [alike.ledger, alike.tick]

theorem expirePending (alike : Alike e e') (p : OfferRecord → Bool) :
    AlikeResults
      (e.drawn.expireOffers host (e.drawn.dueOffers host p (host.clock e.tick)))
      (e'.drawn.expireOffers host (e'.drawn.dueOffers host p (host.clock e'.tick))) := by
  rw [alike.drawn.dueOffers host, alike.tick]
  exact alike.drawn.expireOffers host _

omit [StorageBackend β] [StorageBackend γ] in
theorem nextUntried (alike : Alike e e') (job : JobRequest) (jobId : Uuid) :
    e'.nextUntried host job jobId = e.nextUntried host job jobId := by
  unfold Engine.nextUntried
  simp only [alike.nearestCandidatesInRadius host, alike.ledger]

theorem createNextOfferForJob (alike : Alike e e') (jobId : Uuid) :
    AlikeResults (e.createNextOfferForJob host jobId) (e'.createNextOfferForJob host jobId) := by
  unfold Engine.createNextOfferForJob
  simp only [alike.ledger, alike.nextUntried host]
  cases e.jobs.lookup jobId with
  | none => exact .both alike _
  | some job =>
      simp only
      split
      · exact .both alike _
      · split
        · exact .both alike _
        · split
          · exact .both alike _
          · cases e.nextUntried host job jobId with
            | none => exact .both alike _
            | some driverId =>
                have created := alike.createOffer host jobId driverId job.timeoutSeconds
                exact ⟨created.alike, congrArg some created.result⟩

theorem handleOfferResponse (alike : Alike e e') (offerId : Uuid) (accepted : Bool) :
    AlikeResults (e.handleOfferResponse host offerId accepted)
      (e'.handleOfferResponse host offerId accepted) := by
  have drawnTick : e'.drawn.tick = e.drawn.tick := alike.drawn.tick
  unfold Engine.handleOfferResponse
  rw [alike.ledger]
  cases e.offers.lookup offerId with
  | none => exact .both alike _
  | some o =>
      simp only [alike.tick, drawnTick]
      split
      · exact .both alike _
      · split
        · exact .both (alike.drawn.appendAndApply host _) _
        · cases accepted with
          | true => exact .both (alike.drawn.drawn.appendAndApply host _) _
          | false => exact .both (alike.drawn.drawn.appendAndApply host _) _

/-! ## Service -/

theorem submitJob (alike : Alike e e') (job : JobRequest) :
    AlikeResults (DispatchService.submitJob host e job) (DispatchService.submitJob host e' job) := by
  have registered := alike.registerJob host job
  have sameDriver : DispatchService.nearestAvailable host (e'.registerJob host job) job =
      DispatchService.nearestAvailable host (e.registerJob host job) job := by
    unfold DispatchService.nearestAvailable
    simp only [registered.nearestCandidatesInRadius host]
  unfold DispatchService.submitJob
  simp only [sameDriver]
  cases DispatchService.nearestAvailable host (e.registerJob host job) job with
  | none => exact .both registered _
  | some driverId =>
      have created := registered.createOffer host job.jobId driverId job.timeoutSeconds
      exact ⟨created.alike, congrArg Except.ok created.result⟩

theorem redispatch (alike : Alike e e') (seenJobs : Finset Uuid) (items : List ExpiredOffer) :
    AlikeResults (DispatchService.redispatch host e seenJobs items)
      (DispatchService.redispatch host e' seenJobs items) := by
  induction items generalizing e e' seenJobs with
  | nil => exact .both alike _
  | cons item rest ih =>
      unfold DispatchService.redispatch
      split
      · exact ih alike seenJobs
      · have turn := alike.createNextOfferForJob host item.jobId
        have later := ih turn.alike (insert item.jobId seenJobs)
        constructor
        · exact later.alike
        · simp only [turn.result, later.result]

theorem expirePendingOffersForDriver (alike : Alike e e') (driverId : Uuid) :
    AlikeResults (DispatchService.expirePendingOffersForDriver host e driverId)
      (DispatchService.expirePendingOffersForDriver host e' driverId) := by
  have expired : AlikeResults (Engine.expirePendingOffersForDriver host e driverId)
      (Engine.expirePendingOffersForDriver host e' driverId) := alike.expirePending host _
  have handedOn := expired.alike.redispatch host ∅ (e.expirePendingOffersForDriver host driverId).2
  constructor
  · simp only [DispatchService.expirePendingOffersForDriver, expired.result]
    exact handedOn.alike
  · simp only [DispatchService.expirePendingOffersForDriver, expired.result, handedOn.result]

theorem expirePendingOffersGlobal (alike : Alike e e') :
    AlikeResults (DispatchService.expirePendingOffersGlobal host e)
      (DispatchService.expirePendingOffersGlobal host e') := by
  have expired : AlikeResults (Engine.expirePendingOffersGlobal host e)
      (Engine.expirePendingOffersGlobal host e') := alike.expirePending host _
  have handedOn := expired.alike.redispatch host ∅ (e.expirePendingOffersGlobal host).2
  constructor
  · simp only [DispatchService.expirePendingOffersGlobal, expired.result]
    exact handedOn.alike
  · simp only [DispatchService.expirePendingOffersGlobal, expired.result, handedOn.result]

theorem respond (alike : Alike e e') (offerId : Uuid) (accepted : Bool) :
    AlikeResults (DispatchService.handleOfferResponse host e offerId accepted)
      (DispatchService.handleOfferResponse host e' offerId accepted) := by
  have answered := alike.handleOfferResponse host offerId accepted
  unfold DispatchService.handleOfferResponse Engine.offerJobId
  rw [alike.ledger]
  cases (e.offers.lookup offerId).map OfferRecord.jobId with
  | none => exact .both alike _
  | some jobId =>
      generalize e.handleOfferResponse host offerId accepted = answer at answered
      generalize e'.handleOfferResponse host offerId accepted = answer' at answered
      obtain ⟨e, outcome⟩ := answer
      obtain ⟨e', outcome'⟩ := answer'
      obtain ⟨answered, same⟩ := answered
      cases same
      match outcome with
      | .error _ => exact .both answered _
      | .ok (some _) => exact .both answered _
      | .ok none =>
          have turn := answered.createNextOfferForJob host jobId
          constructor
          · exact turn.alike
          · simp only [turn.result]

/-- An operation does the same to both, whatever their backends do. -/
theorem perform (alike : Alike e e') (op : Op) :
    AlikeResults (perform host e op) (perform host e' op) := by
  cases op with
  | submitJob job =>
      have submitted := alike.submitJob host job
      exact ⟨submitted.alike, congrArg _ submitted.result⟩
  | cancelOffer offerId => exact .both (alike.markOfferStatus host offerId .cancelled).alike _
  | cancelJob jobId =>
      have cancelled := alike.cancelJob host jobId
      exact ⟨cancelled.alike, congrArg _ cancelled.result⟩
  | recordWebhookDeliveryFailed jobId offerId =>
      exact .both (alike.recordWebhookDeliveryFailed host jobId offerId) _
  | expirePendingOffersForDriver driverId =>
      have expired := alike.expirePendingOffersForDriver host driverId
      exact ⟨expired.alike, congrArg _ expired.result⟩
  | expirePendingOffersGlobal =>
      have expired := alike.expirePendingOffersGlobal host
      exact ⟨expired.alike, congrArg _ expired.result⟩
  | handleOfferResponse offerId accepted =>
      have answered := alike.respond host offerId accepted
      exact ⟨answered.alike, congrArg _ answered.result⟩
  | upsertDriverLocation driverId category position status =>
      exact .both (alike.upsertDriverLocation host driverId category position status) _
  | expireStaleDrivers ttl =>
      have removed := alike.expireStaleDrivers host ttl
      exact ⟨removed.alike, congrArg _ removed.result⟩

end Alike

/-! ## Views -/

/-- Whatever a client asks, it is told the same. -/
structure SameViews {β γ : Type} (host : Host) (e : Engine β) (e' : Engine γ) : Prop where
  jobDispatchState : ∀ jobId, e'.jobDispatchState host jobId = e.jobDispatchState host jobId
  pendingOffersForDriver : ∀ driverId,
    e'.pendingOffersForDriver host driverId = e.pendingOffersForDriver host driverId
  cancelledOffersForJob : ∀ jobId,
    e'.cancelledOffersForJob host jobId = e.cancelledOffersForJob host jobId
  offerJobId : ∀ offerId, e'.offerJobId offerId = e.offerJobId offerId

theorem Alike.views {β γ : Type} (host : Host) {e : Engine β} {e' : Engine γ}
    (alike : Alike e e') : SameViews host e e' where
  jobDispatchState jobId := by
    unfold Engine.jobDispatchState
    rw [alike.ledger, alike.tick]
  pendingOffersForDriver driverId := by
    unfold Engine.pendingOffersForDriver
    rw [alike.ledger, alike.tick]
  cancelledOffersForJob jobId := by
    unfold Engine.cancelledOffersForJob
    rw [alike.ledger, alike.tick]
  offerJobId offerId := by
    unfold Engine.offerJobId
    rw [alike.ledger]

/-! ## Restarts -/

/-- What an operator may do between two operations. -/
inductive Errand where
  | perform (op : Op)
  | snapshot
  | restart (h3Resolution : Nat)

def Errand.ops (errands : List Errand) : List Op :=
  errands.filterMap fun
    | .perform op => some op
    | _ => none

/-- The engine, in a process that will draw what `earlier` would have drawn. -/
def Engine.drawingAs {β γ : Type} (e : Engine β) (earlier : Engine γ) : Engine β :=
  { e with tick := earlier.tick, driversTick := earlier.driversTick }

variable {β : Type} [StorageBackend β]

/-- Run the errands in order.  A restart drops the engine and recovers one from what
    was stored. -/
def attend (host : Host) (e : Engine β) : List Errand → Except String (List Exchange × Engine β)
  | [] => .ok ([], e)
  | .perform op :: rest =>
      (attend host (perform host e op).1 rest).map fun (past, e') =>
        ((op, (perform host e op).2) :: past, e')
  | .snapshot :: rest => attend host e.createSnapshot.1 rest
  | .restart h3Resolution :: rest =>
      match Engine.recover host h3Resolution e.storage e.tick with
      | .error err => .error err
      | .ok e' => attend host (e'.drawingAs e) rest

variable [LawfulBackend β] {host : Host} {P : Ledger → Prop}

omit [StorageBackend β] [LawfulBackend β] in
theorem Engine.limited_none {e : Engine (Crashing β)} (unlimited : e.storage.callsLeft = none) :
    e.limited none = e := by
  simp only [Engine.limited, Crashing.limited, ← unlimited]

/-- A process restarted between operations is in the state of the one before it. -/
theorem World.Logged.restart {e : Engine (Crashing β)}
    (logged : World.Logged host P ⟨e, true⟩) (h3Resolution : Nat) :
    ∃ e', Engine.recover host h3Resolution e.storage e.tick = .ok e' ∧
      World.Logged host P ⟨e'.drawingAs e, true⟩ ∧ Alike e (e'.drawingAs e) := by
  have unlimited : e.storage.limited none = e.storage :=
    congrArg Engine.storage (Engine.limited_none (logged.living rfl))
  obtain ⟨e', recovered, ledger, position, _, same, continues⟩ := logged.recover h3Resolution none
  rw [unlimited] at recovered same continues
  have synced := logged.synced rfl
  have again : Spatiad.Logged host P (e'.drawingAs e) := by
    have same' : Crashing.SameHistory e.storage (e'.drawingAs e).storage := same
    apply logged.logged.same_history same' (Nat.le_refl _)
    exact fun _ => ⟨ledger.trans synced.1.symm, position.trans synced.2.symm⟩
  exact ⟨e', recovered, ⟨again, fun _ => continues.unlimited (logged.living rfl)⟩,
    ⟨ledger.trans synced.1.symm, rfl, rfl⟩⟩

/-- An errand of a living process, beside one that never restarts nor stores a thing. -/
theorem attend_alike {γ : Type} [StorageBackend γ] {e : Engine (Crashing β)} {e' : Engine γ}
    (logged : World.Logged host (fun _ => True) ⟨e, true⟩) (alike : Alike e' e)
    (errands : List Errand) :
    ∃ final, attend host e errands = .ok ((performAll host e' (Errand.ops errands)).1, final) ∧
      Alike (performAll host e' (Errand.ops errands)).2 final := by
  induction errands generalizing e e' with
  | nil => exact ⟨e, rfl, alike⟩
  | cons errand rest ih =>
      cases errand with
      | perform op =>
          have taken := worldStep_perform host e op none
          rw [Engine.limited_none (logged.living rfl)] at taken
          have stepped := logged.step taken fun _ _ _ _ _ _ _ _ _ => trivial
          have both := alike.perform host op
          obtain ⟨final, attended, later⟩ := ih stepped both.alike
          refine ⟨final, ?_, later⟩
          simp only [attend, attended, Except.map, both.result]
          rfl
      | snapshot =>
          have taken := @worldStep.snapshot β _ host e none
          rw [Engine.limited_none (logged.living rfl)] at taken
          have stepped := logged.step taken fun _ _ _ _ _ _ _ _ _ => trivial
          obtain ⟨storage, same⟩ := e.createSnapshot_only
          have kept : Alike e' e.createSnapshot.1 := by
            rw [same]
            exact ⟨alike.ledger, alike.tick, alike.driversTick⟩
          exact ih stepped kept
      | restart h3Resolution =>
          obtain ⟨again, recovered, logged', restarted⟩ := logged.restart h3Resolution
          have kept : Alike e' (again.drawingAs e) :=
            ⟨restarted.ledger.trans alike.ledger, alike.tick, alike.driversTick⟩
          obtain ⟨final, attended, later⟩ := ih logged' kept
          refine ⟨final, ?_, later⟩
          simp only [attend, recovered]
          exact attended

def Engine.onBackend {γ : Type} (e : Engine β) (storage : γ) : Engine γ := { e with storage }

/-- Restarts and snapshots between operations go unnoticed: after any run with crashes,
    a process that is restarted and snapshotted as often as one likes answers every
    operation and every question as one that does neither, on any other backend, even
    one that fails. -/
theorem restarts_go_unnoticed {γ : Type} [StorageBackend γ] (host : Host) (h3Resolution : Nat)
    (storage : β) (tick : Nat) (blank : LawfulBackend.disk storage = WriteAheadLog.Disk.empty)
    (past : List Turn) (w : World β)
    (run : Run (worldStep host) anyStep (World.start h3Resolution storage tick) past w)
    (alive : w.alive = true) (errands : List Errand) (elsewhere : γ) :
    ∃ final,
      attend host w.engine errands =
        .ok ((performAll host (w.engine.onBackend elsewhere) (Errand.ops errands)).1, final) ∧
      SameViews host (performAll host (w.engine.onBackend elsewhere) (Errand.ops errands)).2 final := by
  obtain ⟨logged, _⟩ := (World.logged_start h3Resolution tick blank trivial).run_any run
  obtain ⟨engine, running⟩ := w
  cases alive
  have alike : Alike (engine.onBackend elsewhere) engine := ⟨rfl, rfl, rfl⟩
  obtain ⟨final, attended, later⟩ := attend_alike logged alike errands
  exact ⟨final, attended, later.views host⟩

/-- A job is submitted, the process restarts and snapshots between the offer and its
    answer, and restarts again. -/
theorem answer_after_restart :
    ∃ (e : Engine (Crashing SqliteBackend)) (final : Engine (Crashing SqliteBackend)),
      attend stillHost e [.restart 8, .snapshot, .perform (.handleOfferResponse 3 true), .restart 5] =
        .ok ((performAll stillHost (e.onBackend InMemoryBackend.mk)
          [.handleOfferResponse 3 true]).1, final) ∧
      final.jobDispatchState stillHost 1 = .matched 100 3 := by
  let e₀ : Engine (Crashing SqliteBackend) := Engine.withStorage 8 ⟨SqliteBackend.blank, none, []⟩ 0
  let e₁ := e₀.recovered stillHost
  let e₂ := (perform stillHost (e₁.limited none) (comesOnline 100)).1
  let e₃ := (perform stillHost (e₂.limited none) (.submitJob (jobAtOrigin 1))).1
  have recovers : worldStep stillHost ⟨e₀, false⟩ (.recover none) ⟨e₁, true⟩ := .recover rfl
  have online : worldStep stillHost ⟨e₁, true⟩ (.perform (comesOnline 100) none _) ⟨e₂, true⟩ :=
    worldStep_perform ..
  have submits : worldStep stillHost ⟨e₂, true⟩ (.perform (.submitJob (jobAtOrigin 1)) none _)
    ⟨e₃, true⟩ := worldStep_perform ..
  have run : Run (worldStep stillHost) anyStep ⟨e₀, false⟩ _ ⟨e₃, true⟩ :=
    ((Run.start.next trivial recovers).next trivial online).next trivial submits
  obtain ⟨final, attended, views⟩ := restarts_go_unnoticed stillHost 8 SqliteBackend.blank 0 rfl _
    ⟨e₃, true⟩ run rfl
    [.restart 8, .snapshot, .perform (.handleOfferResponse 3 true), .restart 5] InMemoryBackend.mk
  refine ⟨e₃, final, attended, ?_⟩
  rw [views.jobDispatchState 1]
  decide +kernel

end Spatiad
