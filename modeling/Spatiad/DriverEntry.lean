import Spatiad.EventsEndpoint

/-! # Where drivers enter

Drivers are reported over HTTP and over their WebSocket.  The engine is changed by one
critical section after another, each of some request that is under way beside others;
the HTTP report is validated before its section, the WebSocket message is not.
-/

namespace Spatiad

open Foundation

/-! ## The other endpoints -/

structure DriverUpsertRequest where
  driverId : Uuid
  category : String
  status : DriverStatus
  position : Coordinates
  deriving DecidableEq, Repr

/-- The responses that carry a status alone, or an error. -/
inductive StatusReply where
  | ok
  | unauthorized
  | badRequest (error message : String)
  | rateLimited (snapshot : RateLimitSnapshot)
  | notFound
  deriving DecidableEq, Repr

structure JobStatusResponse where
  jobId : Uuid
  state : String
  matchedDriverId : Option Uuid
  matchedOfferId : Option Uuid
  deriving DecidableEq, Repr

def DriverUpsertRequest.validate (host : Host) (payload : DriverUpsertRequest) :
    Except StatusReply Unit := do
  let as (error : String) : Except ValidationError Unit → Except StatusReply Unit :=
    Except.mapError fun e => .badRequest error e.message
  as "invalid_category" (validateCategory host payload.category)
  as "invalid_coordinates" (validateCoordinates host payload.position)

def JobStatusResponse.ofState (jobId : Uuid) : JobDispatchState → JobStatusResponse
  | .unknownJob => ⟨jobId, "unknown", none, none⟩
  | .pending => ⟨jobId, "pending", none, none⟩
  | .searching => ⟨jobId, "searching", none, none⟩
  | .cancelled => ⟨jobId, "cancelled", none, none⟩
  | .matched driverId offerId => ⟨jobId, "matched", some driverId, some offerId⟩
  | .exhausted => ⟨jobId, "exhausted", none, none⟩

variable {β : Type} [StorageBackend β] {host : Host}

namespace Task

variable (others : Others host β) (t : Task β)

/-- Authorization and the rate limit, which every dispatch endpoint checks. -/
def enter (headers : Headers) (endpoint : String) : Except StatusReply Unit × Task β :=
  if !isDispatcherAuthorized t.api headers then (.error .unauthorized, t)
  else
    let (rateLimit, t) := t.checkDispatchRequest others headers endpoint
    if rateLimit.allowed then (.ok (), t) else (.error (.rateLimited rateLimit), t)

/-- `POST /api/v1/driver/upsert` -/
def upsertDriver (headers : Headers) (payload : DriverUpsertRequest) : StatusReply × Task β :=
  if !isDispatcherAuthorized t.api headers then (.unauthorized, t)
  else
    match payload.validate host with
    | .error reply => (reply, t)
    | .ok () =>
        let (rateLimit, t) := t.checkDispatchRequest others headers "driver_upsert"
        if !rateLimit.allowed then (.rateLimited rateLimit, t)
        else
          (.ok, (t.run others fun e =>
            (e.upsertDriverLocation host payload.driverId payload.category payload.position
              payload.status, ())).2)

/-- `POST /api/v1/dispatch/cancel` -/
def cancelOffer (headers : Headers) (offerId : Uuid) : StatusReply × Task β :=
  match t.enter others headers "dispatch_cancel_offer" with
  | (.error reply, t) => (reply, t)
  | (.ok (), t) => (.ok, (t.run others fun e => (DispatchService.cancelOffer host e offerId, ())).2)

/-- `POST /api/v1/dispatch/job/cancel` -/
def cancelJob (headers : Headers) (jobId : Uuid) : StatusReply × Task β :=
  match t.enter others headers "dispatch_cancel_job" with
  | (.error reply, t) => (reply, t)
  | (.ok (), t) =>
      let (found, t) := t.run others fun e => e.cancelJob host jobId
      (if found then .ok else .notFound, t)

/-- `GET /api/v1/dispatch/job/:job_id` -/
def dispatchJobStatus (headers : Headers) (jobId : Uuid) :
    Except StatusReply JobStatusResponse × Task β :=
  match t.enter others headers "dispatch_job_status" with
  | (.error reply, t) => (.error reply, t)
  | (.ok (), t) =>
      let t := t.lock others
      (.ok (.ofState jobId (t.api.dispatch.jobDispatchState host jobId)), t)

/-- One round of the background task that removes stale drivers. -/
def expireStaleDrivers (ttlSecs : Nat) : Task β :=
  (t.run others fun e => e.expireStaleDrivers host (seconds (asI64 ttlSecs))).2

end Task

/-! ## Requests -/

/-- What is under way: an HTTP request, a message of a driver, or one of the tasks that
    run by themselves.  A session flushes when it opens and once a second. -/
inductive Request where
  | upsertDriver (headers : Headers) (payload : DriverUpsertRequest)
  | dispatchOffer (headers : Headers) (payload : OfferRequest)
  | cancelOffer (headers : Headers) (offerId : Uuid)
  | cancelJob (headers : Headers) (jobId : Uuid)
  | dispatchJobStatus (headers : Headers) (jobId : Uuid)
  | dispatchJobEvents (chrono : Chrono) (headers : Headers) (jobId : Uuid) (query : JobEventsQuery)
  /-- `health` and `ready` only read. -/
  | probe
  | driverMessage (driverId : Uuid) (message : Message)
  | flush (driverId : Uuid)
  | expireGlobally
  | expireStaleDrivers (ttlSecs : Nat)

def handle (others : Others host β) (delivers : String → MatchResult → Bool) (t : Task β) :
    Request → Task β
  | .upsertDriver headers payload => (t.upsertDriver others headers payload).2
  | .dispatchOffer headers payload => (t.dispatchOffer others headers payload).2
  | .cancelOffer headers offerId => (t.cancelOffer others headers offerId).2
  | .cancelJob headers jobId => (t.cancelJob others headers jobId).2
  | .dispatchJobStatus headers jobId => (t.dispatchJobStatus others headers jobId).2
  | .dispatchJobEvents chrono headers jobId query =>
      (t.dispatchJobEvents chrono others headers jobId query).2
  | .probe => t
  | .driverMessage driverId message => (t.handleDriverMessage others delivers driverId message).2
  | .flush driverId => (t.flushExpiredOffers others driverId).2
  | .expireGlobally => t.expireGlobally others
  | .expireStaleDrivers ttlSecs => t.expireStaleDrivers others ttlSecs

/-- The engine changes in a critical section of a request, begun at any time and
    interleaved with any others, or by a reading of the clock. -/
inductive requestStep (host : Host) : DispatchService β → Request → DispatchService β → Prop where
  | entered {e request e'} (others : Others host β) (delivers : String → MatchResult → Bool)
      (s : ApiState β) (socket : Socket)
      (changed : (e, e') ∈ (handle others delivers (.start s socket) request).sections) :
      requestStep host e request e'
  | reading {e request} : requestStep host e request e.drawn

/-! ## What a request does to the engine -/

/-- From `t` to `t'` every section was one of these operations. -/
def Operates (host : Host) (may : Op → Prop) (t t' : Task β) : Prop :=
  ∀ taken ∈ t'.sections, taken ∈ t.sections ∨
    ∃ op e₀, may op ∧ (e₀ = taken.1 ∨ e₀ = taken.1.drawn) ∧ taken.2 = (perform host e₀ op).1

namespace Operates

variable {may : Op → Prop} {t t' t'' : Task β} {others : Others host β}

theorem of_sections (same : t'.sections = t.sections) : Operates host may t t' := by
  intro taken member
  rw [same] at member
  exact .inl member

theorem trans (first : Operates host may t t') (second : Operates host may t' t'') :
    Operates host may t t'' := by
  intro taken member
  rcases second taken member with early | late
  · exact first taken early
  · exact .inr late

theorem run {α : Type} {operation : DispatchService β → DispatchService β × α} {op : Op}
    (allowed : may op) (same : ∀ e, (operation e).1 = (perform host e op).1) :
    Operates host may t (t.run others operation).2 := by
  intro taken member
  rcases List.mem_append.mp member with early | late
  · exact .inl early
  · obtain rfl := List.mem_singleton.mp late
    exact .inr ⟨op, _, allowed, .inl rfl, same _⟩

end Operates

section frames

variable (others : Others host β) (t : Task β)

omit [StorageBackend β] in
theorem sections_sendAll (payloads : List DriverOutbound) :
    (t.sendAll payloads).2.sections = t.sections := by
  induction payloads generalizing t with
  | nil => rfl
  | cons payload rest ih =>
      simp only [Task.sendAll, Task.sendOutbound, Task.sendFrame]
      cases t.socket.accepts t.socket.attempts with
      | false => rfl
      | true => exact ih _

omit [StorageBackend β] in
theorem sections_notifyNewOffer (offer : OfferRecord) :
    (t.notifyNewOffer others offer).sections = t.sections := by
  simp only [Task.notifyNewOffer]
  split <;> rfl

omit [StorageBackend β] in
theorem sections_notifyNewOffers (offers : List OfferRecord) :
    (t.notifyNewOffers others offers).sections = t.sections := by
  unfold Task.notifyNewOffers
  induction offers generalizing t with
  | nil => rfl
  | cons offer rest ih => exact (ih _).trans (sections_notifyNewOffer others t offer)

omit [StorageBackend β] in
theorem sections_sends {α : Type} (driver : α → Uuid) (outbound : α → DriverOutbound)
    (items : List α) :
    (items.foldl (fun t item => t.send (driver item) (outbound item)) t).sections = t.sections := by
  induction items generalizing t with
  | nil => rfl
  | cons item rest ih => exact ih _

omit [StorageBackend β] in
theorem sections_notifyCompetingCancellations (jobId : Uuid) :
    (t.notifyCompetingCancellations others jobId).sections = t.sections := by
  simp only [Task.notifyCompetingCancellations]
  split
  · rfl
  · exact sections_sends _ _ _ _

end frames

/-! ## What a request may do -/

def Accepted (host : Host) (category : String) (position : Coordinates) : Prop :=
  validateCategory host category = .ok () ∧ validateCoordinates host position = .ok ()

def ReportsAccepted (host : Host) : Op → Prop
  | .upsertDriverLocation _ category position _ => Accepted host category position
  | _ => True

def Request.Accepted (host : Host) : Request → Prop
  | .driverMessage _ (.text (some (.location category _ latitude longitude _))) =>
      Spatiad.Accepted host category ⟨latitude, longitude⟩
  | _ => True

section requests

variable (others : Others host β) (t : Task β)

theorem DriverUpsertRequest.accepted_of_validate {payload : DriverUpsertRequest}
    (valid : payload.validate host = .ok ()) : Accepted host payload.category payload.position := by
  unfold DriverUpsertRequest.validate at valid
  cases category : validateCategory host payload.category with
  | error err => simp [category, Except.mapError, bind, Except.bind] at valid
  | ok =>
      cases coordinates : validateCoordinates host payload.position with
      | error err => simp [category, coordinates, Except.mapError, bind, Except.bind] at valid
      | ok => exact ⟨category, coordinates⟩

theorem enter_operates {may : Op → Prop} (headers : Headers) (endpoint : String) :
    Operates host may t (t.enter others headers endpoint).2 := by
  apply Operates.of_sections
  unfold Task.enter
  split
  · rfl
  · simp only
    split <;> rfl

theorem upsertDriver_operates (headers : Headers) (payload : DriverUpsertRequest) :
    Operates host (ReportsAccepted host) t (t.upsertDriver others headers payload).2 := by
  unfold Task.upsertDriver
  split
  · exact .of_sections rfl
  · cases valid : payload.validate host with
    | error reply => exact .of_sections rfl
    | ok =>
        have checked : Operates host (ReportsAccepted host) t
            (t.checkDispatchRequest others headers "driver_upsert").2 := .of_sections rfl
        simp only
        split
        · exact checked
        · have report : ReportsAccepted host (.upsertDriverLocation payload.driverId payload.category
              payload.position payload.status) := DriverUpsertRequest.accepted_of_validate valid
          exact checked.trans (.run report fun _ => rfl)

theorem dispatchOffer_operates (headers : Headers) (payload : OfferRequest) :
    Operates host (ReportsAccepted host) t (t.dispatchOffer others headers payload).2 := by
  have admitted : (t.admission others headers payload).2.sections = t.sections := by
    unfold Task.admission
    split
    · rfl
    · cases payload.validate host with
      | error reply => rfl
      | ok =>
          simp only
          split <;> rfl
  unfold Task.dispatchOffer
  generalize t.admission others headers payload = result at admitted
  obtain ⟨outcome, t'⟩ := result
  cases outcome with
  | error reply => exact .of_sections admitted
  | ok =>
      intro taken member
      rcases List.mem_append.mp member with early | late
      · exact .inl (admitted ▸ early)
      · obtain rfl := List.mem_singleton.mp late
        exact .inr ⟨.submitJob _, _, trivial, .inr rfl, rfl⟩

theorem cancelOffer_operates (headers : Headers) (offerId : Uuid) :
    Operates host (ReportsAccepted host) t (t.cancelOffer others headers offerId).2 := by
  have entered := @enter_operates β _ host others t (ReportsAccepted host) headers
    "dispatch_cancel_offer"
  have allowed : ReportsAccepted host (.cancelOffer offerId) := trivial
  unfold Task.cancelOffer
  generalize t.enter others headers "dispatch_cancel_offer" = result at entered
  obtain ⟨outcome, t'⟩ := result
  cases outcome with
  | error reply => exact entered
  | ok => exact entered.trans (.run allowed fun _ => rfl)

theorem cancelJob_operates (headers : Headers) (jobId : Uuid) :
    Operates host (ReportsAccepted host) t (t.cancelJob others headers jobId).2 := by
  have entered := @enter_operates β _ host others t (ReportsAccepted host) headers
    "dispatch_cancel_job"
  have allowed : ReportsAccepted host (.cancelJob jobId) := trivial
  unfold Task.cancelJob
  generalize t.enter others headers "dispatch_cancel_job" = result at entered
  obtain ⟨outcome, t'⟩ := result
  cases outcome with
  | error reply => exact entered
  | ok => exact entered.trans (.run allowed fun _ => rfl)

theorem dispatchJobStatus_operates (headers : Headers) (jobId : Uuid) :
    Operates host (ReportsAccepted host) t (t.dispatchJobStatus others headers jobId).2 := by
  have entered := @enter_operates β _ host others t (ReportsAccepted host) headers
    "dispatch_job_status"
  unfold Task.dispatchJobStatus
  generalize t.enter others headers "dispatch_job_status" = result at entered
  obtain ⟨outcome, t'⟩ := result
  cases outcome with
  | error reply => exact entered
  | ok => exact entered

theorem dispatchJobEvents_operates (chrono : Chrono) (headers : Headers) (jobId : Uuid)
    (query : JobEventsQuery) :
    Operates host (ReportsAccepted host) t
      (t.dispatchJobEvents chrono others headers jobId query).2 := by
  apply Operates.of_sections
  unfold Task.dispatchJobEvents
  split
  · rfl
  · simp only
    split
    · rfl
    · cases query.parse chrono with
      | error message => rfl
      | ok selection => rfl

theorem flushExpiredOffers_operates (driverId : Uuid) :
    Operates host (ReportsAccepted host) t (t.flushExpiredOffers others driverId).2 := by
  have allowed : ReportsAccepted host (.expirePendingOffersForDriver driverId) := trivial
  have ran : Operates host (ReportsAccepted host) t (t.run others fun e =>
      DispatchService.expirePendingOffersForDriver host e driverId).2 := .run allowed fun _ => rfl
  simp only [Task.flushExpiredOffers]
  generalize t.run others (fun e =>
    DispatchService.expirePendingOffersForDriver host e driverId) = result at ran
  obtain ⟨update, t'⟩ := result
  have sent := sections_sendAll t' (update.expired.map fun item => .offerExpired item.offerId)
  simp only
  generalize t'.sendAll (update.expired.map fun item => .offerExpired item.offerId) = result at sent
  obtain ⟨ok, t''⟩ := result
  have flushed : Operates host (ReportsAccepted host) t t'' := ran.trans (.of_sections sent)
  cases ok with
  | false => exact flushed
  | true => exact flushed.trans (.of_sections (sections_notifyNewOffers others t'' update.newOffers))

theorem announceMatch_operates (delivers : String → MatchResult → Bool) (result : MatchResult) :
    Operates host (ReportsAccepted host) t (t.announceMatch others delivers result).2 := by
  have sent : (t.sendOutbound (.matched result.offerId result.jobId)).2.sections = t.sections := rfl
  unfold Task.announceMatch
  generalize t.sendOutbound (.matched result.offerId result.jobId) = outcome at sent
  obtain ⟨ok, t'⟩ := outcome
  cases ok with
  | false => exact .of_sections sent
  | true =>
      have told := sections_notifyCompetingCancellations others t' result.jobId
      have before : Operates host (ReportsAccepted host) t
          (t'.notifyCompetingCancellations others result.jobId) := .of_sections (told.trans sent)
      have allowed : ReportsAccepted host
          (.recordWebhookDeliveryFailed result.jobId result.offerId) := trivial
      simp only
      split
      · exact before
      · split
        · exact before
        · exact before.trans (.run allowed fun _ => rfl)

theorem respond_operates (delivers : String → MatchResult → Bool) (offerId : Uuid)
    (accepted : Bool) :
    Operates host (ReportsAccepted host) t (t.respond others delivers offerId accepted).2 := by
  have allowed : ReportsAccepted host (.handleOfferResponse offerId accepted) := trivial
  have ran : Operates host (ReportsAccepted host) t (t.run others fun e =>
      DispatchService.handleOfferResponse host e offerId accepted).2 := .run allowed fun _ => rfl
  unfold Task.respond
  generalize t.run others (fun e =>
    DispatchService.handleOfferResponse host e offerId accepted) = result at ran
  obtain ⟨outcome, t'⟩ := result
  cases outcome with
  | error err => exact ran
  | ok update =>
      have notified : Operates host (ReportsAccepted host) t
          (t'.notifyNewOffers others update.newOffers) :=
        ran.trans (.of_sections (sections_notifyNewOffers others t' update.newOffers))
      simp only
      cases update.matched with
      | none => exact notified
      | some result => exact notified.trans (announceMatch_operates others _ delivers result)

theorem handleOfferAnswer_operates (delivers : String → MatchResult → Bool)
    (driverId offerId : Uuid) (accepted : Bool) :
    Operates host (ReportsAccepted host) t
      (t.handleOfferAnswer others delivers driverId offerId accepted).2 := by
  have flushed := flushExpiredOffers_operates others t driverId
  unfold Task.handleOfferAnswer
  generalize t.flushExpiredOffers others driverId = result at flushed
  obtain ⟨ok, t'⟩ := result
  cases ok with
  | false => exact flushed
  | true => exact flushed.trans (respond_operates others t' delivers offerId accepted)

theorem expireGlobally_operates :
    Operates host (ReportsAccepted host) t (t.expireGlobally others) := by
  have allowed : ReportsAccepted host .expirePendingOffersGlobal := trivial
  have ran : Operates host (ReportsAccepted host) t (t.run others fun e =>
      DispatchService.expirePendingOffersGlobal host e).2 := .run allowed fun _ => rfl
  simp only [Task.expireGlobally]
  generalize t.run others (fun e => DispatchService.expirePendingOffersGlobal host e) = result at ran
  obtain ⟨update, t'⟩ := result
  simp only
  split
  · exact ran
  · refine ran.trans (.of_sections ?_)
    rw [sections_notifyNewOffers, sections_sends]
    rfl

/-- Every section of a request is an operation, and reports only accepted data if the
    request is no message with refused data. -/
theorem handle_operates (delivers : String → MatchResult → Bool) {request : Request}
    (accepted : request.Accepted host) :
    Operates host (ReportsAccepted host) t (handle others delivers t request) := by
  cases request with
  | upsertDriver headers payload => exact upsertDriver_operates others t headers payload
  | dispatchOffer headers payload => exact dispatchOffer_operates others t headers payload
  | cancelOffer headers offerId => exact cancelOffer_operates others t headers offerId
  | cancelJob headers jobId => exact cancelJob_operates others t headers jobId
  | dispatchJobStatus headers jobId => exact dispatchJobStatus_operates others t headers jobId
  | dispatchJobEvents chrono headers jobId query =>
      exact dispatchJobEvents_operates others t chrono headers jobId query
  | probe => exact .of_sections rfl
  | flush driverId => exact flushExpiredOffers_operates others t driverId
  | expireGlobally => exact expireGlobally_operates others t
  | expireStaleDrivers ttlSecs =>
      have allowed : ReportsAccepted host (.expireStaleDrivers (seconds (asI64 ttlSecs))) := trivial
      exact .run allowed fun _ => rfl
  | driverMessage driverId message =>
      cases message with
      | close | binary | pong => exact .of_sections rfl
      | ping => exact .of_sections rfl
      | text inbound =>
          cases inbound with
          | none => exact .of_sections rfl
          | some inbound =>
              cases inbound with
              | location category status latitude longitude timestamp =>
                  have report : ReportsAccepted host (.upsertDriverLocation driverId category
                    ⟨latitude, longitude⟩ status) := accepted
                  exact .run report fun _ => rfl
              | offerResponse offerId answer =>
                  exact handleOfferAnswer_operates others t delivers driverId offerId answer

end requests

/-! ## Runs -/

def Ledger.DriversAccepted (host : Host) (s : Ledger) : Prop :=
  ∀ k d, s.drivers.lookup k = some d → Accepted host d.category d.position

theorem driversAccepted_perform {e : DispatchService β} {op : Op} (sound : Sound host e)
    (held : e.toLedger.DriversAccepted host) (reports : ReportsAccepted host op) :
    (perform host e op).1.toLedger.DriversAccepted host := by
  refine sound.step_invariant (serviceStep_perform host e op) (Ledger.DriversAccepted host) held ?_
  intro s cmd _ held issued k d found
  cases Ledger.driver_origin found with
  | reported =>
      simp only at issued
      cases issued with
      | upsert => exact reports
  | kept before => exact held k d before
  | @matched _ r before => exact held k r before

theorem Request.accepted_step {e e' : DispatchService β} {request : Request}
    (sound : Sound host e) (held : e.toLedger.DriversAccepted host)
    (accepted : request.Accepted host) (taken : requestStep host e request e') :
    Sound host e' ∧ e'.toLedger.DriversAccepted host := by
  cases taken with
  | reading => exact ⟨sound.drawn, held⟩
  | entered others delivers s socket changed =>
      rcases handle_operates others (.start s socket) delivers accepted _ changed with
        early | ⟨op, e₀, reports, begun, rfl⟩
      · cases early
      · have before : Sound host e₀ ∧ e₀.toLedger.DriversAccepted host := by
          rcases begun with same | same
          · rw [same]
            exact ⟨sound, held⟩
          · rw [same]
            exact ⟨sound.drawn, held⟩
        exact ⟨before.1.step (serviceStep_perform host e₀ op),
          driversAccepted_perform before.1 before.2 reports⟩

/-- A message whose data is refused is handled all the same. -/
theorem refused_message_enters (others : Others host β) (delivers : String → MatchResult → Bool)
    (t : Task β) (driverId : Uuid) {message : Message}
    (refused : ¬ (Request.driverMessage driverId message).Accepted host) :
    ∃ e e', (e, e') ∈ (handle others delivers t (.driverMessage driverId message)).sections ∧
      ∃ d, e'.drivers.lookup driverId = some d ∧ ¬ Accepted host d.category d.position := by
  cases message with
  | close | binary | pong | ping => exact absurd trivial refused
  | text inbound =>
      cases inbound with
      | none => exact absurd trivial refused
      | some inbound =>
          cases inbound with
          | offerResponse => exact absurd trivial refused
          | location category status latitude longitude timestamp =>
              refine ⟨(t.lock others).api.dispatch, _,
                List.mem_append_right _ (List.mem_singleton_self _), ?_⟩
              let e := (t.lock others).api.dispatch
              let d : DriverSnapshot :=
                ⟨driverId, category, status, ⟨latitude, longitude⟩, host.clock e.tick⟩
              refine ⟨d, ?_, refused⟩
              show (e.upsertDriverLocation host driverId category ⟨latitude, longitude⟩
                status).drivers.lookup driverId = some d
              unfold Engine.upsertDriverLocation
              rw [Engine.appendAndApply_toLedger]
              simp only [Ledger.apply, AList.lookup_insert]
              rfl

/-- From an empty engine, while every location message that is handled carries a category
    and a position that pass the checks of an HTTP report, every driver has such a category
    and position, however the requests interleave.  A message that does not puts in a
    driver that has not. -/
theorem drivers_accepted_unless_message_refused (host : Host) (h3Resolution : Nat) (storage : β)
    (tick : Nat) (past : List Request) (e : DispatchService β)
    (run : Run (requestStep host) (fun _ _ request => request.Accepted host)
      (Engine.withStorage h3Resolution storage tick) past e) :
    (∀ k d, e.drivers.lookup k = some d →
      validateCategory host d.category = .ok () ∧ validateCoordinates host d.position = .ok ()) ∧
    ∀ (others : Others host β) delivers (t : Task β) driverId message,
      ¬ (Request.driverMessage driverId message).Accepted host →
        ∃ e e', (e, e') ∈ (handle others delivers t (.driverMessage driverId message)).sections ∧
          ∃ d, e'.drivers.lookup driverId = some d ∧ ¬ Accepted host d.category d.position := by
  have held : Sound host e ∧ e.toLedger.DriversAccepted host := by
    refine run.invariant (fun _ e => Sound host e ∧ e.toLedger.DriversAccepted host)
      ⟨sound_withStorage h3Resolution storage tick, ?_⟩ ?_
    · intro k d found
      simp [Engine.withStorage, Ledger.empty] at found
    · intro _ _ request _ held accepted taken
      exact request.accepted_step held.1 held.2 accepted taken
  exact ⟨held.2, fun others delivers t driverId _ refused =>
    refused_message_enters others delivers t driverId refused⟩

def openService : ApiState InMemoryBackend := serviceAfter stillHost [] []

def reportsAt (latitude : ℚ) : Request :=
  .driverMessage 100 (.text (some (.location "tow_truck" .available latitude 0 0)))

/-- A latitude of 100 degrees enters the engine. -/
theorem refused_latitude_enters :
    ∃ past e, Run (requestStep stillHost) anyStep emptyService past e ∧
      ∃ d, e.drivers.lookup 100 = some d ∧
        validateCoordinates stillHost d.position ≠ .ok () := by
  have taken : requestStep stillHost emptyService (reportsAt 100) _ :=
    .entered (Others.none stillHost InMemoryBackend) (fun _ _ => true) openService openSocket
      (List.mem_singleton_self _)
  refine ⟨_, _, Run.start.next trivial taken, ⟨100, "tow_truck", .available, ⟨100, 0⟩, 0⟩, rfl, ?_⟩
  decide +kernel

/-- A latitude of 90 degrees leaves every driver accepted. -/
theorem accepted_reports_enter :
    ∃ past e, Run (requestStep stillHost) (fun _ _ request => request.Accepted stillHost) emptyService
        past e ∧
      ∀ k d, e.drivers.lookup k = some d → validateCoordinates stillHost d.position = .ok () := by
  have taken : requestStep stillHost emptyService (reportsAt 90) _ :=
    .entered (Others.none stillHost InMemoryBackend) (fun _ _ => true) openService openSocket
      (List.mem_singleton_self _)
  have accepted : (reportsAt 90).Accepted stillHost := by
    unfold reportsAt Request.Accepted Accepted
    decide +kernel
  have run : Run (requestStep stillHost) (fun _ _ request => request.Accepted stillHost) emptyService
      _ _ := Run.start.next accepted taken
  exact ⟨_, _, run, fun k d found =>
    ((drivers_accepted_unless_message_refused stillHost 8 InMemoryBackend.mk 0 _ _ run).1 k d found).2⟩

end Spatiad
