import Spatiad.ServiceRuns
import Spatiad.Sessions
import Spatiad.Validation
import Spatiad.RateLimit

/-! # The API layer

Handlers share an `ApiState` and hold a lock only for one critical section at a
time.  A `Task` is one handler under way; before each section `Others` may have
changed the shared state.  What a task does to the engine, which offers it looks
up and what it puts on session channels is kept with it.
-/

namespace Spatiad

open Foundation

structure ApiState (β : Type) where
  dispatch : DispatchService β
  webhookUrl : Option String
  dispatcherToken : Option String
  dispatchRateLimiter : SlidingWindowRateLimiter
  sessions : Sessions

/-- The value of each header that is present and readable as text. -/
abbrev Headers := String → Option String

/-- `str::strip_prefix` -/
def stripPrefix (pre text : String) : Option String :=
  if pre.toList.isPrefixOf text.toList then some (String.ofList (text.toList.drop pre.length))
  else none

/-- `str::trim`, on the characters a header may have. -/
def trim (text : String) : String :=
  let blank (c : Char) : Bool := c == ' ' || c == '\t'
  String.ofList ((text.toList.dropWhile blank).reverse.dropWhile blank).reverse

section auth

variable {β : Type} (s : ApiState β) (headers : Headers)

def isDispatcherAuthorized : Bool :=
  match s.dispatcherToken with
  | none => true
  | some expected =>
      (headers "authorization").bind (stripPrefix "Bearer ") == some expected ||
        headers "x-spatiad-dispatcher-token" == some expected

/-- Whom a request is counted against. -/
def dispatchActorKey : String :=
  match (headers "x-spatiad-client-id").map trim |>.filter (!·.isEmpty) with
  | some clientId => "client:" ++ clientId
  | none =>
      if (headers "authorization").isSome then "auth_header"
      else if (headers "x-spatiad-dispatcher-token").isSome then "dispatcher_header"
      else "anonymous"

end auth

/-! ## Tasks -/

inductive DriverInbound where
  | location (category : String) (status : DriverStatus) (latitude longitude : ℚ) (timestamp : Int)
  | offerResponse (offerId : Uuid) (accepted : Bool)
  deriving DecidableEq, Repr

/-- A WebSocket message; a text is given by what it parses to. -/
inductive Message where
  | text (inbound : Option DriverInbound)
  | close
  | ping
  | binary
  | pong
  deriving DecidableEq, Repr

inductive Frame where
  | text (outbound : DriverOutbound)
  | pong
  deriving DecidableEq, Repr

/-- The socket of a session: `accepts n` says whether its `n`-th send succeeds. -/
structure Socket where
  accepts : Nat → Bool
  attempts : Nat
  sent : List Frame

/-- A look-up of a new offer: if it was still pending and unexpired, the session that
    was then registered for its driver, if any. -/
structure LookUp where
  offerId : Uuid
  session : Option (Option Nat)
  deriving DecidableEq, Repr

structure Task (β : Type) where
  api : ApiState β
  locks : Nat
  socket : Socket
  /-- The engine before and after each operation of the task. -/
  sections : List (DispatchService β × DispatchService β)
  lookUps : List LookUp
  /-- What the task put on which session's channel. -/
  enqueued : List (Nat × DriverOutbound)

variable {β : Type} [StorageBackend β] {host : Host}

structure ApiState.Sound (host : Host) (s : ApiState β) : Prop where
  dispatch : Spatiad.Sound host s.dispatch
  sessions : s.sessions.Wired

/-- The shared state stays sound, and no offer is ever removed from it. -/
structure ApiState.Evolves (host : Host) (s s' : ApiState β) : Prop where
  sound : s.Sound host → s'.Sound host
  kept : ∀ k, s.dispatch.offers.lookup k ≠ none → s'.dispatch.offers.lookup k ≠ none

omit [StorageBackend β] in
theorem ApiState.Evolves.refl (s : ApiState β) : s.Evolves host s :=
  ⟨fun sound => sound, fun _ present => present⟩

omit [StorageBackend β] in
theorem ApiState.Evolves.trans {s s' s'' : ApiState β} (first : s.Evolves host s')
    (later : s'.Evolves host s'') : s.Evolves host s'' :=
  ⟨fun sound => later.sound (first.sound sound), fun k present =>
    later.kept k (first.kept k present)⟩

/-- What other tasks make of the shared state before this one gets its next lock. -/
structure Others (host : Host) (β : Type) where
  before : Nat → ApiState β → ApiState β
  evolves : ∀ n (s : ApiState β), s.Evolves host (before n s)

def Others.none (host : Host) (β : Type) : Others host β where
  before _ s := s
  evolves _ s := .refl s

namespace Task

variable (others : Others host β) (t : Task β)

def start (s : ApiState β) (socket : Socket) : Task β := ⟨s, 0, socket, [], [], []⟩

def lock : Task β := { t with api := others.before t.locks t.api, locks := t.locks + 1 }

def now (host : Host) (t : Task β) : DateTime × Task β :=
  (host.clock t.api.dispatch.tick,
    { t with api := { t.api with dispatch := t.api.dispatch.drawn } })

def run {α : Type} (operation : DispatchService β → DispatchService β × α) : α × Task β :=
  let t := t.lock others
  let (dispatch, result) := operation t.api.dispatch
  (result, { t with
    api := { t.api with dispatch }
    sections := t.sections ++ [(t.api.dispatch, dispatch)] })

omit [StorageBackend β] in
def send (driverId : Uuid) (outbound : DriverOutbound) : Task β :=
  { t with
    api := { t.api with sessions := t.api.sessions.send driverId outbound }
    enqueued := t.enqueued ++
      ((t.api.sessions.receiver driverId).map fun n => (n, outbound)).toList }

omit [StorageBackend β] in
def sendFrame (frame : Frame) : Bool × Task β :=
  let ok := t.socket.accepts t.socket.attempts
  (ok, { t with socket :=
    { t.socket with
      attempts := t.socket.attempts + 1
      sent := if ok then t.socket.sent ++ [frame] else t.socket.sent } })

omit [StorageBackend β] in
def sendOutbound (payload : DriverOutbound) : Bool × Task β := t.sendFrame (.text payload)

omit [StorageBackend β] in
/-- Send one after another, up to the first that fails. -/
def sendAll (t : Task β) : List DriverOutbound → Bool × Task β
  | [] => (true, t)
  | payload :: rest =>
      match t.sendOutbound payload with
      | (false, t) => (false, t)
      | (true, t) => sendAll t rest

end Task

/-! ## Notifications -/

def PendingDriverOffer.outbound (pending : PendingDriverOffer) : DriverOutbound :=
  .offer pending.offerId pending.jobId pending.pickup pending.dropoff pending.expiresAt

namespace Task

variable (others : Others host β) (t : Task β)

/-- Look a new offer up again and put it on its driver's channel. -/
def notifyNewOffer (offer : OfferRecord) : Task β :=
  let t := t.lock others
  let pending := (t.api.dispatch.pendingOffersForDriver host offer.driverId).find?
    fun pending => pending.offerId == offer.offerId
  match pending with
  | none => { t with lookUps := t.lookUps ++ [{ offerId := offer.offerId, session := none }] }
  | some pending =>
      let t := t.lock others
      let session := t.api.sessions.senders.lookup offer.driverId
      let lookUp := { offerId := offer.offerId, session := some session }
      { t with lookUps := t.lookUps ++ [lookUp] }.send offer.driverId pending.outbound

def notifyNewOffers (offers : List OfferRecord) : Task β :=
  offers.foldl (fun t offer => t.notifyNewOffer others offer) t

def notifyCompetingCancellations (jobId : Uuid) : Task β :=
  let t := t.lock others
  let cancelled := t.api.dispatch.cancelledOffersForJob host jobId
  if cancelled.isEmpty then t
  else
    let t := t.lock others
    cancelled.foldl (fun t item => t.send item.driverId (.offerCancelled item.offerId jobId)) t

/-! ## Handlers -/

/-- Expire the driver's due offers, tell it and notify whoever gets the jobs next;
    a socket that fails ends the session before the notification. -/
def flushExpiredOffers (driverId : Uuid) : Bool × Task β :=
  let (update, t) := t.run others fun e =>
    DispatchService.expirePendingOffersForDriver host e driverId
  let (ok, t) := t.sendAll (update.expired.map fun item => .offerExpired item.offerId)
  if ok then (true, t.notifyNewOffers others update.newOffers) else (false, t)

/-- Tell of a match: the driver, the competitors and the webhook, whose failure is
    recorded.  `delivers` is the outcome of the webhook call. -/
def announceMatch (delivers : String → MatchResult → Bool) (result : MatchResult) :
    Bool × Task β :=
  match t.sendOutbound (.matched result.offerId result.jobId) with
  | (false, t) => (false, t)
  | (true, t) =>
      let t := t.notifyCompetingCancellations others result.jobId
      match t.api.webhookUrl with
      | none => (true, t)
      | some url =>
          if delivers url result then (true, t)
          else
            (true, (t.run others fun e =>
              (e.recordWebhookDeliveryFailed host result.jobId result.offerId, ())).2)

/-- Give an answer to the engine, by the id of the offer, and tell what came of it. -/
def respond (delivers : String → MatchResult → Bool) (offerId : Uuid) (accepted : Bool) :
    Bool × Task β :=
  match t.run others fun e => DispatchService.handleOfferResponse host e offerId accepted with
  | (.error _, t) => (false, t)
  | (.ok update, t) =>
      let t := t.notifyNewOffers others update.newOffers
      match update.matched with
      | none => (true, t)
      | some result => t.announceMatch others delivers result

/-- The answer of a driver's session to an offer: the driver counts for the sweep alone. -/
def handleOfferAnswer (delivers : String → MatchResult → Bool) (driverId offerId : Uuid)
    (accepted : Bool) : Bool × Task β :=
  match t.flushExpiredOffers others driverId with
  | (false, t) => (false, t)
  | (true, t) => t.respond others delivers offerId accepted

/-- `handle_driver_message`: whether the session goes on. -/
def handleDriverMessage (delivers : String → MatchResult → Bool) (driverId : Uuid) :
    Message → Bool × Task β
  | .text none => (false, t)
  | .text (some (.location category status latitude longitude _)) =>
      (true, (t.run others fun e =>
        (e.upsertDriverLocation host driverId category ⟨latitude, longitude⟩ status, ())).2)
  | .text (some (.offerResponse offerId accepted)) =>
      t.handleOfferAnswer others delivers driverId offerId accepted
  | .close => (false, t)
  | .ping => t.sendFrame .pong
  | .binary | .pong => (true, t)

def expireGlobally : Task β :=
  let (update, t) := t.run others fun e => DispatchService.expirePendingOffersGlobal host e
  if update.expired.isEmpty && update.newOffers.isEmpty then t
  else
    let t := t.lock others
    let t := update.expired.foldl
      (fun t item => t.send item.driverId (.offerExpired item.offerId)) t
    t.notifyNewOffers others update.newOffers

end Task

/-! ## The dispatch endpoint -/

structure OfferRequest where
  jobId : Uuid
  category : String
  pickup : Coordinates
  dropoff : Option Coordinates
  initialRadiusKm : ℚ
  maxRadiusKm : ℚ
  timeoutSeconds : Nat
  deriving DecidableEq, Repr

inductive OfferReply where
  | unauthorized
  | badRequest (error message : String)
  | rateLimited (snapshot : RateLimitSnapshot)
  | accepted (offerId : Uuid)
  | notFound (offerId : Uuid)
  deriving DecidableEq, Repr

def OfferRequest.validate (host : Host) (payload : OfferRequest) : Except OfferReply Unit := do
  let as (error : String) : Except ValidationError Unit → Except OfferReply Unit :=
    Except.mapError fun e => .badRequest error e.message
  as "invalid_category" (validateCategory host payload.category)
  as "invalid_radius" (validateRadius payload.initialRadiusKm payload.maxRadiusKm)
  as "invalid_coordinates" (validateCoordinates host payload.pickup)
  match payload.dropoff with
  | some dropoff => as "invalid_coordinates" (validateCoordinates host dropoff)
  | none => pure ()
  as "invalid_timeout" (validateTimeoutSeconds payload.timeoutSeconds)

/-- A job for which there is no driver is answered with the nil id. -/
def OfferReply.ofSubmission : Except DispatchError OfferRecord → OfferReply
  | .ok offer => .accepted offer.offerId
  | .error _ => .notFound 0

def OfferRequest.job (payload : OfferRequest) (createdAt : DateTime) : JobRequest where
  jobId := payload.jobId
  category := payload.category
  pickup := payload.pickup
  dropoff := payload.dropoff
  initialRadiusKm := payload.initialRadiusKm
  maxRadiusKm := payload.maxRadiusKm
  timeoutSeconds := payload.timeoutSeconds
  createdAt := createdAt

namespace Task

variable (others : Others host β) (t : Task β)

def checkDispatchRequest (headers : Headers) (endpoint : String) : RateLimitSnapshot × Task β :=
  let key := endpoint ++ ":" ++ dispatchActorKey headers
  let t := t.lock others
  let (now, t) := t.now host
  let (snapshot, limiter) := t.api.dispatchRateLimiter.check key now
  (snapshot, { t with api := { t.api with dispatchRateLimiter := limiter } })

def admission (headers : Headers) (payload : OfferRequest) : Except OfferReply Unit × Task β :=
  if !isDispatcherAuthorized t.api headers then (.error .unauthorized, t)
  else
    match payload.validate host with
    | .error reply => (.error reply, t)
    | .ok () =>
        let (rateLimit, t) := t.checkDispatchRequest others headers "dispatch_offer"
        if rateLimit.allowed then (.ok (), t) else (.error (.rateLimited rateLimit), t)

/-- `POST /api/v1/dispatch/offer`: the offer is created and nobody is notified. -/
def dispatchOffer (headers : Headers) (payload : OfferRequest) : OfferReply × Task β :=
  match t.admission others headers payload with
  | (.error reply, t) => (reply, t)
  | (.ok (), t) =>
      let (result, t) := t.run others fun e =>
        DispatchService.submitJob host e.drawn (payload.job (host.clock e.tick))
      (.ofSubmission result, t)

end Task

/-! ## Reachable states -/

/-- The shared states a service can come to, one critical section after another.  It
    starts without sessions, on an engine that is empty or that recovery yields. -/
inductive ApiState.Reachable (host : Host) : ApiState β → Prop where
  | start {s : ApiState β} (dispatch : Spatiad.Sound host s.dispatch)
      (sessions : s.sessions = .empty) : Reachable host s
  | operation {s : ApiState β} (op : Op) (reached : Reachable host s) :
      Reachable host { s with dispatch := (perform host s.dispatch op).1 }
  | session {s : ApiState β} {event : SessionEvent} {sessions : Sessions}
      (reached : Reachable host s) (taken : sessionStep s.sessions event sessions) :
      Reachable host { s with sessions }
  | limit {s : ApiState β} (limiter : SlidingWindowRateLimiter) (reached : Reachable host s) :
      Reachable host { s with dispatch := s.dispatch.drawn, dispatchRateLimiter := limiter }

theorem ApiState.Reachable.sound {s : ApiState β} (reachable : s.Reachable host) :
    s.Sound host := by
  induction reachable with
  | start dispatch sessions => exact ⟨dispatch, sessions ▸ Sessions.wired_empty⟩
  | operation op _ sound =>
      exact ⟨sound.dispatch.step (serviceStep_perform host _ op), sound.sessions⟩
  | session _ taken sound => exact ⟨sound.dispatch, sound.sessions.step taken⟩
  | limit limiter _ sound => exact ⟨sound.dispatch.drawn, sound.sessions⟩

def serviceAfter (host : Host) (ops : List Op) (drivers : List Uuid) : ApiState InMemoryBackend where
  dispatch := (performAll host emptyService ops).2
  webhookUrl := none
  dispatcherToken := none
  dispatchRateLimiter := .new 60 60
  sessions := drivers.foldl Sessions.register .empty

theorem serviceAfter_reachable (host : Host) (ops : List Op) (drivers : List Uuid) :
    (serviceAfter host ops drivers).Reachable host := by
  have reached : Run (serviceStep host) anyStep emptyService _ (performAll host emptyService ops).2 :=
    performAll_run ops (permitted_any emptyService [] ops) .start
  have started : (serviceAfter host ops []).Reachable host :=
    .start ((sound_withStorage 8 InMemoryBackend.mk 0).run reached) rfl
  have opened : ∀ s : ApiState InMemoryBackend, s.Reachable host →
      { s with sessions := drivers.foldl Sessions.register s.sessions }.Reachable host := by
    induction drivers with
    | nil => exact fun _ reached => reached
    | cons driverId rest ih =>
        intro s reached
        exact ih { s with sessions := s.sessions.register driverId } (.session reached .register)
  exact opened (serviceAfter host ops []) started

def openSocket : Socket := ⟨fun _ => true, 0, []⟩

end Spatiad
