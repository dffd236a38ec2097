import Spatiad.DriverEntry
import Spatiad.NewOffers
import Spatiad.Recovery
import Spatiad.Foundation.Agendas

/-! # The server

Every HTTP handler, driver session and background round at once.  Each is a worker, and
an action is what it does without letting another in: a critical section, a send on its
socket, a call.  A handler is the agenda it begins with; what `?` gives up on is the rest
of the agenda, and the session with it.
-/

namespace Spatiad

open Foundation Foundation.Agendas

/-! ## Workers and actions -/

inductive Worker where
  /-- An HTTP request, or a round of a background task. -/
  | handler (k : Nat)
  /-- `handle_driver_session` of the session with this number. -/
  | session (n : Nat)
  deriving DecidableEq, Repr

inductive Action where
  /-- The sweep of `flush_expired_offers`, for a session of the driver. -/
  | sweep (n : Nat) (driverId : Uuid)
  /-- The look-up of `replay_pending_offers`. -/
  | replay (n : Nat) (driverId : Uuid)
  /-- A send on the socket of a session. -/
  | sendFrame (n : Nat) (frame : Frame)
  /-- `notify_new_offers`, for one offer: the look-up, then the send on a channel. -/
  | lookUp (offer : OfferRecord)
  | send (driverId : Uuid) (outbound : DriverOutbound)
  | answer (n : Nat) (offerId : Uuid) (accepted : Bool)
  /-- `notify_competing_cancellations`: the look-up, then the sends under one lock. -/
  | lookUpCancelled (jobId : Uuid)
  | sendAll (messages : List (Uuid × DriverOutbound))
  | webhook (result : MatchResult)
  /-- An operation whose reply decides nothing. -/
  | run (op : Op)
  /-- `check_dispatch_request` -/
  | limit (headers : Headers) (endpoint : String)
  | submit (payload : OfferRequest)
  /-- The sweep of the background task over all offers. -/
  | sweepAll
  | snapshot
  /-- `Err(())`: the session leaves its loop. -/
  | leave (n : Nat)

/-- The offer that an action is to tell a driver of. -/
def Action.tells : Action → Option Uuid
  | .lookUp offer => some offer.offerId
  | .send _ (.offer offerId ..) => some offerId
  | _ => none

/-- What all workers share, with a record of what the sockets took and of what became of
    offers. -/
structure Hub (β : Type) where
  api : ApiState β
  /-- Each frame sent, with its session. -/
  sent : List (Nat × Frame)
  /-- The offers that an answer was told had won. -/
  won : List Uuid
  /-- Each offer that was created, with the number of sessions opened until then. -/
  created : List (Uuid × Nat)
  /-- The offers whose maker tells nobody of them, or gave up on it. -/
  untold : List Uuid

variable {β : Type}

namespace Hub

variable (s : Hub β)

def withDispatch (dispatch : DispatchService β) : Hub β :=
  { s with api := { s.api with dispatch } }

def withSessions (sessions : Sessions) : Hub β := { s with api := { s.api with sessions } }

def create (offers : List OfferRecord) : Hub β :=
  { s with
    created := s.created ++ offers.map fun o => (o.offerId, s.api.sessions.opened.length) }

def win (matched : Option MatchResult) : Hub β :=
  { s with won := s.won ++ (matched.map MatchResult.offerId).toList }

def forget (offerIds : List Uuid) : Hub β := { s with untold := s.untold ++ offerIds }

/-- A session leaves its loop and gives up on what it was doing. -/
def leave (n : Nat) : Hub β × Option (List Action) :=
  (s.withSessions (s.api.sessions.leave n), none)

end Hub

/-! ## Taking an action -/

variable [StorageBackend β] (host : Host)

/-- What `notify_new_offers` does for a list of offers. -/
def notices (offers : List OfferRecord) : List Action := offers.map .lookUp

/-- What follows a match: the driver, the competitors and the webhook are told. -/
def announcement (n : Nat) (result : MatchResult) : List Action :=
  [.sendFrame n (.text (.matched result.offerId result.jobId)), .lookUpCancelled result.jobId,
    .webhook result]

/-- An action is taken, and what is to be done before the rest of the agenda is returned:
    nothing at all if the rest is given up.  `ok` is what the socket or the receiver of the
    webhook makes of it. -/
def Action.take (ok : Bool) (s : Hub β) : Action → Hub β × Option (List Action)
  | .sweep n driverId =>
      let (dispatch, update) :=
        DispatchService.expirePendingOffersForDriver host s.api.dispatch driverId
      ((s.withDispatch dispatch).create update.newOffers,
        some ((update.expired.map fun item => .sendFrame n (.text (.offerExpired item.offerId))) ++
          notices update.newOffers))
  | .replay n driverId =>
      (s, some ((s.api.dispatch.pendingOffersForDriver host driverId).map fun pending =>
        .sendFrame n (.text pending.outbound)))
  | .sendFrame n frame =>
      if ok then ({ s with sent := s.sent ++ [(n, frame)] }, some []) else s.leave n
  | .lookUp offer =>
      let pending := (s.api.dispatch.pendingOffersForDriver host offer.driverId).find?
        fun pending => pending.offerId == offer.offerId
      (s, some (pending.map fun pending => .send offer.driverId pending.outbound).toList)
  | .send driverId outbound =>
      (s.withSessions (s.api.sessions.send driverId outbound), some [])
  | .answer n offerId accepted =>
      match DispatchService.handleOfferResponse host s.api.dispatch offerId accepted with
      | (dispatch, .error _) => (s.withDispatch dispatch).leave n
      | (dispatch, .ok update) =>
          (((s.withDispatch dispatch).create update.newOffers).win update.matched,
            some (notices update.newOffers ++ update.matched.elim [] (announcement n)))
  | .lookUpCancelled jobId =>
      let cancelled := s.api.dispatch.cancelledOffersForJob host jobId
      if cancelled.isEmpty then (s, some [])
      else
        (s, some [.sendAll (cancelled.map fun item =>
          (item.driverId, .offerCancelled item.offerId jobId))])
  | .sendAll messages =>
      (s.withSessions (messages.foldl (fun sessions message =>
        sessions.send message.1 message.2) s.api.sessions), some [])
  | .webhook result =>
      if s.api.webhookUrl.isNone || ok then (s, some [])
      else (s, some [.run (.recordWebhookDeliveryFailed result.jobId result.offerId)])
  | .run op => (s.withDispatch (perform host s.api.dispatch op).1, some [])
  | .limit headers endpoint =>
      let key := endpoint ++ ":" ++ dispatchActorKey headers
      let (rateLimit, limiter) :=
        s.api.dispatchRateLimiter.check key (host.clock s.api.dispatch.tick)
      let s := { s with
        api := { s.api with dispatch := s.api.dispatch.drawn, dispatchRateLimiter := limiter } }
      (s, if rateLimit.allowed then some [] else none)
  | .submit payload =>
      let dispatch := s.api.dispatch
      let (dispatch, result) := DispatchService.submitJob host dispatch.drawn
        (payload.job (host.clock dispatch.tick))
      let new := submitted result
      (((s.withDispatch dispatch).create new).forget (new.map OfferRecord.offerId), some [])
  | .sweepAll =>
      let (dispatch, update) := DispatchService.expirePendingOffersGlobal host s.api.dispatch
      let s := (s.withDispatch dispatch).create update.newOffers
      if update.expired.isEmpty && update.newOffers.isEmpty then (s, some [])
      else
        (s, some (.sendAll (update.expired.map fun item =>
          (item.driverId, .offerExpired item.offerId)) :: notices update.newOffers))
  | .snapshot => (s.withDispatch s.api.dispatch.createSnapshot.1, some [])
  | .leave n => s.leave n

omit [StorageBackend β] in
/-- The rest of the agenda after an action; if it is given up, nobody does what it said. -/
def proceed (rest : List Action) : Hub β × Option (List Action) → Hub β × List Action
  | (s, some more) => (s, more ++ rest)
  | (s, none) => (s.forget (rest.filterMap Action.tells), [])

/-! ## Agendas of the handlers -/

/-- The session that a request is part of is one of this driver. -/
def Request.driver : Request → Option Uuid
  | .driverMessage driverId _ | .flush driverId => some driverId
  | _ => none

omit [StorageBackend β] in
/-- What a handler sets out to do; `n` is the session of a driver's message. -/
def Request.agenda (api : ApiState β) (n : Nat) : Request → List Action
  | .upsertDriver headers payload =>
      if !isDispatcherAuthorized api headers then []
      else
        match payload.validate host with
        | .error _ => []
        | .ok () =>
            [.limit headers "driver_upsert", .run (.upsertDriverLocation payload.driverId
              payload.category payload.position payload.status)]
  | .dispatchOffer headers payload =>
      if !isDispatcherAuthorized api headers then []
      else
        match payload.validate host with
        | .error _ => []
        | .ok () => [.limit headers "dispatch_offer", .submit payload]
  | .cancelOffer headers offerId =>
      if !isDispatcherAuthorized api headers then []
      else [.limit headers "dispatch_cancel_offer", .run (.cancelOffer offerId)]
  | .cancelJob headers jobId =>
      if !isDispatcherAuthorized api headers then []
      else [.limit headers "dispatch_cancel_job", .run (.cancelJob jobId)]
  | .dispatchJobStatus headers _ =>
      if !isDispatcherAuthorized api headers then [] else [.limit headers "dispatch_job_status"]
  | .dispatchJobEvents _ headers _ _ =>
      if !isDispatcherAuthorized api headers then [] else [.limit headers "dispatch_job_events"]
  | .probe => []
  | .driverMessage driverId message =>
      match message with
      | .text none => [.leave n]
      | .text (some (.location category status latitude longitude _)) =>
          [.run (.upsertDriverLocation driverId category ⟨latitude, longitude⟩ status)]
      | .text (some (.offerResponse offerId accepted)) =>
          [.sweep n driverId, .answer n offerId accepted]
      | .close => [.leave n]
      | .ping => [.sendFrame n .pong]
      | .binary | .pong => []
  | .flush driverId => [.sweep n driverId]
  | .expireGlobally => [.sweepAll]
  | .expireStaleDrivers ttlSecs => [.run (.expireStaleDrivers (seconds (asI64 ttlSecs)))]

/-- How an idle worker gets its next agenda.  A session waits for its ticker, its channel
    and its socket in no set order. -/
inductive begins : Worker → Hub β → Hub β → List Action → Prop where
  | request {k s} {request : Request} (http : request.driver = none) :
      begins (.handler k) s s (request.agenda host s.api 0)
  | snapshot {k s} : begins (.handler k) s s [.snapshot]
  /-- The sender is registered, then `replay_pending_offers` runs. -/
  | opens {s driverId} :
      begins (.session s.api.sessions.opened.length) s
        (s.withSessions (s.api.sessions.register driverId))
        [.sweep s.api.sessions.opened.length driverId,
          .replay s.api.sessions.opened.length driverId]
  | wakes {n s session} {request : Request} (found : s.api.sessions.opened[n]? = some session)
      (running : session.stage = .running) (own : request.driver = some session.driverId) :
      begins (.session n) s s (request.agenda host s.api n)
  | receives {n s session outbound rest} (found : s.api.sessions.opened[n]? = some session)
      (running : session.stage = .running) (waiting : session.queue = outbound :: rest) :
      begins (.session n) s (s.withSessions (s.api.sessions.receive n))
        [.sendFrame n (.text outbound)]
  | stops {n s event sessions} (taken : sessionStep s.api.sessions event sessions)
      (ends : event = .fail n ∨ event = .closed n ∨ event = .cleanup n) :
      begins (.session n) s (s.withSessions sessions) []

def server : Workers (Hub β) Worker Action where
  begins := begins host
  takes _ a rest s s' agenda := ∃ ok, proceed rest (a.take host ok s) = (s', agenda)

/-- A server that has just come up on this engine: no session, nobody at work. -/
def Server.start (api : ApiState β) : Pool (Hub β) Worker Action where
  shared := ⟨{ api with sessions := .empty }, [], [], [], []⟩
  agenda _ := []

end Spatiad
