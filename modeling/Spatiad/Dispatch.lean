import Spatiad.Offers

/-! # Dispatch service

The orchestration layer: an engine and the operations clients reach.  `Op` lists
those that change it, `perform` runs one.
-/

namespace Spatiad

open Foundation

inductive DispatchError where
  | noAvailableDriver
  | invalidOfferResponse
  deriving DecidableEq, Repr

structure OfferResponseUpdate where
  matched : Option MatchResult
  newOffers : List OfferRecord
  deriving DecidableEq, Repr

structure ExpirationUpdate where
  expired : List ExpiredOffer
  newOffers : List OfferRecord
  deriving DecidableEq, Repr

/-- A service holds an engine and nothing else. -/
abbrev DispatchService (β : Type) := Engine β

namespace DispatchService

variable {β : Type} [StorageBackend β] (host : Host)

/-- The search of a submission: the first of the three nearest candidates. -/
def nearestAvailable (e : Engine β) (job : JobRequest) : Option Uuid :=
  wideningSearch
    (fun radiusKm => (e.nearestCandidatesInRadius host job.pickup job.category radiusKm 3).head?)
    job.initialRadiusKm job.maxRadiusKm

def submitJob (e : DispatchService β) (job : JobRequest) :
    DispatchService β × Except DispatchError OfferRecord :=
  let e := e.registerJob host job
  match nearestAvailable host e job with
  | none => (e, .error .noAvailableDriver)
  | some driverId =>
      let (e, offer) := e.createOffer host job.jobId driverId job.timeoutSeconds
      (e, .ok offer)

def cancelOffer (e : DispatchService β) (offerId : Uuid) : DispatchService β :=
  (e.markOfferStatus host offerId .cancelled).1

/-- Hand on the job of each expired offer, once per job. -/
def redispatch (e : DispatchService β) (seenJobs : Finset Uuid) :
    List ExpiredOffer → DispatchService β × List OfferRecord
  | [] => (e, [])
  | item :: rest =>
      if item.jobId ∈ seenJobs then redispatch e seenJobs rest
      else
        let (e, offer) := e.createNextOfferForJob host item.jobId
        let (e, newOffers) := redispatch e (insert item.jobId seenJobs) rest
        (e, offer.toList ++ newOffers)

def expirePendingOffersForDriver (e : DispatchService β) (driverId : Uuid) :
    DispatchService β × ExpirationUpdate :=
  let (e, expired) := Engine.expirePendingOffersForDriver host e driverId
  let (e, newOffers) := redispatch host e ∅ expired
  (e, { expired, newOffers })

def expirePendingOffersGlobal (e : DispatchService β) : DispatchService β × ExpirationUpdate :=
  let (e, expired) := Engine.expirePendingOffersGlobal host e
  let (e, newOffers) := redispatch host e ∅ expired
  (e, { expired, newOffers })

def handleOfferResponse (e : DispatchService β) (offerId : Uuid) (accepted : Bool) :
    DispatchService β × Except DispatchError OfferResponseUpdate :=
  match e.offerJobId offerId with
  | none => (e, .error .invalidOfferResponse)
  | some jobId =>
      match Engine.handleOfferResponse host e offerId accepted with
      | (e, .error _) => (e, .error .invalidOfferResponse)
      | (e, .ok (some matched)) => (e, .ok { matched := some matched, newOffers := [] })
      | (e, .ok none) =>
          let (e, offer) := e.createNextOfferForJob host jobId
          (e, .ok { matched := none, newOffers := offer.toList })

end DispatchService

/-- The operations that change a service, with the two engine mutations that
    bypass it. -/
inductive Op where
  | submitJob (job : JobRequest)
  | cancelOffer (offerId : Uuid)
  | cancelJob (jobId : Uuid)
  | recordWebhookDeliveryFailed (jobId offerId : Uuid)
  | expirePendingOffersForDriver (driverId : Uuid)
  | expirePendingOffersGlobal
  | handleOfferResponse (offerId : Uuid) (accepted : Bool)
  | upsertDriverLocation (driverId : Uuid) (category : String) (position : Coordinates)
      (status : DriverStatus)
  | expireStaleDrivers (ttl : Int)
  deriving DecidableEq, Repr

/-- What an operation returns. -/
inductive Reply where
  | submitted (result : Except DispatchError OfferRecord)
  | cancelledJob (found : Bool)
  | expired (update : ExpirationUpdate)
  | answered (result : Except DispatchError OfferResponseUpdate)
  | removed (drivers : List Uuid)
  | done

def perform {β : Type} [StorageBackend β] (host : Host) (e : DispatchService β) :
    Op → DispatchService β × Reply
  | .submitJob job => (DispatchService.submitJob host e job).map id .submitted
  | .cancelOffer offerId => (DispatchService.cancelOffer host e offerId, .done)
  | .cancelJob jobId => (e.cancelJob host jobId).map id .cancelledJob
  | .recordWebhookDeliveryFailed jobId offerId =>
      (e.recordWebhookDeliveryFailed host jobId offerId, .done)
  | .expirePendingOffersForDriver driverId =>
      (DispatchService.expirePendingOffersForDriver host e driverId).map id .expired
  | .expirePendingOffersGlobal =>
      (DispatchService.expirePendingOffersGlobal host e).map id .expired
  | .handleOfferResponse offerId accepted =>
      (DispatchService.handleOfferResponse host e offerId accepted).map id .answered
  | .upsertDriverLocation driverId category position status =>
      (e.upsertDriverLocation host driverId category position status, .done)
  | .expireStaleDrivers ttl => (e.expireStaleDrivers host ttl).map id .removed

end Spatiad
