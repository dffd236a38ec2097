import Spatiad.Engine
import Spatiad.Widening

/-! # Offer lifecycle of the engine

Re-dispatch, expiry, answers and the read-only views over the offers.
-/

namespace Spatiad

open Foundation StorageBackend

structure PendingDriverOffer where
  offerId : Uuid
  jobId : Uuid
  pickup : Coordinates
  dropoff : Option Coordinates
  expiresAt : DateTime
  deriving DecidableEq, Repr

structure CancelledDriverOffer where
  driverId : Uuid
  offerId : Uuid
  deriving DecidableEq, Repr

inductive JobDispatchState where
  | unknownJob
  | pending
  | searching
  | cancelled
  | matched (driverId offerId : Uuid)
  | exhausted
  deriving DecidableEq, Repr

def Ledger.hasOffer (s : Ledger) (jobId : Uuid) (status : OfferStatus) : Bool :=
  s.offers.values.any fun o => o.jobId == jobId && o.status == status

def Ledger.alreadyOffered (s : Ledger) (jobId driverId : Uuid) : Bool :=
  s.offers.values.any fun o => o.jobId == jobId && o.driverId == driverId

namespace Engine

variable {β : Type} [StorageBackend β] (host : Host)

/-! ## Mutations -/

def markOfferStatus (e : Engine β) (offerId : Uuid) (status : OfferStatus) :
    Engine β × Except CoreError Unit :=
  match e.offers.lookup offerId with
  | none => (e, .error .offerNotFound)
  | some _ =>
      match status with
      | .cancelled => (e.appendAndApply host (.markOfferCancelled offerId), .ok ())
      | .expired => (e.appendAndApply host (.markOfferExpired offerId), .ok ())
      -- every other status is written directly, past the log
      | status =>
          (e.setOfferStatus host offerId status fun _ => .offerStatusUpdated offerId status, .ok ())

/-- Mark each listed offer expired, reporting those that exist. -/
def expireOffers (e : Engine β) : List Uuid → Engine β × List ExpiredOffer
  | [] => (e, [])
  | offerId :: rest =>
      let report := ((e.offers.lookup offerId).map fun o =>
        (⟨o.offerId, o.driverId, o.jobId⟩ : ExpiredOffer)).toList
      let (e, expired) := expireOffers (e.appendAndApply host (.markOfferExpired offerId)) rest
      (e, report ++ expired)

def dueOffers (e : Engine β) (p : OfferRecord → Bool) (now : DateTime) : List Uuid :=
  ((e.offers.iter (host.order e.tick)).filter fun o =>
    p o && o.status == .pending && decide (o.expiresAt ≤ now)).map OfferRecord.offerId

def expirePendingOffersForDriver (e : Engine β) (driverId : Uuid) :
    Engine β × List ExpiredOffer :=
  let now := host.clock e.tick
  let e := e.drawn
  e.expireOffers host (e.dueOffers host (fun o => o.driverId == driverId) now)

def expirePendingOffersGlobal (e : Engine β) : Engine β × List ExpiredOffer :=
  let now := host.clock e.tick
  let e := e.drawn
  e.expireOffers host (e.dueOffers host (fun _ => true) now)

/-- The search of re-dispatch: the nearest of the first 32 candidates of a ring
    that has had no offer for the job. -/
def nextUntried (e : Engine β) (job : JobRequest) (jobId : Uuid) : Option Uuid :=
  wideningSearch
    (fun radiusKm =>
      (e.nearestCandidatesInRadius host job.pickup job.category radiusKm 32).find?
        fun driverId => !e.alreadyOffered jobId driverId)
    job.initialRadiusKm job.maxRadiusKm

def createNextOfferForJob (e : Engine β) (jobId : Uuid) : Engine β × Option OfferRecord :=
  match e.jobs.lookup jobId with
  | none => (e, none)
  | some job =>
      if jobId ∈ e.cancelledJobs then (e, none)
      else if e.hasOffer jobId .accepted then (e, none)
      else if e.hasOffer jobId .pending then (e, none)
      else
        match e.nextUntried host job jobId with
        | none => (e, none)
        | some driverId =>
            let (e, offer) := e.createOffer host jobId driverId job.timeoutSeconds
            (e, some offer)

def handleOfferResponse (e : Engine β) (offerId : Uuid) (accepted : Bool) :
    Engine β × Except CoreError (Option MatchResult) :=
  match e.offers.lookup offerId with
  | none => (e, .error .offerNotFound)
  | some offer =>
      if offer.status ≠ .pending then (e, .error .offerNotPending)
      else if offer.expiresAt ≤ host.clock e.tick then
        (e.drawn.appendAndApply host (.markOfferExpired offerId), .error .offerExpired)
      else
        let now := host.clock e.drawn.tick
        let e := e.drawn.drawn
        if accepted then
          (e.appendAndApply host (.acceptOffer offerId now),
            .ok (some ⟨offer.jobId, offer.driverId, offerId, now⟩))
        else (e.appendAndApply host (.rejectOffer offerId now), .ok none)

/-! ## Views -/

def offerJobId (e : Engine β) (offerId : Uuid) : Option Uuid :=
  (e.offers.lookup offerId).map OfferRecord.jobId

/-- Each offer's expiry is compared with a clock reading of its own. -/
def pendingOffersForDriver (e : Engine β) (driverId : Uuid) : List PendingDriverOffer :=
  (e.offers.iter (host.order e.tick)).zipIdx.filterMap fun (offer, i) =>
    if offer.driverId == driverId && offer.status == .pending &&
        decide (host.clock (e.tick + i) < offer.expiresAt) then
      (e.jobs.lookup offer.jobId).map fun job =>
        ⟨offer.offerId, offer.jobId, job.pickup, job.dropoff, offer.expiresAt⟩
    else none

def cancelledOffersForJob (e : Engine β) (jobId : Uuid) : List CancelledDriverOffer :=
  ((e.offers.iter (host.order e.tick)).filter fun o =>
    o.jobId == jobId && o.status == .cancelled).map fun o => ⟨o.driverId, o.offerId⟩

def jobDispatchState (e : Engine β) (jobId : Uuid) : JobDispatchState :=
  if (e.jobs.lookup jobId).isNone then .unknownJob
  else
    let offers := (e.offers.iter (host.order e.tick)).filter fun o => o.jobId == jobId
    if offers.isEmpty then .pending
    else
      match offers.find? fun o => o.status == .accepted with
      | some accepted => .matched accepted.driverId accepted.offerId
      | none =>
          if jobId ∈ e.cancelledJobs then .cancelled
          else if offers.any fun o => o.status == .pending then .searching
          else .exhausted

end Engine

end Spatiad
