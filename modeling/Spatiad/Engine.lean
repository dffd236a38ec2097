import Spatiad.Storage
import Spatiad.SpatialIndex

/-! # The engine

State, commands and public mutations of `spatiad-core`.  Every draw from the
host is made at the engine's current `tick` and moves it on, so no two draws of
a run share one.
-/

namespace Spatiad

open Foundation StorageBackend

inductive JobEventKind where
  | jobRegistered
  | jobCancelled
  | webhookDeliveryFailed (offerId : Uuid)
  | offerCreated (offerId driverId : Uuid)
  | offerExpired (offerId driverId : Uuid)
  | offerCancelled (offerId driverId : Uuid)
  | offerRejected (offerId driverId : Uuid)
  | offerAccepted (offerId driverId : Uuid)
  | matchConfirmed (offerId driverId : Uuid)
  | offerStatusUpdated (offerId : Uuid) (status : OfferStatus)
  deriving DecidableEq, Repr

structure JobEventRecord where
  sequence : Nat
  occurredAt : DateTime
  kind : JobEventKind
  deriving DecidableEq, Repr

/-- Serialized unit variant of `OfferStatus`. -/
def OfferStatus.toJson : OfferStatus → Json
  | .pending => .text "Pending"
  | .accepted => .text "Accepted"
  | .rejected => .text "Rejected"
  | .expired => .text "Expired"
  | .cancelled => .text "Cancelled"

def OfferStatus.fromJson : Json → Option OfferStatus
  | .text "Pending" => some .pending
  | .text "Accepted" => some .accepted
  | .text "Rejected" => some .rejected
  | .text "Expired" => some .expired
  | .text "Cancelled" => some .cancelled
  | _ => none

namespace JobEventKind

private def offerAndDriver (tag : String) (offerId driverId : Uuid) : Json :=
  .variant tag [("offer_id", .uuid offerId), ("driver_id", .uuid driverId)]

/-- `serde_json::to_string` of a kind, as a JSON value. -/
def toJson : JobEventKind → Json
  | jobRegistered => .text "JobRegistered"
  | jobCancelled => .text "JobCancelled"
  | webhookDeliveryFailed o => .variant "WebhookDeliveryFailed" [("offer_id", .uuid o)]
  | offerCreated o d => offerAndDriver "OfferCreated" o d
  | offerExpired o d => offerAndDriver "OfferExpired" o d
  | offerCancelled o d => offerAndDriver "OfferCancelled" o d
  | offerRejected o d => offerAndDriver "OfferRejected" o d
  | offerAccepted o d => offerAndDriver "OfferAccepted" o d
  | matchConfirmed o d => offerAndDriver "MatchConfirmed" o d
  | offerStatusUpdated o s =>
      .variant "OfferStatusUpdated" [("offer_id", .uuid o), ("status", s.toJson)]

/-- `serde_json::from_str`, on JSON values. -/
def fromJson : Json → Option JobEventKind
  | .text "JobRegistered" => some jobRegistered
  | .text "JobCancelled" => some jobCancelled
  | .variant tag [("offer_id", .uuid o)] =>
      if tag = "WebhookDeliveryFailed" then some (webhookDeliveryFailed o) else none
  | .variant tag [("offer_id", .uuid o), ("driver_id", .uuid d)] =>
      if tag = "OfferCreated" then some (offerCreated o d)
      else if tag = "OfferExpired" then some (offerExpired o d)
      else if tag = "OfferCancelled" then some (offerCancelled o d)
      else if tag = "OfferRejected" then some (offerRejected o d)
      else if tag = "OfferAccepted" then some (offerAccepted o d)
      else if tag = "MatchConfirmed" then some (matchConfirmed o d)
      else none
  | .variant tag [("offer_id", .uuid o), ("status", status)] =>
      if tag = "OfferStatusUpdated" then (OfferStatus.fromJson status).map (offerStatusUpdated o)
      else none
  | _ => none

theorem fromJson_toJson (kind : JobEventKind) : fromJson kind.toJson = some kind := by
  cases kind with
  | offerStatusUpdated o s => cases s <;> rfl
  | _ => rfl

end JobEventKind

inductive CoreError where
  | offerNotFound
  | offerNotPending
  | offerExpired
  deriving DecidableEq, Repr

structure ExpiredOffer where
  offerId : Uuid
  driverId : Uuid
  jobId : Uuid
  deriving DecidableEq, Repr

structure Engine (β : Type) extends Ledger where
  h3Resolution : Nat
  spatial : SpatialIndex
  jobEvents : HashMap Uuid (List JobEventRecord)
  storage : β
  walSequence : Nat
  /-- How many draws this process has made from its host. -/
  tick : Nat
  /-- The tick at which the drivers map was last rebuilt: until the next change it
      iterates in the order it did then. -/
  driversTick : Nat

def maxJobEvents : Nat := 200

namespace Engine

variable {β : Type} [StorageBackend β] (host : Host)

def withStorage (h3Resolution : Nat) (storage : β) (tick : Nat) : Engine β where
  toLedger := .empty
  h3Resolution := h3Resolution
  spatial := .new h3Resolution
  jobEvents := ∅
  storage := storage
  walSequence := 0
  tick := tick
  driversTick := tick

def drawn (e : Engine β) : Engine β := { e with tick := e.tick + 1 }

/-! ## Events -/

def pushJobEvent (e : Engine β) (jobId : Uuid) (kind : JobEventKind) : Engine β :=
  let nextSequence := (e.jobEventSequences.lookup jobId).getD 0 + 1
  let now := host.clock e.tick
  -- a failed append is ignored
  let storage :=
    if isPersistent e.storage then
      (appendJobEvent e.storage jobId ⟨nextSequence, now, kind.toJson⟩).2
    else e.storage
  let entries := (e.jobEvents.lookup jobId).getD [] ++ [⟨nextSequence, now, kind⟩]
  { e with
    jobEventSequences := e.jobEventSequences.insert jobId nextSequence
    storage := storage
    jobEvents := e.jobEvents.insert jobId (entries.drop (entries.length - maxJobEvents))
    tick := e.tick + 1 }

def pushJobEvents (e : Engine β) (jobId : Uuid) (kinds : List JobEventKind) : Engine β :=
  kinds.foldl (fun e kind => e.pushJobEvent host jobId kind) e

end Engine

/-! ## Commands -/

/-- The write half of a sweep over `offers.values_mut()`: what meets `p` is cancelled. -/
def cancelWhere (p : OfferRecord → Bool) (offers : HashMap Uuid OfferRecord) :
    HashMap Uuid OfferRecord :=
  HashMap.mapValues (fun o => if p o then { o with status := .cancelled } else o) offers

def pendingOf (jobId : Uuid) (o : OfferRecord) : Bool :=
  o.jobId == jobId && o.status == .pending

/-- Pending offers that compete with the selected one. -/
def competesWith (jobId selectedOfferId : Uuid) (o : OfferRecord) : Bool :=
  o.jobId == jobId && o.offerId != selectedOfferId && o.status == .pending

/-- `if let Some(driver) = drivers.get_mut(..) { driver.status = Busy }` -/
def markBusy (driverId : Uuid) (drivers : HashMap Uuid DriverSnapshot) :
    HashMap Uuid DriverSnapshot :=
  match drivers.lookup driverId with
  | none => drivers
  | some driver => drivers.insert driverId { driver with status := .busy }

namespace Engine

variable {β : Type} [StorageBackend β] (host : Host)

/-- The events a sweep emits, in the order it visits the offers. -/
def cancelledEvents (e : Engine β) (p : OfferRecord → Bool) (offers : HashMap Uuid OfferRecord) :
    List JobEventKind :=
  ((offers.iter (host.order e.tick)).filter p).map fun o => .offerCancelled o.offerId o.driverId

def setOfferStatus (e : Engine β) (offerId : Uuid) (status : OfferStatus)
    (kind : Uuid → JobEventKind) : Engine β :=
  match e.offers.lookup offerId with
  | none => e
  | some offer =>
      let e := { e with offers := e.offers.insert offerId { offer with status } }
      e.pushJobEvent host offer.jobId (kind offer.driverId)

/-- Apply a command without logging it: used live after the append, and for replay. -/
def applyCommand (e : Engine β) : Command → Engine β
  | .upsertDriverLocation driverId category position status timestamp =>
      { e with
        spatial := e.spatial.upsertDriver host driverId position
        drivers := e.drivers.insert driverId ⟨driverId, category, status, position, timestamp⟩
        driversTick := e.tick }
  | .registerJob job =>
      let e := { e with
        jobs := e.jobs.insert job.jobId job
        cancelledJobs := e.cancelledJobs.erase job.jobId }
      e.pushJobEvent host job.jobId .jobRegistered
  | .createOffer offer =>
      let e := { e with offers := e.offers.insert offer.offerId offer }
      e.pushJobEvent host offer.jobId (.offerCreated offer.offerId offer.driverId)
  | .acceptOffer offerId _ =>
      match e.offers.lookup offerId with
      | none => e
      | some offer =>
          let offers := e.offers.insert offerId { offer with status := .accepted }
          let competing := competesWith offer.jobId offer.offerId
          let cancelled := e.cancelledEvents host competing offers
          let e := { e with
            offers := cancelWhere competing offers
            drivers := markBusy offer.driverId e.drivers }
          let e := e.pushJobEvents host offer.jobId cancelled
          let e := e.pushJobEvent host offer.jobId (.offerAccepted offer.offerId offer.driverId)
          e.pushJobEvent host offer.jobId (.matchConfirmed offer.offerId offer.driverId)
  | .rejectOffer offerId _ => e.setOfferStatus host offerId .rejected (.offerRejected offerId)
  | .markOfferExpired offerId => e.setOfferStatus host offerId .expired (.offerExpired offerId)
  | .markOfferCancelled offerId =>
      e.setOfferStatus host offerId .cancelled (.offerCancelled offerId)
  | .cancelJob jobId =>
      if (e.jobs.lookup jobId).isSome then
        let wasNew := jobId ∉ e.cancelledJobs
        let cancelled := e.cancelledEvents host (pendingOf jobId) e.offers
        let e := { e with
          cancelledJobs := insert jobId e.cancelledJobs
          offers := cancelWhere (pendingOf jobId) e.offers }
        let e := e.pushJobEvents host jobId cancelled
        if wasNew then e.pushJobEvent host jobId .jobCancelled else e
      else e
  | .removeDriver driverId =>
      { e with
        spatial := e.spatial.removeDriver driverId
        drivers := e.drivers.erase driverId
        driversTick := e.tick }
  | .recordWebhookDeliveryFailed jobId offerId =>
      if (e.jobs.lookup jobId).isSome then
        e.pushJobEvent host jobId (.webhookDeliveryFailed offerId)
      else e

/-- Log a command, then apply it; a failed append is reported and otherwise ignored. -/
def appendAndApply (e : Engine β) (cmd : Command) : Engine β :=
  let walSequence := e.walSequence + 1
  let storage := (appendWal e.storage walSequence cmd).2
  applyCommand host { e with walSequence, storage } cmd

def toSnapshot (e : Engine β) : EngineSnapshot where
  toLedger := e.toLedger
  h3Resolution := e.h3Resolution
  walSequence := e.walSequence

/-! ## Public mutations -/

def upsertDriverLocation (e : Engine β) (driverId : Uuid) (category : String)
    (position : Coordinates) (status : DriverStatus) : Engine β :=
  let now := host.clock e.tick
  e.drawn.appendAndApply host (.upsertDriverLocation driverId category position status now)

def registerJob (e : Engine β) (job : JobRequest) : Engine β :=
  e.appendAndApply host (.registerJob job)

def cancelJob (e : Engine β) (jobId : Uuid) : Engine β × Bool :=
  if (e.jobs.lookup jobId).isSome then (e.appendAndApply host (.cancelJob jobId), true)
  else (e, false)

def recordWebhookDeliveryFailed (e : Engine β) (jobId offerId : Uuid) : Engine β :=
  if (e.jobs.lookup jobId).isSome then
    e.appendAndApply host (.recordWebhookDeliveryFailed jobId offerId)
  else e

/-- Remove drivers not seen within `ttl` (nanoseconds); returns the removed ids. -/
def expireStaleDrivers (e : Engine β) (ttl : Int) : Engine β × List Uuid :=
  let cutoff := host.clock e.tick - ttl
  let e := e.drawn
  let stale := (host.order e.driversTick e.drivers.keys).filter fun id =>
    match e.drivers.lookup id with
    | none => false
    | some d => d.lastSeenAt < cutoff
  (stale.foldl (fun e driverId => e.appendAndApply host (.removeDriver driverId)) e, stale)

def createOffer (e : Engine β) (jobId driverId : Uuid) (timeoutSeconds : Nat) :
    Engine β × OfferRecord :=
  let expiresAt := host.clock e.tick + seconds (asI64 timeoutSeconds)
  let e := e.drawn
  let offer : OfferRecord :=
    { offerId := host.newV4 e.tick, jobId, driverId, status := .pending, expiresAt }
  (e.drawn.appendAndApply host (.createOffer offer), offer)

end Engine

/-- `str::eq_ignore_ascii_case` -/
def eqIgnoreAsciiCase (a b : String) : Bool :=
  a.toList.map Char.toLower == b.toList.map Char.toLower

def DriverSnapshot.serves (driver : DriverSnapshot) (category : String) : Bool :=
  driver.status == .available && eqIgnoreAsciiCase driver.category category

namespace Engine

variable {β : Type} [StorageBackend β] (host : Host)

def nearestCandidatesInRadius (e : Engine β) (pickup : Coordinates) (category : String)
    (radiusKm : ℚ) (limit : Nat) : List Uuid :=
  let candidates := (host.order e.driversTick e.drivers.keys).filterMap fun driverId =>
    match e.drivers.lookup driverId with
    | none => none
    | some driver =>
        let distanceKm := host.haversineKm pickup driver.position
        if driver.serves category && decide (distanceKm ≤ radiusKm) then
          some (driverId, distanceKm)
        else none
  let nearestFirst := candidates.insertionSort fun a b => a.2 ≤ b.2
  (nearestFirst.take limit).map Prod.fst

end Engine

end Spatiad
