import Spatiad.TaskAccount
import Spatiad.SessionSweeps

/-! # Delivery of new offers

Each step of the API that creates offers leaves unseen exactly the offer of a
dispatch request and those of a sweep whose notices the socket refuses.  Whom these
go to is told from the state before the step.
-/

namespace Spatiad

open Foundation

variable {β : Type} {host : Host}

/-! ## Steps of the API -/

/-- The steps that create offers. -/
inductive ApiStep where
  | dispatchOffer (headers : Headers) (payload : OfferRequest)
  | offerResponse (driverId offerId : Uuid) (accepted : Bool)
  | sessionTick (driverId : Uuid)
  | globalTick

variable [StorageBackend β]

/-- A task carrying out one step; `delivers` is what becomes of webhook calls. -/
def apiStep (others : Others host β) (delivers : String → MatchResult → Bool) (t : Task β) :
    ApiStep → Task β
  | .dispatchOffer headers payload => (t.dispatchOffer others headers payload).2
  | .offerResponse driverId offerId accepted =>
      (t.handleDriverMessage others delivers driverId
        (.text (some (.offerResponse offerId accepted)))).2
  | .sessionTick driverId => (t.flushExpiredOffers others driverId).2
  | .globalTick => t.expireGlobally others

/-- The new offers of a driver's sweep, if the socket refuses one of its notices. -/
def Task.unsent (others : Others host β) (t : Task β) (driverId : Uuid) : List OfferRecord :=
  let (update, t) := t.run others fun e =>
    DispatchService.expirePendingOffersForDriver host e driverId
  if (t.sendAll (update.expired.map fun item => .offerExpired item.offerId)).1 then []
  else update.newOffers

theorem Task.unsent_eq_nil {others : Others host β} {t : Task β} {driverId : Uuid}
    (sent : (t.flushExpiredOffers others driverId).1 = true) : t.unsent others driverId = [] := by
  simp only [Task.flushExpiredOffers] at sent
  simp only [Task.unsent]
  split at sent
  · rename_i all
    exact if_pos all
  · cases sent

/-- The offers a step creates and tells nobody of: that of a dispatch request, and the
    new ones of a sweep whose notices the socket refuses. -/
def forgotten (others : Others host β) (t : Task β) : ApiStep → List OfferRecord
  | .dispatchOffer headers payload =>
      match t.admission others headers payload with
      | (.error _, _) => []
      | (.ok (), t) =>
          submitted (t.run others fun e =>
            DispatchService.submitJob host e.drawn (payload.job (host.clock e.tick))).1
  | .offerResponse driverId _ _ | .sessionTick driverId => t.unsent others driverId
  | .globalTick => []

namespace Accounted

variable {s₀ : ApiState β} {t : Task β} {others : Others host β}

omit [StorageBackend β] in
theorem checkDispatchRequest (accounted : Accounted host s₀ t []) (headers : Headers)
    (endpoint : String) :
    Accounted host s₀ (t.checkDispatchRequest others headers endpoint).2 [] := by
  have locked : Accounted host s₀ (t.lock others) [] := accounted.lock
  exact ⟨⟨locked.sound.dispatch.drawn, locked.sound.sessions⟩, locked.kept, locked.counted,
    locked.distinct, locked.used, locked.complete, locked.created⟩

omit [StorageBackend β] in
theorem admission (accounted : Accounted host s₀ t []) (headers : Headers) (payload : OfferRequest) :
    Accounted host s₀ (t.admission others headers payload).2 [] := by
  unfold Task.admission
  split
  · exact accounted
  · split
    · exact accounted
    · have checked : Accounted host s₀ (t.checkDispatchRequest others headers "dispatch_offer").2 [] :=
        accounted.checkDispatchRequest headers "dispatch_offer"
      simp only
      split
      · exact checked
      · exact checked

/-- A request that is admitted creates what it replies with, and looks nothing up. -/
theorem dispatchOffer (accounted : Accounted host s₀ t []) (headers : Headers)
    (payload : OfferRequest) :
    Accounted host s₀ (t.dispatchOffer others headers payload).2
      (forgotten others t (.dispatchOffer headers payload)) := by
  have admitted : Accounted host s₀ (t.admission others headers payload).2 [] :=
    accounted.admission headers payload
  simp only [Task.dispatchOffer, forgotten]
  generalize t.admission others headers payload = result at admitted
  obtain ⟨_ | ⟨⟨⟩⟩, t'⟩ := result
  · exact admitted
  · let operation (e : DispatchService β) :=
      DispatchService.submitJob host e.drawn (payload.job (host.clock e.tick))
    refine admitted.run operation submitted (fun e sound => ?_) fun e sound => ?_
    · exact sound.drawn.step
        (serviceStep_perform host e.drawn (.submitJob (payload.job (host.clock e.tick))))
    · exact (drawn_creates sound.ids).trans (submitJob_creates sound.drawn.ids _)

/-- A sweep creates what it reports; it is all looked up unless the socket fails. -/
theorem flushExpiredOffers (accounted : Accounted host s₀ t []) (driverId : Uuid) :
    Accounted host s₀ (t.flushExpiredOffers others driverId).2 (t.unsent others driverId) := by
  let operation (e : DispatchService β) :=
    DispatchService.expirePendingOffersForDriver host e driverId
  have swept : Accounted host s₀ (t.run others operation).2
      (t.run others operation).1.newOffers := by
    refine accounted.run operation ExpirationUpdate.newOffers (fun e sound => ?_) fun e sound => ?_
    · exact sound.step (serviceStep_perform host e (.expirePendingOffersForDriver driverId))
    · exact expirePendingOffersForDriver_creates sound.ids driverId
  have told := swept.sendAll
    ((t.run others operation).1.expired.map fun item => .offerExpired item.offerId)
  simp only [Task.flushExpiredOffers, Task.unsent]
  by_cases sent : ((t.run others operation).2.sendAll
      ((t.run others operation).1.expired.map fun item => .offerExpired item.offerId)).1 = true
  · rw [if_pos sent, if_pos sent]
    exact told.notifyNewOffers
  · rw [if_neg sent, if_neg sent]
    exact told

omit [StorageBackend β] in
theorem sendEach {α : Type} {waiting : List OfferRecord}
    (accounted : Accounted host s₀ t waiting) (items : List α) (driver : α → Uuid)
    (outbound : α → DriverOutbound) (other : ∀ item k, (outbound item).isOffer k = false) :
    Accounted host s₀ (items.foldl (fun t item => t.send (driver item) (outbound item)) t)
      waiting :=
  List.foldlRecOn (motive := fun t => Accounted host s₀ t waiting) items _ accounted
    fun _ accounted item _ => accounted.send (driver item) (other item)

omit [StorageBackend β] in
theorem notifyCompetingCancellations (accounted : Accounted host s₀ t []) (jobId : Uuid) :
    Accounted host s₀ (t.notifyCompetingCancellations others jobId) [] := by
  have locked : Accounted host s₀ (t.lock others) [] := accounted.lock
  simp only [Task.notifyCompetingCancellations]
  split
  · exact locked
  · exact (locked.lock).sendEach _ CancelledDriverOffer.driverId
      (fun item => .offerCancelled item.offerId jobId) fun _ _ => rfl

theorem expireGlobally (accounted : Accounted host s₀ t []) :
    Accounted host s₀ (t.expireGlobally others) [] := by
  let operation (e : DispatchService β) := DispatchService.expirePendingOffersGlobal host e
  have swept : Accounted host s₀ (t.run others operation).2
      (t.run others operation).1.newOffers := by
    refine accounted.run operation ExpirationUpdate.newOffers (fun e sound => ?_) fun e sound => ?_
    · exact sound.step (serviceStep_perform host e .expirePendingOffersGlobal)
    · exact expirePendingOffersGlobal_creates sound.ids
  simp only [Task.expireGlobally]
  change Accounted host s₀ (if (t.run others operation).1.expired.isEmpty &&
    (t.run others operation).1.newOffers.isEmpty then (t.run others operation).2 else _) []
  split
  · rename_i nothing
    simp only [Bool.and_eq_true, List.isEmpty_iff] at nothing
    rw [nothing.2] at swept
    exact swept
  · have locked : Accounted host s₀ ((t.run others operation).2.lock others) _ := swept.lock
    have told := locked.sendEach (t.run others operation).1.expired ExpiredOffer.driverId
      (fun item => .offerExpired item.offerId) fun _ _ => rfl
    exact told.notifyNewOffers

theorem announceMatch (accounted : Accounted host s₀ t [])
    (delivers : String → MatchResult → Bool) (result : MatchResult) :
    Accounted host s₀ (t.announceMatch others delivers result).2 [] := by
  have sent : Accounted host s₀ (t.sendOutbound (.matched result.offerId result.jobId)).2 [] :=
    accounted.sendFrame _
  unfold Task.announceMatch
  generalize t.sendOutbound (.matched result.offerId result.jobId) = outcome at sent
  obtain ⟨_ | _, t₁⟩ := outcome
  · exact sent
  · have told : Accounted host s₀ (t₁.notifyCompetingCancellations others result.jobId) [] :=
      sent.notifyCompetingCancellations result.jobId
    simp only
    split
    · exact told
    · split
      · exact told
      · let operation (e : DispatchService β) :=
          (e.recordWebhookDeliveryFailed host result.jobId result.offerId, ())
        refine told.run operation (fun _ => []) (fun e sound => ?_) fun e sound => ?_
        · exact sound.step (serviceStep_perform host e
            (.recordWebhookDeliveryFailed result.jobId result.offerId))
        · simp only [operation, Engine.recordWebhookDeliveryFailed]
          split
          · exact command_creates sound.ids _ fun _ => Command.noConfusion
          · exact .refl sound.ids

theorem respond (accounted : Accounted host s₀ t []) (delivers : String → MatchResult → Bool)
    (offerId : Uuid) (accepted : Bool) :
    Accounted host s₀ (t.respond others delivers offerId accepted).2 [] := by
  have ran : Accounted host s₀ (t.run others fun e =>
      DispatchService.handleOfferResponse host e offerId accepted).2
      (answered (t.run others fun e =>
        DispatchService.handleOfferResponse host e offerId accepted).1) := by
    refine accounted.run _ answered (fun e sound => ?_) fun e sound => ?_
    · exact sound.step (serviceStep_perform host e (.handleOfferResponse offerId accepted))
    · exact handleOfferResponse_creates sound.ids offerId accepted
  unfold Task.respond
  generalize t.run others (fun e =>
    DispatchService.handleOfferResponse host e offerId accepted) = result at ran ⊢
  obtain ⟨_ | update, t'⟩ := result
  · exact ran
  · have notified : Accounted host s₀ (t'.notifyNewOffers others update.newOffers) [] :=
      ran.notifyNewOffers
    simp only
    split
    · exact notified
    · exact notified.announceMatch delivers _

theorem handleOfferAnswer (accounted : Accounted host s₀ t [])
    (delivers : String → MatchResult → Bool) (driverId offerId : Uuid) (accepted : Bool) :
    Accounted host s₀ (t.handleOfferAnswer others delivers driverId offerId accepted).2
      (t.unsent others driverId) := by
  have flushed : Accounted host s₀ (t.flushExpiredOffers others driverId).2 _ :=
    accounted.flushExpiredOffers driverId
  have calm := @Task.unsent_eq_nil _ _ _ others t driverId
  unfold Task.handleOfferAnswer
  generalize t.flushExpiredOffers others driverId = result at flushed calm
  obtain ⟨_ | _, t'⟩ := result
  · exact flushed
  · rw [calm rfl] at flushed ⊢
    exact flushed.respond delivers offerId accepted

/-- Each step leaves waiting what it forgets. -/
theorem apiStep (accounted : Accounted host s₀ t []) (delivers : String → MatchResult → Bool)
    (step : ApiStep) :
    Accounted host s₀ (apiStep others delivers t step) (forgotten others t step) := by
  cases step with
  | dispatchOffer headers payload => exact accounted.dispatchOffer headers payload
  | offerResponse driverId offerId accepted =>
      exact accounted.handleOfferAnswer delivers driverId offerId accepted
  | sessionTick driverId => exact accounted.flushExpiredOffers driverId
  | globalTick => exact accounted.expireGlobally

end Accounted

/-! ## Overlooked drivers -/

section overlooked

variable {others : Others host β} {t : Task β}

end overlooked

/-! ## What other tasks may do

`Others` is all that another task can have done between two locks of this one, and
that includes every step of the service.
-/

/-- One section of another task, or a whole step of the API that it carries out. -/
inductive CriticalSection (host : Host) (s : ApiState β) : ApiState β → Prop where
  | operation (op : Op) :
      CriticalSection host s { s with dispatch := (perform host s.dispatch op).1 }
  | session {event : SessionEvent} {sessions : Sessions}
      (taken : sessionStep s.sessions event sessions) : CriticalSection host s { s with sessions }
  | limit (limiter : SlidingWindowRateLimiter) :
      CriticalSection host s { s with dispatch := s.dispatch.drawn, dispatchRateLimiter := limiter }
  | step (others : Others host β) (delivers : String → MatchResult → Bool) (socket : Socket)
      (step : ApiStep) : CriticalSection host s (apiStep others delivers (.start s socket) step).api

variable {s s' : ApiState β}

theorem Ledger.apply_keeps {l : Ledger} {cmd : Command} {k : Uuid}
    (present : l.offers.lookup k ≠ none) : (l.apply cmd).offers.lookup k ≠ none := by
  by_cases creates : ∃ offer, cmd = .createOffer offer
  · obtain ⟨offer, rfl⟩ := creates
    exact HashMap.insert_ne_none present
  · rw [Ledger.lookup_apply l fun offer same => creates ⟨offer, same⟩, Ne,
      Option.map_eq_none_iff]
    exact present

theorem CriticalSection.evolves (sound : s.Sound host) (done : CriticalSection host s s') :
    s.Evolves host s' := by
  cases done with
  | operation op =>
      have taken := serviceStep_perform host s.dispatch op
      refine ⟨fun _ => ⟨sound.dispatch.step taken, sound.sessions⟩, fun k present => ?_⟩
      exact sound.dispatch.step_invariant taken (fun ledger => ledger.offers.lookup k ≠ none)
        present fun _ _ _ held _ => Ledger.apply_keeps held
  | session taken =>
      exact ⟨fun _ => ⟨sound.dispatch, sound.sessions.step taken⟩, fun _ present => present⟩
  | limit limiter =>
      exact ⟨fun _ => ⟨sound.dispatch.drawn, sound.sessions⟩, fun _ present => present⟩
  | step others delivers socket step =>
      have account : Accounted host s (apiStep others delivers (.start s socket) step) _ :=
        (Accounted.start sound socket).apiStep delivers step
      exact ⟨fun _ => account.sound, account.kept⟩

theorem sections_evolve (sound : s.Sound host)
    (done : Relation.ReflTransGen (CriticalSection host) s s') : s.Evolves host s' := by
  induction done with
  | refl => exact .refl s
  | tail _ last ih => exact ih.trans (last.evolves (ih.sound sound))

open Classical in
/-- Tasks that carry out any steps of the service before each lock are among those
    that a task may run beside. -/
theorem Others.of_sections (meanwhile : Nat → ApiState β → ApiState β)
    (busy : ∀ n s, s.Sound host →
      Relation.ReflTransGen (CriticalSection host) s (meanwhile n s)) :
    ∃ others : Others host β, ∀ n s, s.Sound host → others.before n s = meanwhile n s := by
  refine ⟨⟨fun n s => if s.Sound host then meanwhile n s else s, fun n s => ?_⟩, fun n s sound =>
    if_pos sound⟩
  split
  · rename_i sound
    exact sections_evolve sound (busy n s sound)
  · exact .refl s

end Spatiad
