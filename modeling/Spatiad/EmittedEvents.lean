import Spatiad.Commands
import Spatiad.Foundation.EventLog

/-! # What events tell

Every command pushes, job by job, the events that tell what it did.  Read as a
last-write-wins log, the events of a job give the status of its offers, whether
it is registered and whether it is cancelled.
-/

namespace Spatiad

open Foundation

/-! ## What an event tells -/

namespace JobEventKind

def statusOf (offerId : Uuid) : JobEventKind → Option OfferStatus
  | offerCreated o _ => if o = offerId then some .pending else none
  | offerExpired o _ => if o = offerId then some .expired else none
  | offerCancelled o _ => if o = offerId then some .cancelled else none
  | offerRejected o _ => if o = offerId then some .rejected else none
  | offerAccepted o _ | matchConfirmed o _ => if o = offerId then some .accepted else none
  | offerStatusUpdated o status => if o = offerId then some status else none
  | jobRegistered | jobCancelled | webhookDeliveryFailed _ => none

def cancels : JobEventKind → Option Bool
  | jobRegistered => some false
  | jobCancelled => some true
  | _ => none

end JobEventKind

def only (jobId : Uuid) (kinds : List JobEventKind) (j : Uuid) : List JobEventKind :=
  if j = jobId then kinds else []

theorem only_append (jobId : Uuid) (kinds more : List JobEventKind) :
    (fun j => only jobId kinds j ++ only jobId more j) = only jobId (kinds ++ more) := by
  funext j
  simp only [only]
  split <;> rfl

/-- The events of a sweep over offers that come out in the given order. -/
def sweepEvents (order : List Uuid → List Uuid) (p : OfferRecord → Bool)
    (offers : HashMap Uuid OfferRecord) : List JobEventKind :=
  ((offers.iter order).filter p).map fun o => .offerCancelled o.offerId o.driverId

namespace Ledger

/-- The event a status change of one offer is recorded with, under its job. -/
def emittedFor (s : Ledger) (offerId : Uuid) (kind : Uuid → JobEventKind) :
    Uuid → List JobEventKind :=
  match s.offers.lookup offerId with
  | none => fun _ => []
  | some offer => only offer.jobId [kind offer.driverId]

/-- The events that a command pushes for each job. -/
def emitted (s : Ledger) (order : List Uuid → List Uuid) : Command → Uuid → List JobEventKind
  | .registerJob job => only job.jobId [.jobRegistered]
  | .createOffer offer => only offer.jobId [.offerCreated offer.offerId offer.driverId]
  | .acceptOffer offerId _ =>
      match s.offers.lookup offerId with
      | none => fun _ => []
      | some offer =>
          let offers := s.offers.insert offerId { offer with status := .accepted }
          only offer.jobId
            (sweepEvents order (competesWith offer.jobId offer.offerId) offers ++
              [.offerAccepted offer.offerId offer.driverId,
                .matchConfirmed offer.offerId offer.driverId])
  | .rejectOffer offerId _ => s.emittedFor offerId (.offerRejected offerId)
  | .markOfferExpired offerId => s.emittedFor offerId (.offerExpired offerId)
  | .markOfferCancelled offerId => s.emittedFor offerId (.offerCancelled offerId)
  | .cancelJob jobId =>
      if (s.jobs.lookup jobId).isSome then
        only jobId (sweepEvents order (pendingOf jobId) s.offers ++
          if jobId ∉ s.cancelledJobs then [.jobCancelled] else [])
      else fun _ => []
  | .recordWebhookDeliveryFailed jobId offerId =>
      if (s.jobs.lookup jobId).isSome then only jobId [.webhookDeliveryFailed offerId]
      else fun _ => []
  | .upsertDriverLocation .. | .removeDriver _ => fun _ => []

/-! ## What the ledger says -/

/-- The status of an offer, where it is one of the job's. -/
def statusIn (s : Ledger) (jobId offerId : Uuid) : Option OfferStatus :=
  (s.offers.lookup offerId).bind fun o => if o.jobId = jobId then some o.status else none

def cancellationOf (s : Ledger) (jobId : Uuid) : Option Bool :=
  (s.jobs.lookup jobId).map fun _ => decide (jobId ∈ s.cancelledJobs)

variable {s : Ledger} {order : List Uuid → List Uuid} {j k : Uuid}

/-! ## Statuses -/

theorem latest_sweepEvents (arranged : ∀ ks, (order ks).Perm ks) (p : OfferRecord → Bool)
    {offers : HashMap Uuid OfferRecord} (keyed : ∀ k o, offers.lookup k = some o → o.offerId = k) :
    latest (JobEventKind.statusOf k) (sweepEvents order p offers) =
      ((offers.lookup k).filter p).map fun _ => .cancelled := by
  have named : ∀ event ∈ sweepEvents order p offers, ∃ i o, offers.lookup i = some o ∧ p o = true ∧
      event = .offerCancelled i o.driverId := by
    intro event member
    simp only [sweepEvents, List.mem_map, List.mem_filter, HashMap.mem_iter arranged] at member
    obtain ⟨o, ⟨⟨i, found⟩, swept⟩, rfl⟩ := member
    exact ⟨i, o, found, swept, by rw [keyed i o found]⟩
  cases picked : (offers.lookup k).filter p with
  | none =>
      refine latest_of_silent fun event member => ?_
      obtain ⟨i, o, found, swept, rfl⟩ := named event member
      have other : i ≠ k := by
        rintro rfl
        simp [found, swept] at picked
      simp [JobEventKind.statusOf, other]
  | some o =>
      obtain ⟨found, swept⟩ := Option.filter_eq_some_iff.mp picked
      refine latest_of_agree ?_ ⟨.offerCancelled k o.driverId, ?_, by simp [JobEventKind.statusOf]⟩
      · intro event member
        obtain ⟨i, _, _, _, rfl⟩ := named event member
        simp only [JobEventKind.statusOf]
        split
        · exact .inr rfl
        · exact .inl rfl
      · simp only [sweepEvents, List.mem_map, List.mem_filter, HashMap.mem_iter arranged]
        exact ⟨o, ⟨⟨k, found⟩, swept⟩, by rw [keyed k o found]⟩

theorem Keyed.insert (keyed : s.Keyed) (offer : OfferRecord) (k : Uuid) (o : OfferRecord)
    (found : (s.offers.insert offer.offerId offer).lookup k = some o) : o.offerId = k := by
  rw [HashMap.lookup_insert_if] at found
  split at found
  · rename_i same
    obtain rfl := Option.some.inj found
    exact same.symm
  · exact keyed k o found

/-- Rewriting the status of the offers there are shows in what the ledger says. -/
theorem statusIn_rewritten {s' : Ledger} {status : OfferRecord → OfferStatus}
    (rewritten : s'.offers.lookup k =
      (s.offers.lookup k).map fun o => { o with status := status o }) :
    s'.statusIn j k =
      (s.offers.lookup k).bind fun o => if o.jobId = j then some (status o) else none := by
  unfold statusIn
  rw [rewritten]
  cases s.offers.lookup k <;> rfl

theorem told_setOfferStatus (s : Ledger) {offerId : Uuid} {status : OfferStatus}
    {kind : Uuid → JobEventKind}
    (tells : ∀ driverId, (kind driverId).statusOf k = if offerId = k then some status else none) :
    (s.setOfferStatus offerId status).statusIn j k =
      (latest (JobEventKind.statusOf k) (s.emittedFor offerId kind j)).or (s.statusIn j k) := by
  rw [statusIn_rewritten (setOfferStatus_offers s offerId k status)]
  unfold emittedFor statusIn
  by_cases same : offerId = k
  · subst same
    cases found : s.offers.lookup offerId with
    | none => simp
    | some offer =>
        by_cases ofJob : offer.jobId = j
        · simp [only, tells, ofJob]
        · simp [only, ofJob, Ne.symm ofJob]
  · have other : k ≠ offerId := Ne.symm same
    cases found : s.offers.lookup offerId with
    | none => simp [other]
    | some offer => by_cases ofJob : j = offer.jobId <;> simp [only, tells, ofJob, same, other]

/-- An acceptance tells of the offers it sweeps first and of its own last. -/
theorem told_acceptOffer (arranged : ∀ ks, (order ks).Perm ks) (keyed : s.Keyed)
    (offerId : Uuid) (respondedAt : DateTime) :
    (s.apply (.acceptOffer offerId respondedAt)).statusIn j k =
      (latest (JobEventKind.statusOf k)
        (s.emitted order (.acceptOffer offerId respondedAt) j)).or (s.statusIn j k) := by
  rw [statusIn_rewritten (lookup_apply s (fun _ => Command.noConfusion) k)]
  simp only [emitted, newStatus, statusIn]
  cases selected : s.offers.lookup offerId with
  | none =>
      cases found : s.offers.lookup k with
      | none => rfl
      | some o =>
          have other : k ≠ offerId := by
            rintro rfl
            simp [found] at selected
          simp [other]
  | some offer =>
      obtain rfl : offer.offerId = offerId := keyed offerId offer selected
      have sweep := @latest_sweepEvents order k arranged (competesWith offer.jobId offer.offerId) _
        (keyed.insert { offer with status := .accepted })
      rw [HashMap.lookup_insert_if] at sweep
      by_cases ofJob : j = offer.jobId
      · subst ofJob
        simp only [only, if_true, latest_append, sweep]
        by_cases same : k = offer.offerId
        · subst same
          simp [selected, JobEventKind.statusOf]
        · cases found : s.offers.lookup k with
          | none => simp [same, Ne.symm same, JobEventKind.statusOf]
          | some o =>
              by_cases competing : competesWith offer.jobId offer.offerId o
              · have ofJob : o.jobId = offer.jobId := by
                  simp only [competesWith, Bool.and_eq_true, beq_iff_eq] at competing
                  exact competing.1.1
                simp [same, Ne.symm same, JobEventKind.statusOf, Option.filter, competing, ofJob]
              · simp [same, Ne.symm same, JobEventKind.statusOf, Option.filter, competing]
      · simp only [only, ofJob, if_false, latest_nil, Option.none_or]
        cases found : s.offers.lookup k with
        | none => rfl
        | some o =>
            by_cases here : o.jobId = j
            · have same : k ≠ offer.offerId := by
                rintro rfl
                obtain rfl := Option.some.inj (selected.symm.trans found)
                exact ofJob here.symm
              simp [here, same, competesWith, ofJob]
            · simp [here]

theorem told_cancelJob (arranged : ∀ ks, (order ks).Perm ks) (keyed : s.Keyed) (jobId : Uuid) :
    (s.apply (.cancelJob jobId)).statusIn j k =
      (latest (JobEventKind.statusOf k) (s.emitted order (.cancelJob jobId) j)).or
        (s.statusIn j k) := by
  rw [statusIn_rewritten (lookup_apply s (fun _ => Command.noConfusion) k)]
  simp only [emitted, newStatus, statusIn]
  split
  · rename_i known
    have sweep := @latest_sweepEvents order k arranged (pendingOf jobId) s.offers keyed
    have flag : latest (JobEventKind.statusOf k)
        (if jobId ∉ s.cancelledJobs then [.jobCancelled] else []) = none := by
      split <;> rfl
    by_cases ofJob : j = jobId
    · subst ofJob
      simp only [only, if_true, latest_append, flag, Option.none_or, sweep]
      cases found : s.offers.lookup k with
      | none => rfl
      | some o =>
          by_cases swept : pendingOf j o
          · have here : o.jobId = j := by
              simp only [pendingOf, Bool.and_eq_true, beq_iff_eq] at swept
              exact swept.1
            simp [known, Option.filter, swept, here]
          · simp [Option.filter, swept]
    · simp only [only, ofJob, if_false, latest_nil, Option.none_or]
      cases found : s.offers.lookup k with
      | none => rfl
      | some o =>
          by_cases here : o.jobId = j
          · simp [here, pendingOf, ofJob]
          · simp [here]
  · rename_i unknown
    simp [unknown]

/-- What a command pushes for a job tells every status it changed there. -/
theorem statusIn_apply (arranged : ∀ ks, (order ks).Perm ks) (keyed : s.Keyed) {cmd : Command}
    (fresh : ∀ offer, cmd = .createOffer offer → s.Fresh offer) (j k : Uuid) :
    (s.apply cmd).statusIn j k =
      (latest (JobEventKind.statusOf k) (s.emitted order cmd j)).or (s.statusIn j k) := by
  cases cmd with
  | acceptOffer offerId respondedAt => exact told_acceptOffer arranged keyed offerId respondedAt
  | cancelJob jobId => exact told_cancelJob arranged keyed jobId
  | rejectOffer | markOfferExpired | markOfferCancelled => exact told_setOfferStatus s fun _ => rfl
  | upsertDriverLocation | removeDriver => rfl
  | registerJob job =>
      have silent : latest (JobEventKind.statusOf k) (only job.jobId [.jobRegistered] j) = none := by
        unfold only
        split <;> rfl
      simp only [emitted, silent, Option.none_or]
      rfl
  | recordWebhookDeliveryFailed jobId offerId =>
      simp only [emitted, apply]
      split
      · have silent : latest (JobEventKind.statusOf k)
            (only jobId [.webhookDeliveryFailed offerId] j) = none := by
          unfold only
          split <;> rfl
        simp only [silent, Option.none_or]
        rfl
      · rfl
  | createOffer offer =>
      obtain ⟨pending, unused⟩ := fresh offer rfl
      unfold statusIn
      rw [lookup_createOffer]
      by_cases same : k = offer.offerId
      · subst same
        by_cases ofJob : j = offer.jobId
        · simp [emitted, only, ofJob, JobEventKind.statusOf, pending]
        · simp [emitted, only, ofJob, Ne.symm ofJob, unused]
      · by_cases ofJob : j = offer.jobId <;>
          simp [emitted, only, ofJob, JobEventKind.statusOf, same, Ne.symm same]

/-! ## Registration and cancellation -/

theorem silent_sweepEvents {α : Type} {answer : JobEventKind → Option α}
    (silent : ∀ o d, answer (.offerCancelled o d) = none) (p : OfferRecord → Bool)
    (offers : HashMap Uuid OfferRecord) : latest answer (sweepEvents order p offers) = none := by
  refine latest_of_silent fun event member => ?_
  obtain ⟨o, _, rfl⟩ := List.mem_map.mp member
  exact silent _ _

theorem latest_only {α : Type} {answer : JobEventKind → Option α} {jobId : Uuid}
    {kinds : List JobEventKind} :
    latest answer (only jobId kinds j) = if j = jobId then latest answer kinds else none := by
  unfold only
  split <;> rfl

theorem latest_emittedFor {α : Type} {answer : JobEventKind → Option α} {offerId : Uuid}
    {kind : Uuid → JobEventKind} (silent : ∀ driverId, answer (kind driverId) = none) :
    latest answer (s.emittedFor offerId kind j) = none := by
  unfold emittedFor
  cases s.offers.lookup offerId with
  | none => rfl
  | some offer => rw [latest_only, latest_singleton, silent, ite_self]

theorem cancellationOf_apply (cmd : Command) (j : Uuid) :
    (s.apply cmd).cancellationOf j =
      (latest JobEventKind.cancels (s.emitted order cmd j)).or (s.cancellationOf j) := by
  have sweep : ∀ p offers, latest JobEventKind.cancels (sweepEvents order p offers) = none :=
    fun p offers => silent_sweepEvents (fun _ _ => rfl) p offers
  unfold cancellationOf
  rw [lookup_jobs_apply, cancelledJobs_apply]
  cases cmd with
  | upsertDriverLocation | removeDriver => rfl
  | rejectOffer | markOfferExpired | markOfferCancelled =>
      simp only [emitted]
      rw [latest_emittedFor (by intro _; rfl), Option.none_or]
  | createOffer offer =>
      simp only [emitted, latest_only, latest_singleton, JobEventKind.cancels, ite_self,
        Option.none_or]
  | recordWebhookDeliveryFailed jobId offerId =>
      simp only [emitted]
      split
      · simp only [latest_only, latest_singleton, JobEventKind.cancels, ite_self, Option.none_or]
      · rfl
  | acceptOffer offerId respondedAt =>
      simp only [emitted]
      cases s.offers.lookup offerId with
      | none => rfl
      | some offer => simp [latest_only, latest_append, sweep, JobEventKind.cancels]
  | registerJob job =>
      by_cases same : j = job.jobId
      · simp [emitted, latest_only, JobEventKind.cancels, same]
      · simp [emitted, latest_only, same]
  | cancelJob jobId =>
      simp only [emitted]
      split
      · rename_i known
        obtain ⟨job, registered⟩ := Option.isSome_iff_exists.mp known
        by_cases same : j = jobId
        · subst same
          by_cases again : j ∈ s.cancelledJobs
          · simp [latest_only, sweep, again]
          · simp [latest_only, latest_append, sweep, JobEventKind.cancels, again, registered]
        · simp [latest_only, same]
      · rfl

theorem registered_emitted (cmd : Command) (j : Uuid) :
    .jobRegistered ∈ s.emitted order cmd j ↔ ∃ job, cmd = .registerJob job ∧ job.jobId = j := by
  have sweep : ∀ p offers, .jobRegistered ∉ sweepEvents order p offers := by
    intro p offers member
    obtain ⟨o, _, same⟩ := List.mem_map.mp member
    cases same
  cases cmd with
  | upsertDriverLocation | removeDriver => simp [emitted]
  | registerJob job =>
      by_cases same : job.jobId = j
      · simp [emitted, only, same]
      · simp [emitted, only, same, Ne.symm same]
  | createOffer offer => by_cases same : j = offer.jobId <;> simp [emitted, only, same]
  | rejectOffer offerId | markOfferExpired offerId | markOfferCancelled offerId =>
      simp only [emitted, emittedFor]
      cases s.offers.lookup offerId with
      | none => simp
      | some offer => by_cases same : j = offer.jobId <;> simp [only, same]
  | recordWebhookDeliveryFailed =>
      simp only [emitted]
      split
      · simp only [only]
        split <;> simp
      · simp
  | acceptOffer offerId =>
      simp only [emitted]
      cases s.offers.lookup offerId with
      | none => simp
      | some offer => by_cases same : j = offer.jobId <;> simp [only, same, sweep]
  | cancelJob =>
      simp only [emitted]
      split
      · simp only [only]
        split
        · split <;> simp [sweep]
        · simp
      · simp

/-- The ledger says what the histories tell. -/
structure Recounted (s : Ledger) (history : Uuid → List JobEventKind) : Prop where
  statuses : ∀ j k, s.statusIn j k = latest (JobEventKind.statusOf k) (history j)
  registered : ∀ j, (s.jobs.lookup j).isSome ↔ .jobRegistered ∈ history j
  cancellations : ∀ j, s.cancellationOf j = latest JobEventKind.cancels (history j)

theorem recounted_empty : Ledger.empty.Recounted fun _ => [] where
  statuses _ _ := rfl
  registered _ := by simp [Ledger.empty]
  cancellations _ := rfl

theorem Recounted.apply {history : Uuid → List JobEventKind} (recounted : s.Recounted history)
    (arranged : ∀ ks, (order ks).Perm ks) (keyed : s.Keyed) {cmd : Command}
    (fresh : ∀ offer, cmd = .createOffer offer → s.Fresh offer) :
    (s.apply cmd).Recounted fun j => history j ++ s.emitted order cmd j where
  statuses j k := by
    rw [statusIn_apply arranged keyed fresh, latest_append, recounted.statuses]
  registered j := by
    rw [List.mem_append, registered_emitted, ← recounted.registered, lookup_jobs_apply]
    cases cmd with
    | registerJob job =>
        by_cases same : job.jobId = j
        · simp [same]
        · simp [same, Ne.symm same]
    | _ => simp
  cancellations j := by
    rw [cancellationOf_apply, latest_append, recounted.cancellations]

theorem Recounted.setOfferStatus {history : Uuid → List JobEventKind}
    (recounted : s.Recounted history) (offerId : Uuid) (status : OfferStatus) :
    (s.setOfferStatus offerId status).Recounted fun j =>
      history j ++ s.emittedFor offerId (fun _ => .offerStatusUpdated offerId status) j := by
  have frame : (s.setOfferStatus offerId status).jobs = s.jobs ∧
      (s.setOfferStatus offerId status).cancelledJobs = s.cancelledJobs := by
    unfold Ledger.setOfferStatus
    split <;> exact ⟨rfl, rfl⟩
  refine ⟨fun j k => ?_, fun j => ?_, fun j => ?_⟩
  · have tells : ∀ driverId : Uuid, JobEventKind.statusOf k (.offerStatusUpdated offerId status) =
        if offerId = k then some status else none := fun _ => rfl
    rw [told_setOfferStatus s tells, latest_append, recounted.statuses]
  · rw [frame.1, recounted.registered, List.mem_append]
    unfold emittedFor
    cases s.offers.lookup offerId with
    | none => simp
    | some offer => by_cases same : j = offer.jobId <;> simp [only, same]
  · unfold cancellationOf
    rw [frame.1, frame.2, latest_append, latest_emittedFor (by intro _; rfl), Option.none_or]
    exact recounted.cancellations j

end Ledger

/-! ## Every command pushes for one job -/

/-- The maps may differ, but nothing that a push of events reads does. -/
structure Engine.SameEvents {β : Type} (e mid : Engine β) : Prop where
  storage : mid.storage = e.storage
  walSequence : mid.walSequence = e.walSequence
  sequences : mid.jobEventSequences = e.jobEventSequences
  jobEvents : mid.jobEvents = e.jobEvents
  tick : mid.tick = e.tick

namespace Engine

variable {β : Type} [StorageBackend β] (host : Host) (e : Engine β)

theorem pushJobEvents_append (jobId : Uuid) (kinds more : List JobEventKind) :
    (e.pushJobEvents host jobId kinds).pushJobEvents host jobId more =
      e.pushJobEvents host jobId (kinds ++ more) :=
  List.foldl_append.symm

/-- To change the maps and then push these events for one job. -/
def Pushes (e' : Engine β) (kinds : Uuid → List JobEventKind) : Prop :=
  ∃ mid jobId events, e.SameEvents mid ∧ e' = mid.pushJobEvents host jobId events ∧
    kinds = only jobId events

theorem pushes_none (mid : Engine β) (same : e.SameEvents mid) : e.Pushes host mid fun _ => [] := by
  refine ⟨mid, 0, [], same, rfl, ?_⟩
  funext j
  exact (ite_self _).symm

theorem setOfferStatus_pushes (offerId : Uuid) (status : OfferStatus) (kind : Uuid → JobEventKind) :
    e.Pushes host (e.setOfferStatus host offerId status kind) (e.emittedFor offerId kind) := by
  unfold setOfferStatus Ledger.emittedFor
  cases e.offers.lookup offerId with
  | none => exact pushes_none host e e ⟨rfl, rfl, rfl, rfl, rfl⟩
  | some offer =>
      let mid := { e with offers := e.offers.insert offerId { offer with status } }
      exact ⟨mid, offer.jobId, [kind offer.driverId], ⟨rfl, rfl, rfl, rfl, rfl⟩, rfl, rfl⟩

/-- A command changes the maps and then pushes what it emits. -/
theorem applyCommand_pushes (cmd : Command) :
    e.Pushes host (e.applyCommand host cmd) (e.emitted (host.order e.tick) cmd) := by
  cases cmd with
  | upsertDriverLocation | removeDriver =>
      exact pushes_none host e _ ⟨rfl, rfl, rfl, rfl, rfl⟩
  | registerJob job =>
      let mid := { e with
        jobs := e.jobs.insert job.jobId job
        cancelledJobs := e.cancelledJobs.erase job.jobId }
      exact ⟨mid, job.jobId, [.jobRegistered], ⟨rfl, rfl, rfl, rfl, rfl⟩, rfl, rfl⟩
  | createOffer offer =>
      let mid := { e with offers := e.offers.insert offer.offerId offer }
      exact ⟨mid, offer.jobId, [.offerCreated offer.offerId offer.driverId],
        ⟨rfl, rfl, rfl, rfl, rfl⟩, rfl, rfl⟩
  | rejectOffer | markOfferExpired | markOfferCancelled =>
      exact setOfferStatus_pushes host e _ _ _
  | recordWebhookDeliveryFailed jobId offerId =>
      simp only [applyCommand, Ledger.emitted]
      split
      · exact ⟨e, jobId, [.webhookDeliveryFailed offerId], ⟨rfl, rfl, rfl, rfl, rfl⟩, rfl, rfl⟩
      · exact pushes_none host e e ⟨rfl, rfl, rfl, rfl, rfl⟩
  | acceptOffer offerId respondedAt =>
      simp only [applyCommand, Ledger.emitted]
      cases e.offers.lookup offerId with
      | none => exact pushes_none host e e ⟨rfl, rfl, rfl, rfl, rfl⟩
      | some offer =>
          let offers := e.offers.insert offerId { offer with status := .accepted }
          let competing := competesWith offer.jobId offer.offerId
          let mid := { e with
            offers := cancelWhere competing offers
            drivers := markBusy offer.driverId e.drivers }
          have appended := pushJobEvents_append host mid offer.jobId
            (e.cancelledEvents host competing offers)
            [.offerAccepted offer.offerId offer.driverId, .matchConfirmed offer.offerId offer.driverId]
          exact ⟨mid, offer.jobId, _, ⟨rfl, rfl, rfl, rfl, rfl⟩, appended, rfl⟩
  | cancelJob jobId =>
      simp only [applyCommand, Ledger.emitted]
      split
      · let mid := { e with
          cancelledJobs := insert jobId e.cancelledJobs
          offers := cancelWhere (pendingOf jobId) e.offers }
        refine ⟨mid, jobId, _, ⟨rfl, rfl, rfl, rfl, rfl⟩, ?_, rfl⟩
        split
        · exact pushJobEvents_append host mid jobId (e.cancelledEvents host (pendingOf jobId) e.offers)
            [.jobCancelled]
        · rw [List.append_nil]
          rfl
      · exact pushes_none host e e ⟨rfl, rfl, rfl, rfl, rfl⟩

end Engine

end Spatiad
