import Spatiad.NearestDrivers
import Spatiad.ServiceRuns

/-! # Offers go to the nearest driver

Submission and re-dispatch each write the widening search out for themselves, with
limits of 3 and 32 candidates.  Both offer to a nearest eligible driver, and for a job
without offers they do the same.
-/

namespace Spatiad

open Foundation

def Ledger.Untried (s : Ledger) (jobId driverId : Uuid) : Prop :=
  ∀ k o, s.offers.lookup k = some o → o.jobId = jobId → o.driverId ≠ driverId

theorem Ledger.untried_iff {s : Ledger} {jobId driverId : Uuid} :
    s.Untried jobId driverId ↔ s.alreadyOffered jobId driverId = false := by
  rw [← Bool.not_eq_true, Ledger.alreadyOffered_iff]
  constructor
  · rintro untried ⟨k, o, found, ofJob, toDriver⟩
    exact untried k o found ofJob toDriver
  · intro none k o found ofJob toDriver
    exact none ⟨k, o, found, ofJob, toDriver⟩

variable {β : Type} [StorageBackend β]

/-- The driver is eligible for the job within its radii and meets `p`, and no eligible
    driver that does is strictly nearer, at whatever distance. -/
def GoesToNearest (host : Host) (e : Engine β) (job : JobRequest) (p : Uuid → Prop)
    (driverId : Uuid) : Prop :=
  ∃ distanceKm ≤ max job.maxRadiusKm (max job.initialRadiusKm (1 / 10)),
    e.NearestAt host job p driverId distanceKm

theorem submitJob_nearest {host : Host} {e e' : Engine β} {job : JobRequest} {offer : OfferRecord}
    (submitted : DispatchService.submitJob host e job = (e', .ok offer)) :
    GoesToNearest host e job (fun _ => True) offer.driverId := by
  rcases submitJob_cases host e job with ⟨_, same⟩ | ⟨driverId, chosen, same⟩
  · rw [same] at submitted
    cases submitted
  · rw [same] at submitted
    obtain rfl := Except.ok.inj (Prod.mk.inj submitted).2
    -- registration leaves the drivers alone
    obtain ⟨distanceKm, reached, nearest⟩ := nearestAvailable_nearest chosen
    exact ⟨distanceKm, reached.trans (searchReach_le _ _), nearest.eligible, nearest.meets,
      nearest.nearest⟩

theorem createNextOfferForJob_nearest {host : Host} {e e' : Engine β} {jobId : Uuid}
    {offer : OfferRecord} (created : e.createNextOfferForJob host jobId = (e', some offer)) :
    ∃ job, e.jobs.lookup jobId = some job ∧
      GoesToNearest host e job (e.Untried jobId) offer.driverId := by
  rcases createNextOfferForJob_cases host e jobId with same | ⟨driverId, job, checks, same⟩
  · rw [same] at created
    cases created
  · rw [same] at created
    obtain rfl := Option.some.inj (Prod.mk.inj created).2
    obtain ⟨distanceKm, reached, eligible, untried, nearest⟩ := nextUntried_nearest checks.chosen
    refine ⟨job, checks.registered, distanceKm, reached.trans (searchReach_le _ _), eligible,
      Ledger.untried_iff.mpr untried, fun other otherKm eligible untried => ?_⟩
    exact nearest other otherKm eligible (Ledger.untried_iff.mp untried)

/-- Whatever the state and the radii, an offer that a submission or re-dispatch creates
    goes to a nearest eligible driver within the maximum radius; re-dispatch leaves out
    the drivers that already had an offer of the job. -/
theorem offers_go_to_nearest (host : Host) (e : Engine β) :
    (∀ job e' offer, DispatchService.submitJob host e job = (e', .ok offer) →
      GoesToNearest host e job (fun _ => True) offer.driverId) ∧
    ∀ jobId e' offer, e.createNextOfferForJob host jobId = (e', some offer) →
      ∃ job, e.jobs.lookup jobId = some job ∧
        GoesToNearest host e job (e.Untried jobId) offer.driverId :=
  ⟨fun _ _ _ submitted => submitJob_nearest submitted,
    fun _ _ _ created => createNextOfferForJob_nearest created⟩

/-- A host on which a degree of latitude is a kilometre. -/
def meridianHost : Host :=
  { stillHost with
    haversineKm := fun a b => |a.latitude - b.latitude|
    haversineKm_nonneg := fun _ _ => abs_nonneg _ }

def comesOnlineAt (driverId : Uuid) (km : ℚ) : Op :=
  .upsertDriverLocation driverId "TOW_TRUCK" ⟨km, 0⟩ .available

/-- Job 1 was offered to its nearest driver, 2 km away, and withdrawn; two more drivers
    are 3 and 4 km away. -/
def threeDrivers : List Op :=
  [comesOnlineAt 103 4, comesOnlineAt 101 2, comesOnlineAt 102 3, .submitJob (jobAtOrigin 1),
    .cancelOffer 5]

/-- A new job goes to the nearest driver, the old one to the nearest of the other two. -/
theorem both_offers_go_to_nearest :
    let e := (performAll meridianHost emptyService threeDrivers).2
    GoesToNearest meridianHost e (jobAtOrigin 2) (fun _ => True) 101 ∧
      ∃ job, e.jobs.lookup 1 = some job ∧ GoesToNearest meridianHost e job (e.Untried 1) 102 := by
  intro e
  have submitted : (DispatchService.submitJob meridianHost e (jobAtOrigin 2)).2 =
      .ok ⟨10, 2, 101, .pending, 30000000000⟩ := by decide +kernel
  have created : (e.createNextOfferForJob meridianHost 1).2 =
      some ⟨9, 1, 102, .pending, 30000000000⟩ := by decide +kernel
  exact ⟨(offers_go_to_nearest meridianHost e).1 _ _ _ (Prod.ext rfl submitted),
    (offers_go_to_nearest meridianHost e).2 1 _ _ (Prod.ext rfl created)⟩

/-! ## The two searches agree -/

omit [StorageBackend β] in
theorem nextUntried_eq_nearestAvailable {host : Host} {e : Engine β} {jobId : Uuid}
    (nobody : ∀ driverId, e.alreadyOffered jobId driverId = false) (job : JobRequest) :
    e.nextUntried host job jobId = DispatchService.nearestAvailable host e job := by
  rw [nextUntried_eq, nearestAvailable_eq]
  simp [nobody, ← List.head?_filter, List.head?_take]

/-- Submitting a job that has no offers comes to the same as registering it and asking
    for its next offer: the same engine, the same offer, or none on both sides. -/
theorem search_loops_agree (host : Host) (e : Engine β) (job : JobRequest)
    (noOffers : ∀ k o, e.offers.lookup k = some o → o.jobId ≠ job.jobId) :
    let submitted := DispatchService.submitJob host e job
    let next := (e.registerJob host job).createNextOfferForJob host job.jobId
    submitted.1 = next.1 ∧ (∀ offer, submitted.2 = .ok offer ↔ next.2 = some offer) ∧
      (submitted.2 = .error .noAvailableDriver ↔ next.2 = none) := by
  intro submitted next
  let r := e.registerJob host job
  have offers : r.offers = e.offers := rfl
  have registered : r.jobs.lookup job.jobId = some job := AList.lookup_insert _
  have active : job.jobId ∉ r.cancelledJobs := Finset.notMem_erase _ _
  have none_has : ∀ status, r.hasOffer job.jobId status = false := fun status =>
    Ledger.hasOffer_eq_false_iff.mpr fun k o found ofJob => absurd ofJob (noOffers k o found)
  have nobody : ∀ driverId, r.alreadyOffered job.jobId driverId = false := fun driverId =>
    Ledger.untried_iff.mp fun k o found ofJob => absurd ofJob (noOffers k o found)
  have sameSearch : r.nextUntried host job job.jobId =
      DispatchService.nearestAvailable host r job := nextUntried_eq_nearestAvailable nobody job
  have next_eq : next = (DispatchService.nearestAvailable host r job).elim (r, none) fun driverId =>
      ((r.createOffer host job.jobId driverId job.timeoutSeconds).1,
        some (r.newOffer host job.jobId driverId job.timeoutSeconds)) := by
    show r.createNextOfferForJob host job.jobId = _
    unfold Engine.createNextOfferForJob
    simp only [registered, if_neg active, none_has, Bool.false_eq_true, if_false, sameSearch]
    cases DispatchService.nearestAvailable host r job <;> rfl
  rcases submitJob_cases host e job with ⟨chosen, same⟩ | ⟨driverId, chosen, same⟩
  · rw [show submitted = _ from same, next_eq, chosen]
    simp [r]
  · rw [show submitted = _ from same, next_eq, chosen]
    simp [r]

/-- The loops agree on a job that two drivers could serve. -/
theorem search_loops_agree_on_job :
    let e := (performAll meridianHost emptyService [comesOnlineAt 101 4, comesOnlineAt 102 3]).2
    (DispatchService.submitJob meridianHost e (jobAtOrigin 1)).2 =
        .ok ⟨4, 1, 102, .pending, 30000000000⟩ ∧
      (DispatchService.submitJob meridianHost e (jobAtOrigin 1)).1 =
        ((e.registerJob meridianHost (jobAtOrigin 1)).createNextOfferForJob meridianHost 1).1 := by
  intro e
  have noOffers : e.offers.keys = [] := by decide +kernel
  refine ⟨by decide +kernel, (search_loops_agree meridianHost e (jobAtOrigin 1) ?_).1⟩
  intro k o found
  have member : k ∈ e.offers.keys := AList.mem_keys.mp (AList.lookup_isSome.mp (found ▸ rfl))
  rw [noOffers] at member
  cases member

end Spatiad
