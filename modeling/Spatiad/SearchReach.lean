import Spatiad.NearestOffers

/-! # How far the searches reach

The rings are 2 km apart and none exceeds the maximum radius, so a search stops short of
a maximum that no ring hits.  Re-dispatch cuts each ring to its 32 nearest drivers before
it leaves out those that already had the job.
-/

namespace Spatiad

open Foundation

variable {β : Type} {host : Host} {e : Engine β} {job : JobRequest}

def Engine.DriverWithin (host : Host) (e : Engine β) (job : JobRequest) (radiusKm : ℚ) : Prop :=
  ∃ driverId distanceKm, e.EligibleAt host job.pickup job.category driverId distanceKm ∧
    distanceKm ≤ radiusKm

theorem nearestAvailable_isSome :
    (DispatchService.nearestAvailable host e job).isSome ↔
      e.DriverWithin host job (searchReach job.initialRadiusKm job.maxRadiusKm) := by
  constructor
  · intro chosen
    obtain ⟨driverId, chosen⟩ := Option.isSome_iff_exists.mp chosen
    obtain ⟨distanceKm, reached, nearest⟩ := nearestAvailable_nearest chosen
    exact ⟨driverId, distanceKm, nearest.eligible, reached⟩
  · rintro ⟨driverId, distanceKm, eligible, reached⟩
    have ascending := ranking_ascending host e job.pickup job.category
    have member := mem_ranking.mpr eligible
    rw [nearestAvailable_eq]
    cases entries : e.ranking host job.pickup job.category with
    | nil =>
        rw [entries] at member
        cases member
    | cons first rest =>
        rw [entries] at ascending member
        have least : first.2 ≤ distanceKm := by
          rcases List.mem_cons.mp member with rfl | later
          · exact le_refl _
          · exact (List.pairwise_cons.mp ascending).1 _ later
        simp [Option.filter, least.trans reached]

variable [StorageBackend β]

theorem submitJob_offers_iff (host : Host) (e : Engine β) (job : JobRequest) :
    (∃ offer, (DispatchService.submitJob host e job).2 = .ok offer) ↔
      e.DriverWithin host job (searchReach job.initialRadiusKm job.maxRadiusKm) := by
  have registered : e.DriverWithin host job (searchReach job.initialRadiusKm job.maxRadiusKm) ↔
      (DispatchService.nearestAvailable host (e.registerJob host job) job).isSome :=
    nearestAvailable_isSome.symm
  rw [registered]
  rcases submitJob_cases host e job with ⟨chosen, same⟩ | ⟨driverId, chosen, same⟩
  · simp [same, chosen]
  · simp [same, chosen]

/-- A submission finds a driver exactly when one is within the maximum radius, if and
    only if a driver in that radius implies one in the last ring. -/
theorem max_radius_reached_iff (host : Host) (e : Engine β) (job : JobRequest)
    (ordered : job.initialRadiusKm ≤ job.maxRadiusKm) :
    ((∃ offer, (DispatchService.submitJob host e job).2 = .ok offer) ↔
        e.DriverWithin host job (max job.maxRadiusKm (1 / 10))) ↔
      (e.DriverWithin host job (max job.maxRadiusKm (1 / 10)) →
        e.DriverWithin host job (searchReach job.initialRadiusKm job.maxRadiusKm)) := by
  have inside : searchReach job.initialRadiusKm job.maxRadiusKm ≤ max job.maxRadiusKm (1 / 10) := by
    refine (searchReach_le _ _).trans (max_le (le_max_left _ _) ?_)
    exact max_le_max_right _ ordered
  have widens : e.DriverWithin host job (searchReach job.initialRadiusKm job.maxRadiusKm) →
      e.DriverWithin host job (max job.maxRadiusKm (1 / 10)) := by
    rintro ⟨driverId, distanceKm, eligible, reached⟩
    exact ⟨driverId, distanceKm, eligible, reached.trans inside⟩
  rw [submitJob_offers_iff]
  exact ⟨fun same => same.mpr, fun reaches => ⟨widens, reaches⟩⟩

/-- With the initial radius 1 and the maximum 5 the rings end at the maximum. -/
theorem maximum_of_five_reached :
    let e := (performAll meridianHost emptyService [comesOnlineAt 101 5]).2
    (∃ offer, (DispatchService.submitJob meridianHost e (jobAtOrigin 1)).2 = .ok offer) ↔
      e.DriverWithin meridianHost (jobAtOrigin 1) 5 := by
  intro e
  have lastRing : searchReach 1 5 = 5 := by decide +kernel
  have limit : max (5 : ℚ) (1 / 10) = 5 := by decide +kernel
  have reached := (max_radius_reached_iff meridianHost e (jobAtOrigin 1) (by decide +kernel)).mpr
  simp only [jobAtOrigin, lastRing, limit] at reached
  exact reached id

/-- With the maximum 2 the only ring is that of 1 km, and a driver at 1.5 km is missed. -/
theorem driver_within_maximum_missed :
    ¬ ∀ (host : Host) (e : DispatchService InMemoryBackend) (job : JobRequest),
      0 ≤ job.initialRadiusKm → job.initialRadiusKm ≤ job.maxRadiusKm → job.maxRadiusKm ≤ 1000 →
        ((∃ offer, (DispatchService.submitJob host e job).2 = .ok offer) ↔
          e.DriverWithin host job (max job.maxRadiusKm (1 / 10))) := by
  intro all
  let e := (performAll meridianHost emptyService [comesOnlineAt 101 (3 / 2)]).2
  let job := { jobAtOrigin 1 with maxRadiusKm := 2 }
  have within : e.DriverWithin meridianHost job (max 2 (1 / 10)) :=
    ⟨101, 3 / 2, ⟨⟨101, "TOW_TRUCK", .available, ⟨3 / 2, 0⟩, 0⟩, by decide +kernel, rfl,
      by decide +kernel, by decide +kernel⟩, by decide +kernel⟩
  obtain ⟨offer, offered⟩ := (all meridianHost e job (by decide +kernel) (by decide +kernel)
    (by decide +kernel)).mpr within
  have missed : (DispatchService.submitJob meridianHost e job).2 = .error .noAvailableDriver := by
    decide +kernel
  rw [missed] at offered
  cases offered

/-! ## Re-dispatch -/

/-- How many drivers that already had the job come before the nearest one that had not,
    ties as the map iterates. -/
def Engine.triedFirst (host : Host) (e : Engine β) (job : JobRequest) (jobId : Uuid) : Nat :=
  ((e.ranking host job.pickup job.category).takeWhile fun entry =>
    e.alreadyOffered jobId entry.1).length

omit [StorageBackend β] in
/-- An untried driver in the first ring is found if it is among the 32 nearest. -/
theorem nextUntried_isSome {jobId driverId : Uuid} {distanceKm : ℚ}
    (eligible : e.EligibleAt host job.pickup job.category driverId distanceKm)
    (untried : e.Untried jobId driverId) (close : distanceKm ≤ max job.initialRadiusKm (1 / 10)) :
    (e.nextUntried host job jobId).isSome ↔ e.triedFirst host job jobId < 32 := by
  let untriedEntry (entry : Uuid × ℚ) : Bool := !e.alreadyOffered jobId entry.1
  have member := mem_ranking.mpr eligible
  have meets : untriedEntry (driverId, distanceKm) = true := by
    simp [untriedEntry, Ledger.untried_iff.mp untried]
  have among := find_take_isSome untriedEntry 32 ⟨_, member, meets⟩
  rw [nextUntried_eq, Option.isSome_map]
  simp only [untriedEntry, Bool.not_not] at among
  rw [Engine.triedFirst, ← among]
  cases found : ((e.ranking host job.pickup job.category).take 32).find? untriedEntry with
  | none => simp
  | some entry =>
      -- the first untried driver is no farther than the given one
      have least : entry.2 ≤ distanceKm := find_least _ (ranking_ascending host e _ _)
        (find_of_take _ found) member meets
      have reached : entry.2 ≤ searchReach job.initialRadiusKm job.maxRadiusKm :=
        least.trans (close.trans (le_searchReach _ _))
      simp [Option.filter, reached]

/-- While an untried eligible driver is in the first ring, re-dispatch of an open job
    finds one if and only if fewer than 32 drivers that already had the job come before
    the nearest that had not. -/
theorem redispatch_finds_iff (host : Host) (e : Engine β) (jobId : Uuid) (job : JobRequest)
    (registered : e.jobs.lookup jobId = some job) (active : jobId ∉ e.cancelledJobs)
    (unmatched : e.hasOffer jobId .accepted = false) (idle : e.hasOffer jobId .pending = false)
    (candidate : ∃ driverId distanceKm,
      e.EligibleAt host job.pickup job.category driverId distanceKm ∧ e.Untried jobId driverId ∧
        distanceKm ≤ max job.initialRadiusKm (1 / 10)) :
    (∃ offer, (e.createNextOfferForJob host jobId).2 = some offer) ↔
      e.triedFirst host job jobId < 32 := by
  obtain ⟨driverId, distanceKm, eligible, untried, close⟩ := candidate
  rw [← nextUntried_isSome eligible untried close]
  unfold Engine.createNextOfferForJob
  simp only [registered, if_neg active, unmatched, idle, Bool.false_eq_true, if_false]
  cases e.nextUntried host job jobId <;> simp

/-- A withdrawn job goes to the driver that has not had it. -/
theorem redispatch_finds_second_driver :
    let e := (performAll stillHost emptyService
      [comesOnline 100, comesOnline 101, .submitJob (jobAtOrigin 1), .cancelOffer 4]).2
    ∃ offer, (e.createNextOfferForJob stillHost 1).2 = some offer := by
  intro e
  refine (redispatch_finds_iff stillHost e 1 (jobAtOrigin 1) (by decide +kernel)
    (by decide +kernel) (by decide +kernel) (by decide +kernel) ⟨100, 0, ?_, ?_, by decide +kernel⟩).mpr
      (by decide +kernel)
  · exact ⟨⟨100, "tow_truck", .available, ⟨0, 0⟩, 0⟩, by decide +kernel, rfl, by decide +kernel, rfl⟩
  · exact Ledger.untried_iff.mpr (by decide +kernel)

/-- Of 33 drivers at the pickup all but driver 100 have refused job 1. -/
def crowdedService : DispatchService InMemoryBackend :=
  let drivers := (List.range 33).map fun n => comesOnline (100 + n)
  { (performAll stillHost emptyService drivers).2 with
    jobs := (∅ : HashMap Uuid JobRequest).insert 1 (jobAtOrigin 1)
    offers := (List.range 32).foldl
      (fun offers n => offers.insert n ⟨n, 1, 101 + n, .rejected, 0⟩) ∅ }

/-- Driver 100 never had the job and is at the pickup, but is 33rd in the ranking. -/
theorem untried_driver_passed_over :
    ¬ ∀ (host : Host) (e : DispatchService InMemoryBackend) (jobId : Uuid) (job : JobRequest),
      e.jobs.lookup jobId = some job → jobId ∉ e.cancelledJobs →
        e.hasOffer jobId .accepted = false → e.hasOffer jobId .pending = false →
        (∃ driverId distanceKm,
          e.EligibleAt host job.pickup job.category driverId distanceKm ∧ e.Untried jobId driverId ∧
            distanceKm ≤ max job.initialRadiusKm (1 / 10)) →
        ∃ offer, (e.createNextOfferForJob host jobId).2 = some offer := by
  intro all
  let e := crowdedService
  have facts : e.jobs.lookup 1 = some (jobAtOrigin 1) ∧ 1 ∉ e.cancelledJobs ∧
      e.hasOffer 1 .accepted = false ∧ e.hasOffer 1 .pending = false ∧
      e.drivers.lookup 100 = some ⟨100, "tow_truck", .available, ⟨0, 0⟩, 0⟩ ∧
      e.alreadyOffered 1 100 = false ∧ (e.createNextOfferForJob stillHost 1).2 = none := by
    decide +kernel
  obtain ⟨registered, active, unmatched, idle, online, untried, givenUp⟩ := facts
  obtain ⟨offer, created⟩ := all stillHost e 1 (jobAtOrigin 1) registered active unmatched idle
    ⟨100, 0, ⟨_, online, rfl, by decide +kernel, rfl⟩, Ledger.untried_iff.mpr untried,
      by decide +kernel⟩
  rw [givenUp] at created
  cases created

end Spatiad
