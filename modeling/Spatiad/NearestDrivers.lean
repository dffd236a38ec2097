import Spatiad.Dispatch
import Spatiad.Foundation.Ranking

/-! # Which driver a search finds

Both searches look at the same ranking of the drivers that may serve a job, nearest
first and ties as the map iterates.  A submission takes the first of it, re-dispatch the
first of its 32 nearest that is untried, each if the last ring reaches it.
-/

namespace Spatiad

open Foundation

variable {β : Type} {host : Host} {e : Engine β} {pickup : Coordinates} {category : String}

/-- A registered driver that is available, has the category ignoring ASCII case and is
    this far from the pickup. -/
def Engine.EligibleAt (host : Host) (e : Engine β) (pickup : Coordinates) (category : String)
    (driverId : Uuid) (distanceKm : ℚ) : Prop :=
  ∃ driver, e.drivers.lookup driverId = some driver ∧ driver.status = .available ∧
    eqIgnoreAsciiCase driver.category category = true ∧
    host.haversineKm pickup driver.position = distanceKm

/-- The drivers a search for the category may offer to, with their distances. -/
def Engine.eligible (host : Host) (e : Engine β) (pickup : Coordinates) (category : String) :
    List (Uuid × ℚ) :=
  (host.order e.driversTick e.drivers.keys).filterMap fun driverId =>
    match e.drivers.lookup driverId with
    | none => none
    | some driver =>
        if driver.serves category then some (driverId, host.haversineKm pickup driver.position)
        else none

def Engine.ranking (host : Host) (e : Engine β) (pickup : Coordinates) (category : String) :
    List (Uuid × ℚ) :=
  ranked Prod.snd (e.eligible host pickup category)

theorem mem_ranking {driverId : Uuid} {distanceKm : ℚ} :
    (driverId, distanceKm) ∈ e.ranking host pickup category ↔
      e.EligibleAt host pickup category driverId distanceKm := by
  unfold Engine.ranking Engine.eligible Engine.EligibleAt
  rw [mem_ranked, List.mem_filterMap]
  constructor
  · rintro ⟨key, _, chosen⟩
    cases found : e.drivers.lookup key with
    | none => simp [found] at chosen
    | some driver =>
        simp only [found, Option.ite_none_right_eq_some, Option.some.injEq, Prod.mk.injEq,
          DriverSnapshot.serves, Bool.and_eq_true, beq_iff_eq] at chosen
        obtain ⟨⟨available, sameCategory⟩, rfl, rfl⟩ := chosen
        exact ⟨driver, found, available, sameCategory, rfl⟩
  · rintro ⟨driver, found, available, sameCategory, rfl⟩
    refine ⟨driverId, ?_, by simp [found, DriverSnapshot.serves, available, sameCategory]⟩
    rw [(host.order_perm _ _).mem_iff]
    exact AList.mem_keys.mp (AList.lookup_isSome.mp (found ▸ rfl))

theorem ranking_ascending (host : Host) (e : Engine β) (pickup : Coordinates) (category : String) :
    (e.ranking host pickup category).Pairwise fun a b => a.2 ≤ b.2 :=
  ranked_ascending Prod.snd _

/-- A ring holds the front of the ranking. -/
theorem nearestCandidatesInRadius_eq (radiusKm : ℚ) (limit : Nat) :
    e.nearestCandidatesInRadius host pickup category radiusKm limit =
      (((e.ranking host pickup category).filter fun entry => entry.2 ≤ radiusKm).take limit).map
        Prod.fst := by
  have selected : (e.eligible host pickup category).filter (fun entry => entry.2 ≤ radiusKm) =
      (host.order e.driversTick e.drivers.keys).filterMap fun driverId =>
        match e.drivers.lookup driverId with
        | none => none
        | some driver =>
            if driver.serves category &&
                decide (host.haversineKm pickup driver.position ≤ radiusKm) then
              some (driverId, host.haversineKm pickup driver.position)
            else none := by
    rw [Engine.eligible, List.filter_filterMap]
    congr 1
    funext driverId
    cases e.drivers.lookup driverId with
    | none => rfl
    | some driver =>
        by_cases serves : driver.serves category <;>
          by_cases within : host.haversineKm pickup driver.position ≤ radiusKm <;>
          simp [serves, within, Option.filter]
  rw [Engine.ranking, filter_ranked, selected]
  rfl

variable (host e pickup category) in
theorem find_nearestCandidates (p : Uuid → Bool) (radiusKm : ℚ) (limit : Nat) :
    (e.nearestCandidatesInRadius host pickup category radiusKm limit).find? p =
      ((((e.ranking host pickup category).take limit).find? fun entry => p entry.1).filter
        fun entry => entry.2 ≤ radiusKm).map Prod.fst := by
  rw [nearestCandidatesInRadius_eq, List.find?_map,
    ← find_take_within _ (ranking_ascending host e pickup category)]
  rfl

theorem nearestAvailable_eq (host : Host) (e : Engine β) (job : JobRequest) :
    DispatchService.nearestAvailable host e job =
      (((e.ranking host job.pickup job.category).head?).filter fun entry =>
        entry.2 ≤ searchReach job.initialRadiusKm job.maxRadiusKm).map Prod.fst := by
  refine wideningSearch_reaches (fun radiusKm => ?_) _ _
  have first := find_nearestCandidates host e job.pickup job.category (fun _ => true) radiusKm 3
  simpa [← List.head?_filter, List.head?_take] using first

theorem nextUntried_eq (host : Host) (e : Engine β) (job : JobRequest) (jobId : Uuid) :
    e.nextUntried host job jobId =
      ((((e.ranking host job.pickup job.category).take 32).find? fun entry =>
        !e.alreadyOffered jobId entry.1).filter fun entry =>
          entry.2 ≤ searchReach job.initialRadiusKm job.maxRadiusKm).map Prod.fst :=
  wideningSearch_reaches (fun radiusKm => find_nearestCandidates _ _ _ _ _ radiusKm 32) _ _

/-- The driver is eligible for the job and meets `p`, and no other that does is nearer. -/
structure Engine.NearestAt (host : Host) (e : Engine β) (job : JobRequest) (p : Uuid → Prop)
    (driverId : Uuid) (distanceKm : ℚ) : Prop where
  eligible : e.EligibleAt host job.pickup job.category driverId distanceKm
  meets : p driverId
  nearest : ∀ other otherKm, e.EligibleAt host job.pickup job.category other otherKm → p other →
    distanceKm ≤ otherKm

theorem nearestAt_of_find {job : JobRequest} (p : Uuid → Bool) {entry : Uuid × ℚ}
    (found : (e.ranking host job.pickup job.category).find? (fun entry => p entry.1) = some entry) :
    e.NearestAt host job (fun driverId => p driverId = true) entry.1 entry.2 where
  eligible := mem_ranking.mp (List.mem_of_find?_eq_some found)
  meets := by
    have met := List.find?_some found
    exact met
  nearest other otherKm eligible meets :=
    find_least _ (ranking_ascending host e job.pickup job.category) found
      (mem_ranking.mpr eligible) meets

theorem nearestAvailable_nearest {job : JobRequest} {driverId : Uuid}
    (chosen : DispatchService.nearestAvailable host e job = some driverId) :
    ∃ distanceKm ≤ searchReach job.initialRadiusKm job.maxRadiusKm,
      e.NearestAt host job (fun _ => True) driverId distanceKm := by
  rw [nearestAvailable_eq, Option.map_eq_some_iff] at chosen
  obtain ⟨entry, selected, rfl⟩ := chosen
  obtain ⟨first, reached⟩ := Option.filter_eq_some_iff.mp selected
  have found : (e.ranking host job.pickup job.category).find? (fun _ => true) = some entry := by
    rwa [← List.head?_filter, List.filter_true]
  obtain ⟨eligible, _, nearest⟩ := nearestAt_of_find (fun _ => true) found
  exact ⟨entry.2, of_decide_eq_true reached, eligible, trivial,
    fun other otherKm eligible _ => nearest other otherKm eligible rfl⟩

theorem nextUntried_nearest {job : JobRequest} {jobId driverId : Uuid}
    (chosen : e.nextUntried host job jobId = some driverId) :
    ∃ distanceKm ≤ searchReach job.initialRadiusKm job.maxRadiusKm,
      e.NearestAt host job (fun driverId => e.alreadyOffered jobId driverId = false) driverId
        distanceKm := by
  rw [nextUntried_eq, Option.map_eq_some_iff] at chosen
  obtain ⟨entry, selected, rfl⟩ := chosen
  obtain ⟨first, reached⟩ := Option.filter_eq_some_iff.mp selected
  obtain ⟨eligible, untried, nearest⟩ :=
    nearestAt_of_find (fun driverId => !e.alreadyOffered jobId driverId) (find_of_take _ first)
  refine ⟨entry.2, of_decide_eq_true reached, eligible, by simpa using untried, ?_⟩
  intro other otherKm eligible untried
  exact nearest other otherKm eligible (by simp [untried])

end Spatiad
