import Spatiad.Deployment
import Spatiad.Validation
import Spatiad.Widening

/-! # Admitted jobs

The engine checks nothing of a job that it is given: the endpoint does, before it submits
one.  No other way leads a job into a deployment, so that whatever is recovered, every job
in it has passed the checks, and every search for its next driver is a short one.
-/

namespace Spatiad

open Foundation

variable {host : Host}

/-! ## What the checks promise -/

structure JobRequest.Valid (host : Host) (job : JobRequest) : Prop where
  category : validateCategory host job.category = .ok ()
  radius : 0 ≤ job.initialRadiusKm ∧ job.initialRadiusKm ≤ job.maxRadiusKm ∧ job.maxRadiusKm ≤ 1000
  pickup : validateCoordinates host job.pickup = .ok ()
  dropoff : ∀ dropoff ∈ job.dropoff, validateCoordinates host dropoff = .ok ()
  timeout : 0 < job.timeoutSeconds ∧ job.timeoutSeconds ≤ 3600

/-- The bound on the rounds of the widening search for a job. -/
def JobRequest.searchRounds (job : JobRequest) : Nat :=
  let radiusKm := max job.initialRadiusKm (1 / 10)
  wideningRounds radiusKm (max job.maxRadiusKm radiusKm)

theorem check_passed {ε ε' : Type} {check : Except ε Unit} {as : ε → ε'}
    {next : Unit → Except ε' Unit} (ok : (check.mapError as >>= next) = .ok ()) :
    check = .ok () ∧ next () = .ok () := by
  cases check with
  | error => cases ok
  | ok => exact ⟨rfl, ok⟩

theorem last_check_passed {ε ε' : Type} {check : Except ε Unit} {as : ε → ε'}
    (ok : check.mapError as = .ok ()) : check = .ok () := by
  cases check with
  | error => cases ok
  | ok => rfl

theorem OfferRequest.valid_job {payload : OfferRequest} (valid : payload.validate host = .ok ())
    (createdAt : DateTime) : (payload.job createdAt).Valid host := by
  obtain ⟨category, valid⟩ := check_passed valid
  obtain ⟨radius, valid⟩ := check_passed valid
  obtain ⟨pickup, valid⟩ := check_passed valid
  have rest : (∀ dropoff ∈ payload.dropoff, validateCoordinates host dropoff = .ok ()) ∧
      validateTimeoutSeconds payload.timeoutSeconds = .ok () := by
    cases dropoff : payload.dropoff with
    | none =>
        rw [dropoff] at valid
        exact ⟨nofun, last_check_passed valid⟩
    | some place =>
        rw [dropoff] at valid
        obtain ⟨inside, valid⟩ := check_passed valid
        exact ⟨fun _ same => Option.some.inj same ▸ inside, last_check_passed valid⟩
  exact ⟨category, validateRadius_ok.mp radius, pickup, rest.1,
    validateTimeoutSeconds_ok.mp rest.2⟩

/-- A search for a valid job looks into 500 rings at most. -/
theorem JobRequest.Valid.searchRounds_le {job : JobRequest} (valid : job.Valid host) :
    job.searchRounds ≤ 500 := by
  obtain ⟨nonneg, ordered, bounded⟩ := valid.radius
  have radius : (1 / 10 : ℚ) ≤ max job.initialRadiusKm (1 / 10) := le_max_right _ _
  have limit : max job.maxRadiusKm (max job.initialRadiusKm (1 / 10)) ≤ 1000 := by
    refine max_le bounded (max_le (ordered.trans bounded) ?_)
    norm_num
  unfold searchRounds wideningRounds
  have small : (max job.maxRadiusKm (max job.initialRadiusKm (1 / 10)) -
      max job.initialRadiusKm (1 / 10)) / 2 < 500 := by
    linarith
  have floor : ⌊(max job.maxRadiusKm (max job.initialRadiusKm (1 / 10)) -
      max job.initialRadiusKm (1 / 10)) / 2⌋ < 500 := Int.floor_lt.mpr (by exact_mod_cast small)
  dsimp only
  omega

/-! ## What a deployment knows -/

def Ledger.JobsValid (host : Host) (s : Ledger) : Prop :=
  ∀ jobId job, s.jobs.lookup jobId = some job → job.Valid host

theorem Ledger.JobsValid.issued {s₀ s : Ledger} {op : Op} {cmd : Command}
    (valid : s.JobsValid host) (admitted : op.Admitted host) (issues : Issues s₀ op s cmd) :
    (s.apply cmd).JobsValid host := by
  intro jobId job found
  rw [Ledger.lookup_jobs_apply] at found
  cases issues with
  | @register submitted =>
      obtain ⟨payload, checked, createdAt, rfl⟩ := admitted
      dsimp only at found
      split at found
      · obtain rfl := Option.some.inj found
        exact payload.valid_job checked createdAt
      · exact valid jobId job found
  | _ => exact valid jobId job found

namespace Deployment

variable {β : Type} [StorageBackend β] [LawfulBackend β]

/-- Every job that any server of a deployment knows, or that an offer of it is for, has
    passed the checks of the endpoint, whatever crashed in between; and every search for its
    next driver ends after at most 500 rings. -/
theorem admitted_jobs_valid (host : Host) (h3Resolution : Nat) (storage : β) (tick : Nat)
    (blank : LawfulBackend.disk storage = WriteAheadLog.Disk.empty) (api : ApiState (Crashing β))
    (engine : api.dispatch = Engine.withStorage h3Resolution ⟨storage, none, []⟩ tick)
    (past : List Incident) (d : Deployment β)
    (run : Run (deploymentStep host) anyStep (Deployment.start api) past d) (up : d.alive = true) :
    (∀ jobId job, d.engine.jobs.lookup jobId = some job →
      job.Valid host ∧ job.searchRounds ≤ 500) ∧
    ∀ offerId o, d.engine.offers.lookup offerId = some o →
      ∃ job, d.engine.jobs.lookup o.jobId = some job ∧ job.Valid host := by
  have start := @Steady.start β _ host _ h3Resolution storage tick api blank engine
  have steady : d.Steady host := start.run run
  have valid : d.history.JobsValid host := by
    apply run.invariant_under (Steady host) (fun _ d => d.history.JobsValid host) start
    case keeps => exact fun _ _ _ steady taken => steady.step taken
    case initial =>
      intro jobId job found
      have empty : (Deployment.start api).history = Ledger.empty := by
        show (api.dispatch.storage.replayed) = _
        rw [engine]
        rfl
      rw [empty] at found
      cases found
    case preserved =>
      intro _ d x d' steady valid _ taken
      exact (history_holds steady.backed steady.working taken valid
        fun _ _ _ _ admitted valid issues => valid.issued admitted issues).logged.held
  rw [← steady.synced up] at valid
  refine ⟨fun jobId job found => ⟨valid jobId job found, (valid jobId job found).searchRounds_le⟩,
    fun offerId o found => ?_⟩
  obtain ⟨job, known⟩ := (steady.working up).shared.registered offerId o found
  exact ⟨job, known, valid o.jobId job known⟩

/-- The job of `offeredDeployment`, whose radii are 1 km and 2 km, has passed them. -/
theorem offered_job_valid :
    ∃ job, matchedDeployment.engine.jobs.lookup 1 = some job ∧ job.Valid stillHost ∧
      job.searchRounds ≤ 500 := by
  obtain ⟨up, past, run⟩ := matchedDeployment_lives
  obtain ⟨valid, _⟩ := admitted_jobs_valid stillHost 8 SqliteBackend.blank 0 rfl _ rfl past _ run up
  have known : matchedDeployment.engine.jobs.lookup 1 =
      some ⟨1, "tow_truck", ⟨0, 0⟩, none, 1, 2, 30, 0⟩ := by
    decide +kernel
  exact ⟨_, known, valid 1 _ known⟩

end Deployment

end Spatiad
