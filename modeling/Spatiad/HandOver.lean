import Spatiad.ServiceRuns

/-! # Handing a freed job on

When an offer expires or is rejected its job goes to the next driver.  The sweeps
and the answer in time do this; an answer that comes too late does not.
-/

namespace Spatiad

open Foundation

namespace Ledger

def Registered (s : Ledger) : Prop :=
  ∀ k o, s.offers.lookup k = some o → ∃ job, s.jobs.lookup o.jobId = some job

theorem registered_empty : Ledger.empty.Registered := by
  intro k o found
  simp [Ledger.empty] at found

end Ledger

theorem Ledger.markOfferExpired_frame (s : Ledger) (offerId : Uuid) :
    (s.apply (.markOfferExpired offerId)).jobs = s.jobs ∧
      (s.apply (.markOfferExpired offerId)).drivers = s.drivers ∧
      (s.apply (.markOfferExpired offerId)).cancelledJobs = s.cancelledJobs := by
  simp only [apply, setOfferStatus]
  split <;> exact ⟨rfl, rfl, rfl⟩

theorem registered_issued {s₀ s : Ledger} {op : Op} {cmd : Command} (registered : s.Registered)
    (issued : Issues s₀ op s cmd) : (s.apply cmd).Registered := by
  intro k o' found
  rcases Ledger.offer_origin found with ⟨rfl, _⟩ | ⟨o, before, rfl | ⟨_, rfl⟩⟩
  · cases issued with
    | @firstOffer job _ forJob _ =>
        have known : (s₀.apply (.registerJob job)).jobs.lookup o'.jobId = some job := by
          rw [forJob, Ledger.lookup_jobs_apply]
          simp
        exact Ledger.job_kept known _
    | nextOffer _ _ known => exact Ledger.job_kept known _
  · obtain ⟨job, known⟩ := registered k _ before
    exact Ledger.job_kept known cmd
  · obtain ⟨job, known⟩ := registered k o before
    exact Ledger.job_kept known cmd

variable {β : Type} [StorageBackend β] {host : Host}

theorem registered_run {h3Resolution : Nat} {storage : β} {tick : Nat} {past : List Exchange}
    {e : DispatchService β}
    (reached : Run (serviceStep host) anyStep (Engine.withStorage h3Resolution storage tick) past e) :
    e.toLedger.Registered := by
  refine reached.invariant_under (Sound host) (fun _ e => e.toLedger.Registered)
    (sound_withStorage h3Resolution storage tick) (fun _ _ _ sound taken => sound.step taken)
    Ledger.registered_empty ?_
  intro _ _ _ _ sound registered _ taken
  exact sound.step_invariant taken _ registered fun _ _ _ held issued =>
    registered_issued held issued

/-! ## Settled jobs -/

/-- Nothing is left to do for the job: it is over, out with a driver, or its search
    finds no driver that has not had an offer. -/
def Settled (host : Host) (e : Engine β) (jobId : Uuid) : Prop :=
  jobId ∈ e.cancelledJobs ∨ e.hasOffer jobId .accepted = true ∨ e.hasOffer jobId .pending = true ∨
    ∃ job, e.jobs.lookup jobId = some job ∧ e.nextUntried host job jobId = none

omit [StorageBackend β] in
theorem nextUntried_congr {e e' : Engine β} {jobId : Uuid} (drivers : e'.drivers = e.drivers)
    (rebuilt : e'.driversTick = e.driversTick)
    (tried : ∀ driverId, e'.alreadyOffered jobId driverId = e.alreadyOffered jobId driverId)
    (job : JobRequest) : e'.nextUntried host job jobId = e.nextUntried host job jobId := by
  simp only [Engine.nextUntried, Engine.nearestCandidatesInRadius, drivers, rebuilt, tried]

namespace Engine

variable (host) (e : Engine β)

theorem markOfferExpired_driversTick (offerId : Uuid) :
    (e.appendAndApply host (.markOfferExpired offerId)).driversTick = e.driversTick := by
  simp only [appendAndApply, applyCommand, setOfferStatus]
  split <;> rfl

end Engine

/-- `e'` is `e`, or `e` with one more offer: a pending one for the job. -/
structure HandedOn (e e' : Engine β) (jobId : Uuid) : Prop where
  drivers : e'.drivers = e.drivers
  driversTick : e'.driversTick = e.driversTick
  jobs : e'.jobs = e.jobs
  cancelledJobs : e'.cancelledJobs = e.cancelledJobs
  kept : ∀ k o, e.offers.lookup k = some o → e'.offers.lookup k = some o
  new : ∀ k o, e'.offers.lookup k = some o →
    e.offers.lookup k = some o ∨ o.jobId = jobId ∧ o.status = .pending

theorem createOffer_handedOn {e : Engine β} (ids : IdsDrawn host e) (jobId driverId : Uuid)
    (timeoutSeconds : Nat) :
    HandedOn e (e.createOffer host jobId driverId timeoutSeconds).1 jobId := by
  have fresh := newOffer_fresh ids jobId driverId timeoutSeconds
  have lookups : ∀ k, (e.createOffer host jobId driverId timeoutSeconds).1.offers.lookup k =
      if k = (e.newOffer host jobId driverId timeoutSeconds).offerId then
        some (e.newOffer host jobId driverId timeoutSeconds)
      else e.offers.lookup k := Ledger.lookup_createOffer e.toLedger _
  refine ⟨rfl, rfl, rfl, rfl, ?_, ?_⟩
  · intro k o found
    rw [lookups, if_neg]
    · exact found
    · rintro rfl
      rw [fresh.unused] at found
      cases found
  · intro k o found
    rw [lookups] at found
    split at found
    · obtain rfl := Option.some.inj found
      exact .inr ⟨rfl, rfl⟩
    · exact .inl found

theorem createNextOfferForJob_handedOn {e : Engine β} (ids : IdsDrawn host e) (jobId : Uuid) :
    HandedOn e (e.createNextOfferForJob host jobId).1 jobId := by
  rcases createNextOfferForJob_cases host e jobId with same | ⟨driverId, job, _, same⟩
  · rw [same]
    exact ⟨rfl, rfl, rfl, rfl, fun _ _ found => found, fun _ _ found => .inl found⟩
  · rw [same]
    exact createOffer_handedOn ids jobId driverId job.timeoutSeconds

omit [StorageBackend β] in
theorem HandedOn.hasOffer {e e' : Engine β} {jobId : Uuid} (handed : HandedOn e e' jobId)
    {j : Uuid} {status : OfferStatus} (present : e.hasOffer j status = true) :
    e'.hasOffer j status = true := by
  obtain ⟨k, o, found, ofJob, has⟩ := Ledger.hasOffer_iff.mp present
  exact Ledger.hasOffer_iff.mpr ⟨k, o, handed.kept k o found, ofJob, has⟩

omit [StorageBackend β] in
theorem HandedOn.offers_iff {e e' : Engine β} {jobId j : Uuid} (handed : HandedOn e e' jobId)
    (nothingNew : ∀ k o, e'.offers.lookup k = some o → o.jobId = j → e.offers.lookup k = some o)
    (P : OfferRecord → Prop) :
    (∃ k o, e'.offers.lookup k = some o ∧ o.jobId = j ∧ P o) ↔
      ∃ k o, e.offers.lookup k = some o ∧ o.jobId = j ∧ P o := by
  constructor
  · intro ⟨k, o, found, ofJob, holds⟩
    exact ⟨k, o, nothingNew k o found ofJob, ofJob, holds⟩
  · intro ⟨k, o, found, ofJob, holds⟩
    exact ⟨k, o, handed.kept k o found, ofJob, holds⟩

omit [StorageBackend β] in
theorem HandedOn.nextUntried {e e' : Engine β} {jobId j : Uuid} (handed : HandedOn e e' jobId)
    (nothingNew : ∀ k o, e'.offers.lookup k = some o → o.jobId = j → e.offers.lookup k = some o)
    (job : JobRequest) : e'.nextUntried host job j = e.nextUntried host job j := by
  refine nextUntried_congr handed.drivers handed.driversTick (fun driverId => ?_) job
  rw [Bool.eq_iff_iff, Ledger.alreadyOffered_iff, Ledger.alreadyOffered_iff]
  exact handed.offers_iff nothingNew fun o => o.driverId = driverId

omit [StorageBackend β] in
theorem HandedOn.settled {e e' : Engine β} {jobId j : Uuid} (handed : HandedOn e e' jobId)
    (settled : Settled host e j) : Settled host e' j := by
  rcases settled with cancelled | accepted | pending | ⟨job, known, exhausted⟩
  · exact .inl (handed.cancelledJobs ▸ cancelled)
  · exact .inr (.inl (handed.hasOffer accepted))
  · exact .inr (.inr (.inl (handed.hasOffer pending)))
  · by_cases pending : e'.hasOffer j .pending = true
    · exact .inr (.inr (.inl pending))
    · -- without a pending offer of `j` nothing was added for it
      have idle := Ledger.hasOffer_eq_false_iff.mp (Bool.not_eq_true _ ▸ pending)
      refine .inr (.inr (.inr ⟨job, handed.jobs ▸ known, ?_⟩))
      rw [handed.nextUntried (fun k o found ofJob => ?_)]
      · exact exhausted
      · rcases handed.new k o found with before | ⟨_, new⟩
        · exact before
        · exact absurd new (idle k o found ofJob)

theorem createNextOfferForJob_settles {e : Engine β} {jobId : Uuid} {job : JobRequest}
    (known : e.jobs.lookup jobId = some job) :
    Settled host (e.createNextOfferForJob host jobId).1 jobId := by
  unfold Engine.createNextOfferForJob
  simp only [known]
  split
  · rename_i cancelled
    exact .inl cancelled
  · split
    · rename_i accepted
      exact .inr (.inl accepted)
    · split
      · rename_i pending
        exact .inr (.inr (.inl pending))
      · cases chosen : e.nextUntried host job jobId with
        | none => exact .inr (.inr (.inr ⟨job, known, chosen⟩))
        | some driverId =>
            have created := Ledger.lookup_createOffer e.toLedger
              (e.newOffer host jobId driverId job.timeoutSeconds)
              (e.newOffer host jobId driverId job.timeoutSeconds).offerId
            rw [if_pos rfl] at created
            exact .inr (.inr (.inl (Ledger.hasOffer_iff.mpr ⟨_, _, created, rfl, rfl⟩)))

/-! ## A pass over the expired offers -/

theorem createNextOfferForJob_ids {e : Engine β} (ids : IdsDrawn host e) (jobId : Uuid) :
    IdsDrawn host (e.createNextOfferForJob host jobId).1 := by
  rcases createNextOfferForJob_cases host e jobId with same | ⟨driverId, job, _, same⟩
  · rw [same]
    exact ids
  · rw [same]
    have created : Trace host (fun _ _ => True) e _
        (e.createOffer host jobId driverId job.timeoutSeconds).1 := createOffer_trace trivial
    exact created.idsDrawn ids

theorem redispatch_kept {e : Engine β} (ids : IdsDrawn host e) (seenJobs : Finset Uuid)
    (items : List ExpiredOffer) {k : Uuid} {o : OfferRecord}
    (found : e.offers.lookup k = some o) :
    (DispatchService.redispatch host e seenJobs items).1.offers.lookup k = some o := by
  suffices both : IdsDrawn host (DispatchService.redispatch host e seenJobs items).1 ∧
      (DispatchService.redispatch host e seenJobs items).1.offers.lookup k = some o from both.2
  apply redispatch_rule (P := fun e => IdsDrawn host e ∧ e.offers.lookup k = some o) ⟨ids, found⟩
  rintro e item - ⟨ids, found⟩
  exact ⟨createNextOfferForJob_ids ids item.jobId,
    (createNextOfferForJob_handedOn ids item.jobId).kept k o found⟩

theorem redispatch_settled {e : Engine β} (ids : IdsDrawn host e) (seenJobs : Finset Uuid)
    (items : List ExpiredOffer) {j : Uuid} (settled : Settled host e j) :
    Settled host (DispatchService.redispatch host e seenJobs items).1 j := by
  suffices both : IdsDrawn host (DispatchService.redispatch host e seenJobs items).1 ∧
      Settled host (DispatchService.redispatch host e seenJobs items).1 j from both.2
  apply redispatch_rule (P := fun e => IdsDrawn host e ∧ Settled host e j) ⟨ids, settled⟩
  rintro e item - ⟨ids, settled⟩
  exact ⟨createNextOfferForJob_ids ids item.jobId,
    (createNextOfferForJob_handedOn ids item.jobId).settled settled⟩

/-- A pass settles the job of every item: those already seen are settled when it
    starts, the others when their turn comes. -/
theorem redispatch_settles {e : Engine β} (ids : IdsDrawn host e) (seenJobs : Finset Uuid)
    (items : List ExpiredOffer)
    (known : ∀ item ∈ items, ∃ job, e.jobs.lookup item.jobId = some job)
    (seen : ∀ j ∈ seenJobs, Settled host e j) {item : ExpiredOffer} (member : item ∈ items) :
    Settled host (DispatchService.redispatch host e seenJobs items).1 item.jobId := by
  induction items generalizing e seenJobs with
  | nil => cases member
  | cons first rest ih =>
      simp only [DispatchService.redispatch]
      have knownRest : ∀ item ∈ rest, ∃ job, e.jobs.lookup item.jobId = some job :=
        fun item member => known item (List.mem_cons_of_mem _ member)
      split
      · rename_i done
        rcases List.mem_cons.mp member with rfl | inRest
        · exact redispatch_settled ids seenJobs rest (seen _ done)
        · exact ih ids seenJobs knownRest seen inRest
      · obtain ⟨job, registered⟩ := known first List.mem_cons_self
        have handed := createNextOfferForJob_handedOn ids first.jobId
        have ids' := createNextOfferForJob_ids ids first.jobId
        have settled : Settled host (e.createNextOfferForJob host first.jobId).1 first.jobId :=
          createNextOfferForJob_settles registered
        rcases List.mem_cons.mp member with rfl | inRest
        · exact redispatch_settled ids' _ rest settled
        · refine ih ids' _ (fun item member => ?_) (fun j inSeen => ?_) inRest
          · rw [handed.jobs]
            exact knownRest item member
          · rcases Finset.mem_insert.mp inSeen with rfl | old
            · exact settled
            · exact handed.settled (seen j old)

/-! ## Sweeps -/

/-- Expiring a list of offers changes their statuses and nothing the search looks at. -/
structure Expires (e e' : Engine β) (due : List Uuid) : Prop where
  jobs : e'.jobs = e.jobs
  drivers : e'.drivers = e.drivers
  driversTick : e'.driversTick = e.driversTick
  cancelledJobs : e'.cancelledJobs = e.cancelledJobs
  offers : ∀ k, e'.offers.lookup k =
    (e.offers.lookup k).map fun o => if k ∈ due then { o with status := .expired } else o

theorem expireOffers_expires (e : Engine β) (due : List Uuid) :
    Expires e (e.expireOffers host due).1 due := by
  induction due generalizing e with
  | nil => exact ⟨rfl, rfl, rfl, rfl, fun k => by simp [Engine.expireOffers]⟩
  | cons offerId rest ih =>
      have later := ih (e.appendAndApply host (.markOfferExpired offerId))
      have ledger := Engine.appendAndApply_toLedger host e (.markOfferExpired offerId)
      obtain ⟨jobs, drivers, cancelled⟩ := Ledger.markOfferExpired_frame e.toLedger offerId
      simp only [Engine.expireOffers]
      refine ⟨?_, ?_, ?_, ?_, ?_⟩
      · rw [later.jobs, ledger, jobs]
      · rw [later.drivers, ledger, drivers]
      · rw [later.driversTick, Engine.markOfferExpired_driversTick]
      · rw [later.cancelledJobs, ledger, cancelled]
      · intro k
        rw [later.offers, ledger, Ledger.lookup_apply _ fun _ => Command.noConfusion,
          Option.map_map]
        congr 1
        funext o
        by_cases here : k = offerId <;> by_cases inRest : k ∈ rest <;>
          simp [here, inRest, Ledger.newStatus]

namespace Expires

variable {e e' : Engine β} {due : List Uuid}

omit [StorageBackend β] in
theorem lookup_other (expires : Expires e e' due) {k : Uuid} (other : k ∉ due) :
    e'.offers.lookup k = e.offers.lookup k := by
  simp only [expires.offers, other, if_false, Option.map_id']

omit [StorageBackend β] in
theorem accepted_iff (expires : Expires e e' due) (j : Uuid)
    (pending : ∀ k ∈ due, ∃ o, e.offers.lookup k = some o ∧ o.status = .pending) :
    e'.hasOffer j .accepted = true ↔ e.hasOffer j .accepted = true := by
  rw [Ledger.hasOffer_iff, Ledger.hasOffer_iff]
  constructor
  · intro ⟨k, o', found, ofJob, won⟩
    rw [expires.offers, Option.map_eq_some_iff] at found
    obtain ⟨o, before, rfl⟩ := found
    by_cases member : k ∈ due
    · simp [member] at won
    · simp only [member, if_false] at ofJob won
      exact ⟨k, o, before, ofJob, won⟩
  · intro ⟨k, o, found, ofJob, won⟩
    have apart : k ∉ due := by
      intro member
      obtain ⟨o', before, isPending⟩ := pending k member
      obtain rfl := Option.some.inj (found.symm.trans before)
      rw [won] at isPending
      cases isPending
    exact ⟨k, o, (expires.lookup_other apart).trans found, ofJob, won⟩

omit [StorageBackend β] in
theorem pending_iff (expires : Expires e e' due) (j : Uuid) :
    e'.hasOffer j .pending = true ↔
      ∃ k o, e.offers.lookup k = some o ∧ o.jobId = j ∧ k ∉ due ∧ o.status = .pending := by
  rw [Ledger.hasOffer_iff]
  constructor
  · intro ⟨k, o', found, ofJob, isPending⟩
    rw [expires.offers, Option.map_eq_some_iff] at found
    obtain ⟨o, before, rfl⟩ := found
    by_cases member : k ∈ due
    · simp [member] at isPending
    · simp only [member, if_false] at ofJob isPending
      exact ⟨k, o, before, ofJob, member, isPending⟩
  · intro ⟨k, o, found, ofJob, apart, isPending⟩
    exact ⟨k, o, (expires.lookup_other apart).trans found, ofJob, isPending⟩

omit [StorageBackend β] in
/-- An expired offer still counts against its driver. -/
theorem nextUntried (expires : Expires e e' due) (job : JobRequest) (j : Uuid) :
    e'.nextUntried host job j = e.nextUntried host job j := by
  refine nextUntried_congr expires.drivers expires.driversTick (fun driverId => ?_) job
  rw [Bool.eq_iff_iff, Ledger.alreadyOffered_iff, Ledger.alreadyOffered_iff]
  constructor
  · intro ⟨k, o', found, ofJob, toDriver⟩
    rw [expires.offers, Option.map_eq_some_iff] at found
    obtain ⟨o, before, rfl⟩ := found
    refine ⟨k, o, before, ?_, ?_⟩
    · rw [← ofJob]
      split <;> rfl
    · rw [← toDriver]
      split <;> rfl
  · intro ⟨k, o, found, ofJob, toDriver⟩
    refine ⟨k, _, by rw [expires.offers, found, Option.map_some], ?_, ?_⟩
    · rw [← ofJob]
      split <;> rfl
    · rw [← toDriver]
      split <;> rfl

end Expires

/-! ## Operations -/

/-- The operation moves a pending offer of the job to `Expired` or `Rejected`. -/
def Frees (e e' : Engine β) (jobId : Uuid) : Prop :=
  ∃ k o o', e.offers.lookup k = some o ∧ o.status = .pending ∧ o.jobId = jobId ∧
    e'.offers.lookup k = some o' ∧ (o'.status = .expired ∨ o'.status = .rejected)

/-- Every job an operation frees is settled right after it. -/
def HandsOn (host : Host) (e : DispatchService β) (op : Op) : Prop :=
  ∀ jobId, Frees e (perform host e op).1 jobId → Settled host (perform host e op).1 jobId

theorem sweep_handsOn {e : Engine β} (sound : Sound host e) (registered : e.toLedger.Registered)
    (p : OfferRecord → Bool) (now : DateTime) {jobId : Uuid}
    (frees : Frees e (DispatchService.redispatch host
      (e.drawn.expireOffers host (e.drawn.dueOffers host p now)).1 ∅
      (e.drawn.expireOffers host (e.drawn.dueOffers host p now)).2).1 jobId) :
    Settled host (DispatchService.redispatch host
      (e.drawn.expireOffers host (e.drawn.dueOffers host p now)).1 ∅
      (e.drawn.expireOffers host (e.drawn.dueOffers host p now)).2).1 jobId := by
  have keyed : e.drawn.toLedger.Keyed := sound.keyed
  have expiry : Trace host (fun _ _ => True) e
      ((e.drawn.dueOffers host p now).map .markOfferExpired)
      (e.drawn.expireOffers host (e.drawn.dueOffers host p now)).1 :=
    .draw (expireOffers_trace_any _ fun _ _ => trivial)
  have ids := expiry.idsDrawn sound.ids
  obtain ⟨k, o, o', found, pending, rfl, found', closed⟩ := frees
  by_cases due : k ∈ e.drawn.dueOffers host p now
  · have reported : o.report ∈
        (e.drawn.expireOffers host (e.drawn.dueOffers host p now)).2 :=
      mem_expireOffers.mpr ⟨k, due, o, found, rfl⟩
    refine redispatch_settles ids ∅ _ ?_ (fun j inSeen => ?_) reported
    · intro item member
      obtain ⟨id, _, o, stored, rfl⟩ := mem_expireOffers.mp member
      rw [(expireOffers_expires e.drawn _).jobs]
      exact registered id o stored
    · cases inSeen
  · -- an offer that was not due comes out pending
    have unchanged : (e.drawn.expireOffers host
        (e.drawn.dueOffers host p now)).1.offers.lookup k = some o :=
      ((expireOffers_expires e.drawn _).lookup_other due).trans found
    rw [redispatch_kept ids ∅ _ unchanged] at found'
    obtain rfl := Option.some.inj found'
    rw [pending] at closed
    rcases closed with closed | closed <;> cases closed

theorem frees_nothing {e : DispatchService β} {op : Op} (sound : Sound host e)
    (other : ¬ op.Redispatches) (jobId : Uuid) : ¬ Frees e (perform host e op).1 jobId := by
  have stays : ∀ k o, e.offers.lookup k = some o → o.status = .pending →
      ∃ o', (perform host e op).1.offers.lookup k = some o' ∧
        o'.status ≠ .expired ∧ o'.status ≠ .rejected := by
    refine sound.step_invariant (serviceStep_perform host e op) (fun s => ∀ k o, e.offers.lookup k = some o →
      o.status = .pending →
        ∃ o', s.offers.lookup k = some o' ∧ o'.status ≠ .expired ∧ o'.status ≠ .rejected) ?_ ?_
    · intro k o found pending
      exact ⟨o, found, by rw [pending]; decide, by rw [pending]; decide⟩
    · intro s cmd _ held issued k o found pending
      obtain ⟨o₁, before, notExpired, notRejected⟩ := held k o found pending
      by_cases creates : ∃ offer, cmd = .createOffer offer
      · obtain ⟨offer, rfl⟩ := creates
        refine ⟨o₁, ?_, notExpired, notRejected⟩
        rw [Ledger.lookup_createOffer, if_neg]
        · exact before
        · rintro rfl
          rw [issued.fresh.unused] at before
          cases before
      · refine ⟨{ o₁ with status := s.newStatus cmd k o₁ }, ?_, ?_⟩
        · rw [Ledger.lookup_apply s fun offer same => creates ⟨offer, same⟩, before,
            Option.map_some]
        · have change := Ledger.rewritten s cmd k o₁
          generalize s.newStatus cmd k o₁ = status at change
          cases change with
          | kept => exact ⟨notExpired, notRejected⟩
          | accepted | withdrawn | swept => exact ⟨OfferStatus.noConfusion, OfferStatus.noConfusion⟩
          | rejected =>
              cases issued
              exact absurd trivial other
          | expired =>
              cases issued with
              | expire kind => exact absurd kind other
  rintro ⟨k, o, o', found, pending, _, found', closed⟩
  obtain ⟨o₁, stored, notExpired, notRejected⟩ := stays k o found pending
  obtain rfl := Option.some.inj (found'.symm.trans stored)
  rcases closed with closed | closed
  · exact notExpired closed
  · exact notRejected closed

/-! ## Answers -/

/-- An answer to a pending offer whose time is up, for a job that another driver
    could still serve. -/
def LateAnswer (host : Host) (e : Engine β) (op : Op) : Prop :=
  ∃ offerId accepted o job, op = .handleOfferResponse offerId accepted ∧
    e.offers.lookup offerId = some o ∧ o.status = .pending ∧ o.expiresAt ≤ host.clock e.tick ∧
    o.jobId ∉ e.cancelledJobs ∧ e.hasOffer o.jobId .accepted = false ∧
    (∀ k o', e.offers.lookup k = some o' → o'.jobId = o.jobId → k ≠ offerId →
      o'.status ≠ .pending) ∧
    e.jobs.lookup o.jobId = some job ∧ e.nextUntried host job o.jobId ≠ none

section late

variable {e : Engine β} {offerId : Uuid} {o : OfferRecord}

/-- What a late answer leaves: the same engine with that one offer expired. -/
theorem late_expires (host : Host) (e : Engine β) (offerId : Uuid) :
    Expires e (e.drawn.appendAndApply host (.markOfferExpired offerId)) [offerId] :=
  let expires := expireOffers_expires e.drawn [offerId]
  ⟨expires.jobs, expires.drivers, expires.driversTick, expires.cancelledJobs, expires.offers⟩

theorem lookup_late (found : e.offers.lookup offerId = some o) (k : Uuid) :
    (e.drawn.appendAndApply host (.markOfferExpired offerId)).offers.lookup k =
      if k = offerId then some { o with status := .expired } else e.offers.lookup k := by
  rw [(late_expires host e offerId).offers]
  by_cases same : k = offerId
  · subst same
    simp [found]
  · simp [same]

theorem late_settled_iff (found : e.offers.lookup offerId = some o) (pending : o.status = .pending)
    {job : JobRequest} (known : e.jobs.lookup o.jobId = some job) :
    Settled host (e.drawn.appendAndApply host (.markOfferExpired offerId)) o.jobId ↔
      o.jobId ∈ e.cancelledJobs ∨ e.hasOffer o.jobId .accepted = true ∨
        (∃ k o', e.offers.lookup k = some o' ∧ o'.jobId = o.jobId ∧ k ≠ offerId ∧
          o'.status = .pending) ∨
        e.nextUntried host job o.jobId = none := by
  have expires := late_expires host e offerId
  have accepted := expires.accepted_iff o.jobId fun k member =>
    List.mem_singleton.mp member ▸ ⟨o, found, pending⟩
  have others := expires.pending_iff o.jobId
  simp only [List.mem_singleton] at others
  unfold Settled
  rw [accepted, others, expires.cancelledJobs, expires.jobs, known]
  simp only [expires.nextUntried, Option.some.injEq, exists_eq_left', ne_eq]

theorem overdue_answer (accepted : Bool) (found : e.offers.lookup offerId = some o)
    (pending : o.status = .pending) (due : o.expiresAt ≤ host.clock e.tick) :
    (perform host e (.handleOfferResponse offerId accepted)).1 =
      e.drawn.appendAndApply host (.markOfferExpired offerId) := by
  have response := handleOfferResponse_response host e offerId accepted
  simp only [perform, Prod.map, id_eq]
  generalize DispatchService.handleOfferResponse host e offerId accepted = result at response
  obtain ⟨e', reply⟩ := result
  cases response with
  | unknown absent =>
      rw [found] at absent
      cases absent
  | notPending found' answered =>
      obtain rfl := Option.some.inj (found.symm.trans found')
      exact absurd pending answered
  | late _ _ _ state => exact state
  | accepted found' _ inTime | rejected found' _ inTime =>
      obtain rfl := Option.some.inj (found.symm.trans found')
      exact absurd due (not_le.mpr inTime)

end late

/-- An answer frees a job without handing it on only when it is late. -/
theorem response_handsOn {e : Engine β} (sound : Sound host e) (registered : e.toLedger.Registered)
    {offerId : Uuid} {accepted : Bool}
    (onTime : ¬ LateAnswer host e (.handleOfferResponse offerId accepted)) :
    HandsOn host e (.handleOfferResponse offerId accepted) := by
  intro jobId frees
  obtain ⟨k, o, o', found, pending, rfl, found', closed⟩ := frees
  have response := handleOfferResponse_response host e offerId accepted
  simp only [perform, Prod.map, id_eq] at found' ⊢
  generalize DispatchService.handleOfferResponse host e offerId accepted = result
    at response found' ⊢
  obtain ⟨e', reply⟩ := result
  have stillOpen : o'.status ≠ .pending := by
    rintro isPending
    rw [isPending] at closed
    rcases closed with closed | closed <;> cases closed
  have moved : e'.offers.lookup k ≠ some o := fun same => by
    obtain rfl := Option.some.inj (found'.symm.trans same)
    exact stillOpen pending
  cases response with
  | unknown | notPending => exact absurd found moved
  | @late _ selected _ selectedFound _ due state =>
      subst state
      by_cases same : k = offerId
      · subst same
        obtain rfl := Option.some.inj (found.symm.trans selectedFound)
        obtain ⟨job, known⟩ := registered k o found
        rw [late_settled_iff found pending known]
        by_contra open'
        simp only [not_or, not_exists, not_and] at open'
        obtain ⟨active, unmatched, alone, candidate⟩ := open'
        exact onTime ⟨k, accepted, o, job, rfl, found, pending, due, active, by simpa using unmatched,
          alone, known, candidate⟩
      · exact absurd ((lookup_late selectedFound k).trans ((if_neg same).trans found)) moved
  | accepted _ _ _ state =>
      rw [state, Engine.appendAndApply_toLedger,
        Ledger.lookup_apply _ fun _ => Command.noConfusion, Option.map_eq_some_iff] at found'
      obtain ⟨before, same, rfl⟩ := found'
      obtain rfl := Option.some.inj (found.symm.trans same)
      have change := Ledger.rewritten e.toLedger (.acceptOffer offerId (host.clock e.drawn.tick)) k o
      dsimp only [Engine.drawn_toLedger] at closed
      generalize Ledger.newStatus _ _ k o = status at change closed
      cases change with
      | kept =>
          rw [pending] at closed
          rcases closed with closed | closed <;> cases closed
      | accepted | swept => rcases closed with closed | closed <;> cases closed
  | @rejected selected _ _ selectedFound _ _ handOver =>
      by_cases same : k = offerId
      · subst same
        obtain rfl := Option.some.inj (found.symm.trans selectedFound)
        obtain ⟨job, known⟩ := registered k o found
        have known' : ∃ job, (e.drawn.drawn.appendAndApply host
            (.rejectOffer k (host.clock e.drawn.tick))).jobs.lookup o.jobId = some job := by
          rw [Engine.appendAndApply_toLedger]
          exact Ledger.job_kept known _
        obtain ⟨job', known'⟩ := known'
        have settled := @createNextOfferForJob_settles _ _ host _ _ _ known'
        rw [handOver] at settled
        exact settled
      · have untouched : (e.drawn.drawn.appendAndApply host
            (.rejectOffer offerId (host.clock e.drawn.tick))).offers.lookup k = some o := by
          rw [Engine.appendAndApply_toLedger, Ledger.lookup_apply _ fun _ => Command.noConfusion]
          simp [found, Ledger.newStatus, same]
        have refusal : Trace host (fun _ _ => True) e _ (e.drawn.drawn.appendAndApply host
            (.rejectOffer offerId (host.clock e.drawn.tick))) :=
          .draw (.draw (.single trivial fun _ => Command.noConfusion))
        have kept := (createNextOfferForJob_handedOn (refusal.idsDrawn sound.ids)
          selected.jobId).kept k o untouched
        rw [handOver] at kept
        exact absurd kept moved

/-- In every reachable state an operation leaves each job it frees settled, unless it
    is a late answer for a job that another driver could serve. -/
theorem freed_jobs_settled_iff (host : Host) (h3Resolution : Nat) (storage : β) (tick : Nat)
    (past : List Exchange) (e : DispatchService β) (op : Op)
    (reached : Run (serviceStep host) anyStep (Engine.withStorage h3Resolution storage tick) past e) :
    HandsOn host e op ↔ ¬ LateAnswer host e op := by
  have sound : Sound host e := (sound_withStorage h3Resolution storage tick).run reached
  have registered := registered_run reached
  constructor
  · rintro handsOn ⟨offerId, accepted, o, job, rfl, found, pending, due, active, unmatched, alone,
      known, candidate⟩
    have state := overdue_answer accepted found pending due
    have settled := handsOn o.jobId ⟨offerId, o, { o with status := .expired }, found, pending, rfl,
      by rw [state, lookup_late found, if_pos rfl], .inl rfl⟩
    rw [state, late_settled_iff found pending known] at settled
    rcases settled with cancelled | accepted | ⟨k, o', stored, ofJob, different, isPending⟩ | exhausted
    · exact active cancelled
    · rw [unmatched] at accepted
      cases accepted
    · exact alone k o' stored ofJob different isPending
    · exact candidate exhausted
  · intro onTime
    cases op with
    | handleOfferResponse offerId accepted => exact response_handsOn sound registered onTime
    | expirePendingOffersForDriver driverId =>
        intro jobId frees
        exact sweep_handsOn sound registered (fun o => o.driverId == driverId) _ frees
    | expirePendingOffersGlobal =>
        intro jobId frees
        exact sweep_handsOn sound registered (fun _ => true) _ frees
    | submitJob | cancelOffer | cancelJob | recordWebhookDeliveryFailed | upsertDriverLocation
    | expireStaleDrivers =>
        intro jobId frees
        refine absurd frees (frees_nothing sound ?_ jobId)
        exact not_false

/-- A host whose readings are a minute apart: each offer is overdue when it is answered. -/
def minuteHost : Host := Host.plain fun n => seconds (60 * n)

/-- The overdue answer of driver 101 leaves job 1 without an offer, though driver 100
    has had none. -/
theorem late_answer_drops_job :
    ∃ past e, Run (serviceStep minuteHost) anyStep emptyService past e ∧
      past.map Prod.fst = [comesOnline 100, comesOnline 101, .submitJob (jobAtOrigin 1)] ∧
      ¬ HandsOn minuteHost e (.handleOfferResponse 4 true) := by
  let ops : List Op := [comesOnline 100, comesOnline 101, .submitJob (jobAtOrigin 1)]
  refine ⟨_, _, performAll_run ops (permitted_any _ _ _) .start, by decide +kernel, ?_⟩
  intro handsOn
  have settled := handsOn 1 ⟨4, ⟨4, 1, 101, .pending, 210000000000⟩,
    ⟨4, 1, 101, .expired, 210000000000⟩, by decide +kernel, rfl, rfl, by decide +kernel, .inl rfl⟩
  rcases settled with cancelled | accepted | pending | ⟨job, known, exhausted⟩
  · revert cancelled
    decide +kernel
  · revert accepted
    decide +kernel
  · revert pending
    decide +kernel
  · have stored : (perform minuteHost (performAll minuteHost emptyService ops).2
        (.handleOfferResponse 4 true)).1.jobs.lookup 1 = some (jobAtOrigin 1) := by decide +kernel
    obtain rfl := Option.some.inj (known.symm.trans stored)
    revert exhausted
    decide +kernel

/-- A sweep in the same state hands job 1 on. -/
theorem sweep_settles_job :
    ∃ e : DispatchService InMemoryBackend, e.hasOffer 1 .pending = true ∧
      HandsOn minuteHost e .expirePendingOffersGlobal := by
  let ops : List Op := [comesOnline 100, comesOnline 101, .submitJob (jobAtOrigin 1)]
  refine ⟨(performAll minuteHost emptyService ops).2, by decide +kernel, ?_⟩
  refine (freed_jobs_settled_iff minuteHost 8 InMemoryBackend.mk 0 _ _ _
    (performAll_run ops (permitted_any _ _ _) .start)).mpr ?_
  rintro ⟨_, _, _, _, same, _⟩
  cases same

end Spatiad
