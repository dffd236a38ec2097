import Spatiad.HandOver

/-! # Exact sweeps

A sweep collects the due offers, expires them one by one and then gives the jobs they
belonged to their turns, each job once.  A turn adds an offer or changes nothing.
-/

namespace Spatiad

open Foundation

variable {β : Type} [StorageBackend β]

/-! ## Turns -/

/-- The jobs take their turns in this order; these offers are created on the way. -/
inductive Turns (host : Host) : Engine β → List Uuid → List OfferRecord → Engine β → Prop where
  | done {e} : Turns host e [] [] e
  | offered {e jobId driverId job rest offers e'} (ready : NextOffer host e jobId driverId job)
      (later : Turns host (e.createOffer host jobId driverId job.timeoutSeconds).1 rest offers e') :
      Turns host e (jobId :: rest) (e.newOffer host jobId driverId job.timeoutSeconds :: offers) e'
  | passed {e jobId rest offers e'} (notReady : ∀ driverId job, ¬ NextOffer host e jobId driverId job)
      (later : Turns host e rest offers e') : Turns host e (jobId :: rest) offers e'

variable {host : Host} {e e' : Engine β}

theorem NextOffer.creates {jobId driverId : Uuid} {job : JobRequest}
    (ready : NextOffer host e jobId driverId job) :
    e.createNextOfferForJob host jobId =
      ((e.createOffer host jobId driverId job.timeoutSeconds).1,
        some (e.newOffer host jobId driverId job.timeoutSeconds)) := by
  unfold Engine.createNextOfferForJob
  simp only [ready.registered, if_neg ready.active, ready.unmatched, ready.idle, ready.chosen,
    Bool.false_eq_true, if_false]
  rfl

/-- A pass over the expired offers gives every job not seen before one turn. -/
theorem redispatch_turns (host : Host) (e : Engine β) (seenJobs : Finset Uuid)
    (items : List ExpiredOffer) :
    ∃ jobs : List Uuid, jobs.Nodup ∧
      (∀ j, j ∈ jobs ↔ j ∉ seenJobs ∧ ∃ item ∈ items, item.jobId = j) ∧
      Turns host e jobs (DispatchService.redispatch host e seenJobs items).2
        (DispatchService.redispatch host e seenJobs items).1 := by
  induction items generalizing e seenJobs with
  | nil => exact ⟨[], List.nodup_nil, by simp, .done⟩
  | cons item rest ih =>
      simp only [DispatchService.redispatch]
      split
      · rename_i seen
        obtain ⟨jobs, distinct, listed, turns⟩ := ih e seenJobs
        refine ⟨jobs, distinct, fun j => ?_, turns⟩
        rw [listed]
        constructor
        · rintro ⟨unseen, other, member, ofJob⟩
          exact ⟨unseen, other, List.mem_cons_of_mem _ member, ofJob⟩
        · rintro ⟨unseen, other, member, ofJob⟩
          rcases List.mem_cons.mp member with rfl | member
          · exact absurd (ofJob ▸ seen) unseen
          · exact ⟨unseen, other, member, ofJob⟩
      · rename_i unseen
        obtain ⟨jobs, distinct, listed, turns⟩ :=
          ih (e.createNextOfferForJob host item.jobId).1 (insert item.jobId seenJobs)
        have first : item.jobId ∉ jobs := fun member =>
          ((listed item.jobId).mp member).1 (Finset.mem_insert_self _ _)
        refine ⟨item.jobId :: jobs, List.nodup_cons.mpr ⟨first, distinct⟩, fun j => ?_, ?_⟩
        · rw [List.mem_cons, listed, Finset.mem_insert, not_or]
          constructor
          · rintro (rfl | ⟨⟨_, unseen⟩, other, member, ofJob⟩)
            · exact ⟨unseen, item, List.mem_cons_self, rfl⟩
            · exact ⟨unseen, other, List.mem_cons_of_mem _ member, ofJob⟩
          · rintro ⟨unseen, other, member, ofJob⟩
            by_cases here : j = item.jobId
            · exact .inl here
            · refine .inr ⟨⟨here, unseen⟩, other, ?_, ofJob⟩
              rcases List.mem_cons.mp member with rfl | member
              · exact absurd ofJob.symm here
              · exact member
        · rcases createNextOfferForJob_cases host e item.jobId with same | ⟨driverId, job, ready, same⟩
          · rw [same] at turns ⊢
            refine .passed (fun driverId job ready => ?_) turns
            rw [ready.creates] at same
            cases congrArg Prod.snd same
          · rw [same] at turns ⊢
            exact .offered ready turns

namespace Turns

variable {jobs : List Uuid} {offers : List OfferRecord}

theorem frame (turns : Turns host e jobs offers e') :
    e'.drivers = e.drivers ∧ e'.jobs = e.jobs ∧ e'.cancelledJobs = e.cancelledJobs := by
  induction turns with
  | done => exact ⟨rfl, rfl, rfl⟩
  | offered _ _ ih => exact ih
  | passed _ _ ih => exact ih

theorem tick_le (turns : Turns host e jobs offers e') : e.tick ≤ e'.tick := by
  induction turns with
  | done => exact Nat.le_refl _
  | @offered e jobId driverId job _ _ _ _ _ ih =>
      have draws : e.tick ≤ e.drawn.drawn.tick := Nat.le_add_right _ 2
      have created := Engine.tick_appendAndApply host e.drawn.drawn
        (.createOffer (e.newOffer host jobId driverId job.timeoutSeconds))
      exact draws.trans (created.trans ih)
  | passed _ _ ih => exact ih

theorem jobIds_sublist (turns : Turns host e jobs offers e') :
    (offers.map OfferRecord.jobId).Sublist jobs := by
  induction turns with
  | done => exact List.Sublist.slnil
  | offered _ _ ih => exact ih.cons_cons _
  | passed _ _ ih => exact ih.cons _

theorem createOffer_ids (ids : IdsDrawn host e) (jobId driverId : Uuid) (timeoutSeconds : Nat) :
    IdsDrawn host (e.createOffer host jobId driverId timeoutSeconds).1 := by
  have created : Trace host (fun _ _ => True) e _ (e.createOffer host jobId driverId timeoutSeconds).1 :=
    createOffer_trace trivial
  exact created.idsDrawn ids

theorem lookup_createOffer (host : Host) (e : Engine β) (jobId driverId : Uuid) (timeoutSeconds : Nat) (k : Uuid) :
    (e.createOffer host jobId driverId timeoutSeconds).1.offers.lookup k =
      if k = (e.newOffer host jobId driverId timeoutSeconds).offerId then
        some (e.newOffer host jobId driverId timeoutSeconds)
      else e.offers.lookup k :=
  Ledger.lookup_createOffer e.toLedger _ k

theorem kept (turns : Turns host e jobs offers e') (ids : IdsDrawn host e) {k : Uuid}
    {o : OfferRecord} (found : e.offers.lookup k = some o) : e'.offers.lookup k = some o := by
  induction turns with
  | done => exact found
  | passed _ _ ih => exact ih ids found
  | @offered e jobId driverId job _ _ _ _ _ ih =>
      refine ih (createOffer_ids ids _ _ _) ?_
      exact (createOffer_handedOn ids jobId driverId job.timeoutSeconds).kept k o found

theorem unused (turns : Turns host e jobs offers e') (ids : IdsDrawn host e) {o : OfferRecord}
    (member : o ∈ offers) : e.offers.lookup o.offerId = none := by
  induction turns with
  | done => cases member
  | passed _ _ ih => exact ih ids member
  | @offered e jobId driverId job _ _ _ _ _ ih =>
      rcases List.mem_cons.mp member with rfl | later
      · exact (newOffer_fresh ids _ _ _).unused
      · have unused := ih (createOffer_ids ids _ _ _) later
        rw [lookup_createOffer] at unused
        split at unused
        · cases unused
        · exact unused

theorem added (turns : Turns host e jobs offers e') (ids : IdsDrawn host e) {k : Uuid}
    (unused : e.offers.lookup k = none) (o : OfferRecord) :
    e'.offers.lookup k = some o ↔ o ∈ offers ∧ o.offerId = k := by
  induction turns with
  | done => simp [unused]
  | passed _ _ ih => exact ih ids unused
  | @offered e jobId driverId job _ offers e' _ later ih =>
      have ids' := createOffer_ids ids jobId driverId job.timeoutSeconds
      have created := lookup_createOffer host e jobId driverId job.timeoutSeconds k
      by_cases here : k = (e.newOffer host jobId driverId job.timeoutSeconds).offerId
      · rw [if_pos here] at created
        rw [later.kept ids' created, List.mem_cons, Option.some.injEq]
        constructor
        · rintro rfl
          exact ⟨.inl rfl, here.symm⟩
        · rintro ⟨rfl | member, key⟩
          · rfl
          · have unused := later.unused ids' member
            rw [key, created] at unused
            cases unused
      · rw [if_neg here, unused] at created
        rw [ih ids' created, List.mem_cons]
        constructor
        · rintro ⟨member, key⟩
          exact ⟨.inr member, key⟩
        · rintro ⟨rfl | member, key⟩
          · exact absurd key.symm here
          · exact ⟨member, key⟩

theorem expiresAt_eq (turns : Turns host e jobs offers e') {o : OfferRecord} (member : o ∈ offers) :
    ∃ n job, e.tick ≤ n ∧ n < e'.tick ∧ e.jobs.lookup o.jobId = some job ∧
      o.expiresAt = host.clock n + seconds (asI64 job.timeoutSeconds) := by
  induction turns with
  | done => cases member
  | passed _ _ ih => exact ih member
  | @offered e jobId driverId job _ _ e' ready later ih =>
      have draws : e.tick < e.drawn.drawn.tick := Nat.lt_add_of_pos_right (Nat.succ_pos 1)
      have created := Engine.tick_appendAndApply host e.drawn.drawn
        (.createOffer (e.newOffer host jobId driverId job.timeoutSeconds))
      have first := draws.trans_le created
      rcases List.mem_cons.mp member with rfl | member
      · exact ⟨e.tick, job, Nat.le_refl _, first.trans_le later.tick_le, ready.registered, rfl⟩
      · obtain ⟨n, job, after, before, known, same⟩ := ih member
        exact ⟨n, job, first.le.trans after, before, known, same⟩

end Turns

/-! ## Sweeps -/

/-- The offer under this id is a pending one that meets `p`, and its time is up. -/
def Due (e : Engine β) (p : OfferRecord → Bool) (now : DateTime) (k : Uuid) (o : OfferRecord) :
    Prop :=
  e.offers.lookup k = some o ∧ p o = true ∧ o.status = .pending ∧ o.expiresAt ≤ now

/-- What a sweep over the offers that meet `p` does to an engine. -/
structure ExactSweep (host : Host) (p : OfferRecord → Bool)
    (sweep : DispatchService β → DispatchService β × ExpirationUpdate) (e : DispatchService β) :
    Prop where
  /-- Every due offer is returned, once, and nothing else is. -/
  reported : ∀ item, item ∈ (sweep e).2.expired ↔
    ∃ k o, Due e p (host.clock e.tick) k o ∧ item = ⟨k, o.driverId, o.jobId⟩
  reportedOnce : ((sweep e).2.expired.map ExpiredOffer.offerId).Nodup
  expired : ∀ k o, Due e p (host.clock e.tick) k o →
    (sweep e).1.offers.lookup k = some { o with status := .expired }
  kept : ∀ k o, e.offers.lookup k = some o → ¬ Due e p (host.clock e.tick) k o →
    (sweep e).1.offers.lookup k = some o
  added : ∀ k o, e.offers.lookup k = none →
    ((sweep e).1.offers.lookup k = some o ↔ o ∈ (sweep e).2.newOffers ∧ o.offerId = k)
  drivers : (sweep e).1.drivers = e.drivers
  jobs : (sweep e).1.jobs = e.jobs
  cancelledJobs : (sweep e).1.cancelledJobs = e.cancelledJobs
  /-- Once the due offers are expired, each job that had one gets one turn. -/
  turns : ∃ mid jobs, (∃ due, (∀ k, k ∈ due ↔ ∃ o, Due e p (host.clock e.tick) k o) ∧
      Expires e mid due) ∧
    jobs.Nodup ∧ (∀ j, j ∈ jobs ↔ ∃ item ∈ (sweep e).2.expired, item.jobId = j) ∧
    Turns host mid jobs (sweep e).2.newOffers (sweep e).1
  /-- At most one new offer for each of these jobs. -/
  onePerJob : ((sweep e).2.newOffers.map OfferRecord.jobId).Nodup
  /-- With timeouts of a second or more, as the cast to `i64` reads them, and no reading of
      the clock before the sweep's own, the same sweep at the same time finds nothing. -/
  repeated : (∀ j job, e.jobs.lookup j = some job → 1 ≤ asI64 job.timeoutSeconds) →
    (∀ n, e.tick ≤ n → n < (sweep e).1.tick → host.clock e.tick ≤ host.clock n) →
    host.clock (sweep e).1.tick = host.clock e.tick → (sweep (sweep e).1).2.expired = []

theorem expireOffers_ids {e : Engine β} (keyed : e.toLedger.Keyed) {offerIds : List Uuid}
    (stored : ∀ k ∈ offerIds, ∃ o, e.offers.lookup k = some o) :
    (e.expireOffers host offerIds).2.map ExpiredOffer.offerId = offerIds := by
  have ids : ∀ k ∈ offerIds,
      ((e.offers.lookup k).map OfferRecord.report).map ExpiredOffer.offerId = some k := by
    intro k member
    obtain ⟨o, found⟩ := stored k member
    rw [found, Option.map_some, Option.map_some, OfferRecord.report, keyed k o found]
  rw [expireOffers_reports, List.map_filterMap, List.filterMap_congr ids, List.filterMap_some]

/-- Both sweeps of the service are of this form. -/
def sweepOver (host : Host) (p : OfferRecord → Bool) (e : DispatchService β) :
    DispatchService β × ExpirationUpdate :=
  let expiry := e.drawn.expireOffers host (e.drawn.dueOffers host p (host.clock e.tick))
  let (e, newOffers) := DispatchService.redispatch host expiry.1 ∅ expiry.2
  (e, { expired := expiry.2, newOffers })

theorem expireOffers_tick_le (host : Host) (e : Engine β) (offerIds : List Uuid) :
    e.tick ≤ (e.expireOffers host offerIds).1.tick := by
  induction offerIds generalizing e with
  | nil => exact Nat.le_refl _
  | cons offerId rest ih =>
      exact (Engine.tick_appendAndApply host e (.markOfferExpired offerId)).trans (ih _)

section halves

variable {e mid e' : Engine β} {p : OfferRecord → Bool} {now : DateTime} {due : List Uuid}
  {jobs : List Uuid} {offers : List OfferRecord}
  (listed : ∀ k, k ∈ due ↔ ∃ o, Due e p now k o) (expires : Expires e mid due)
  (turns : Turns host mid jobs offers e') (ids : IdsDrawn host mid)

include listed expires turns ids

theorem due_expired {k : Uuid} {o : OfferRecord} (isDue : Due e p now k o) :
    e'.offers.lookup k = some { o with status := .expired } := by
  refine turns.kept ids ?_
  rw [expires.offers, isDue.1, Option.map_some, if_pos ((listed k).mpr ⟨o, isDue⟩)]

theorem other_kept {k : Uuid} {o : OfferRecord} (found : e.offers.lookup k = some o)
    (notDue : ¬ Due e p now k o) : e'.offers.lookup k = some o := by
  refine turns.kept ids ((expires.lookup_other fun member => ?_).trans found)
  obtain ⟨o', isDue⟩ := (listed k).mp member
  obtain rfl := Option.some.inj (found.symm.trans isDue.1)
  exact notDue isDue

/-- After the turns nothing is due at the time of the sweep: new offers are due later. -/
theorem nothing_due (keyed : e'.toLedger.Keyed)
    (timeouts : ∀ j job, e.jobs.lookup j = some job → 1 ≤ asI64 job.timeoutSeconds)
    (forward : ∀ n, mid.tick ≤ n → n < e'.tick → now ≤ host.clock n) :
    e'.drawn.dueOffers host p now = [] := by
  have keyed' : e'.drawn.toLedger.Keyed := keyed
  refine List.eq_nil_iff_forall_not_mem.mpr fun k member => ?_
  obtain ⟨o, found, meets, pending, past⟩ := (mem_dueOffers keyed').mp member
  have found : e'.offers.lookup k = some o := found
  cases before : e.offers.lookup k with
  | some o₀ =>
      by_cases isDue : Due e p now k o₀
      · rw [due_expired listed expires turns ids isDue] at found
        obtain rfl := Option.some.inj found
        cases pending
      · rw [other_kept listed expires turns ids before isDue] at found
        obtain rfl := Option.some.inj found
        exact isDue ⟨before, meets, pending, past⟩
  | none =>
      have unused : mid.offers.lookup k = none := by rw [expires.offers, before, Option.map_none]
      obtain ⟨isNew, _⟩ := (turns.added ids unused o).mp found
      obtain ⟨n, job, after, early, known, expiresAt⟩ := turns.expiresAt_eq isNew
      rw [expires.jobs] at known
      have timeout := timeouts _ _ known
      have reading := forward n after early
      rw [expiresAt, seconds] at past
      linarith

end halves

theorem sweepOver_exact {e : DispatchService β} (sound : Sound host e) (p : OfferRecord → Bool) :
    ExactSweep host p (sweepOver host p) e := by
  let now := host.clock e.tick
  let due := e.drawn.dueOffers host p now
  let expiry := e.drawn.expireOffers host due
  let e' := (DispatchService.redispatch host expiry.1 ∅ expiry.2).1
  have keyed : e.drawn.toLedger.Keyed := sound.keyed
  have distinct : due.Nodup := nodup_dueOffers keyed p now
  have listed : ∀ k, k ∈ due ↔ ∃ o, Due e p now k o := fun k => mem_dueOffers keyed
  have expires : Expires e expiry.1 due :=
    let expires := expireOffers_expires e.drawn due
    ⟨expires.jobs, expires.drivers, expires.driversTick, expires.cancelledJobs, expires.offers⟩
  have ids : IdsDrawn host expiry.1 := by
    have expiring : Trace host (fun _ _ => True) e _ expiry.1 :=
      .draw (expireOffers_trace_any due fun _ _ => trivial)
    exact expiring.idsDrawn sound.ids
  have keyed' : e'.toLedger.Keyed := by
    have redispatches : Op.Redispatches .expirePendingOffersGlobal := trivial
    obtain ⟨_, trace⟩ := sweep_trace redispatches sound.keyed sound.ids p now
    exact trace.keyed sound.keyed
  obtain ⟨jobs, oneTurn, inTurn, turns⟩ := redispatch_turns host expiry.1 ∅ expiry.2
  obtain ⟨drivers, sameJobs, cancelledJobs⟩ := turns.frame
  refine
    { reported := fun item => ?_
      reportedOnce := ?_
      expired := fun k o isDue => due_expired listed expires turns ids isDue
      kept := fun k o found notDue => other_kept listed expires turns ids found notDue
      added := fun k o unused => ?_
      drivers := drivers.trans expires.drivers
      jobs := sameJobs.trans expires.jobs
      cancelledJobs := cancelledJobs.trans expires.cancelledJobs
      turns := ⟨expiry.1, jobs, ⟨due, listed, expires⟩, oneTurn, fun j => ?_, turns⟩
      onePerJob := turns.jobIds_sublist.nodup oneTurn
      repeated := fun timeouts forward sameTime => ?_ }
  · constructor
    · intro member
      obtain ⟨k, inDue, o, found, rfl⟩ := mem_expireOffers.mp member
      obtain ⟨o', isDue⟩ := (listed k).mp inDue
      obtain rfl := Option.some.inj (isDue.1.symm.trans found)
      exact ⟨k, o', isDue, by rw [OfferRecord.report, keyed k o' found]⟩
    · rintro ⟨k, o, isDue, rfl⟩
      have member : o.report ∈ expiry.2 :=
        mem_expireOffers.mpr ⟨k, (listed k).mpr ⟨o, isDue⟩, o, isDue.1, rfl⟩
      rwa [OfferRecord.report, keyed k o isDue.1] at member
  · have reports : expiry.2.map ExpiredOffer.offerId = due :=
      expireOffers_ids keyed fun k member => by
        obtain ⟨o, isDue⟩ := (listed k).mp member
        exact ⟨o, isDue.1⟩
    show (expiry.2.map ExpiredOffer.offerId).Nodup
    rw [reports]
    exact distinct
  · exact turns.added ids (by rw [expires.offers, unused, Option.map_none]) o
  · show j ∈ jobs ↔ ∃ item ∈ expiry.2, item.jobId = j
    simpa using inTurn j
  · have nothing : e'.drawn.dueOffers host p now = [] :=
      nothing_due listed expires turns ids keyed' timeouts fun n after early =>
        forward n ((Nat.le_succ _).trans ((expireOffers_tick_le host e.drawn due).trans after)) early
    show (e'.drawn.expireOffers host (e'.drawn.dueOffers host p (host.clock e'.tick))).2 = []
    rw [show host.clock e'.tick = now from sameTime, nothing]
    rfl

/-- In every reachable state both sweeps are exact. -/
theorem expiry_sweeps_exact (host : Host) (h3Resolution : Nat) (storage : β) (tick : Nat)
    (past : List Exchange) (e : DispatchService β)
    (reached : Run (serviceStep host) anyStep (Engine.withStorage h3Resolution storage tick) past e) :
    ExactSweep host (fun _ => true) (DispatchService.expirePendingOffersGlobal host) e ∧
      ∀ driverId, ExactSweep host (fun o => o.driverId == driverId)
        (fun e => DispatchService.expirePendingOffersForDriver host e driverId) e := by
  have sound : Sound host e := (sound_withStorage h3Resolution storage tick).run reached
  exact ⟨sweepOver_exact sound _, fun driverId => sweepOver_exact sound _⟩

/-- The overdue offer of driver 101 is swept, and job 1 goes to driver 100. -/
theorem overdue_offer_swept :
    let e := (performAll minuteHost emptyService
      [comesOnline 100, comesOnline 101, .submitJob (jobAtOrigin 1)]).2
    (DispatchService.expirePendingOffersGlobal minuteHost e).2 =
        ⟨[⟨4, 101, 1⟩], [⟨9, 1, 100, .pending, 510000000000⟩]⟩ ∧
      ExactSweep minuteHost (fun _ => true) (DispatchService.expirePendingOffersGlobal minuteHost)
        e := by
  intro e
  have reached : Run (serviceStep minuteHost) anyStep emptyService _ e :=
    performAll_run _ (permitted_any _ _ _) .start
  exact ⟨by decide +kernel, (expiry_sweeps_exact minuteHost 8 InMemoryBackend.mk 0 _ e reached).1⟩

end Spatiad
