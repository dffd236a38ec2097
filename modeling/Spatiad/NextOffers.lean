import Spatiad.NewOffers

/-! # What a sweep hands on

Whom the new offers of a sweep go to and when they end is settled before it begins:
by the jobs its due offers free, the drivers, and the offers already made.
-/

namespace Spatiad

open Foundation

variable {β : Type} [StorageBackend β] {host : Host}

/-- The job is over or out with a driver, not counting its offers in `due`. -/
def Ledger.heldUp (s : Ledger) (due : List Uuid) (jobId : Uuid) : Bool :=
  decide (jobId ∈ s.cancelledJobs) || s.hasOffer jobId .accepted ||
    s.offers.values.any fun o => pendingOf jobId o && !due.contains o.offerId

theorem Ledger.heldUp_iff {s : Ledger} {due : List Uuid} {jobId : Uuid} :
    s.heldUp due jobId = true ↔
      jobId ∈ s.cancelledJobs ∨ s.hasOffer jobId .accepted = true ∨
        ∃ k o, s.offers.lookup k = some o ∧ o.jobId = jobId ∧ o.status = .pending ∧
          o.offerId ∉ due := by
  simp only [heldUp, pendingOf, Bool.or_eq_true, decide_eq_true_eq, HashMap.any_values_iff,
    Bool.and_eq_true, beq_iff_eq, Bool.not_eq_true', List.contains_eq_mem, decide_eq_false_iff_not,
    or_assoc, and_assoc]

/-- The job and the driver it goes to, once the offers in `due` are closed. -/
def Engine.nextFor (host : Host) (e : Engine β) (due : List Uuid) (jobId : Uuid) :
    Option (JobRequest × Uuid) :=
  match e.jobs.lookup jobId with
  | none => none
  | some job =>
      if e.heldUp due jobId then none
      else (e.nextUntried host job jobId).map fun driverId => (job, driverId)

/-- The driver and the expiry of each offer that a pass over these jobs creates, one
    for each job that can go to somebody, and the tick at which the pass ends. -/
def handOns (host : Host) (next : Uuid → Option (JobRequest × Uuid)) (tick : Nat)
    (seenJobs : Finset Uuid) : List Uuid → List (Uuid × DateTime) × Nat
  | [] => ([], tick)
  | jobId :: rest =>
      if jobId ∈ seenJobs then handOns host next tick seenJobs rest
      else
        match next jobId with
        | none => handOns host next tick (insert jobId seenJobs) rest
        | some (job, driverId) =>
            -- a reading for the expiry, an id and the reading of the event
            let (later, last) := handOns host next (tick + 3) (insert jobId seenJobs) rest
            ((driverId, host.clock tick + seconds (asI64 job.timeoutSeconds)) :: later, last)

def Ledger.jobsOf (s : Ledger) (offerIds : List Uuid) : List Uuid :=
  offerIds.filterMap fun k => (s.offers.lookup k).map OfferRecord.jobId

def Engine.dueFor (host : Host) (e : Engine β) (driverId : Uuid) : List Uuid :=
  e.drawn.dueOffers host (fun o => o.driverId == driverId) (host.clock e.tick)

/-- What a sweep of the driver's offers begun now hands on, and when it ends. -/
def Engine.sweepHandOns (host : Host) (e : Engine β) (driverId : Uuid) :
    List (Uuid × DateTime) × Nat :=
  let due := e.dueFor host driverId
  handOns host (e.nextFor host due) (e.tick + 1 + due.length) ∅ (e.jobsOf due)

/-! ## A pass -/

theorem createNextOfferForJob_eq (host : Host) (e : Engine β) (jobId : Uuid) :
    e.createNextOfferForJob host jobId =
      match e.nextFor host [] jobId with
      | none => (e, none)
      | some (job, driverId) =>
          ((e.createOffer host jobId driverId job.timeoutSeconds).1,
            some (e.newOffer host jobId driverId job.timeoutSeconds)) := by
  have held : e.heldUp [] jobId = (decide (jobId ∈ e.cancelledJobs) ||
      e.hasOffer jobId .accepted || e.hasOffer jobId .pending) := by
    simp [Ledger.heldUp, Ledger.hasOffer, pendingOf]
  unfold Engine.createNextOfferForJob Engine.nextFor
  cases e.jobs.lookup jobId with
  | none => rfl
  | some job =>
      simp only [held]
      by_cases cancelled : jobId ∈ e.cancelledJobs
      · simp [cancelled]
      · cases e.hasOffer jobId .accepted with
        | true => simp [cancelled]
        | false =>
            cases e.hasOffer jobId .pending with
            | true => simp [cancelled]
            | false =>
                simp only [cancelled, if_false, decide_false, Bool.or_self, Bool.false_eq_true]
                cases e.nextUntried host job jobId with
                | none => rfl
                | some driverId => rfl

omit [StorageBackend β] in
/-- An offer for one job changes nothing for another. -/
theorem HandedOn.nextFor {e e' : Engine β} {jobId j : Uuid} (handed : HandedOn e e' jobId)
    (other : j ≠ jobId) : e'.nextFor host [] j = e.nextFor host [] j := by
  have nothingNew : ∀ k o, e'.offers.lookup k = some o → o.jobId = j →
      e.offers.lookup k = some o := by
    intro k o found ofJob
    rcases handed.new k o found with before | ⟨ofOther, _⟩
    · exact before
    · exact absurd (ofJob.symm.trans ofOther) other
  have accepted : e'.hasOffer j .accepted = true ↔ e.hasOffer j .accepted = true := by
    rw [Ledger.hasOffer_iff, Ledger.hasOffer_iff]
    exact handed.offers_iff nothingNew fun o => o.status = .accepted
  have held : e'.heldUp [] j = e.heldUp [] j := by
    rw [Bool.eq_iff_iff, Ledger.heldUp_iff, Ledger.heldUp_iff, handed.cancelledJobs, accepted,
      handed.offers_iff nothingNew fun o => o.status = .pending ∧ o.offerId ∉ ([] : List Uuid)]
  simp only [Engine.nextFor, handed.jobs, held, handed.nextUntried nothingNew]

/-- A pass creates what its jobs' plan says, jobs already seen aside. -/
theorem redispatch_handOns {e : Engine β} (ids : IdsDrawn host e)
    {next : Uuid → Option (JobRequest × Uuid)} {seenJobs : Finset Uuid}
    (items : List ExpiredOffer)
    (planned : ∀ j, j ∉ seenJobs → e.nextFor host [] j = next j) :
    handOns host next e.tick seenJobs (items.map ExpiredOffer.jobId) =
      ((DispatchService.redispatch host e seenJobs items).2.map fun o => (o.driverId, o.expiresAt),
        (DispatchService.redispatch host e seenJobs items).1.tick) := by
  induction items generalizing e seenJobs with
  | nil => rfl
  | cons item rest ih =>
      simp only [List.map_cons, handOns, DispatchService.redispatch]
      by_cases seen : item.jobId ∈ seenJobs
      · simp only [if_pos seen]
        exact ih ids planned
      · have handed := createNextOfferForJob_handedOn ids item.jobId
        have ids' := createNextOfferForJob_ids ids item.jobId
        have still : ∀ j, j ∉ insert item.jobId seenJobs →
            (e.createNextOfferForJob host item.jobId).1.nextFor host [] j = next j := by
          intro j fresh
          rw [Finset.mem_insert, not_or] at fresh
          rw [handed.nextFor fresh.1]
          exact planned j fresh.2
        have tail := ih ids' still
        simp only [if_neg seen]
        rw [← planned item.jobId seen]
        rw [createNextOfferForJob_eq] at tail ⊢
        cases goes : e.nextFor host [] item.jobId with
        | none =>
            simp only [goes] at tail ⊢
            exact tail
        | some pair =>
            obtain ⟨job, driverId⟩ := pair
            simp only [goes] at tail ⊢
            have advanced : (e.createOffer host item.jobId driverId job.timeoutSeconds).1.tick =
                e.tick + 3 := rfl
            rw [advanced] at tail
            rw [tail]
            rfl

theorem redispatch_stored {e : Engine β} (ids : IdsDrawn host e) (seenJobs : Finset Uuid)
    (items : List ExpiredOffer) :
    ∀ o ∈ (DispatchService.redispatch host e seenJobs items).2,
      (DispatchService.redispatch host e seenJobs items).1.offers.lookup o.offerId = some o ∧
        o.status = .pending := by
  induction items generalizing e seenJobs with
  | nil => simp [DispatchService.redispatch]
  | cons item rest ih =>
      simp only [DispatchService.redispatch]
      split
      · exact ih ids seenJobs
      · have ids' := createNextOfferForJob_ids ids item.jobId
        intro o member
        rcases List.mem_append.mp member with here | later
        · have created : (e.createNextOfferForJob host item.jobId).1.offers.lookup o.offerId =
              some o ∧ o.status = .pending := by
            rcases createNextOfferForJob_cases host e item.jobId with same | ⟨driverId, job, _, same⟩
            · simp [same] at here
            · rw [same] at here ⊢
              obtain rfl := Option.mem_toList.mp here |> Option.some.inj
              exact ⟨(Ledger.lookup_createOffer e.toLedger _ _).trans (if_pos rfl), rfl⟩
          exact ⟨redispatch_kept ids' _ rest created.1, created.2⟩
        · exact ih ids' _ o later

/-! ## Expiring the due offers -/

theorem expireOffers_jobs (e : Engine β) (due : List Uuid) :
    (e.expireOffers host due).2.map ExpiredOffer.jobId = e.jobsOf due := by
  rw [expireOffers_reports, List.map_filterMap]
  refine List.filterMap_congr fun k _ => ?_
  rw [Option.map_map]
  rfl

theorem expireOffers_tick (e : Engine β) (due : List Uuid)
    (present : ∀ k ∈ due, e.offers.lookup k ≠ none) :
    (e.expireOffers host due).1.tick = e.tick + due.length ∧
      (e.expireOffers host due).2.length = due.length := by
  induction due generalizing e with
  | nil => exact ⟨rfl, rfl⟩
  | cons offerId rest ih =>
      obtain ⟨o, found⟩ := Option.ne_none_iff_exists'.mp (present offerId List.mem_cons_self)
      have advanced : (e.appendAndApply host (.markOfferExpired offerId)).tick = e.tick + 1 := by
        simp only [Engine.appendAndApply, Engine.applyCommand, Engine.setOfferStatus, found]
        rfl
      obtain ⟨ticks, reports⟩ := ih (e.appendAndApply host (.markOfferExpired offerId)) (by
        intro k member
        rw [Engine.appendAndApply_toLedger, Ledger.lookup_apply _ fun _ => Command.noConfusion]
        simpa using present k (List.mem_cons_of_mem _ member))
      simp only [Engine.expireOffers, found, Option.map_some, Option.toList_some,
        List.length_append, List.length_cons, List.length_nil, ticks, reports, advanced]
      omega

omit [StorageBackend β] in
/-- Closing pending offers leaves each job to go where it would go without them. -/
theorem Expires.nextFor {e e' : Engine β} {due : List Uuid} (expires : Expires e e' due)
    (keyed : e.toLedger.Keyed)
    (pending : ∀ k ∈ due, ∃ o, e.offers.lookup k = some o ∧ o.status = .pending) (j : Uuid) :
    e'.nextFor host [] j = e.nextFor host due j := by
  have held : e'.heldUp [] j = e.heldUp due j := by
    rw [Bool.eq_iff_iff, Ledger.heldUp_iff, Ledger.heldUp_iff, expires.cancelledJobs,
      expires.accepted_iff j pending]
    refine or_congr Iff.rfl (or_congr Iff.rfl ?_)
    have open' := expires.pending_iff j
    rw [Ledger.hasOffer_iff] at open'
    constructor
    · intro ⟨k, o', found, ofJob, isPending, _⟩
      obtain ⟨k, o, before, ofJob, apart, isPending⟩ := open'.mp ⟨k, o', found, ofJob, isPending⟩
      exact ⟨k, o, before, ofJob, isPending, keyed k o before ▸ apart⟩
    · intro ⟨k, o, found, ofJob, isPending, other⟩
      have apart : k ∉ due := keyed k o found ▸ other
      obtain ⟨k, o', stored, ofJob, isPending⟩ := open'.mpr ⟨k, o, found, ofJob, apart, isPending⟩
      exact ⟨k, o', stored, ofJob, isPending, List.not_mem_nil⟩
  simp only [Engine.nextFor, expires.jobs, held, expires.nextUntried]

theorem redispatch_frame {e : Engine β} (ids : IdsDrawn host e) (seenJobs : Finset Uuid)
    (items : List ExpiredOffer) :
    (DispatchService.redispatch host e seenJobs items).1.drivers = e.drivers ∧
      ∀ k o, (DispatchService.redispatch host e seenJobs items).1.offers.lookup k = some o →
        e.offers.lookup k = some o ∨ o.status = .pending := by
  let P (e' : Engine β) : Prop := IdsDrawn host e' ∧ e'.drivers = e.drivers ∧
    ∀ k o, e'.offers.lookup k = some o → e.offers.lookup k = some o ∨ o.status = .pending
  suffices all : P (DispatchService.redispatch host e seenJobs items).1 from all.2
  apply redispatch_rule (P := P) ⟨ids, rfl, fun _ _ found => .inl found⟩
  rintro mid item - ⟨ids, drivers, origin⟩
  have handed := createNextOfferForJob_handedOn ids item.jobId
  refine ⟨createNextOfferForJob_ids ids item.jobId, handed.drivers.trans drivers, ?_⟩
  intro k o found
  cases handed.new k o found with
  | inl before => exact origin k o before
  | inr created => exact .inr created.2

/-! ## A whole sweep -/

/-- What a driver's sweep leaves alone: the drivers, the offers of other drivers, and
    whoever is matched or cancelled. -/
structure Swept (e e' : Engine β) (driverId : Uuid) : Prop where
  drivers : e'.drivers = e.drivers
  kept : ∀ k o, e.offers.lookup k = some o → o.driverId ≠ driverId → e'.offers.lookup k = some o
  origin : ∀ k o', e'.offers.lookup k = some o' →
    e.offers.lookup k = some o' ∨ o'.status = .expired ∨ o'.status = .pending

theorem expirePendingOffersForDriver_swept {e : Engine β} (sound : Sound host e)
    (driverId : Uuid) :
    Swept e (DispatchService.expirePendingOffersForDriver host e driverId).1 driverId := by
  let due := e.dueFor host driverId
  have expires : Expires e.drawn (e.drawn.expireOffers host due).1 due :=
    expireOffers_expires e.drawn due
  have ids : IdsDrawn host (e.drawn.expireOffers host due).1 :=
    (expireOffers_creates sound.drawn.ids due).ids
  obtain ⟨drivers, origin⟩ := redispatch_frame ids ∅ (e.drawn.expireOffers host due).2
  refine ⟨drivers.trans expires.drivers, fun k o found stranger => ?_, fun k o' found => ?_⟩
  · have apart : k ∉ due := by
      intro member
      obtain ⟨o', found', selected, _⟩ := (mem_dueOffers sound.drawn.keyed).mp member
      obtain rfl := Option.some.inj (found.symm.trans found')
      exact stranger (beq_iff_eq.mp selected)
    refine redispatch_kept ids ∅ _ ?_
    rw [expires.offers]
    simp [found, apart]
  · rcases origin k o' found with here | pending
    · rw [expires.offers, Option.map_eq_some_iff] at here
      obtain ⟨o, before, rfl⟩ := here
      split
      · exact .inr (.inl rfl)
      · exact .inl before
    · exact .inr (.inr pending)

theorem sweep_handOns {e : Engine β} (sound : Sound host e) (driverId : Uuid) :
    (DispatchService.expirePendingOffersForDriver host e driverId).2.expired.length =
        (e.dueFor host driverId).length ∧
      e.sweepHandOns host driverId =
        ((DispatchService.expirePendingOffersForDriver host e driverId).2.newOffers.map
            fun o => (o.driverId, o.expiresAt),
          (DispatchService.expirePendingOffersForDriver host e driverId).1.tick) ∧
      ∀ o ∈ (DispatchService.expirePendingOffersForDriver host e driverId).2.newOffers,
        (DispatchService.expirePendingOffersForDriver host e driverId).1.offers.lookup
            o.offerId = some o ∧ o.status = .pending := by
  let due := e.dueFor host driverId
  have keyed : e.drawn.toLedger.Keyed := sound.keyed
  have pending : ∀ k ∈ due, ∃ o, e.drawn.offers.lookup k = some o ∧ o.status = .pending := by
    intro k member
    obtain ⟨o, found, _, isPending, _⟩ := (mem_dueOffers keyed).mp member
    exact ⟨o, found, isPending⟩
  have expires : Expires e.drawn (e.drawn.expireOffers host due).1 due :=
    expireOffers_expires e.drawn due
  have ids : IdsDrawn host (e.drawn.expireOffers host due).1 :=
    (expireOffers_creates sound.drawn.ids due).ids
  obtain ⟨ticks, reports⟩ := @expireOffers_tick _ _ host e.drawn due (by
    intro k member
    obtain ⟨o, found, _⟩ := pending k member
    rw [found]
    exact Option.some_ne_none o)
  refine ⟨reports, ?_, redispatch_stored ids ∅ _⟩
  have planned := redispatch_handOns ids (e.drawn.expireOffers host due).2
    fun j (_ : j ∉ (∅ : Finset Uuid)) => expires.nextFor keyed pending j
  rw [expireOffers_jobs, ticks] at planned
  exact planned

end Spatiad
