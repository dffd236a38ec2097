import Spatiad.ServiceRuns

/-! # Double booking

A driver who is matched becomes busy and is offered nothing more; but the offers of
other jobs that are already with it stay open, and an acceptance looks at none of
them.  What matters is whether there is one when the driver is matched.
-/

namespace Spatiad

open Foundation

/-! ## Offers go to available drivers -/

def Ledger.Available (s : Ledger) (driverId : Uuid) : Prop :=
  ∃ driver, s.drivers.lookup driverId = some driver ∧ driver.status = .available

/-- Commands that leave the driver's own record alone and offer nothing to a driver
    that is not available. -/
def Approaches (driverId : Uuid) (s : Ledger) : Command → Prop
  | .createOffer offer => s.Available offer.driverId
  | .upsertDriverLocation other .. => other ≠ driverId
  | _ => True

/-- An operation that does not report the driver anew. -/
def SparesDriver (driverId : Uuid) : Op → Prop
  | .upsertDriverLocation other .. => other ≠ driverId
  | _ => True

variable {β : Type} [StorageBackend β] {host : Host} {e e' : Engine β} {driverId : Uuid}

omit [StorageBackend β] in
theorem candidate_available {pickup : Coordinates} {category : String} {radiusKm : ℚ}
    {limit : Nat} (member : driverId ∈ e.nearestCandidatesInRadius host pickup category radiusKm limit) :
    e.toLedger.Available driverId := by
  simp only [Engine.nearestCandidatesInRadius, List.mem_map] at member
  obtain ⟨⟨id, distanceKm⟩, chosen, rfl⟩ := member
  have found := (List.mem_insertionSort _).mp (List.mem_of_mem_take chosen)
  obtain ⟨id', _, kept⟩ := List.mem_filterMap.mp found
  cases registered : e.drivers.lookup id' with
  | none => simp [registered] at kept
  | some driver =>
      simp only [registered, DriverSnapshot.serves, Option.ite_none_right_eq_some, Option.some.injEq,
        Prod.mk.injEq, Bool.and_eq_true, beq_iff_eq] at kept
      obtain ⟨⟨⟨available, _⟩, _⟩, rfl, _⟩ := kept
      exact ⟨driver, registered, available⟩

omit [StorageBackend β] in
theorem nextUntried_available {job : JobRequest} {jobId : Uuid}
    (chosen : e.nextUntried host job jobId = some driverId) : e.toLedger.Available driverId := by
  obtain ⟨radiusKm, found⟩ := wideningLoop_some chosen
  exact candidate_available (List.mem_of_find?_eq_some found)

omit [StorageBackend β] in
theorem nearestAvailable_available {job : JobRequest}
    (chosen : DispatchService.nearestAvailable host e job = some driverId) :
    e.toLedger.Available driverId := by
  obtain ⟨radiusKm, found⟩ := wideningLoop_some chosen
  exact candidate_available (List.mem_of_head? found)

theorem command_approaches (host : Host) (e : Engine β) (d : Uuid) (cmd : Command)
    (permitted : Approaches d e.toLedger cmd) (other : ∀ offer, cmd ≠ .createOffer offer) :
    ∃ log, Trace host (Approaches d) e log (e.appendAndApply host cmd) :=
  ⟨_, .single permitted other⟩

theorem createNextOfferForJob_approaches (host : Host) (e : Engine β) (d jobId : Uuid) :
    ∃ log, Trace host (Approaches d) e log (e.createNextOfferForJob host jobId).1 := by
  rcases createNextOfferForJob_cases host e jobId with same | ⟨driverId, job, checks, same⟩
  · rw [same]
    exact ⟨[], .done e⟩
  · rw [same]
    exact ⟨_, createOffer_trace (nextUntried_available checks.chosen)⟩

theorem redispatch_approaches (host : Host) (e : Engine β) (d : Uuid) (seenJobs : Finset Uuid) (items : List ExpiredOffer) :
    ∃ log, Trace host (Approaches d) e log (DispatchService.redispatch host e seenJobs items).1 := by
  apply redispatch_rule (P := fun e' => ∃ log, Trace host (Approaches d) e log e') ⟨[], .done e⟩
  rintro mid item - ⟨log, before⟩
  obtain ⟨more, turn⟩ := createNextOfferForJob_approaches host mid d item.jobId
  exact ⟨log ++ more, before.trans turn⟩

theorem sweep_approaches (d : Uuid) (p : OfferRecord → Bool) (now : DateTime) :
    ∃ log, Trace host (Approaches d) e log
      (DispatchService.redispatch host
        (e.drawn.expireOffers host (e.drawn.dueOffers host p now)).1 ∅
        (e.drawn.expireOffers host (e.drawn.dueOffers host p now)).2).1 := by
  have expiry : Trace host (Approaches d) e.drawn _
      (e.drawn.expireOffers host (e.drawn.dueOffers host p now)).1 :=
    expireOffers_trace_any _ fun _ _ => trivial
  obtain ⟨more, handOver⟩ := redispatch_approaches host
    (e.drawn.expireOffers host (e.drawn.dueOffers host p now)).1 d ∅
    (e.drawn.expireOffers host (e.drawn.dueOffers host p now)).2
  exact ⟨_, (Trace.draw expiry).trans handOver⟩

/-- Every operation but a report of the driver itself only approaches drivers that are
    available. -/
theorem perform_approaches (host : Host) (e : DispatchService β) {op : Op}
    (spares : SparesDriver driverId op) :
    ∃ log, Trace host (Approaches driverId) e log (perform host e op).1 := by
  cases op with
  | submitJob job =>
      have registration : Trace host (Approaches driverId) e [.registerJob job]
          (e.registerJob host job) := .single trivial fun _ => Command.noConfusion
      simp only [perform, Prod.map, id_eq]
      rcases submitJob_cases host e job with ⟨_, same⟩ | ⟨d, chosen, same⟩
      · rw [same]
        exact ⟨_, registration⟩
      · rw [same]
        refine ⟨_, registration.trans (createOffer_trace ?_)⟩
        exact nearestAvailable_available chosen
  | cancelOffer offerId =>
      simp only [perform, DispatchService.cancelOffer, Engine.markOfferStatus]
      split
      · exact ⟨[], .done e⟩
      · exact command_approaches host e driverId (.markOfferCancelled offerId) trivial
          fun _ => Command.noConfusion
  | cancelJob jobId =>
      simp only [perform, Engine.cancelJob]
      split
      · exact command_approaches host e driverId (.cancelJob jobId) trivial
          fun _ => Command.noConfusion
      · exact ⟨[], .done e⟩
  | recordWebhookDeliveryFailed jobId offerId =>
      simp only [perform, Engine.recordWebhookDeliveryFailed]
      split
      · exact command_approaches host e driverId (.recordWebhookDeliveryFailed jobId offerId) trivial
          fun _ => Command.noConfusion
      · exact ⟨[], .done e⟩
  | expirePendingOffersForDriver | expirePendingOffersGlobal => exact sweep_approaches _ _ _
  | handleOfferResponse offerId accepted =>
      have response := handleOfferResponse_response host e offerId accepted
      simp only [perform, Prod.map, id_eq]
      generalize DispatchService.handleOfferResponse host e offerId accepted = result at response
      obtain ⟨e', reply⟩ := result
      cases response with
      | unknown | notPending => exact ⟨[], .done _⟩
      | late _ _ _ state =>
          obtain ⟨log, trace⟩ := command_approaches host e.drawn driverId
            (.markOfferExpired offerId) trivial fun _ => Command.noConfusion
          exact ⟨log, state ▸ trace.draw⟩
      | accepted _ _ _ state =>
          obtain ⟨log, trace⟩ := command_approaches host e.drawn.drawn driverId
            (.acceptOffer offerId (host.clock e.drawn.tick)) trivial fun _ => Command.noConfusion
          exact ⟨log, state ▸ trace.draw.draw⟩
      | @rejected offer _ next _ _ _ handOver =>
          have refusal : Trace host (Approaches driverId) e
              [.rejectOffer offerId (host.clock e.drawn.tick)] _ :=
            .draw (.draw (.single trivial fun _ => Command.noConfusion))
          obtain ⟨log, handedOn⟩ := createNextOfferForJob_approaches host
            (e.drawn.drawn.appendAndApply host (.rejectOffer offerId (host.clock e.drawn.tick)))
            driverId offer.jobId
          rw [handOver] at handedOn
          exact ⟨_, refusal.trans handedOn⟩
  | upsertDriverLocation d category position status =>
      obtain ⟨log, trace⟩ := command_approaches host e.drawn driverId
        (.upsertDriverLocation d category position status (host.clock e.tick)) spares
        fun _ => Command.noConfusion
      exact ⟨log, trace.draw⟩
  | expireStaleDrivers => exact ⟨_, .draw (removeDrivers_trace (fun _ _ => trivial) _)⟩

/-! ## Engaged drivers -/

namespace Ledger

/-- Nothing is open with the driver, and it can be offered nothing. -/
structure Engaged (s : Ledger) (driverId : Uuid) : Prop where
  closed : ∀ k o, s.offers.lookup k = some o → o.driverId = driverId → o.status ≠ .pending
  unavailable : ¬ s.Available driverId

theorem unavailable_apply {s : Ledger} {cmd : Command} (unavailable : ¬ s.Available driverId)
    (approaches : Approaches driverId s cmd) : ¬ (s.apply cmd).Available driverId := by
  rintro ⟨r, registered, available⟩
  cases driver_origin registered with
  | reported => exact approaches rfl
  | kept before => exact unavailable ⟨r, before, available⟩
  | matched => cases available

theorem Engaged.apply {s : Ledger} {cmd : Command} (engaged : s.Engaged driverId)
    (approaches : Approaches driverId s cmd) : (s.apply cmd).Engaged driverId where
  closed k o' found ofDriver pending := by
    rcases offer_origin found with ⟨rfl, _⟩ | ⟨o, before, rfl | ⟨_, rfl⟩⟩
    · exact engaged.unavailable (ofDriver ▸ approaches)
    · exact engaged.closed k _ before ofDriver pending
    · exact engaged.closed k o before ofDriver (pending_of_newStatus pending)
  unavailable := unavailable_apply engaged.unavailable approaches

def openElsewhere (s : Ledger) (driverId jobId : Uuid) : Bool :=
  s.offers.values.any fun o => o.driverId == driverId && o.status == .pending && o.jobId != jobId

theorem openElsewhere_iff {s : Ledger} {jobId : Uuid} :
    s.openElsewhere driverId jobId = true ↔
      ∃ k o, s.offers.lookup k = some o ∧ o.driverId = driverId ∧ o.status = .pending ∧
        o.jobId ≠ jobId := by
  simp only [openElsewhere, HashMap.any_values_iff, Bool.and_eq_true, beq_iff_eq, bne_iff_ne,
    and_assoc]

/-- An acceptance engages its driver, unless another job's offer is open with it. -/
theorem engaged_acceptOffer {s : Ledger} (keyed : s.Keyed) {k : Uuid} {o : OfferRecord}
    (found : s.offers.lookup k = some o) (alone : s.openElsewhere o.driverId o.jobId = false)
    (respondedAt : DateTime) : (s.apply (.acceptOffer k respondedAt)).Engaged o.driverId where
  closed k' o₁ found₁ ofDriver pending := by
    rw [lookup_apply s fun _ => Command.noConfusion, Option.map_eq_some_iff] at found₁
    obtain ⟨o', before, rfl⟩ := found₁
    have now : s.newStatus (.acceptOffer k respondedAt) k' o' = .pending := pending
    have was := pending_of_newStatus now
    by_cases same : k' = k
    · simp [newStatus, same] at now
    · have sameJob : o'.jobId = o.jobId := by
        by_contra elsewhere
        have other := openElsewhere_iff.mpr ⟨k', o', before, ofDriver, was, elsewhere⟩
        rw [alone] at other
        cases other
      have competitor : o'.offerId ≠ o.offerId := by
        rw [keyed k' o' before, keyed k o found]
        exact same
      simp [newStatus, same, found, competesWith, sameJob, competitor, was] at now
  unavailable := by
    rintro ⟨r, registered, available⟩
    simp only [apply, found, pushEvents_drivers, lookup_markBusy, if_true,
      Option.map_eq_some_iff] at registered
    obtain ⟨_, _, rfl⟩ := registered
    cases available

end Ledger

/-! ## Over whole runs -/

def BecomesAccepted (k driverId : Uuid) (s s' : Ledger) : Prop :=
  (∃ o, s'.offers.lookup k = some o ∧ o.driverId = driverId ∧ o.status = .accepted) ∧
    ∀ o, s.offers.lookup k = some o → o.status ≠ .accepted

variable {e e' : DispatchService β} {x : Exchange} {k : Uuid}

theorem engaged_step (engaged : e.toLedger.Engaged driverId) (taken : serviceStep host e x e')
    (spares : SparesDriver driverId x.1) : e'.toLedger.Engaged driverId := by
  obtain ⟨log, trace⟩ := perform_approaches host e spares
  rw [taken] at trace
  exact trace.ledger_invariant (fun s => s.Engaged driverId)
    (fun _ _ engaged approaches => engaged.apply approaches) engaged

theorem acceptance_origin (sound : Sound host e) (taken : serviceStep host e x e')
    (becomes : BecomesAccepted k driverId e.toLedger e'.toLedger) :
    x.1 = .handleOfferResponse k true ∧
      ∃ o, e.offers.lookup k = some o ∧ o.status = .pending ∧ o.driverId = driverId := by
  obtain ⟨⟨o', found, ofDriver, won⟩, notYet⟩ := becomes
  let P (s : Ledger) : Prop := ∀ o', s.offers.lookup k = some o' → o'.status = .accepted →
    (∃ o, e.offers.lookup k = some o ∧ o.status = .accepted) ∨ x.1 = .handleOfferResponse k true ∧
      ∃ o, e.offers.lookup k = some o ∧ o.status = .pending ∧ o.driverId = o'.driverId
  have held : P e'.toLedger := by
    refine sound.step_invariant taken P (fun o found won => .inl ⟨o, found, won⟩) ?_
    intro s cmd _ held issued o' found won
    rcases Ledger.offer_origin found with ⟨rfl, _⟩ | ⟨o, before, rfl | ⟨_, rfl⟩⟩
    · rw [issued.fresh.pending] at won
      cases won
    · exact held _ before won
    · rcases Ledger.accepted_of_newStatus won with old | ⟨respondedAt, rfl⟩
      · exact held o before old
      · generalize x.1 = op at issued
        cases issued with
        | accept selected pending =>
            obtain rfl := Option.some.inj (selected.symm.trans before)
            exact .inr ⟨rfl, _, selected, pending, rfl⟩
  cases held o' found won with
  | inl old =>
      obtain ⟨o, before, won⟩ := old
      exact absurd won (notYet o before)
  | inr answered =>
      obtain ⟨answer, o, before, pending, sameDriver⟩ := answered
      exact ⟨answer, o, before, pending, sameDriver.trans ofDriver⟩

theorem acceptance_state (sound : Sound host e) (taken : serviceStep host e x e')
    (becomes : BecomesAccepted k driverId e.toLedger e'.toLedger) :
    ∃ o respondedAt, e.offers.lookup k = some o ∧ o.driverId = driverId ∧
      e'.toLedger = e.toLedger.apply (.acceptOffer k respondedAt) := by
  obtain ⟨answer, o, found, pending, ofDriver⟩ := acceptance_origin sound taken becomes
  obtain ⟨⟨o', found', _, won⟩, _⟩ := becomes
  obtain ⟨op, reply⟩ := x
  subst answer
  simp only [serviceStep, perform, Prod.map, id_eq, Prod.mk.injEq] at taken
  have response := handleOfferResponse_response host e k true
  generalize DispatchService.handleOfferResponse host e k true = result at response taken
  obtain ⟨rfl, rfl⟩ := taken
  obtain ⟨e', answer⟩ := result
  cases response with
  | unknown absent =>
      rw [found] at absent
      cases absent
  | notPending here answered =>
      obtain rfl := Option.some.inj (found.symm.trans here)
      exact absurd pending answered
  | late here _ _ state =>
      have ledger := congrArg Engine.toLedger state
      rw [Engine.appendAndApply_toLedger] at ledger
      simp only at ledger found'
      rw [ledger, Ledger.lookup_apply _ (fun _ => Command.noConfusion), Option.map_eq_some_iff]
        at found'
      obtain ⟨_, _, rfl⟩ := found'
      simp [Ledger.newStatus] at won
  | accepted _ _ _ state =>
      have ledger := congrArg Engine.toLedger state
      rw [Engine.appendAndApply_toLedger] at ledger
      exact ⟨o, _, found, ofDriver, ledger⟩

/-- Another job's offer that is open when its driver is matched stays open, and can be
    accepted next. -/
theorem second_acceptance (sound : Sound host e) (taken : serviceStep host e x e')
    (becomes : BecomesAccepted k driverId e.toLedger e'.toLedger) {o : OfferRecord}
    (found : e.offers.lookup k = some o) (other : e.openElsewhere driverId o.jobId = true) :
    ∃ k' o', k' ≠ k ∧ e'.offers.lookup k' = some o' ∧ o'.driverId = driverId ∧
      o'.status = .pending ∧ (host.clock e'.tick < o'.expiresAt →
        BecomesAccepted k' driverId e'.toLedger
          (perform host e' (.handleOfferResponse k' true)).1.toLedger) := by
  obtain ⟨o₁, respondedAt, found₁, _, ledger⟩ := acceptance_state sound taken becomes
  obtain rfl := Option.some.inj (found.symm.trans found₁)
  obtain ⟨k', o', found', ofDriver, pending, elsewhere⟩ := Ledger.openElsewhere_iff.mp other
  have different : k' ≠ k := by
    rintro rfl
    exact elsewhere (congrArg OfferRecord.jobId (Option.some.inj (found'.symm.trans found)))
  have still : e'.offers.lookup k' = some o' := by
    rw [ledger, Ledger.lookup_apply _ (fun _ => Command.noConfusion), found']
    simp [Ledger.newStatus, different, found, competesWith, elsewhere]
  refine ⟨k', o', different, still, ofDriver, pending, fun inTime => ⟨?_, ?_⟩⟩
  · have response := handleOfferResponse_response host e' k' true
    simp only [perform, Prod.map, id_eq]
    generalize DispatchService.handleOfferResponse host e' k' true = result at response
    obtain ⟨e'', answer⟩ := result
    cases response with
    | unknown absent =>
        rw [still] at absent
        cases absent
    | notPending here answered =>
        obtain rfl := Option.some.inj (still.symm.trans here)
        exact absurd pending answered
    | late here _ due =>
        obtain rfl := Option.some.inj (still.symm.trans here)
        exact absurd inTime (not_lt.mpr due)
    | accepted _ _ _ state =>
        have accepted := congrArg Engine.toLedger state
        rw [Engine.appendAndApply_toLedger] at accepted
        refine ⟨{ o' with status := .accepted }, ?_, ofDriver, rfl⟩
        simp only at accepted ⊢
        rw [accepted, Ledger.lookup_apply _ fun _ => Command.noConfusion]
        simp [still, Ledger.newStatus]
  · intro o₂ found₂ won
    rw [still] at found₂
    rw [← Option.some.inj found₂, pending] at won
    cases won

/-- When an offer of a driver becomes Accepted: if no offer of another job is open with
    the driver, nothing of it becomes Accepted until it reports again (its removal alone
    brings it no offer); if one is, answering it before it expires makes it Accepted too. -/
theorem matched_driver_booked_once (host : Host) (h3Resolution : Nat) (storage : β) (tick : Nat)
    (past : List Exchange) (e : DispatchService β)
    (run : Run (serviceStep host) anyStep (Engine.withStorage h3Resolution storage tick) past e)
    (x : Exchange) (e₁ : DispatchService β) (taken : serviceStep host e x e₁) (k driverId : Uuid)
    (becomes : BecomesAccepted k driverId e.toLedger e₁.toLedger) (o : OfferRecord)
    (found : e.offers.lookup k = some o) :
    (e.openElsewhere driverId o.jobId = false →
      ∀ later e₂, Run (serviceStep host) (fun _ _ x => SparesDriver driverId x.1) e₁ later e₂ →
        ∀ x' e₃ k', serviceStep host e₂ x' e₃ →
          ¬ BecomesAccepted k' driverId e₂.toLedger e₃.toLedger) ∧
    (e.openElsewhere driverId o.jobId = true →
      ∃ k' o', k' ≠ k ∧ e₁.offers.lookup k' = some o' ∧ o'.driverId = driverId ∧
        o'.status = .pending ∧ (host.clock e₁.tick < o'.expiresAt →
          BecomesAccepted k' driverId e₁.toLedger
            (perform host e₁ (.handleOfferResponse k' true)).1.toLedger)) := by
  have sound : Sound host e := (sound_withStorage h3Resolution storage tick).run run
  refine ⟨fun alone => ?_, second_acceptance sound taken becomes found⟩
  intro later e₂ continued x' e₃ k' taken' becomes'
  obtain ⟨o₁, respondedAt, found₁, ofDriver, ledger⟩ := acceptance_state sound taken becomes
  obtain rfl := Option.some.inj (found.symm.trans found₁)
  have engaged : e₁.toLedger.Engaged driverId := by
    rw [ledger, ← ofDriver]
    exact Ledger.engaged_acceptOffer sound.keyed found (ofDriver ▸ alone) respondedAt
  have still : e₂.toLedger.Engaged driverId := by
    refine continued.invariant (fun _ e => e.toLedger.Engaged driverId) engaged ?_
    intro _ _ _ _ engaged spares taken
    exact engaged_step engaged taken spares
  obtain ⟨_, o₂, found₂, pending, ofDriver₂⟩ :=
    acceptance_origin ((sound.step taken).run continued) taken' becomes'
  exact still.closed k' o₂ found₂ ofDriver₂ pending

def twoJobs : List Op := [comesOnline 100, .submitJob (jobAtOrigin 1), .submitJob (jobAtOrigin 2)]

/-- Driver 100 accepts both, one after the other. -/
theorem double_booked :
    ∃ past, ∃ e : DispatchService InMemoryBackend, ∃ x e₁ x' e₂,
      Run (serviceStep stillHost) anyStep emptyService past e ∧
      serviceStep stillHost e x e₁ ∧ BecomesAccepted 3 100 e.toLedger e₁.toLedger ∧
      serviceStep stillHost e₁ x' e₂ ∧ SparesDriver 100 x'.1 ∧
      BecomesAccepted 7 100 e₁.toLedger e₂.toLedger := by
  let e := (performAll stillHost emptyService twoJobs).2
  let e₁ := (perform stillHost e (.handleOfferResponse 3 true)).1
  let e₂ := (perform stillHost e₁ (.handleOfferResponse 7 true)).1
  have open₁ : e.offers.lookup 3 = some ⟨3, 1, 100, .pending, seconds 30⟩ := by decide +kernel
  have won₁ : e₁.offers.lookup 3 = some ⟨3, 1, 100, .accepted, seconds 30⟩ := by decide +kernel
  have open₂ : e₁.offers.lookup 7 = some ⟨7, 2, 100, .pending, seconds 30⟩ := by decide +kernel
  have won₂ : e₂.offers.lookup 7 = some ⟨7, 2, 100, .accepted, seconds 30⟩ := by decide +kernel
  refine ⟨_, e, (.handleOfferResponse 3 true, _), e₁, (.handleOfferResponse 7 true, _), e₂,
    performAll_run twoJobs (permitted_any _ _ _) .start, rfl, ?_, rfl, trivial, ?_⟩
  · refine ⟨⟨_, won₁, rfl, rfl⟩, fun o found won => ?_⟩
    obtain rfl := Option.some.inj (found.symm.trans open₁)
    cases won
  · refine ⟨⟨_, won₂, rfl, rfl⟩, fun o found won => ?_⟩
    obtain rfl := Option.some.inj (found.symm.trans open₂)
    cases won

/-- Once driver 100 has accepted its only offer, nothing of it becomes Accepted before
    it reports again. -/
theorem booked_once_of_lone_offer :
    let e := (performAll stillHost emptyService (twoJobs.take 2)).2
    let e₁ := (perform stillHost e (.handleOfferResponse 3 true)).1
    ∀ later e₂, Run (serviceStep stillHost) (fun _ _ x => SparesDriver 100 x.1) e₁ later e₂ →
      ∀ x e₃ k, serviceStep stillHost e₂ x e₃ →
        ¬ BecomesAccepted k 100 e₂.toLedger e₃.toLedger := by
  intro e e₁
  have pending : e.offers.lookup 3 = some ⟨3, 1, 100, .pending, seconds 30⟩ := by decide +kernel
  have won : e₁.offers.lookup 3 = some ⟨3, 1, 100, .accepted, seconds 30⟩ := by decide +kernel
  have becomes : BecomesAccepted 3 100 e.toLedger e₁.toLedger := by
    refine ⟨⟨_, won, rfl, rfl⟩, fun o found won => ?_⟩
    obtain rfl := Option.some.inj (found.symm.trans pending)
    cases won
  have taken := serviceStep_perform stillHost e (.handleOfferResponse 3 true)
  exact (matched_driver_booked_once stillHost 8 InMemoryBackend.mk 0 _ e
    (performAll_run (twoJobs.take 2) (permitted_any _ _ _) .start) _ e₁ taken 3 100 becomes _
    pending).1 (by decide +kernel)

end Spatiad
