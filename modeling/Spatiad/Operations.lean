import Spatiad.Commands

/-! # Every operation is a trace

Each operation, from an engine whose offers are keyed by ids drawn from the
host, is a trace of commands it may issue.  What a whole run preserves then
follows from what one permitted command preserves.
-/

namespace Spatiad

open Foundation

variable {β : Type} [StorageBackend β] {host : Host} {e : Engine β}

/-! ## Creating an offer -/

def Engine.newOffer (host : Host) (e : Engine β) (jobId driverId : Uuid) (timeoutSeconds : Nat) :
    OfferRecord where
  offerId := host.newV4 (e.tick + 1)
  jobId := jobId
  driverId := driverId
  status := .pending
  expiresAt := host.clock e.tick + seconds (asI64 timeoutSeconds)

theorem Engine.createOffer_eq (jobId driverId : Uuid) (timeoutSeconds : Nat) :
    e.createOffer host jobId driverId timeoutSeconds =
      (e.drawn.drawn.appendAndApply host (.createOffer (e.newOffer host jobId driverId timeoutSeconds)),
        e.newOffer host jobId driverId timeoutSeconds) := rfl

omit [StorageBackend β] in
theorem newOffer_fresh (ids : IdsDrawn host e) (jobId driverId : Uuid) (timeoutSeconds : Nat) :
    e.toLedger.Fresh (e.newOffer host jobId driverId timeoutSeconds) where
  pending := rfl
  unused := by
    cases found : e.offers.lookup (host.newV4 (e.tick + 1)) with
    | none => exact found
    | some o =>
        obtain ⟨n, early, same⟩ := ids _ _ found
        have := host.newV4_injective same
        omega

theorem createOffer_trace {may : Ledger → Command → Prop} {jobId driverId : Uuid}
    {timeoutSeconds : Nat}
    (permitted : may e.toLedger (.createOffer (e.newOffer host jobId driverId timeoutSeconds))) :
    Trace host may e [.createOffer (e.newOffer host jobId driverId timeoutSeconds)]
      (e.createOffer host jobId driverId timeoutSeconds).1 := by
  rw [Engine.createOffer_eq]
  refine .draw (.draw (.log permitted ?_ (.done _)))
  intro offer same
  obtain rfl := Command.createOffer.inj same
  exact ⟨e.tick + 1, Nat.lt_succ_self _, rfl⟩

/-! ## Re-dispatch -/

/-- Everything `create_next_offer_for_job` checks before it creates an offer. -/
structure NextOffer (host : Host) (e : Engine β) (jobId driverId : Uuid) (job : JobRequest) :
    Prop where
  registered : e.jobs.lookup jobId = some job
  active : jobId ∉ e.cancelledJobs
  unmatched : e.hasOffer jobId .accepted = false
  idle : e.hasOffer jobId .pending = false
  chosen : e.nextUntried host job jobId = some driverId

theorem createNextOfferForJob_cases (host : Host) (e : Engine β) (jobId : Uuid) :
    e.createNextOfferForJob host jobId = (e, none) ∨
      ∃ driverId job, NextOffer host e jobId driverId job ∧
        e.createNextOfferForJob host jobId =
          ((e.createOffer host jobId driverId job.timeoutSeconds).1,
            some (e.newOffer host jobId driverId job.timeoutSeconds)) := by
  unfold Engine.createNextOfferForJob
  cases registered : e.jobs.lookup jobId with
  | none => exact .inl rfl
  | some job =>
      simp only
      split
      · exact .inl rfl
      · split
        · exact .inl rfl
        · split
          · exact .inl rfl
          · cases chosen : e.nextUntried host job jobId with
            | none => exact .inl rfl
            | some driverId =>
                rename_i active unmatched idle
                refine .inr ⟨driverId, job, ?_, rfl⟩
                exact ⟨registered, active, by simpa using unmatched, by simpa using idle, chosen⟩

theorem wideningLoop_some {α : Type} {find : ℚ → Option α} {limit : ℚ} {rounds : Nat}
    {radius : ℚ} {found : α} (result : wideningLoop find limit rounds radius = some found) :
    ∃ r, find r = some found := by
  induction rounds generalizing radius with
  | zero => simp [wideningLoop] at result
  | succ rounds ih =>
      simp only [wideningLoop] at result
      split at result
      · cases here : find radius with
        | some other =>
            simp only [here, Option.some.injEq] at result
            exact ⟨radius, here.trans (congrArg some result)⟩
        | none =>
            simp only [here] at result
            split at result
            · cases result
            · exact ih result
      · cases result

omit [StorageBackend β] in
theorem nextUntried_untried {job : JobRequest} {jobId driverId : Uuid}
    (chosen : e.nextUntried host job jobId = some driverId) :
    e.alreadyOffered jobId driverId = false := by
  obtain ⟨radius, found⟩ := wideningLoop_some chosen
  have untried := List.find?_some found
  simpa using untried

theorem createNextOfferForJob_trace (s₀ : Ledger) {op : Op} (kind : op.Redispatches)
    (ids : IdsDrawn host e) {jobId : Uuid} (freed : s₀.hasOffer jobId .pending = true) :
    ∃ log, Trace host (Issues s₀ op) e log (e.createNextOfferForJob host jobId).1 := by
  rcases createNextOfferForJob_cases host e jobId with same | ⟨driverId, job, checks, same⟩
  · rw [same]
    exact ⟨[], .done e⟩
  · rw [same]
    refine ⟨_, createOffer_trace ?_⟩
    exact .nextOffer kind (newOffer_fresh ids _ _ _) checks.registered checks.active
      checks.unmatched checks.idle (nextUntried_untried checks.chosen) freed

/-- The rule for a pass over expired offers: what the turn of each job keeps, the pass keeps. -/
theorem redispatch_rule {P : Engine β → Prop} {seenJobs : Finset Uuid} {items : List ExpiredOffer}
    (held : P e) (turn : ∀ e, ∀ item ∈ items, P e → P (e.createNextOfferForJob host item.jobId).1) :
    P (DispatchService.redispatch host e seenJobs items).1 := by
  induction items generalizing e seenJobs with
  | nil => exact held
  | cons item rest ih =>
      have later : ∀ e, ∀ item ∈ rest, P e → P (e.createNextOfferForJob host item.jobId).1 :=
        fun e item member => turn e item (List.mem_cons_of_mem _ member)
      simp only [DispatchService.redispatch]
      split
      · exact ih held later
      · exact ih (turn e item List.mem_cons_self held) later

theorem redispatch_trace (s₀ : Ledger) {op : Op} (kind : op.Redispatches) (ids : IdsDrawn host e)
    (seenJobs : Finset Uuid) (items : List ExpiredOffer)
    (freed : ∀ item ∈ items, s₀.hasOffer item.jobId .pending = true) :
    ∃ log, Trace host (Issues s₀ op) e log (DispatchService.redispatch host e seenJobs items).1 := by
  apply redispatch_rule (P := fun e' => ∃ log, Trace host (Issues s₀ op) e log e') ⟨[], .done e⟩
  rintro mid item member ⟨log, before⟩
  obtain ⟨more, turn⟩ :=
    createNextOfferForJob_trace s₀ kind (before.idsDrawn ids) (freed item member)
  exact ⟨log ++ more, before.trans turn⟩

/-! ## Expiry -/

theorem lookup_markOfferExpired (s : Ledger) {offerId k : Uuid} (different : k ≠ offerId) :
    (s.apply (.markOfferExpired offerId)).offers.lookup k = s.offers.lookup k := by
  rw [Ledger.lookup_apply s (fun _ => Command.noConfusion)]
  simp [Ledger.newStatus, different]

def OfferRecord.report (o : OfferRecord) : ExpiredOffer := ⟨o.offerId, o.driverId, o.jobId⟩

theorem expireOffers_reports (host : Host) (e : Engine β) (offerIds : List Uuid) :
    (e.expireOffers host offerIds).2 =
      offerIds.filterMap fun k => (e.offers.lookup k).map OfferRecord.report := by
  induction offerIds generalizing e with
  | nil => rfl
  | cons offerId rest ih =>
      have sameReports : ∀ k ∈ rest,
          ((e.appendAndApply host (.markOfferExpired offerId)).offers.lookup k).map OfferRecord.report =
            (e.offers.lookup k).map OfferRecord.report := by
        intro k _
        rw [Engine.appendAndApply_toLedger, Ledger.lookup_apply _ fun _ => Command.noConfusion,
          Option.map_map]
        rfl
      simp only [Engine.expireOffers, ih, List.filterMap_congr sameReports, List.filterMap_cons]
      cases e.offers.lookup offerId <;> rfl

theorem mem_expireOffers {offerIds : List Uuid} {item : ExpiredOffer} :
    item ∈ (e.expireOffers host offerIds).2 ↔
      ∃ id ∈ offerIds, ∃ o, e.offers.lookup id = some o ∧ o.report = item := by
  simp only [expireOffers_reports, List.mem_filterMap, Option.map_eq_some_iff]

theorem expireOffers_trace {may : Ledger → Command → Prop} {offerIds : List Uuid}
    (distinct : offerIds.Nodup)
    (pending : ∀ id ∈ offerIds, ∃ o, e.offers.lookup id = some o ∧ o.status = .pending)
    (permitted : ∀ s id o, s.offers.lookup id = some o → o.status = .pending →
      may s (.markOfferExpired id)) :
    Trace host may e (offerIds.map .markOfferExpired) (e.expireOffers host offerIds).1 := by
  induction offerIds generalizing e with
  | nil => exact .done e
  | cons offerId rest ih =>
      obtain ⟨absent, distinct⟩ := List.nodup_cons.mp distinct
      obtain ⟨o, found, isPending⟩ := pending offerId List.mem_cons_self
      refine .log (permitted _ _ o found isPending) (fun _ same => Command.noConfusion same) ?_
      apply ih distinct
      intro id member
      have different : id ≠ offerId := fun same => absent (same ▸ member)
      rw [Engine.appendAndApply_toLedger, lookup_markOfferExpired _ different]
      exact pending id (List.mem_cons_of_mem _ member)

theorem expireOffers_trace_any {may : Ledger → Command → Prop} (offerIds : List Uuid)
    (permitted : ∀ s id, may s (.markOfferExpired id)) :
    Trace host may e (offerIds.map .markOfferExpired) (e.expireOffers host offerIds).1 := by
  induction offerIds generalizing e with
  | nil => exact .done e
  | cons offerId rest ih =>
      exact .log (permitted _ _) (fun _ same => Command.noConfusion same) ih

omit [StorageBackend β] in
theorem mem_dueOffers (keyed : e.toLedger.Keyed) {p : OfferRecord → Bool} {now : DateTime}
    {id : Uuid} :
    id ∈ e.dueOffers host p now ↔
      ∃ o, e.offers.lookup id = some o ∧ p o = true ∧ o.status = .pending ∧ o.expiresAt ≤ now := by
  simp only [Engine.dueOffers, List.mem_map, List.mem_filter, Bool.and_eq_true, beq_iff_eq,
    decide_eq_true_eq, HashMap.mem_iter (host.order_perm e.tick)]
  constructor
  · rintro ⟨o, ⟨⟨k, found⟩, ⟨selected, pending⟩, due⟩, rfl⟩
    have key := keyed k o found
    subst key
    exact ⟨o, found, selected, pending, due⟩
  · rintro ⟨o, found, selected, pending, due⟩
    exact ⟨o, ⟨⟨id, found⟩, ⟨selected, pending⟩, due⟩, keyed id o found⟩

omit [StorageBackend β] in
theorem nodup_dueOffers (keyed : e.toLedger.Keyed) (p : OfferRecord → Bool) (now : DateTime) :
    (e.dueOffers host p now).Nodup :=
  (HashMap.nodup_iter (host.order_perm e.tick) OfferRecord.offerId keyed).sublist
    (List.filter_sublist.map _)

theorem sweep_trace {op : Op} (kind : op.Redispatches) (keyed : e.toLedger.Keyed)
    (ids : IdsDrawn host e) (p : OfferRecord → Bool) (now : DateTime) :
    ∃ log, Trace host (Issues e.toLedger op) e log
      (DispatchService.redispatch host
        (e.drawn.expireOffers host (e.drawn.dueOffers host p now)).1 ∅
        (e.drawn.expireOffers host (e.drawn.dueOffers host p now)).2).1 := by
  have keyed' : e.drawn.toLedger.Keyed := keyed
  have distinct : (e.drawn.dueOffers host p now).Nodup := nodup_dueOffers keyed' p now
  have expiry : Trace host (Issues e.toLedger op) e
      ((e.drawn.dueOffers host p now).map .markOfferExpired)
      (e.drawn.expireOffers host (e.drawn.dueOffers host p now)).1 := by
    refine .draw (expireOffers_trace distinct ?_ ?_)
    · intro id member
      obtain ⟨o, found, _, pending, _⟩ := (mem_dueOffers keyed').mp member
      exact ⟨o, found, pending⟩
    · intro s id o found pending
      exact .expire kind found pending
  obtain ⟨log, handOver⟩ := redispatch_trace e.toLedger kind (expiry.idsDrawn ids) ∅
    (e.drawn.expireOffers host (e.drawn.dueOffers host p now)).2 (by
      intro item member
      obtain ⟨id, inDue, o, found, rfl⟩ := mem_expireOffers.mp member
      obtain ⟨_, sameOffer, _, pending, _⟩ := (mem_dueOffers keyed').mp inDue
      obtain rfl := Option.some.inj (found.symm.trans sameOffer)
      exact Ledger.hasOffer_iff.mpr ⟨id, o, found, rfl, pending⟩)
  exact ⟨_, expiry.trans handOver⟩

/-! ## Answers -/

/-- What `handle_offer_response` of the service can do: the state it leaves and
    what it returns. -/
inductive Response (host : Host) (e : Engine β) (offerId : Uuid) :
    Bool → DispatchService β → Except DispatchError OfferResponseUpdate → Prop where
  | unknown {accepted} (absent : e.offers.lookup offerId = none) :
      Response host e offerId accepted e (.error .invalidOfferResponse)
  | notPending {accepted o} (found : e.offers.lookup offerId = some o)
      (answered : o.status ≠ .pending) :
      Response host e offerId accepted e (.error .invalidOfferResponse)
  /-- The expiry is recorded, but the job is not handed on. -/
  | late {accepted o e'} (found : e.offers.lookup offerId = some o)
      (pending : o.status = .pending) (due : o.expiresAt ≤ host.clock e.tick)
      (state : e' = e.drawn.appendAndApply host (.markOfferExpired offerId)) :
      Response host e offerId accepted e' (.error .invalidOfferResponse)
  | accepted {o e'} (found : e.offers.lookup offerId = some o) (pending : o.status = .pending)
      (inTime : host.clock e.tick < o.expiresAt)
      (state : e' =
        e.drawn.drawn.appendAndApply host (.acceptOffer offerId (host.clock e.drawn.tick))) :
      Response host e offerId true e'
        (.ok ⟨some ⟨o.jobId, o.driverId, offerId, host.clock e.drawn.tick⟩, []⟩)
  | rejected {o e' next} (found : e.offers.lookup offerId = some o)
      (pending : o.status = .pending) (inTime : host.clock e.tick < o.expiresAt)
      (handOver : (e.drawn.drawn.appendAndApply host
        (.rejectOffer offerId (host.clock e.drawn.tick))).createNextOfferForJob host o.jobId =
          (e', next)) :
      Response host e offerId false e' (.ok ⟨none, next.toList⟩)

theorem handleOfferResponse_response (host : Host) (e : Engine β) (offerId : Uuid)
    (accepted : Bool) :
    Response host e offerId accepted (DispatchService.handleOfferResponse host e offerId accepted).1
      (DispatchService.handleOfferResponse host e offerId accepted).2 := by
  unfold DispatchService.handleOfferResponse Engine.handleOfferResponse Engine.offerJobId
  cases found : e.offers.lookup offerId with
  | none => exact .unknown found
  | some offer =>
      simp only [Option.map_some]
      by_cases pending : offer.status = .pending
      · by_cases due : offer.expiresAt ≤ host.clock e.tick
        · simp only [pending, ne_eq, not_true_eq_false, if_false, due, if_true]
          exact .late found pending due rfl
        · have inTime : host.clock e.tick < offer.expiresAt := not_le.mp due
          cases accepted with
          | true =>
              simp only [pending, ne_eq, not_true_eq_false, if_false, due, if_true]
              exact .accepted found pending inTime rfl
          | false =>
              simp only [pending, ne_eq, not_true_eq_false, if_false, due, Bool.false_eq_true]
              exact .rejected found pending inTime rfl
      · simp only [ne_eq, pending, not_false_eq_true, if_true]
        exact .notPending found pending

theorem handleOfferResponse_trace (ids : IdsDrawn host e) (offerId : Uuid) (accepted : Bool) :
    ∃ log, Trace host (Issues e.toLedger (.handleOfferResponse offerId accepted)) e log
      (DispatchService.handleOfferResponse host e offerId accepted).1 := by
  have kind : (Op.handleOfferResponse offerId accepted).Redispatches := trivial
  have response := handleOfferResponse_response host e offerId accepted
  generalize DispatchService.handleOfferResponse host e offerId accepted = result at response ⊢
  obtain ⟨e', reply⟩ := result
  cases response with
  | unknown | notPending => exact ⟨[], .done _⟩
  | late found pending _ state =>
      subst state
      have expiry : Issues e.toLedger (.handleOfferResponse offerId accepted)
          e.drawn.toLedger (.markOfferExpired offerId) := .expire kind found pending
      exact ⟨_, .draw (.single expiry fun _ => Command.noConfusion)⟩
  | accepted found pending _ state =>
      subst state
      have acceptance : Issues e.toLedger (.handleOfferResponse offerId true)
          e.drawn.drawn.toLedger (.acceptOffer offerId (host.clock e.drawn.tick)) :=
        .accept found pending
      exact ⟨_, .draw (.draw (.single acceptance fun _ => Command.noConfusion))⟩
  | @rejected offer _ next found pending _ handOver =>
      have refusal : Trace host (Issues e.toLedger (.handleOfferResponse offerId false))
          e [.rejectOffer offerId (host.clock e.drawn.tick)] _ :=
        .draw (.draw (.single (Issues.reject found pending) fun _ => Command.noConfusion))
      obtain ⟨log, handedOn⟩ := createNextOfferForJob_trace e.toLedger kind
        (refusal.idsDrawn ids) (Ledger.hasOffer_iff.mpr ⟨offerId, offer, found, rfl, pending⟩)
      rw [handOver] at handedOn
      exact ⟨_, refusal.trans handedOn⟩

/-! ## All operations -/

theorem submitJob_cases (host : Host) (e : Engine β) (job : JobRequest) :
    (DispatchService.nearestAvailable host (e.registerJob host job) job = none ∧
      DispatchService.submitJob host e job =
        (e.registerJob host job, .error .noAvailableDriver)) ∨
      ∃ driverId,
        DispatchService.nearestAvailable host (e.registerJob host job) job = some driverId ∧
        DispatchService.submitJob host e job =
          (((e.registerJob host job).createOffer host job.jobId driverId job.timeoutSeconds).1,
            .ok ((e.registerJob host job).newOffer host job.jobId driverId
              job.timeoutSeconds)) := by
  unfold DispatchService.submitJob
  simp only
  cases DispatchService.nearestAvailable host (e.registerJob host job) job with
  | none => exact .inl ⟨rfl, rfl⟩
  | some driverId => exact .inr ⟨driverId, rfl, rfl⟩

theorem submitJob_trace (ids : IdsDrawn host e) (job : JobRequest) :
    ∃ log, Trace host (Issues e.toLedger (.submitJob job)) e log
      (DispatchService.submitJob host e job).1 := by
  have registration : Trace host (Issues e.toLedger (.submitJob job)) e [.registerJob job]
      (e.registerJob host job) := .single Issues.register fun _ => Command.noConfusion
  rcases submitJob_cases host e job with ⟨_, same⟩ | ⟨driverId, _, same⟩
  · rw [same]
    exact ⟨_, registration⟩
  · have ledger : (e.registerJob host job).toLedger = e.toLedger.apply (.registerJob job) :=
      Engine.appendAndApply_toLedger host e _
    have fresh := newOffer_fresh (registration.idsDrawn ids) job.jobId driverId job.timeoutSeconds
    rw [same]
    refine ⟨_, registration.trans (createOffer_trace ?_)⟩
    rw [ledger] at fresh ⊢
    exact .firstOffer rfl fresh

theorem removeDrivers_trace {may : Ledger → Command → Prop}
    (permitted : ∀ s driverId, may s (.removeDriver driverId)) (stale : List Uuid) :
    Trace host may e (stale.map .removeDriver)
      (stale.foldl (fun e driverId => e.appendAndApply host (.removeDriver driverId)) e) := by
  induction stale generalizing e with
  | nil => exact .done e
  | cons driverId rest ih =>
      exact .log (permitted _ _) (fun _ same => Command.noConfusion same) ih

theorem perform_trace (keyed : e.toLedger.Keyed) (ids : IdsDrawn host e) (op : Op) :
    ∃ log, Trace host (Issues e.toLedger op) e log (perform host e op).1 := by
  cases op with
  | submitJob job => exact submitJob_trace ids job
  | cancelOffer offerId =>
      simp only [perform, DispatchService.cancelOffer, Engine.markOfferStatus]
      split
      · exact ⟨[], .done e⟩
      · rename_i found
        exact ⟨_, .single (Issues.withdraw found) fun _ => Command.noConfusion⟩
  | cancelJob jobId =>
      simp only [perform, Engine.cancelJob]
      split
      · rename_i known
        exact ⟨_, .single (Issues.cancelJob known) fun _ => Command.noConfusion⟩
      · exact ⟨[], .done e⟩
  | recordWebhookDeliveryFailed jobId offerId =>
      simp only [perform, Engine.recordWebhookDeliveryFailed]
      split
      · rename_i known
        exact ⟨_, .single (Issues.webhook known) fun _ => Command.noConfusion⟩
      · exact ⟨[], .done e⟩
  | expirePendingOffersForDriver driverId =>
      have kind : (Op.expirePendingOffersForDriver driverId).Redispatches := trivial
      exact sweep_trace kind keyed ids _ _
  | expirePendingOffersGlobal =>
      have kind : Op.expirePendingOffersGlobal.Redispatches := trivial
      exact sweep_trace kind keyed ids _ _
  | handleOfferResponse offerId accepted =>
      exact handleOfferResponse_trace ids offerId accepted
  | upsertDriverLocation driverId category position status =>
      exact ⟨_, .draw (.single Issues.upsert fun _ => Command.noConfusion)⟩
  | expireStaleDrivers ttl =>
      exact ⟨_, .draw (removeDrivers_trace (fun _ _ => .removeDriver) _)⟩

end Spatiad
