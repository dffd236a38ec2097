import Spatiad.EventPages
import Spatiad.CommandEvents

/-! # The frame of an answer

What an answer to an offer changes in the engine, and that it changes nothing else.  The
events it adds go to the job of the offer alone.
-/

namespace Spatiad

open Foundation StorageBackend

variable {β : Type} [StorageBackend β]

/-! ## Adding events -/

def newest (entries : List JobEventRecord) : List JobEventRecord :=
  entries.drop (entries.length - maxJobEvents)

theorem newest_append (entries more : List JobEventRecord) :
    newest (newest entries ++ more) = newest (entries ++ more) := by
  unfold newest
  generalize maxJobEvents = bound
  have early : entries.length - bound ≤ entries.length := Nat.sub_le _ _
  rw [← List.drop_append_of_le_length early, List.drop_drop]
  congr 1
  simp only [List.length_drop, List.length_append]
  omega

/-- The records of a job go to a persistent store one by one, whether or not it takes them. -/
def storeAll (store : β) (jobId : Uuid) (records : List JobEventRecord) : β :=
  records.foldl (fun store record =>
    if isPersistent store then
      (appendJobEvent store jobId ⟨record.sequence, record.occurredAt, record.kind.toJson⟩).2
    else store) store

/-- But for its drivers and offers, `e'` is `e` with these records added to one job. -/
structure Adds (e e' : Engine β) (jobId : Uuid) (records : List JobEventRecord) : Prop where
  jobs : e'.jobs = e.jobs
  cancelledJobs : e'.cancelledJobs = e.cancelledJobs
  h3Resolution : e'.h3Resolution = e.h3Resolution
  spatial : e'.spatial = e.spatial
  walSequence : e'.walSequence = e.walSequence
  driversTick : e'.driversTick = e.driversTick
  storage : e'.storage = storeAll e.storage jobId records
  /-- They are numbered on from the job's last event. -/
  consecutive : records.map JobEventRecord.sequence =
    List.range' (e.lastSequence jobId + 1) records.length
  lastSequence : e'.lastSequence jobId = e.lastSequence jobId + records.length
  retained : e'.retained jobId = newest (e.retained jobId ++ records)
  others : ∀ j, j ≠ jobId → e'.jobEvents.lookup j = e.jobEvents.lookup j ∧
    e'.jobEventSequences.lookup j = e.jobEventSequences.lookup j

namespace Adds

variable {e e' e'' : Engine β} {jobId : Uuid} {records more : List JobEventRecord}

theorem trans (first : Adds e e' jobId records) (second : Adds e' e'' jobId more) :
    Adds e e'' jobId (records ++ more) where
  jobs := second.jobs.trans first.jobs
  cancelledJobs := second.cancelledJobs.trans first.cancelledJobs
  h3Resolution := second.h3Resolution.trans first.h3Resolution
  spatial := second.spatial.trans first.spatial
  walSequence := second.walSequence.trans first.walSequence
  driversTick := second.driversTick.trans first.driversTick
  storage := by
    rw [second.storage, first.storage]
    exact List.foldl_append.symm
  consecutive := by
    rw [List.map_append, first.consecutive, second.consecutive, first.lastSequence,
      List.length_append, Nat.add_right_comm, List.range'_append_1]
  lastSequence := by
    rw [second.lastSequence, first.lastSequence, List.length_append, Nat.add_assoc]
  retained := by
    rw [second.retained, first.retained, newest_append, List.append_assoc]
  others j other :=
    ⟨((second.others j other).1).trans (first.others j other).1,
      ((second.others j other).2).trans (first.others j other).2⟩

end Adds

theorem pushJobEvent_adds (host : Host) (e : Engine β) (jobId : Uuid) (kind : JobEventKind) :
    Adds e (e.pushJobEvent host jobId kind) jobId
      [⟨e.lastSequence jobId + 1, host.clock e.tick, kind⟩] where
  jobs := rfl
  cancelledJobs := rfl
  h3Resolution := rfl
  spatial := rfl
  walSequence := rfl
  driversTick := rfl
  storage := rfl
  consecutive := rfl
  lastSequence := by rw [lastSequence_push, if_pos rfl, List.length_singleton]
  retained := by
    simp only [Engine.retained, Engine.pushJobEvent, AList.lookup_insert, Option.getD_some]
    rfl
  others j other := by
    simp only [Engine.pushJobEvent, HashMap.lookup_insert_if, if_neg other, and_self]

theorem pushJobEvents_adds (host : Host) (e : Engine β) (jobId : Uuid) (kind : JobEventKind)
    (kinds : List JobEventKind) :
    ∃ records, records.map JobEventRecord.kind = kind :: kinds ∧
      Adds e (e.pushJobEvents host jobId (kind :: kinds)) jobId records := by
  have first := pushJobEvent_adds host e jobId kind
  induction kinds generalizing e kind with
  | nil => exact ⟨_, rfl, first⟩
  | cons next kinds ih =>
      let e' := e.pushJobEvent host jobId kind
      obtain ⟨records, told, later⟩ := ih e' next (pushJobEvent_adds host e' jobId next)
      refine ⟨_ :: records, ?_, first.trans later⟩
      rw [List.map_cons, told]

/-! ## Reachable engines -/

/-- What the public mutations and views of an engine lead to, from an empty engine on any
    storage or from a recovery.  A recovery replays whatever log it finds, after a snapshot
    that some engine took. -/
inductive Reachable (host : Host) : Engine β → Prop where
  | fresh (h3Resolution : Nat) (storage : β) (tick : Nat) :
      Reachable host (.withStorage h3Resolution storage tick)
  | mutated {e} (before : Reachable host e) (mutation : Mutation) :
      Reachable host (e.mutate host mutation)
  -- a view may read the clock, or iterate over a map
  | viewed {e} (before : Reachable host e) : Reachable host e.drawn
  | recoveredBlank {h3Resolution storage tick e} (blank : loadSnapshot storage = .ok none)
      (recovered : Engine.recover host h3Resolution storage tick = .ok e) : Reachable host e
  | recovered {h3Resolution storage tick e taken} (before : Reachable host taken)
      (saved : loadSnapshot storage = .ok (some taken.toSnapshot))
      (recovered : Engine.recover host h3Resolution storage tick = .ok e) : Reachable host e

theorem recover_keyed {host : Host} {h3Resolution : Nat} {storage : β} {tick : Nat} {e : Engine β}
    {snapshot : Option EngineSnapshot} (loads : loadSnapshot storage = .ok snapshot)
    (keyed : ∀ snap, snapshot = some snap → snap.toLedger.Keyed)
    (recovered : Engine.recover host h3Resolution storage tick = .ok e) : e.toLedger.Keyed := by
  apply Engine.recover_rule (P := fun e : Engine β => e.Keyed) recovered
  case base =>
    intro snapshot' loads'
    obtain rfl := Except.ok.inj (loads.symm.trans loads')
    cases snapshot with
    | none => exact Ledger.keyed_empty
    | some snap => exact keyed snap rfl
  case replayed =>
    intro e cmd seq keyed
    have applied : (e.applyCommand host cmd).toLedger.Keyed := by
      rw [Engine.applyCommand_toLedger]
      exact keyed.apply cmd
    exact applied

theorem Reachable.keyed {host : Host} {e : Engine β} (reachable : Reachable host e) :
    e.toLedger.Keyed := by
  induction reachable with
  | fresh => exact Ledger.keyed_empty
  | viewed _ keyed => exact keyed
  | recoveredBlank blank recovered =>
      exact recover_keyed blank (fun _ none => by cases none) recovered
  | recovered _ saved recovered keyed =>
      exact recover_keyed saved (fun _ same => Option.some.inj same ▸ keyed) recovered
  | @mutated e _ mutation keyed =>
      apply Engine.mutate_rule (P := fun e : Engine β => e.Keyed)
      case logged => exact fun trace => trace.keyed keyed
      case written =>
        intro offerId status kind k o found
        rw [Engine.setOfferStatus_toLedger, Ledger.setOfferStatus_offers] at found
        obtain ⟨old, stored, rfl⟩ := Option.map_eq_some_iff.mp found
        exact keyed k old stored
      case snapshot =>
        rw [(Engine.createSnapshot_frame e).1]
        exact keyed

/-! ## What an answer changes -/

/-- The engine with a command logged that is still to be applied. -/
def Engine.logged (e : Engine β) (cmd : Command) : Engine β :=
  { e with
    walSequence := e.walSequence + 1
    storage := (appendWal e.storage (e.walSequence + 1) cmd).2 }

/-- But for drivers and offers, `cmd` was logged and these events were added to one job. -/
def OnlyAdds (e e' : Engine β) (cmd : Command) (jobId : Uuid) (kinds : List JobEventKind) : Prop :=
  ∃ records, records.map JobEventRecord.kind = kinds ∧ Adds (e.logged cmd) e' jobId records

/-- One offer gets a status and its job an event. -/
structure ChangesOffer (e e' : Engine β) (cmd : Command) (offer : OfferRecord)
    (status : OfferStatus) (kind : JobEventKind) : Prop where
  offers : ∀ k, e'.offers.lookup k =
    if k = offer.offerId then some { offer with status } else e.offers.lookup k
  drivers : e'.drivers = e.drivers
  rest : OnlyAdds e e' cmd offer.jobId [kind]

/-- Another pending offer of the job. -/
def Competes (e : Engine β) (offer : OfferRecord) (k : Uuid) (o : OfferRecord) : Prop :=
  k ≠ offer.offerId ∧ e.offers.lookup k = some o ∧ o.jobId = offer.jobId ∧ o.status = .pending

/-- The offer is accepted, its competitors are cancelled and its driver is busy. -/
structure AcceptsOffer (e e' : Engine β) (cmd : Command) (offer : OfferRecord) : Prop where
  selected : e'.offers.lookup offer.offerId = some { offer with status := .accepted }
  cancelled : ∀ k o, Competes e offer k o →
    e'.offers.lookup k = some { o with status := .cancelled }
  otherOffers : ∀ k, k ≠ offer.offerId → (∀ o, ¬ Competes e offer k o) →
    e'.offers.lookup k = e.offers.lookup k
  driver : e'.drivers.lookup offer.driverId =
    (e.drivers.lookup offer.driverId).map fun d => { d with status := .busy }
  otherDrivers : ∀ d, d ≠ offer.driverId → e'.drivers.lookup d = e.drivers.lookup d
  /-- Each competitor is told of once, before the acceptance. -/
  rest : ∃ competitors : List OfferRecord, (competitors.map OfferRecord.offerId).Nodup ∧
    (∀ o, o ∈ competitors ↔ Competes e offer o.offerId o) ∧
    OnlyAdds e e' cmd offer.jobId
      (competitors.map (fun o => .offerCancelled o.offerId o.driverId) ++
        [.offerAccepted offer.offerId offer.driverId, .matchConfirmed offer.offerId offer.driverId])

/-- The ways an answer can go. -/
inductive Answered (host : Host) (e : Engine β) (offerId : Uuid) :
    Bool → Engine β × Except CoreError (Option MatchResult) → Prop where
  | offerNotFound {accepted} (unknown : e.offers.lookup offerId = none) :
      Answered host e offerId accepted (e, .error .offerNotFound)
  | offerNotPending {accepted o} (found : e.offers.lookup offerId = some o)
      (settled : o.status ≠ .pending) :
      Answered host e offerId accepted (e, .error .offerNotPending)
  | offerExpired {accepted o e'} (found : e.offers.lookup offerId = some o)
      (pending : o.status = .pending) (due : o.expiresAt ≤ host.clock e.tick)
      (changes : ChangesOffer e e' (.markOfferExpired offerId) o .expired
        (.offerExpired offerId o.driverId)) :
      Answered host e offerId accepted (e', .error .offerExpired)
  | rejected {o e'} (found : e.offers.lookup offerId = some o) (pending : o.status = .pending)
      (inTime : host.clock e.tick < o.expiresAt)
      (changes : ChangesOffer e e' (.rejectOffer offerId (host.clock (e.tick + 1))) o .rejected
        (.offerRejected offerId o.driverId)) :
      Answered host e offerId false (e', .ok none)
  | accepted {o e'} (found : e.offers.lookup offerId = some o) (pending : o.status = .pending)
      (inTime : host.clock e.tick < o.expiresAt)
      (changes : AcceptsOffer e e' (.acceptOffer offerId (host.clock (e.tick + 1))) o) :
      Answered host e offerId true
        (e', .ok (some ⟨o.jobId, o.driverId, offerId, host.clock (e.tick + 1)⟩))

theorem Adds.before {e e' : Engine β} {offers : HashMap Uuid OfferRecord}
    {drivers : HashMap Uuid DriverSnapshot} {tick : Nat} {jobId : Uuid}
    {records : List JobEventRecord} (adds : Adds { e with offers, drivers, tick } e' jobId records) :
    Adds e e' jobId records :=
  ⟨adds.jobs, adds.cancelledJobs, adds.h3Resolution, adds.spatial, adds.walSequence,
    adds.driversTick, adds.storage, adds.consecutive, adds.lastSequence, adds.retained, adds.others⟩

/-! ## Answers -/

section competitors

omit [StorageBackend β]

variable {e : Engine β} {o : OfferRecord}

/-- The offers that an acceptance cancels, as its sweep comes upon them. -/
def Engine.competitors (e : Engine β) (order : List Uuid → List Uuid) (o : OfferRecord) :
    List OfferRecord :=
  (HashMap.iter order (e.offers.insert o.offerId { o with status := .accepted })).filter
    (competesWith o.jobId o.offerId)

variable (keyed : e.toLedger.Keyed)

include keyed

theorem competesWith_iff {k : Uuid} {c : OfferRecord} (stored : e.offers.lookup k = some c)
    (other : k ≠ o.offerId) : competesWith o.jobId o.offerId c = true ↔ Competes e o k c := by
  obtain rfl := keyed k c stored
  simp only [competesWith, Bool.and_eq_true, beq_iff_eq, bne_iff_ne]
  constructor
  · rintro ⟨⟨ofJob, _⟩, pending⟩
    exact ⟨other, stored, ofJob, pending⟩
  · rintro ⟨_, _, ofJob, pending⟩
    exact ⟨⟨ofJob, other⟩, pending⟩

variable {order : List Uuid → List Uuid} (arranged : ∀ ks, (order ks).Perm ks)

include arranged

theorem mem_competitors (c : OfferRecord) :
    c ∈ e.competitors order o ↔ Competes e o c.offerId c := by
  rw [Engine.competitors, List.mem_filter, HashMap.mem_iter arranged]
  constructor
  · rintro ⟨⟨k, stored⟩, competes⟩
    rw [HashMap.lookup_insert_if] at stored
    split at stored
    · -- the accepted offer does not compete with itself
      obtain rfl := Option.some.inj stored
      simp [competesWith] at competes
    · rename_i other
      have competes := (competesWith_iff keyed stored other).mp competes
      exact keyed k c stored ▸ competes
  · intro competes
    refine ⟨⟨c.offerId, ?_⟩, (competesWith_iff keyed competes.2.1 competes.1).mpr competes⟩
    exact (AList.lookup_insert_ne competes.1).trans competes.2.1

theorem nodup_competitors : ((e.competitors order o).map OfferRecord.offerId).Nodup := by
  have distinct := HashMap.nodup_iter arranged OfferRecord.offerId
    (keyed.insert { o with status := .accepted })
  exact distinct.sublist (List.filter_sublist.map _)

end competitors

section commands

variable (host : Host) {e mid : Engine β} {o : OfferRecord} {cmd : Command} (tick : Nat)
  (found : e.offers.lookup o.offerId = some o) (logged : mid = { e.logged cmd with tick })

include found logged

theorem setOfferStatus_changes (status : OfferStatus) (kind : Uuid → JobEventKind) :
    ChangesOffer e (mid.setOfferStatus host o.offerId status kind) cmd o status
      (kind o.driverId) := by
  subst logged
  have known : (e.logged cmd).offers.lookup o.offerId = some o := found
  simp only [Engine.setOfferStatus, known]
  obtain ⟨records, told, adds⟩ := pushJobEvents_adds host
    { e.logged cmd with tick, offers := e.offers.insert o.offerId { o with status } } o.jobId
    (kind o.driverId) []
  exact ⟨fun k => HashMap.lookup_insert_if _ _ _ _, rfl, records, told, adds.before⟩

/-- The maps are swept before any event is added. -/
theorem acceptOffer_adds (respondedAt : DateTime) :
    OnlyAdds e (mid.applyCommand host (.acceptOffer o.offerId respondedAt)) cmd o.jobId
      ((e.competitors (host.order tick) o).map (fun c => .offerCancelled c.offerId c.driverId) ++
        [.offerAccepted o.offerId o.driverId, .matchConfirmed o.offerId o.driverId]) := by
  subst logged
  have known : (e.logged cmd).offers.lookup o.offerId = some o := found
  let swept : Engine β := { e.logged cmd with
    tick
    offers := cancelWhere (competesWith o.jobId o.offerId)
      (e.offers.insert o.offerId { o with status := .accepted })
    drivers := markBusy o.driverId e.drivers }
  let told := (e.competitors (host.order tick) o).map fun c =>
    JobEventKind.offerCancelled c.offerId c.driverId
  let last : List JobEventKind :=
    [.offerAccepted o.offerId o.driverId, .matchConfirmed o.offerId o.driverId]
  have applied : ({ e.logged cmd with tick } : Engine β).applyCommand host
      (.acceptOffer o.offerId respondedAt) = swept.pushJobEvents host o.jobId (told ++ last) := by
    simp only [Engine.applyCommand, known]
    exact Engine.pushJobEvents_append host swept o.jobId told last
  have some : told ++ last ≠ [] := List.append_ne_nil_of_right_ne_nil told (List.cons_ne_nil _ _)
  obtain ⟨kind, kinds, parts⟩ := List.exists_cons_of_ne_nil some
  have recorded := pushJobEvents_adds host swept o.jobId kind kinds
  rw [← parts, ← applied] at recorded
  obtain ⟨records, same, adds⟩ := recorded
  exact ⟨records, same, adds.before⟩

theorem acceptOffer_accepts (keyed : e.toLedger.Keyed) (respondedAt : DateTime) :
    AcceptsOffer e (mid.applyCommand host (.acceptOffer o.offerId respondedAt)) cmd o := by
  have adds := acceptOffer_adds host tick found logged respondedAt
  have ledger : (mid.applyCommand host (.acceptOffer o.offerId respondedAt)).toLedger =
      e.toLedger.apply (.acceptOffer o.offerId respondedAt) := by
    subst logged
    exact Engine.applyCommand_toLedger host _ _
  have offers : ∀ k, (mid.applyCommand host (.acceptOffer o.offerId respondedAt)).offers.lookup k =
      (e.offers.lookup k).map fun c =>
        { c with status := e.newStatus (.acceptOffer o.offerId respondedAt) k c } := by
    intro k
    rw [ledger]
    exact Ledger.lookup_apply e.toLedger (fun _ => Command.noConfusion) k
  have drivers : ∀ d, (mid.applyCommand host (.acceptOffer o.offerId respondedAt)).drivers.lookup d =
      (e.drivers.lookup d).map fun r => if d = o.driverId then { r with status := .busy } else r := by
    intro d
    simp only [ledger, Ledger.apply, found, Ledger.pushEvents_drivers]
    exact Ledger.lookup_markBusy e.drivers o.driverId d
  refine ⟨?_, ?_, ?_, ?_, ?_, e.competitors (host.order tick) o,
    nodup_competitors keyed (host.order_perm tick), mem_competitors keyed (host.order_perm tick), adds⟩
  · rw [offers, found]
    simp only [Option.map_some, Ledger.newStatus, if_true]
  · intro k c competes
    have swept := (competesWith_iff keyed competes.2.1 competes.1).mpr competes
    rw [offers, competes.2.1]
    simp only [Option.map_some, Ledger.newStatus, if_neg competes.1, found, swept, if_true]
  · intro k different alone
    rw [offers]
    cases stored : e.offers.lookup k with
    | none => rfl
    | some c =>
        have idle : ¬ competesWith o.jobId o.offerId c = true := fun competes =>
          alone c ((competesWith_iff keyed stored different).mp competes)
        simp only [Option.map_some, Ledger.newStatus, if_neg different, found, if_neg idle]
  · rw [drivers]
    simp only [if_true]
  · intro d different
    rw [drivers]
    simp only [if_neg different, Option.map_id']

end commands

/-- In every reachable engine an answer goes one of these ways; in particular it finds the
    offer expired exactly when it is pending and its time is up. -/
theorem answer_frame (host : Host) (e : Engine β) (reachable : Reachable host e) (offerId : Uuid)
    (accepted : Bool) :
    Answered host e offerId accepted (e.handleOfferResponse host offerId accepted) ∧
      ((e.handleOfferResponse host offerId accepted).2 = .error .offerExpired ↔
        ∃ o, e.offers.lookup offerId = some o ∧ o.status = .pending ∧
          o.expiresAt ≤ host.clock e.tick) := by
  have keyed := reachable.keyed
  have answered : Answered host e offerId accepted (e.handleOfferResponse host offerId accepted) := by
    unfold Engine.handleOfferResponse
    cases found : e.offers.lookup offerId with
    | none => exact .offerNotFound found
    | some o =>
        obtain rfl := keyed offerId o found
        simp only
        split
        · rename_i settled
          exact .offerNotPending found settled
        · rename_i pending
          have pending := not_not.mp pending
          split
          · rename_i due
            exact .offerExpired found pending due
              (setOfferStatus_changes host (e.tick + 1) found rfl .expired _)
          · rename_i inTime
            have inTime := not_le.mp inTime
            cases accepted with
            | false =>
                exact .rejected found pending inTime
                  (setOfferStatus_changes host (e.tick + 2) found rfl .rejected _)
            | true =>
                exact .accepted found pending inTime
                  (acceptOffer_accepts host (e.tick + 2) found rfl keyed
                    (host.clock (e.tick + 1)))
  refine ⟨answered, ?_⟩
  generalize e.handleOfferResponse host offerId accepted = answer at answered
  constructor
  · intro expired
    cases answered with
    | offerExpired found pending due => exact ⟨_, found, pending, due⟩
    | _ => cases expired
  · rintro ⟨o, stored, pending, due⟩
    cases answered with
    | offerExpired => rfl
    | offerNotFound unknown => cases unknown.symm.trans stored
    | offerNotPending found settled =>
        obtain rfl := Option.some.inj (found.symm.trans stored)
        exact absurd pending settled
    | rejected found _ inTime | accepted found _ inTime =>
        obtain rfl := Option.some.inj (found.symm.trans stored)
        exact absurd due (not_le.mpr inTime)

theorem Reachable.run {host : Host} {e : Engine β} (reachable : Reachable host e)
    (mutations : List Mutation) : Reachable host (mutations.foldl (Engine.mutate host) e) := by
  induction mutations generalizing e with
  | nil => exact reachable
  | cons mutation rest ih => exact ih (reachable.mutated mutation)

/-- Driver 101 accepts an offer of job 1 that two other drivers have had as well. -/
theorem two_competitors_cancelled :
    let e := [.upsertDriverLocation 101 "tow_truck" ⟨0, 0⟩ .available, .registerJob (jobAtOrigin 1),
      .createOffer 1 100 30, .createOffer 1 101 30, .createOffer 1 102 30].foldl
        (Engine.mutate stillHost) (Engine.withStorage 8 InMemoryBackend.mk 0)
    let answer := e.handleOfferResponse stillHost 6 true
    (answer.1.retained 1).drop 4 = [⟨5, 0, .offerCancelled 9 102⟩, ⟨6, 0, .offerCancelled 3 100⟩,
        ⟨7, 0, .offerAccepted 6 101⟩, ⟨8, 0, .matchConfirmed 6 101⟩] ∧
      Answered stillHost e 6 true answer := by
  intro e answer
  have reachable : Reachable stillHost e := (Reachable.fresh 8 InMemoryBackend.mk 0).run _
  exact ⟨by decide +kernel, (answer_frame stillHost e reachable 6 true).1⟩

end Spatiad
