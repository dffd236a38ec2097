import Spatiad.ExpirySweeps
import Spatiad.NearestOffers
import Spatiad.JobStates
import Spatiad.JobParts
import Spatiad.Foundation.Attempts

/-! # Dispatch comes to rest

A job is handed on only to drivers it has not been offered to, so with finitely many
drivers around it is offered finitely often, and so many sweeps leave it without an
open offer, whatever else goes on between them.
-/

namespace Spatiad

open Foundation

def Ledger.triedDrivers (s : Ledger) (jobId : Uuid) : Finset Uuid :=
  ((s.offers.values.filter (forJob jobId)).map OfferRecord.driverId).toFinset

theorem Ledger.mem_triedDrivers {s : Ledger} {jobId driverId : Uuid} :
    driverId ∈ s.triedDrivers jobId ↔
      ∃ k o, s.offers.lookup k = some o ∧ o.jobId = jobId ∧ o.driverId = driverId := by
  simp only [triedDrivers, List.mem_toFinset, List.mem_map, List.mem_filter, HashMap.mem_values,
    forJob, beq_iff_eq]
  constructor
  · rintro ⟨o, ⟨⟨k, found⟩, ofJob⟩, toDriver⟩
    exact ⟨k, o, found, ofJob, toDriver⟩
  · rintro ⟨k, o, found, ofJob, toDriver⟩
    exact ⟨o, ⟨⟨k, found⟩, ofJob⟩, toDriver⟩

/-- Every offer is still there, for the same job and the same driver. -/
def Ledger.KeepsOffers (s s' : Ledger) : Prop :=
  ∀ k o, s.offers.lookup k = some o →
    ∃ o', s'.offers.lookup k = some o' ∧ o'.jobId = o.jobId ∧ o'.driverId = o.driverId

namespace Ledger.KeepsOffers

variable {s s' s'' : Ledger}

theorem refl (s : Ledger) : s.KeepsOffers s := fun _ o found => ⟨o, found, rfl, rfl⟩

theorem trans (first : s.KeepsOffers s') (second : s'.KeepsOffers s'') : s.KeepsOffers s'' := by
  intro k o found
  obtain ⟨o', found', sameJob, sameDriver⟩ := first k o found
  obtain ⟨o'', found'', sameJob', sameDriver'⟩ := second k o' found'
  exact ⟨o'', found'', sameJob'.trans sameJob, sameDriver'.trans sameDriver⟩

theorem apply {cmd : Command} (fresh : ∀ offer, cmd = .createOffer offer → s.Fresh offer) :
    s.KeepsOffers (s.apply cmd) := by
  intro k o found
  by_cases creates : ∃ offer, cmd = .createOffer offer
  · obtain ⟨offer, rfl⟩ := creates
    have other : k ≠ offer.offerId := by
      rintro rfl
      rw [(fresh offer rfl).unused] at found
      cases found
    exact ⟨o, (lookup_createOffer s offer k).trans ((if_neg other).trans found), rfl, rfl⟩
  · refine ⟨{ o with status := s.newStatus cmd k o }, ?_, rfl, rfl⟩
    rw [lookup_apply s fun offer same => creates ⟨offer, same⟩, found, Option.map_some]

theorem tried (keeps : s.KeepsOffers s') (j : Uuid) : s.triedDrivers j ⊆ s'.triedDrivers j := by
  intro d member
  obtain ⟨k, o, found, ofJob, toDriver⟩ := mem_triedDrivers.mp member
  obtain ⟨o', found', sameJob, sameDriver⟩ := keeps k o found
  exact mem_triedDrivers.mpr ⟨k, o', found', sameJob.trans ofJob, sameDriver.trans toDriver⟩

theorem untried (keeps : s.KeepsOffers s') {j d : Uuid} (untried : s'.Untried j d) :
    s.Untried j d := by
  intro k o found ofJob
  obtain ⟨o', found', sameJob, sameDriver⟩ := keeps k o found
  exact sameDriver ▸ untried k o' found' (sameJob.trans ofJob)

end Ledger.KeepsOffers

variable {β : Type} [StorageBackend β] {host : Host} {e e' : Engine β}

/-! ## New offers -/

/-- A driver that is registered and has had no offer of the job. -/
structure Ledger.Candidate (s : Ledger) (jobId driverId : Uuid) : Prop where
  registered : s.drivers.lookup driverId ≠ none
  untried : s.Untried jobId driverId

omit [StorageBackend β] in
theorem NextOffer.candidate {jobId driverId : Uuid} {job : JobRequest}
    (ready : NextOffer host e jobId driverId job) : e.toLedger.Candidate jobId driverId := by
  obtain ⟨_, _, nearest⟩ := nextUntried_nearest ready.chosen
  obtain ⟨driver, found, _⟩ := nearest.eligible
  refine ⟨?_, Ledger.untried_iff.mpr nearest.meets⟩
  rw [found]
  exact Option.some_ne_none driver

theorem Ledger.Candidate.of_keeps {s s' : Ledger} {jobId driverId : Uuid}
    (candidate : s'.Candidate jobId driverId) (keeps : s.KeepsOffers s')
    (drivers : s'.drivers = s.drivers) : s.Candidate jobId driverId where
  registered := drivers ▸ candidate.registered
  untried := keeps.untried candidate.untried

theorem createOffer_keeps (ids : IdsDrawn host e) (jobId driverId : Uuid) (timeoutSeconds : Nat) :
    e.toLedger.KeepsOffers (e.createOffer host jobId driverId timeoutSeconds).1.toLedger := by
  rw [Engine.createOffer_eq, Engine.appendAndApply_toLedger]
  refine Ledger.KeepsOffers.apply fun offer same => ?_
  obtain rfl := Command.createOffer.inj same
  exact newOffer_fresh ids jobId driverId timeoutSeconds

theorem Turns.candidate {jobs : List Uuid} {offers : List OfferRecord}
    (turns : Turns host e jobs offers e') (ids : IdsDrawn host e) {o : OfferRecord}
    (member : o ∈ offers) : e.toLedger.Candidate o.jobId o.driverId := by
  induction turns with
  | done => cases member
  | passed _ _ ih => exact ih ids member
  | @offered e jobId driverId job _ _ _ ready _ ih =>
      rcases List.mem_cons.mp member with rfl | later
      · exact ready.candidate
      · have ids' := Turns.createOffer_ids ids jobId driverId job.timeoutSeconds
        exact (ih ids' later).of_keeps (createOffer_keeps ids _ _ _) rfl

/-- What an operation can do for a job it does not submit. -/
structure Renewal (e e' : Engine β) (j : Uuid) : Prop where
  keeps : e.toLedger.KeepsOffers e'.toLedger
  created : ∀ k o, e.offers.lookup k = none → e'.offers.lookup k = some o → o.jobId = j →
    e.hasOffer j .pending = true ∧ e.toLedger.Candidate j o.driverId
  /-- The operation creates one offer for the job at most. -/
  once : ∀ k k' o o', e.offers.lookup k = none → e.offers.lookup k' = none →
    e'.offers.lookup k = some o → e'.offers.lookup k' = some o' → o.jobId = j → o'.jobId = j → k' = k

omit [StorageBackend β] in
theorem Renewal.of_none {j : Uuid} (keeps : e.toLedger.KeepsOffers e'.toLedger)
    (none : ∀ k o, e'.offers.lookup k = some o → o.jobId = j → e.offers.lookup k ≠ none) :
    Renewal e e' j where
  keeps := keeps
  created k o absent found ofJob := absurd absent (none k o found ofJob)
  once k _ o _ absent _ found _ ofJob _ := absurd absent (none k o found ofJob)

theorem keeps_step {x : Exchange} (sound : Sound host e) (taken : serviceStep host e x e') :
    e.toLedger.KeepsOffers e'.toLedger := by
  refine sound.step_invariant taken (fun s => e.toLedger.KeepsOffers s) (.refl _) ?_
  intro s cmd _ keeps issued
  refine keeps.trans (.apply fun offer same => ?_)
  subst same
  exact issued.fresh

theorem sweepOver_renews (sound : Sound host e) (p : OfferRecord → Bool) (j : Uuid)
    (keeps : e.toLedger.KeepsOffers (sweepOver host p e).1.toLedger) :
    Renewal e (sweepOver host p e).1 j := by
  let due := e.drawn.dueOffers host p (host.clock e.tick)
  let expiry := e.drawn.expireOffers host due
  have keyed : e.drawn.toLedger.Keyed := sound.keyed
  have expires : Expires e.drawn expiry.1 due := expireOffers_expires e.drawn due
  have ids : IdsDrawn host expiry.1 := by
    have expiring : Trace host (fun _ _ => True) e _ expiry.1 :=
      .draw (expireOffers_trace_any due fun _ _ => trivial)
    exact expiring.idsDrawn sound.ids
  obtain ⟨jobs, distinct, inTurn, turns⟩ := redispatch_turns host expiry.1 ∅ expiry.2
  have expired : e.toLedger.KeepsOffers expiry.1.toLedger := by
    intro k o found
    have found' : e.drawn.offers.lookup k = some o := found
    refine ⟨if k ∈ due then { o with status := .expired } else o, ?_, ?_, ?_⟩
    · rw [expires.offers, found', Option.map_some]
    · split <;> rfl
    · split <;> rfl
  have isNew : ∀ k o, e.offers.lookup k = none → (sweepOver host p e).1.offers.lookup k = some o →
      o ∈ (sweepOver host p e).2.newOffers ∧ o.offerId = k := by
    intro k o absent found
    have unused : expiry.1.offers.lookup k = none := by
      rw [expires.offers]
      exact congrArg (Option.map _) absent
    exact (turns.added ids unused o).mp found
  have inTurnOf : ∀ {o}, o ∈ (sweepOver host p e).2.newOffers → o.jobId ∈ jobs := fun member =>
    turns.jobIds_sublist.subset (List.mem_map_of_mem member)
  refine ⟨keeps, ?_, ?_⟩
  · intro k o absent found ofJob
    obtain ⟨member, _⟩ := isNew k o absent found
    constructor
    · -- the job had its turn because an offer of it expired
      obtain ⟨_, item, reported, sameJob⟩ := (inTurn o.jobId).mp (inTurnOf member)
      obtain ⟨id, isDue, o₀, found₀, rfl⟩ := mem_expireOffers.mp reported
      obtain ⟨o₁, found₁, _, pending, _⟩ := (mem_dueOffers keyed).mp isDue
      obtain rfl := Option.some.inj (found₀.symm.trans found₁)
      exact Ledger.hasOffer_iff.mpr ⟨id, o₀, found₀, sameJob.trans ofJob, pending⟩
    · have candidate := turns.candidate ids member
      rw [ofJob] at candidate
      exact candidate.of_keeps expired expires.drivers
  · intro k k' o o' absent absent' found found' ofJob ofJob'
    obtain ⟨member, here⟩ := isNew k o absent found
    obtain ⟨member', here'⟩ := isNew k' o' absent' found'
    have onePerJob : ((sweepOver host p e).2.newOffers.map OfferRecord.jobId).Nodup :=
      distinct.sublist turns.jobIds_sublist
    have same := List.inj_on_of_nodup_map onePerJob member' member (ofJob'.trans ofJob.symm)
    rw [← here, ← here', same]

theorem response_renews {offerId : Uuid} {accepted : Bool} (sound : Sound host e) (j : Uuid)
    (keeps : e.toLedger.KeepsOffers (perform host e (.handleOfferResponse offerId accepted)).1.toLedger) :
    Renewal e (perform host e (.handleOfferResponse offerId accepted)).1 j := by
  have response := handleOfferResponse_response host e offerId accepted
  show Renewal e (DispatchService.handleOfferResponse host e offerId accepted).1 j
  change e.toLedger.KeepsOffers (DispatchService.handleOfferResponse host e offerId accepted).1.toLedger at keeps
  generalize (DispatchService.handleOfferResponse host e offerId accepted).1 = e' at response keeps
  generalize (DispatchService.handleOfferResponse host e offerId accepted).2 = result at response
  have answered : ∀ {cmd : Command}, (∀ offer, cmd ≠ .createOffer offer) → ∀ k o,
      (e.toLedger.apply cmd).offers.lookup k = some o → e.offers.lookup k ≠ none := by
    intro cmd other k o found
    rw [Ledger.lookup_apply _ other, Option.map_eq_some_iff] at found
    obtain ⟨o₀, before, _⟩ := found
    rw [before]
    exact Option.some_ne_none o₀
  cases response with
  | unknown | notPending =>
      refine .of_none keeps fun k o found _ => ?_
      rw [found]
      exact Option.some_ne_none o
  | late _ _ _ state =>
      subst state
      rw [Engine.appendAndApply_toLedger] at keeps
      refine .of_none (by rw [Engine.appendAndApply_toLedger]; exact keeps) fun k o found _ => ?_
      rw [Engine.appendAndApply_toLedger] at found
      exact answered (fun _ => Command.noConfusion) k o found
  | accepted _ _ _ state =>
      subst state
      refine .of_none keeps fun k o found _ => ?_
      rw [Engine.appendAndApply_toLedger] at found
      exact answered (fun _ => Command.noConfusion) k o found
  | @rejected o _ next stored pending inTime handOver =>
      let mid := e.drawn.drawn.appendAndApply host (.rejectOffer offerId (host.clock e.drawn.tick))
      have ledger : mid.toLedger = e.toLedger.apply (.rejectOffer offerId (host.clock e.drawn.tick)) :=
        Engine.appendAndApply_toLedger host _ _
      have ids : IdsDrawn host mid := by
        have refusal : Trace host (fun _ _ => True) e _ mid :=
          .draw (.draw (.single trivial fun _ => Command.noConfusion))
        exact refusal.idsDrawn sound.ids
      have midKeeps : e.toLedger.KeepsOffers mid.toLedger :=
        ledger ▸ .apply fun _ => Command.noConfusion
      have drivers : mid.drivers = e.drivers := by
        rw [ledger]
        simp only [Ledger.apply, Ledger.setOfferStatus]
        split <;> rfl
      have unused : ∀ {k}, e.offers.lookup k = none → mid.offers.lookup k = none := by
        intro k absent
        rw [ledger, Ledger.lookup_apply _ fun _ => Command.noConfusion, absent, Option.map_none]
      rcases createNextOfferForJob_cases host mid o.jobId with same | ⟨driverId, job, ready, same⟩
      · obtain ⟨rfl, rfl⟩ := Prod.mk.inj (handOver.symm.trans same)
        refine .of_none keeps fun k o found _ absent => ?_
        rw [unused absent] at found
        cases found
      · obtain ⟨rfl, rfl⟩ := Prod.mk.inj (handOver.symm.trans same)
        have isNew : ∀ k o', e.offers.lookup k = none →
            (mid.createOffer host o.jobId driverId job.timeoutSeconds).1.offers.lookup k = some o' →
            k = (mid.newOffer host o.jobId driverId job.timeoutSeconds).offerId ∧
              o' = mid.newOffer host o.jobId driverId job.timeoutSeconds := by
          intro k o' absent found
          rw [Turns.lookup_createOffer, unused absent] at found
          split at found
          · rename_i here
            exact ⟨here, (Option.some.inj found).symm⟩
          · cases found
        refine ⟨keeps, ?_, ?_⟩
        · intro k o' absent found ofJob
          obtain ⟨_, rfl⟩ := isNew k o' absent found
          have ofJob : o.jobId = j := ofJob
          subst ofJob
          exact ⟨Ledger.hasOffer_iff.mpr ⟨offerId, o, stored, rfl, pending⟩,
            ready.candidate.of_keeps midKeeps drivers⟩
        · intro k k' o₁ o₂ absent absent' found found' _ _
          rw [(isNew k o₁ absent found).1, (isNew k' o₂ absent' found').1]

theorem step_renews {op : Op} {reply : Reply} {j : Uuid} (sound : Sound host e)
    (taken : serviceStep host e (op, reply) e') (spared : NotResubmitted j op) :
    Renewal e e' j := by
  have keeps := keeps_step sound taken
  obtain rfl : (perform host e op).1 = e' := congrArg Prod.fst taken
  have others (idle : ¬ op.Redispatches) : Renewal e (perform host e op).1 j := by
    refine .of_none keeps ?_
    refine sound.step_invariant taken
      (fun s => ∀ k o, s.offers.lookup k = some o → o.jobId = j → e.offers.lookup k ≠ none) ?_ ?_
    · intro k o found _
      rw [found]
      exact Option.some_ne_none o
    · intro s cmd _ held issued k o found ofJob
      rcases Ledger.offer_origin found with ⟨rfl, _⟩ | ⟨o₀, before, rfl | ⟨_, rfl⟩⟩
      · cases issued with
        | firstOffer forJob => exact absurd (forJob.symm.trans ofJob) spared
        | nextOffer kind => exact absurd kind idle
      · exact held k _ before ofJob
      · exact held k o₀ before ofJob
  cases op with
  | expirePendingOffersForDriver driverId => exact sweepOver_renews sound _ j keeps
  | expirePendingOffersGlobal => exact sweepOver_renews sound _ j keeps
  | handleOfferResponse offerId accepted => exact response_renews sound j keeps
  | submitJob | cancelOffer | cancelJob | recordWebhookDeliveryFailed | upsertDriverLocation
  | expireStaleDrivers => exact others fun kind => kind

/-! ## Runs -/

def Ledger.Among (s : Ledger) (drivers : Finset Uuid) : Prop :=
  ∀ d, s.drivers.lookup d ≠ none → d ∈ drivers

/-- Any operation that does not submit the job. -/
def PassesBy (host : Host) (drivers : Finset Uuid) (j : Uuid) (e e' : DispatchService β) : Prop :=
  e.toLedger.Among drivers ∧ ∃ x : Exchange, NotResubmitted j x.1 ∧ serviceStep host e x e'

/-- A sweep at a time when every open offer of the job has run out. -/
def SweepsThrough (host : Host) (drivers : Finset Uuid) (j : Uuid) (e e' : DispatchService β) :
    Prop :=
  e.toLedger.Among drivers ∧
    (∀ k o, e.offers.lookup k = some o → o.jobId = j → o.status = .pending →
      o.expiresAt ≤ host.clock e.tick) ∧
    e' = (perform host e .expirePendingOffersGlobal).1

/-- Since `e₀` the job went to drivers it had not been offered to, each once. -/
structure OfferedAnew (host : Host) (j : Uuid) (e₀ e : Engine β) : Prop where
  sound : Sound host e
  keeps : e₀.toLedger.KeepsOffers e.toLedger
  untried : ∀ k o, e₀.offers.lookup k = none → e.offers.lookup k = some o → o.jobId = j →
    e₀.toLedger.Untried j o.driverId
  distinct : ∀ k k' o o', e₀.offers.lookup k = none → e₀.offers.lookup k' = none →
    e.offers.lookup k = some o → e.offers.lookup k' = some o' → o.jobId = j → o'.jobId = j →
    o'.driverId = o.driverId → k' = k

variable {j : Uuid} {e₀ : DispatchService β}

omit [StorageBackend β] in
theorem Renewal.origin (renews : Renewal e e' j) {k : Uuid} {o' : OfferRecord}
    (found : e'.offers.lookup k = some o') :
    e.offers.lookup k = none ∨
      ∃ o, e.offers.lookup k = some o ∧ o'.jobId = o.jobId ∧ o'.driverId = o.driverId := by
  cases before : e.offers.lookup k with
  | none => exact .inl rfl
  | some o =>
      obtain ⟨_, same, sameJob, sameDriver⟩ := renews.keeps k o before
      obtain rfl := Option.some.inj (found.symm.trans same)
      exact .inr ⟨o, rfl, sameJob, sameDriver⟩

omit [StorageBackend β] in
theorem OfferedAnew.step (anew : OfferedAnew host j e₀ e) (sound : Sound host e')
    (renews : Renewal e e' j) : OfferedAnew host j e₀ e' where
  sound := sound
  keeps := anew.keeps.trans renews.keeps
  untried k o' absent found ofJob := by
    rcases renews.origin found with unused | ⟨o, before, sameJob, sameDriver⟩
    · exact anew.keeps.untried (renews.created k o' unused found ofJob).2.untried
    · rw [sameDriver]
      exact anew.untried k o absent before (sameJob ▸ ofJob)
  distinct k k' o₁ o₁' absent absent' found found' ofJob ofJob' sameDriver := by
    rcases renews.origin found with unused | ⟨o, before, sameJob, driver⟩ <;>
    rcases renews.origin found' with unused' | ⟨o', before', sameJob', driver'⟩
    · exact renews.once k k' o₁ o₁' unused unused' found found' ofJob ofJob'
    · have untried := (renews.created k o₁ unused found ofJob).2.untried
      exact absurd (driver'.symm.trans sameDriver) (untried k' o' before' (sameJob' ▸ ofJob'))
    · have untried := (renews.created k' o₁' unused' found' ofJob').2.untried
      exact absurd (driver.symm.trans sameDriver.symm) (untried k o before (sameJob ▸ ofJob))
    · exact anew.distinct k k' o o' absent absent' before before' (sameJob ▸ ofJob)
        (sameJob' ▸ ofJob') (driver'.symm.trans (sameDriver.trans driver))

omit [StorageBackend β] in
theorem Renewal.progress {drivers : Finset Uuid} (renews : Renewal e e' j)
    (among : e.toLedger.Among drivers)
    (opened : e'.hasOffer j .pending = true → e.hasOffer j .pending = true) :
    Attempts.Progress (fun e : Engine β => e.toLedger.triedDrivers j)
      (fun e => e.hasOffer j .pending = true) drivers e e' where
  kept := renews.keeps.tried j
  fromStock := by
    intro d member
    obtain ⟨k, o', found, ofJob, rfl⟩ := Ledger.mem_triedDrivers.mp member
    rcases renews.origin found with unused | ⟨o, before, sameJob, sameDriver⟩
    · have candidate := (renews.created k o' unused found ofJob).2
      exact Finset.mem_union_right _ (among _ candidate.registered)
    · refine Finset.mem_union_left _ (Ledger.mem_triedDrivers.mpr ⟨k, o, before, ?_, sameDriver.symm⟩)
      exact sameJob ▸ ofJob
  opened := opened

theorem step_opens {x : Exchange} (sound : Sound host e) (taken : serviceStep host e x e')
    (spared : NotResubmitted j x.1) (isOpen : e'.hasOffer j .pending = true) :
    e.hasOffer j .pending = true := by
  by_contra closed
  rw [Bool.not_eq_true] at closed
  have stays : e'.hasOffer j .pending = false := by
    refine sound.step_invariant taken (fun s => s.hasOffer j .pending = false) closed ?_
    intro s cmd _ shut issued
    refine Ledger.pending_origin (fun offer same => ?_) shut
    subst same
    rintro rfl
    generalize x.1 = op at issued spared
    cases issued with
    | firstOffer forJob => exact spared forJob.symm
    | nextOffer _ _ _ _ _ _ _ freed =>
        rw [closed] at freed
        cases freed
  rw [stays] at isOpen
  cases isOpen

theorem sweep_tries (sound : Sound host e) {drivers : Finset Uuid}
    (sweeps : SweepsThrough host drivers j e e') (renews : Renewal e e' j)
    (isOpen : e'.hasOffer j .pending = true) :
    ∃ d ∈ e'.toLedger.triedDrivers j, d ∉ e.toLedger.triedDrivers j := by
  obtain ⟨_, due, rfl⟩ := sweeps
  obtain ⟨k, o', found, ofJob, pending⟩ := Ledger.hasOffer_iff.mp isOpen
  have exact := sweepOver_exact sound fun _ => true
  cases before : e.offers.lookup k with
  | none =>
      obtain ⟨_, candidate⟩ := renews.created k o' before found ofJob
      refine ⟨o'.driverId, Ledger.mem_triedDrivers.mpr ⟨k, o', found, ofJob, rfl⟩, fun tried => ?_⟩
      obtain ⟨k₁, o₁, found₁, ofJob₁, toDriver⟩ := Ledger.mem_triedDrivers.mp tried
      exact candidate.untried k₁ o₁ found₁ ofJob₁ toDriver
  | some o =>
      have found : (sweepOver host (fun _ => true) e).1.offers.lookup k = some o' := found
      by_cases isDue : Due e (fun _ => true) (host.clock e.tick) k o
      · obtain rfl := Option.some.inj (found.symm.trans (exact.expired k o isDue))
        cases pending
      · obtain rfl := Option.some.inj (found.symm.trans (exact.kept k o before isDue))
        exact absurd ⟨before, rfl, pending, due k o' before ofJob pending⟩ isDue

/-- An offer of the job that was not there in `s₀`. -/
structure Ledger.OfferedSince (s₀ s : Ledger) (j k : Uuid) (o : OfferRecord) : Prop where
  absent : s₀.offers.lookup k = none
  found : s.offers.lookup k = some o
  ofJob : o.jobId = j

omit [StorageBackend β] in
theorem OfferedAnew.to_new_driver {drivers : Finset Uuid} (anew : OfferedAnew host j e₀ e)
    (within : e.toLedger.triedDrivers j \ e₀.toLedger.triedDrivers j ⊆
      drivers \ e₀.toLedger.triedDrivers j) {k : Uuid} {o : OfferRecord}
    (new : Ledger.OfferedSince e₀.toLedger e.toLedger j k o) :
    o.driverId ∈ drivers \ e₀.toLedger.triedDrivers j := by
  refine within (Finset.mem_sdiff.mpr
    ⟨Ledger.mem_triedDrivers.mpr ⟨k, o, new.found, new.ofJob, rfl⟩, fun tried => ?_⟩)
  obtain ⟨k₀, o₀, found₀, ofJob₀, toDriver₀⟩ := Ledger.mem_triedDrivers.mp tried
  exact anew.untried k o new.absent new.found new.ofJob k₀ o₀ found₀ ofJob₀ toDriver₀

omit [StorageBackend β] in
theorem OfferedAnew.two_new (anew : OfferedAnew host j e₀ e)
    {k k' : Uuid} {o o' : OfferRecord} (new : Ledger.OfferedSince e₀.toLedger e.toLedger j k o)
    (new' : Ledger.OfferedSince e₀.toLedger e.toLedger j k' o')
    (sameDriver : o'.driverId = o.driverId) : k' = k :=
  anew.distinct k k' o o' new.absent new'.absent new.found new'.found new.ofJob new'.ofJob sameDriver

omit [StorageBackend β] in
theorem OfferedAnew.card_le {drivers : Finset Uuid} (anew : OfferedAnew host j e₀ e)
    (within : e.toLedger.triedDrivers j \ e₀.toLedger.triedDrivers j ⊆
      drivers \ e₀.toLedger.triedDrivers j) {ids : Finset Uuid}
    (new : ∀ k ∈ ids, ∃ o, Ledger.OfferedSince e₀.toLedger e.toLedger j k o) :
    ids.card ≤ (drivers \ e₀.toLedger.triedDrivers j).card := by
  have driverOf : ∀ k ∈ ids, ∃ d, ∃ o,
      Ledger.OfferedSince e₀.toLedger e.toLedger j k o ∧ o.driverId = d := by
    intro k member
    obtain ⟨o, offered⟩ := new k member
    exact ⟨o.driverId, o, offered, rfl⟩
  choose! driver sent using driverOf
  refine Finset.card_le_card_of_injOn driver ?_ ?_
  · intro k member
    obtain ⟨o, offered, toDriver⟩ := sent k member
    exact toDriver ▸ anew.to_new_driver within offered
  · intro k member k' member' sameDriver
    obtain ⟨o, offered, toDriver⟩ := sent k member
    obtain ⟨o', offered', toDriver'⟩ := sent k' member'
    exact anew.two_new offered' offered (toDriver.trans (sameDriver.trans toDriver'.symm))

/-- While it is passed by and swept through, the job goes to drivers of the set that are new
    to it, and each sweep that leaves it open has found one. -/
theorem OfferedAnew.of_attempts {drivers : Finset Uuid} {n : Nat} (sound : Sound host e₀)
    (attempts : Attempts (PassesBy host drivers j) (SweepsThrough host drivers j) e₀ n e) :
    OfferedAnew host j e₀ e ∧
      e.toLedger.triedDrivers j \ e₀.toLedger.triedDrivers j ⊆
        drivers \ e₀.toLedger.triedDrivers j ∧
      (e.hasOffer j .pending = true →
        n ≤ (e.toLedger.triedDrivers j \ e₀.toLedger.triedDrivers j).card) := by
  have start : OfferedAnew host j e₀ e₀ :=
    ⟨sound, .refl _, fun k o absent found => absurd found (by simp [absent]),
      fun k _ o _ absent _ found => absurd found (by simp [absent])⟩
  obtain ⟨anew, _, within, counted⟩ := attempts.bounded (fun e => e.toLedger.triedDrivers j)
    (fun e => e.hasOffer j .pending = true) drivers (OfferedAnew host j e₀) start (by
      rintro s s' anew ⟨among, ⟨op, reply⟩, spared, taken⟩
      have renews := step_renews anew.sound taken spared
      exact ⟨anew.step (anew.sound.step taken) renews,
        renews.progress among (step_opens anew.sound taken spared)⟩) (by
      intro s s' anew sweeps
      have taken : serviceStep host s (.expirePendingOffersGlobal, _) s' :=
        sweeps.2.2 ▸ serviceStep_perform host s _
      have renews := step_renews (j := j) anew.sound taken trivial
      exact ⟨anew.step (anew.sound.step taken) renews,
        renews.progress sweeps.1 (step_opens anew.sound taken trivial),
        sweep_tries anew.sound sweeps renews⟩)
  exact ⟨anew, within, counted⟩

omit [StorageBackend β] in
theorem not_searching (closed : e.hasOffer j .pending = false) :
    e.jobDispatchState host j ≠ .searching := by
  intro searching
  have reported := jobDispatchState_reported host e j
  rw [searching] at reported
  cases reported with
  | searching _ _ isOpen =>
      rw [closed] at isOpen
      cases isOpen

/-- From any reachable state, while no submission names the job and only drivers of a
    finite set are registered, every new offer of the job goes to a driver of the set that
    had none, and no two go to the same; so there are no more of them than there are such
    drivers.  Once there were more sweeps through the job than that, it has no open offer
    any more, whatever else happened. -/
theorem dispatch_comes_to_rest (host : Host) (h3Resolution : Nat) (storage : β) (tick : Nat)
    (past : List Exchange) (e₀ : DispatchService β)
    (reached : Run (serviceStep host) anyStep (Engine.withStorage h3Resolution storage tick) past e₀)
    (j : Uuid) (drivers : Finset Uuid) (n : Nat) (e : DispatchService β)
    (attempts : Attempts (PassesBy host drivers j) (SweepsThrough host drivers j) e₀ n e) :
    (∀ k o, Ledger.OfferedSince e₀.toLedger e.toLedger j k o →
      o.driverId ∈ drivers \ e₀.toLedger.triedDrivers j) ∧
    (∀ k k' o o', Ledger.OfferedSince e₀.toLedger e.toLedger j k o →
      Ledger.OfferedSince e₀.toLedger e.toLedger j k' o' → o'.driverId = o.driverId → k' = k) ∧
    (∀ ids : Finset Uuid, (∀ k ∈ ids, e₀.offers.lookup k = none ∧
        ∃ o, e.offers.lookup k = some o ∧ o.jobId = j) →
      ids.card ≤ (drivers \ e₀.toLedger.triedDrivers j).card) ∧
    ((drivers \ e₀.toLedger.triedDrivers j).card < n →
      e.hasOffer j .pending = false ∧ e.jobDispatchState host j ≠ .searching) := by
  obtain ⟨anew, within, counted⟩ :=
    OfferedAnew.of_attempts ((sound_withStorage h3Resolution storage tick).run reached) attempts
  refine ⟨fun k o => anew.to_new_driver within, fun k k' o o' => anew.two_new, ?_, ?_⟩
  · intro ids new
    apply anew.card_le within
    intro k member
    obtain ⟨absent, o, found, ofJob⟩ := new k member
    exact ⟨o, absent, found, ofJob⟩
  · intro more
    have closed : e.hasOffer j .pending = false := by
      rw [← Bool.not_eq_true]
      intro isOpen
      have := (counted isOpen).trans (Finset.card_le_card within)
      omega
    exact ⟨closed, not_searching closed⟩

/-- Drivers 101 and 100 are offered job 1 in turn and do not answer; the first sweep
    hands it to driver 100, and the second leaves it without an open offer. -/
theorem unanswered_job_rests :
    let e₀ := (performAll minuteHost emptyService
      [comesOnline 100, comesOnline 101, .submitJob (jobAtOrigin 1)]).2
    let e₁ := (perform minuteHost e₀ .expirePendingOffersGlobal).1
    let e₂ := (perform minuteHost e₁ .expirePendingOffersGlobal).1
    e₁.hasOffer 1 .pending = true ∧
      (∀ k o, Ledger.OfferedSince e₀.toLedger e₂.toLedger 1 k o → o.driverId = 100) ∧
      e₂.hasOffer 1 .pending = false := by
  intro e₀ e₁ e₂
  have reached : Run (serviceStep minuteHost) anyStep emptyService _ e₀ :=
    performAll_run _ (permitted_any _ _ _) .start
  have among : ∀ e : DispatchService InMemoryBackend, (∀ d ∈ e.drivers.keys, d ∈ ({100, 101} : Finset Uuid)) →
      e.toLedger.Among {100, 101} := by
    intro e all d registered
    exact all d (AList.mem_keys.mp (AList.lookup_isSome.mp (Option.isSome_iff_ne_none.mpr registered)))
  have due : ∀ e : DispatchService InMemoryBackend,
      (∀ o ∈ e.offers.values, o.status = .pending → o.expiresAt ≤ minuteHost.clock e.tick) →
      ∀ k o, e.offers.lookup k = some o → o.jobId = 1 → o.status = .pending →
        o.expiresAt ≤ minuteHost.clock e.tick := by
    intro e all k o found _ pending
    exact all o (HashMap.mem_values.mpr ⟨k, found⟩) pending
  have first : SweepsThrough minuteHost {100, 101} 1 e₀ e₁ :=
    ⟨among e₀ (by decide +kernel), due e₀ (by decide +kernel), rfl⟩
  have second : SweepsThrough minuteHost {100, 101} 1 e₁ e₂ :=
    ⟨among e₁ (by decide +kernel), due e₁ (by decide +kernel), rfl⟩
  obtain ⟨toNew, _, _, rests⟩ := dispatch_comes_to_rest minuteHost 8 InMemoryBackend.mk 0 _ e₀
    reached 1 {100, 101} 2 e₂ ((Attempts.start.round first).round second)
  have left : ({100, 101} : Finset Uuid) \ e₀.toLedger.triedDrivers 1 = {100} := by decide +kernel
  exact ⟨by decide +kernel, fun k o new => Finset.mem_singleton.mp (left ▸ toNew k o new),
    (rests (by decide +kernel)).1⟩

end Spatiad
