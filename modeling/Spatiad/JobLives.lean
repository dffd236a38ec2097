import Spatiad.SequentialDispatch
import Spatiad.JobStates
import Spatiad.Quiescence

/-! # The life of a job

What `job_dispatch_state` reports of a job that is submitted once is the state of a
small automaton, which each operation moves by at most one transition.  Waiting and
cancelled jobs stay so, and a matched one is left only by withdrawing its offer.
-/

namespace Spatiad

open Foundation

/-! ## The automaton -/

/-- Operations that do not leave a job where it is. -/
def Forces (j : Uuid) : JobDispatchState → Op → Prop
  | .unknownJob, .submitJob job => job.jobId = j
  | .searching, .cancelJob jobId => jobId = j
  | .exhausted, .cancelJob jobId => jobId = j
  | _, _ => False

/-- The transitions of a job that is submitted once. -/
inductive LifeStep (j : Uuid) : JobDispatchState → Op → JobDispatchState → Prop where
  | stays {state op} (free : ¬ Forces j state op) : LifeStep j state op state
  | waits {job} (submitted : job.jobId = j) : LifeStep j .unknownJob (.submitJob job) .pending
  | searches {job} (submitted : job.jobId = j) : LifeStep j .unknownJob (.submitJob job) .searching
  | matches {driverId offerId} :
      LifeStep j .searching (.handleOfferResponse offerId true) (.matched driverId offerId)
  | exhausts {op} (kind : op.Redispatches) : LifeStep j .searching op .exhausted
  | withdrawn {offerId} : LifeStep j .searching (.cancelOffer offerId) .exhausted
  | cancels : LifeStep j .searching (.cancelJob j) .cancelled
  | cancelsExhausted : LifeStep j .exhausted (.cancelJob j) .cancelled
  | loses {driverId offerId} :
      LifeStep j (.matched driverId offerId) (.cancelOffer offerId) .exhausted
  | losesCancelled {driverId offerId} :
      LifeStep j (.matched driverId offerId) (.cancelOffer offerId) .cancelled

/-! ## Reading the state off the ledger -/

section report

variable {β : Type} {host : Host} {e : Engine β} {j : Uuid}

def OfferRecord.live (o : OfferRecord) : Prop := o.status = .pending ∨ o.status = .accepted

def Ledger.OneLive (s : Ledger) (j : Uuid) : Prop :=
  ∀ k k' o o', s.offers.lookup k = some o → s.offers.lookup k' = some o' →
    o.jobId = j → o'.jobId = j → o.live → o'.live → k' = k

theorem report_unknown (absent : e.jobs.lookup j = none) :
    e.jobDispatchState host j = .unknownJob := by
  simp [Engine.jobDispatchState, absent]

theorem report_pending (known : e.jobs.lookup j ≠ none) (never : ¬ e.Offered j) :
    e.jobDispatchState host j = .pending := by
  have none : (e.offers.iter (host.order e.tick)).filter (fun o => o.jobId == j) = [] := by
    rw [List.filter_eq_nil_iff]
    intro o member ofJob
    obtain ⟨k, found⟩ := (HashMap.mem_iter (host.order_perm e.tick)).mp member
    exact never ⟨k, o, found, by simpa using ofJob⟩
  have present : (e.jobs.lookup j).isNone = false :=
    Option.isNone_eq_false_iff.mpr (Option.isSome_iff_ne_none.mpr known)
  simp [Engine.jobDispatchState, present, none]

theorem report_matched (registered : e.toLedger.Registered) (keyed : e.toLedger.Keyed)
    (one : e.OneLive j) {k : Uuid} {o : OfferRecord} (found : e.offers.lookup k = some o)
    (ofJob : o.jobId = j) (won : o.status = .accepted) :
    e.jobDispatchState host j = .matched o.driverId k := by
  have reported := jobDispatchState_reported host e j
  have taken : e.hasOffer j .accepted = true := Ledger.hasOffer_iff.mpr ⟨k, o, found, ofJob, won⟩
  generalize e.jobDispatchState host j = state at reported
  cases reported with
  | unknownJob absent =>
      obtain ⟨job, stored⟩ := registered k o found
      rw [ofJob, absent] at stored
      cases stored
  | pending never => exact absurd ⟨k, o, found, ofJob⟩ never
  | @matched k' o' found' ofJob' won' =>
      obtain rfl := one k k' o o' found found' ofJob ofJob' (.inr won) (.inr won')
      obtain rfl := Option.some.inj (found.symm.trans found')
      rw [keyed k' o found]
  | cancelled _ unmatched | searching unmatched | exhausted unmatched =>
      rw [unmatched] at taken
      cases taken

/-- Without a winner the report follows the job's offers and its mark. -/
theorem report_unmatched (registered : e.toLedger.Registered) (offered : e.Offered j)
    (unmatched : e.hasOffer j .accepted = false) :
    e.jobDispatchState host j =
      if j ∈ e.cancelledJobs then .cancelled
      else if e.hasOffer j .pending then .searching else .exhausted := by
  have reported := jobDispatchState_reported host e j
  generalize e.jobDispatchState host j = state at reported
  cases reported with
  | unknownJob absent =>
      obtain ⟨k, o, found, rfl⟩ := offered
      obtain ⟨job, stored⟩ := registered k o found
      rw [absent] at stored
      cases stored
  | pending never => exact absurd offered never
  | matched found ofJob won =>
      exact absurd won (Ledger.hasOffer_eq_false_iff.mp unmatched _ _ found ofJob)
  | cancelled _ _ cancelled => rw [if_pos cancelled]
  | searching _ active pending => rw [if_neg active, if_pos pending]
  | exhausted _ active idle => rw [if_neg active, idle]; rfl

end report

/-! ## One operation -/

section step

variable {β : Type} [StorageBackend β] {host : Host} {e e' : DispatchService β} {x : Exchange}
variable {j : Uuid}

theorem accepted_from (sound : Sound host e) (taken : serviceStep host e x e') {k : Uuid}
    {o' : OfferRecord} (found : e'.offers.lookup k = some o') (won : o'.status = .accepted) :
    ∃ o, e.offers.lookup k = some o ∧ o.jobId = o'.jobId ∧ o.driverId = o'.driverId ∧
      (o.status = .accepted ∨ o.status = .pending ∧ x.1 = .handleOfferResponse k true) := by
  let P (s : Ledger) : Prop := ∀ k o', s.offers.lookup k = some o' → o'.status = .accepted →
    ∃ o, e.offers.lookup k = some o ∧ o.jobId = o'.jobId ∧ o.driverId = o'.driverId ∧
      (o.status = .accepted ∨ o.status = .pending ∧ x.1 = .handleOfferResponse k true)
  have held : P e'.toLedger := by
    refine sound.step_invariant taken P (fun k o found won => ⟨o, found, rfl, rfl, .inl won⟩) ?_
    intro s cmd _ held issued k o' found won
    rcases Ledger.offer_origin found with ⟨rfl, rfl⟩ | ⟨o, before, rfl | ⟨_, rfl⟩⟩
    · rw [issued.fresh.pending] at won
      cases won
    · exact held k _ before won
    · rcases Ledger.accepted_of_newStatus won with old | ⟨respondedAt, rfl⟩
      · exact held k o before old
      · generalize op : x.1 = op at issued
        cases issued with
        | accept selected pending =>
            obtain rfl := Option.some.inj (selected.symm.trans before)
            exact ⟨_, selected, rfl, rfl, .inr ⟨pending, rfl⟩⟩
  exact held k o' found won

theorem lookup_stays {s₀ s : Ledger} {op : Op} {cmd : Command} (issued : Issues s₀ op s cmd)
    {k : Uuid} {o : OfferRecord} (found : s.offers.lookup k = some o)
    (same : s.newStatus cmd k o = o.status) : (s.apply cmd).offers.lookup k = some o := by
  by_cases creates : ∃ offer, cmd = .createOffer offer
  · obtain ⟨offer, rfl⟩ := creates
    have other : k ≠ offer.offerId := by
      rintro rfl
      rw [issued.fresh.unused] at found
      cases found
    exact (Ledger.lookup_createOffer s offer k).trans ((if_neg other).trans found)
  · rw [Ledger.lookup_apply s fun offer same => creates ⟨offer, same⟩, found, Option.map_some, same]

theorem accepted_stays (sound : Sound host e) (taken : serviceStep host e x e') {k : Uuid}
    {o : OfferRecord} (found : e.offers.lookup k = some o) (won : o.status = .accepted)
    (kept : x.1 ≠ .cancelOffer k) : e'.offers.lookup k = some o := by
  refine sound.step_invariant taken (fun s => s.offers.lookup k = some o) found ?_
  intro s cmd _ found issued
  have notOpen : o.status ≠ .pending := by
    rw [won]
    exact OfferStatus.noConfusion
  have answered : ∀ {o'}, s.offers.lookup k = some o' → o'.status ≠ .pending := by
    intro o' found'
    obtain rfl := Option.some.inj (found.symm.trans found')
    exact notOpen
  apply lookup_stays issued found
  have change := Ledger.rewritten s cmd k o
  generalize s.newStatus cmd k o = status at change
  generalize x.1 = op at issued kept
  cases change with
  | kept => rfl
  | swept pending => exact absurd pending notOpen
  | accepted =>
      cases issued with
      | accept found pending => exact absurd pending (answered found)
  | rejected =>
      cases issued with
      | reject found pending => exact absurd pending (answered found)
  | expired =>
      cases issued with
      | expire _ found pending => exact absurd pending (answered found)
  | withdrawn =>
      cases issued with
      | withdraw => exact absurd rfl kept

/-- An open offer stays open unless the operation closes offers for their time or their
    answer, withdraws it or cancels its job. -/
theorem pending_stays (sound : Sound host e) (taken : serviceStep host e x e') {k : Uuid}
    {o : OfferRecord} (found : e.offers.lookup k = some o) (noSweep : ¬ x.1.Redispatches)
    (kept : x.1 ≠ .cancelOffer k) (active : x.1 ≠ .cancelJob o.jobId) :
    e'.offers.lookup k = some o := by
  refine sound.step_invariant taken (fun s => s.offers.lookup k = some o) found ?_
  intro s cmd _ found issued
  apply lookup_stays issued found
  generalize x.1 = op at issued noSweep kept active
  cases issued with
  | upsert | register | firstOffer | removeDriver | webhook | nextOffer => rfl
  | accept | reject => exact absurd trivial noSweep
  | expire kind => exact absurd kind noSweep
  | @withdraw offerId =>
      have other : k ≠ offerId := by
        rintro rfl
        exact kept rfl
      exact if_neg other
  | @cancelJob jobId =>
      have other : o.jobId ≠ jobId := by
        rintro rfl
        exact active rfl
      simp [Ledger.newStatus, pendingOf, other]

theorem cancelled_from (sound : Sound host e) (taken : serviceStep host e x e')
    (other : x.1 ≠ .cancelJob j) (cancelled : j ∈ e'.cancelledJobs) : j ∈ e.cancelledJobs := by
  by_contra active
  refine sound.step_invariant taken (fun s => j ∉ s.cancelledJobs) active ?_ cancelled
  intro s cmd _ active issued marked
  rw [Ledger.cancelledJobs_apply] at marked
  generalize x.1 = op at issued other
  cases issued with
  | register => exact active (Finset.mem_of_mem_erase marked)
  | @cancelJob jobId known =>
      simp only [known, if_true] at marked
      rcases Finset.mem_insert.mp marked with rfl | before
      · exact other rfl
      · exact active before
  | _ => exact active marked

theorem cancelled_stays (sound : Sound host e) (taken : serviceStep host e x e')
    (spared : NotResubmitted j x.1) (cancelled : j ∈ e.cancelledJobs) : j ∈ e'.cancelledJobs := by
  refine sound.step_invariant taken (fun s => j ∈ s.cancelledJobs) cancelled ?_
  intro s cmd _ cancelled issued
  rw [Ledger.cancelledJobs_apply]
  generalize x.1 = op at issued spared
  cases issued with
  | register => exact Finset.mem_erase.mpr ⟨fun same => spared same.symm, cancelled⟩
  | cancelJob known =>
      simp only [known, if_true]
      exact Finset.mem_insert_of_mem cancelled
  | _ => exact cancelled

theorem job_stays (sound : Sound host e) (taken : serviceStep host e x e')
    (known : e.jobs.lookup j ≠ none) : e'.jobs.lookup j ≠ none := by
  refine sound.step_invariant taken (fun s => s.jobs.lookup j ≠ none) known ?_
  intro s cmd _ known _
  obtain ⟨job, found⟩ := Option.ne_none_iff_exists'.mp known
  obtain ⟨job', found'⟩ := Ledger.job_kept found cmd
  rw [found']
  exact Option.some_ne_none job'

theorem absent_stays (sound : Sound host e) (taken : serviceStep host e x e')
    (spared : NotResubmitted j x.1) (absent : e.jobs.lookup j = none) :
    e'.jobs.lookup j = none := by
  refine sound.step_invariant taken (fun s => s.jobs.lookup j = none) absent ?_
  intro s cmd _ absent issued
  rw [Ledger.lookup_jobs_apply]
  generalize x.1 = op at issued spared
  cases issued with
  | register => exact (if_neg fun same => spared same.symm).trans absent
  | _ => exact absent

theorem offered_from (sound : Sound host e) (taken : serviceStep host e x e')
    (spared : NotResubmitted j x.1) (offered : e'.Offered j) : e.Offered j := by
  by_contra never
  refine sound.step_invariant taken (fun s => ¬ s.Offered j) never ?_ offered
  rintro s cmd _ never' issued ⟨k, o', found, ofJob⟩
  rcases Ledger.offer_origin found with ⟨rfl, _⟩ | ⟨o, before, rfl | ⟨_, rfl⟩⟩
  · generalize x.1 = op at issued spared
    cases issued with
    | firstOffer forJob => exact spared (forJob.symm.trans ofJob)
    | nextOffer _ _ _ _ _ _ _ freed => exact never (.of_hasOffer (ofJob ▸ freed))
  · exact never' ⟨k, _, before, ofJob⟩
  · exact never' ⟨k, o, before, ofJob⟩

theorem offered_stays (sound : Sound host e) (taken : serviceStep host e x e')
    (offered : e.Offered j) : e'.Offered j := by
  have run : Run (serviceStep host) anyStep e _ e' := .next .start trivial taken
  exact offered_kept sound run offered

theorem live_from {s₀ s : Ledger} {op : Op} {cmd : Command} (issued : Issues s₀ op s cmd) {k : Uuid}
    {o' : OfferRecord} (found : (s.apply cmd).offers.lookup k = some o') (live : o'.live) :
    (cmd = .createOffer o' ∧ k = o'.offerId) ∨
      ∃ o, s.offers.lookup k = some o ∧ o.jobId = o'.jobId ∧ o.live := by
  rcases Ledger.offer_origin found with created | ⟨o, before, rfl | ⟨_, rfl⟩⟩
  · exact .inl created
  · exact .inr ⟨_, before, rfl, live⟩
  · refine .inr ⟨o, before, rfl, ?_⟩
    rcases live with pending | won
    · exact .inl (Ledger.pending_of_newStatus pending)
    · rcases Ledger.accepted_of_newStatus won with old | ⟨respondedAt, rfl⟩
      · exact .inr old
      · cases issued with
        | accept selected pending =>
            obtain rfl := Option.some.inj (selected.symm.trans before)
            exact .inl pending

theorem created_alone {s₀ s : Ledger} {op : Op} {offer o : OfferRecord} {k : Uuid}
    (issued : Issues s₀ op s (.createOffer offer)) (spared : NotResubmitted offer.jobId op)
    (found : s.offers.lookup k = some o) (sameJob : o.jobId = offer.jobId) : ¬ o.live := by
  cases issued with
  | firstOffer forJob => exact absurd forJob.symm spared
  | nextOffer _ _ _ _ unmatched idle =>
      rintro (pending | won)
      · exact Ledger.hasOffer_eq_false_iff.mp idle k o found sameJob pending
      · exact Ledger.hasOffer_eq_false_iff.mp unmatched k o found sameJob won

/-- A job that is not submitted keeps no more than one live offer. -/
theorem oneLive_stays (sound : Sound host e) (taken : serviceStep host e x e')
    (spared : NotResubmitted j x.1) (one : e.OneLive j) : e'.OneLive j := by
  refine sound.step_invariant taken (fun s => s.OneLive j) one ?_
  intro s cmd _ one issued k k' o₁ o₁' found found' ofJob ofJob' live live'
  rcases live_from issued found live with ⟨rfl, rfl⟩ | ⟨o, before, sameJob, was⟩ <;>
  rcases live_from issued found' live' with ⟨created, rfl⟩ | ⟨o', before', sameJob', was'⟩
  · rw [Command.createOffer.inj created]
  · subst ofJob
    exact absurd was' (created_alone issued spared before' (sameJob'.trans ofJob'))
  · subst created ofJob'
    exact absurd was (created_alone issued spared before (sameJob.trans ofJob))
  · exact one k k' o o' before before' (sameJob.trans ofJob) (sameJob'.trans ofJob') was was'

/-! ## One transition -/

/-- What a step of a job's life relies on. -/
structure Alive (host : Host) (e : Engine β) (j : Uuid) : Prop where
  sound : Sound host e
  registered : e.toLedger.Registered
  closed : e.toLedger.CancelledClosed
  one : e.OneLive j

theorem unmatched_stays (sound : Sound host e) (taken : serviceStep host e x e')
    (unmatched : e.hasOffer j .accepted = false)
    (unanswered : ∀ k o, e.offers.lookup k = some o → o.jobId = j → o.status = .pending →
      x.1 ≠ .handleOfferResponse k true) : e'.hasOffer j .accepted = false := by
  refine Ledger.hasOffer_eq_false_iff.mpr fun k o' found ofJob won => ?_
  obtain ⟨o, before, sameJob, _, old | ⟨pending, answer⟩⟩ := accepted_from sound taken found won
  · exact Ledger.hasOffer_eq_false_iff.mp unmatched k o before (sameJob.trans ofJob) old
  · exact unanswered k o before (sameJob.trans ofJob) pending answer

theorem idle_stays (sound : Sound host e) (taken : serviceStep host e x e')
    (spared : NotResubmitted j x.1) (idle : e.hasOffer j .pending = false) :
    e'.hasOffer j .pending = false := by
  cases after : e'.hasOffer j .pending with
  | false => rfl
  | true =>
      rw [step_opens sound taken spared after] at idle
      cases idle

theorem cancelJob_marks (taken : serviceStep host e x e') (known : e.jobs.lookup j ≠ none)
    (cancels : x.1 = .cancelJob j) : j ∈ e'.cancelledJobs := by
  obtain ⟨op, reply⟩ := x
  cases cancels
  have found : perform host e (.cancelJob j) = ((perform host e (.cancelJob j)).1, .cancelledJob true) :=
    cancelJob_found (Option.isSome_iff_ne_none.mpr known)
  have recorded := cancelJob_recorded found
  rwa [show (perform host e (.cancelJob j)).1 = e' from congrArg Prod.fst taken] at recorded

theorem forced_cancels {state : JobDispatchState} {op : Op}
    (underWay : state = .searching ∨ state = .exhausted) (forced : Forces j state op) :
    op = .cancelJob j := by
  rcases underWay with rfl | rfl <;>
  · cases op with
    | cancelJob jobId => exact congrArg Op.cancelJob forced
    | _ => cases forced

theorem withdrawal_loses (alive : Alive host e j) (alive' : Alive host e' j)
    (taken : serviceStep host e x e') {o : OfferRecord}
    (found : e.offers.lookup o.offerId = some o) (ofJob : o.jobId = j) (won : o.status = .accepted)
    (withdrawn : x.1 = .cancelOffer o.offerId) :
    LifeStep j (.matched o.driverId o.offerId) (.cancelOffer o.offerId)
      (e'.jobDispatchState host j) := by
  have ledger : e'.toLedger = e.toLedger.apply (.markOfferCancelled o.offerId) := by
    obtain ⟨op, reply⟩ := x
    cases withdrawn
    rw [← show (perform host e (.cancelOffer o.offerId)).1 = e' from congrArg Prod.fst taken]
    simp only [perform, DispatchService.cancelOffer, Engine.markOfferStatus, found]
    exact Engine.appendAndApply_toLedger host e _
  -- whatever of the job is live afterwards was live before, so it is the winner itself
  have noneLive : ∀ k o', e'.offers.lookup k = some o' → o'.jobId = j → ¬ o'.live := by
    intro k o₁ found₁ ofJob₁ live
    rw [ledger, Ledger.lookup_apply _ fun _ => Command.noConfusion, Option.map_eq_some_iff] at found₁
    obtain ⟨o', before, rfl⟩ := found₁
    have was : o'.live := by
      dsimp only [OfferRecord.live] at live
      rcases live with pending | accepted
      · exact .inl (Ledger.pending_of_newStatus pending)
      · rcases Ledger.accepted_of_newStatus accepted with old | ⟨_, other⟩
        · exact .inr old
        · cases other
    obtain rfl := alive.one o.offerId k o o' found before ofJob ofJob₁ (.inr won) was
    simp [OfferRecord.live, Ledger.newStatus] at live
  have unmatched' : e'.hasOffer j .accepted = false :=
    Ledger.hasOffer_eq_false_iff.mpr fun k o' found' ofJob' won' =>
      noneLive k o' found' ofJob' (.inr won')
  have idle' : e'.hasOffer j .pending = false :=
    Ledger.hasOffer_eq_false_iff.mpr fun k o' found' ofJob' pending =>
      noneLive k o' found' ofJob' (.inl pending)
  have offered' := offered_stays alive.sound taken ⟨o.offerId, o, found, ofJob⟩
  rw [report_unmatched alive'.registered offered' unmatched', idle']
  split
  · exact .losesCancelled
  · exact .loses

/-- A job with an open offer finds a driver, gives up, is cancelled or goes on. -/
theorem searching_step (alive : Alive host e j) (alive' : Alive host e' j)
    (taken : serviceStep host e x e') (unmatched : e.hasOffer j .accepted = false) (active : j ∉ e.cancelledJobs)
    (pending : e.hasOffer j .pending = true) :
    LifeStep j .searching x.1 (e'.jobDispatchState host j) := by
  have offered' := offered_stays alive.sound taken (.of_hasOffer pending)
  obtain ⟨k, o, found, ofJob, isOpen⟩ := Ledger.hasOffer_iff.mp pending
  cases won : e'.hasOffer j .accepted with
  | true =>
      obtain ⟨k', o', found', ofJob', accepted⟩ := Ledger.hasOffer_iff.mp won
      obtain ⟨o₀, before, sameJob, _, old | ⟨_, answer⟩⟩ :=
        accepted_from alive.sound taken found' accepted
      · exact absurd old
          (Ledger.hasOffer_eq_false_iff.mp unmatched k' o₀ before (sameJob.trans ofJob'))
      · rw [report_matched alive'.registered alive'.sound.keyed alive'.one found' ofJob' accepted,
          answer]
        exact .matches
  | false =>
      rw [report_unmatched alive'.registered offered' won]
      by_cases cancels : x.1 = .cancelJob j
      · have known : e.jobs.lookup j ≠ none := by
          obtain ⟨job, stored⟩ := alive.registered k o found
          rw [← ofJob, stored]
          exact Option.some_ne_none job
        rw [if_pos (cancelJob_marks taken known cancels), cancels]
        exact .cancels
      · rw [if_neg fun marked => active (cancelled_from alive.sound taken cancels marked)]
        cases still : e'.hasOffer j .pending with
        | true => exact .stays fun forced => cancels (forced_cancels (.inl rfl) forced)
        | false =>
            by_cases kind : x.1.Redispatches
            · exact .exhausts kind
            · by_cases withdrawn : x.1 = .cancelOffer k
              · rw [withdrawn]
                exact .withdrawn
              · have stays := pending_stays alive.sound taken found kind withdrawn (ofJob ▸ cancels)
                exact absurd isOpen (Ledger.hasOffer_eq_false_iff.mp still k o stays ofJob)

/-- A registered job that is not submitted again takes one transition or none. -/
theorem life_step (alive : Alive host e j) (alive' : Alive host e' j)
    (taken : serviceStep host e x e') (known : e.jobs.lookup j ≠ none)
    (spared : NotResubmitted j x.1) :
    LifeStep j (e.jobDispatchState host j) x.1 (e'.jobDispatchState host j) := by
  have reported := jobDispatchState_reported host e j
  generalize before : e.jobDispatchState host j = state at reported
  have offeredUnless : state ≠ .pending → e.Offered j := by
    intro other
    by_contra never
    exact other (before.symm.trans (report_pending known never))
  cases reported with
  | unknownJob absent => exact absurd absent known
  | pending never =>
      have never' : ¬ e'.Offered j := fun offered =>
        never (offered_from alive.sound taken spared offered)
      rw [report_pending (job_stays alive.sound taken known) never']
      exact .stays (fun forced => by cases forced)
  | @matched k o found ofJob won =>
      have key := alive.sound.keyed k o found
      subst key
      by_cases withdrawn : x.1 = .cancelOffer o.offerId
      · rw [withdrawn]
        exact withdrawal_loses alive alive' taken found ofJob won withdrawn
      · have stays := accepted_stays alive.sound taken found won withdrawn
        rw [report_matched alive'.registered alive'.sound.keyed alive'.one stays ofJob won]
        exact .stays (fun forced => by cases forced)
  | cancelled offered unmatched cancelled =>
      have closed := (alive.closed j cancelled).2
      have unmatched' := unmatched_stays alive.sound taken unmatched fun k o found ofJob pending =>
        absurd pending (Ledger.hasOffer_eq_false_iff.mp closed k o found ofJob)
      rw [report_unmatched alive'.registered (offered_stays alive.sound taken offered) unmatched',
        if_pos (cancelled_stays alive.sound taken spared cancelled)]
      exact .stays (fun forced => by cases forced)
  | searching unmatched active pending =>
      exact searching_step alive alive' taken unmatched active pending
  | exhausted unmatched active idle =>
      have offered' := offered_stays alive.sound taken (offeredUnless JobDispatchState.noConfusion)
      have unmatched' := unmatched_stays alive.sound taken unmatched fun k o found ofJob pending =>
        absurd pending (Ledger.hasOffer_eq_false_iff.mp idle k o found ofJob)
      rw [report_unmatched alive'.registered offered' unmatched']
      by_cases cancels : x.1 = .cancelJob j
      · rw [if_pos (cancelJob_marks taken known cancels), cancels]
        exact .cancelsExhausted
      · rw [if_neg fun marked => active (cancelled_from alive.sound taken cancels marked),
          idle_stays alive.sound taken spared idle]
        refine .stays fun forced => cancels ?_
        exact forced_cancels (.inr rfl) forced

theorem first_submission {job : JobRequest} (ofJob : job.jobId = j) (never : ¬ e.Offered j)
    (taken : (DispatchService.submitJob host e job).1 = e') (registered : e'.toLedger.Registered) :
    e'.OneLive j ∧ (e'.jobDispatchState host j = .pending ∨ e'.jobDispatchState host j = .searching) := by
  let e₁ : DispatchService β := e.registerJob host job
  have ledger : e₁.toLedger = e.toLedger.apply (.registerJob job) :=
    Engine.appendAndApply_toLedger host e _
  have never₁ : ¬ e₁.Offered j := by
    rintro ⟨k, o, found, sameJob⟩
    rw [ledger] at found
    exact never ⟨k, o, found, sameJob⟩
  have known : e₁.jobs.lookup j ≠ none := by
    rw [ledger, Ledger.lookup_jobs_apply]
    simp [ofJob]
  unfold DispatchService.submitJob at taken
  cases nearest : DispatchService.nearestAvailable host e₁ job with
  | none =>
      have same : e₁ = e' := by simpa only [e₁, nearest] using taken
      subst same
      exact ⟨fun k _ o _ found _ ofJob => absurd ⟨k, o, found, ofJob⟩ never₁,
        .inl (report_pending known never₁)⟩
  | some driverId =>
      let offer := e₁.newOffer host job.jobId driverId job.timeoutSeconds
      have same : (e₁.createOffer host job.jobId driverId job.timeoutSeconds).1 = e' := by
        simpa only [e₁, nearest] using taken
      have ledger' : e'.toLedger = e₁.toLedger.apply (.createOffer offer) := by
        rw [← same]
        exact Engine.appendAndApply_toLedger host e₁.drawn.drawn _
      have only : ∀ k o, e'.offers.lookup k = some o → o.jobId = j →
          k = offer.offerId ∧ o = offer := by
        intro k o found sameJob
        rw [ledger', Ledger.lookup_createOffer] at found
        split at found
        · exact ⟨‹_›, (Option.some.inj found).symm⟩
        · exact absurd ⟨k, o, found, sameJob⟩ never₁
      have created : e'.offers.lookup offer.offerId = some offer := by
        rw [ledger', Ledger.lookup_createOffer, if_pos rfl]
      have unmatched : e'.hasOffer j .accepted = false := by
        refine Ledger.hasOffer_eq_false_iff.mpr fun k o found sameJob won => ?_
        rw [(only k o found sameJob).2] at won
        cases won
      have pending : e'.hasOffer j .pending = true :=
        Ledger.hasOffer_iff.mpr ⟨offer.offerId, offer, created, ofJob, rfl⟩
      have active : j ∉ e'.cancelledJobs := by
        have marks : e₁.cancelledJobs = e.cancelledJobs.erase j := by
          rw [ledger, Ledger.cancelledJobs_apply, ← ofJob]
        rw [ledger', Ledger.cancelledJobs_apply]
        show j ∉ e₁.cancelledJobs
        rw [marks]
        exact Finset.notMem_erase j _
      constructor
      · intro k k' o o' found found' sameJob sameJob' _ _
        rw [(only k o found sameJob).1, (only k' o' found' sameJob').1]
      · rw [report_unmatched registered (.of_hasOffer pending) unmatched, if_neg active, pending]
        exact .inr rfl

end step

/-! ## A whole run -/

variable {β : Type} [StorageBackend β]

theorem forced_submits {j : Uuid} {op : Op} (forced : Forces j .unknownJob op) :
    op.submitted = some j := by
  cases op with
  | submitJob job => exact congrArg some forced
  | _ => cases forced

/-- A step of the service, and the transition between the reports before it and after it. -/
def reportedStep (host : Host) (j : Uuid) (e : DispatchService β) (x : Exchange)
    (e' : DispatchService β) : Prop :=
  serviceStep host e x e' ∧ LifeStep j (e.jobDispatchState host j) x.1 (e'.jobDispatchState host j)

/-- A service state reached by a run that submits the job at most once. -/
structure LifeSoFar (host : Host) (start : DispatchService β) (past : List Exchange)
    (e : DispatchService β) (j : Uuid) : Prop where
  alive : Alive host e j
  unsubmitted : j ∉ submissions past → e.jobs.lookup j = none
  life : Run (reportedStep host j) anyStep start past e

theorem submissions_append (past : List Exchange) (x : Exchange) :
    submissions (past ++ [x]) = submissions past ++ x.1.submitted.toList := by
  simp only [submissions, List.filterMap_append]
  cases submits : x.1.submitted <;> simp [submits]

theorem spared_of_not_submitted {j : Uuid} {op : Op} (other : op.submitted ≠ some j) :
    NotResubmitted j op := by
  cases op with
  | submitJob job => exact fun same => other (congrArg some same)
  | _ => trivial

namespace LifeSoFar

variable {start e e' : DispatchService β} {past : List Exchange} {x : Exchange} {j : Uuid}

theorem begins (host : Host) (h3Resolution : Nat) (storage : β) (tick : Nat) (j : Uuid) :
    LifeSoFar host (Engine.withStorage h3Resolution storage tick) []
      (Engine.withStorage h3Resolution storage tick) j where
  alive := by
    refine ⟨sound_withStorage h3Resolution storage tick, Ledger.registered_empty,
      Ledger.cancelledClosed_empty, ?_⟩
    intro k _ o _ found
    simp [Engine.withStorage, Ledger.empty] at found
  unsubmitted _ := rfl
  life := .start

theorem submitted (before : LifeSoFar host start past e j)
    (registered : e'.toLedger.Registered) (closed : e'.toLedger.CancelledClosed)
    (taken : serviceStep host e x e') (submits : x.1.submitted = some j)
    (new : j ∉ submissions past) : LifeSoFar host start (past ++ [x]) e' j := by
  have absent := before.unsubmitted new
  have never : ¬ e.Offered j := by
    rintro ⟨k, o, found, rfl⟩
    obtain ⟨job, stored⟩ := before.alive.registered k o found
    rw [absent] at stored
    cases stored
  have sound := before.alive.sound.step taken
  obtain ⟨op, reply⟩ := x
  cases op with
  | submitJob job =>
      have ofJob : job.jobId = j := Option.some.inj submits
      have done : (DispatchService.submitJob host e job).1 = e' := congrArg Prod.fst taken
      obtain ⟨one, first⟩ := first_submission ofJob never done registered
      refine ⟨⟨sound, registered, closed, one⟩, fun unsubmitted => ?_, ?_⟩
      · rw [submissions_append, submits] at unsubmitted
        exact absurd (List.mem_append_right _ (List.mem_singleton_self j)) unsubmitted
      · refine before.life.next trivial ⟨taken, ?_⟩
        rw [report_unknown absent]
        rcases first with waits | searches
        · rw [waits]
          exact .waits ofJob
        · rw [searches]
          exact .searches ofJob
  | _ => cases submits

theorem spared (before : LifeSoFar host start past e j)
    (registered : e'.toLedger.Registered) (closed : e'.toLedger.CancelledClosed)
    (taken : serviceStep host e x e') (submits : x.1.submitted ≠ some j) :
    LifeSoFar host start (past ++ [x]) e' j := by
  have spared := spared_of_not_submitted submits
  have alive : Alive host e' j := ⟨before.alive.sound.step taken, registered, closed,
    oneLive_stays before.alive.sound taken spared before.alive.one⟩
  have absentStays := @absent_stays β _ host e e' x j before.alive.sound taken spared
  refine ⟨alive, fun unsubmitted => ?_, before.life.next trivial ⟨taken, ?_⟩⟩
  · rw [submissions_append, List.mem_append, not_or] at unsubmitted
    exact absentStays (before.unsubmitted unsubmitted.1)
  · by_cases absent : e.jobs.lookup j = none
    · rw [report_unknown absent, report_unknown (absentStays absent)]
      exact .stays fun forced => submits (forced_submits forced)
    · exact life_step before.alive alive taken absent spared

theorem run (host : Host) (h3Resolution : Nat) (storage : β) (tick : Nat) (j : Uuid)
    (run : Run (serviceStep host) anyStep (Engine.withStorage h3Resolution storage tick) past e)
    (once : (submissions past).count j ≤ 1) :
    LifeSoFar host (Engine.withStorage h3Resolution storage tick) past e j := by
  induction run with
  | start => exact begins host h3Resolution storage tick j
  | @next past e x e' run allowed taken ih =>
      rw [submissions_append, List.count_append] at once
      have before := ih (by omega)
      have registered := registered_run (run.next allowed taken)
      have closed := cancelledClosed_run (sound_withStorage h3Resolution storage tick)
        Ledger.cancelledClosed_empty (run.next allowed taken)
      by_cases submits : x.1.submitted = some j
      · rw [submits, Option.toList_some, List.count_singleton_self] at once
        exact before.submitted registered closed taken submits (List.count_eq_zero.mp (by omega))
      · exact before.spared registered closed taken submits

end LifeSoFar

/-- Over any run that submits a job at most once, whatever else it does, the job is reported
    unknown at first, and every operation moves the report by a transition of its automaton. -/
theorem reported_life (host : Host) (h3Resolution : Nat) (storage : β) (tick : Nat)
    (past : List Exchange) (e : DispatchService β)
    (run : Run (serviceStep host) anyStep (Engine.withStorage h3Resolution storage tick) past e)
    (j : Uuid) (once : (submissions past).count j ≤ 1) :
    (Engine.withStorage h3Resolution storage tick).jobDispatchState host j = .unknownJob ∧
      Run (reportedStep host j) anyStep (Engine.withStorage h3Resolution storage tick) past e :=
  ⟨report_unknown rfl, (LifeSoFar.run host h3Resolution storage tick j run once).life⟩

/-- Driver 101 refuses job 1, driver 100 takes it, and the offer is withdrawn. -/
def matchedAndWithdrawn : List Op :=
  [comesOnline 100, comesOnline 101, .submitJob (jobAtOrigin 1), .handleOfferResponse 4 false,
    .handleOfferResponse 10 true, .cancelOffer 10]

theorem withdrawn_job_life :
    let after := performAll stillHost emptyService matchedAndWithdrawn
    Run (reportedStep stillHost 1) anyStep emptyService after.1 after.2 ∧
      after.2.jobDispatchState stillHost 1 = .exhausted := by
  intro after
  obtain ⟨_, life⟩ := reported_life stillHost 8 InMemoryBackend.mk 0 _ _
    (performAll_run matchedAndWithdrawn (permitted_any emptyService [] _) .start) 1
    (by decide +kernel)
  exact ⟨life, by decide +kernel⟩

end Spatiad
