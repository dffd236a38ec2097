import Spatiad.ServiceRuns

/-! # Single winner

Accepting an offer locks its job: no other offer of the job is left open.  Only a
new submission of the job can reopen it, since it looks at no offers at all.
-/

namespace Spatiad

open Foundation

namespace Ledger

def SingleWinner (s : Ledger) : Prop :=
  ∀ k k' o o', s.offers.lookup k = some o → s.offers.lookup k' = some o' →
    o.status = .accepted → o'.status = .accepted → o'.jobId = o.jobId → k' = k

/-- Beside an accepted offer every other offer of the job is closed. -/
def Locked (s : Ledger) : Prop :=
  ∀ k k' o o', s.offers.lookup k = some o → s.offers.lookup k' = some o' →
    o.status = .accepted → o'.jobId = o.jobId → k' ≠ k →
    o'.status ≠ .pending ∧ o'.status ≠ .accepted

theorem Locked.singleWinner {s : Ledger} (locked : s.Locked) : s.SingleWinner := by
  intro k k' o o' found found' won won' sameJob
  by_contra different
  exact (locked k k' o o' found found' won sameJob different).2 won'

theorem locked_empty : Ledger.empty.Locked := by
  intro k k' o o' found
  simp [Ledger.empty] at found

theorem Locked.createOffer {s : Ledger} (locked : s.Locked) {offer : OfferRecord}
    (pending : offer.status = .pending) (unmatched : s.hasOffer offer.jobId .accepted = false) :
    (s.apply (.createOffer offer)).Locked := by
  intro k k' o o' found found' won sameJob different
  rw [lookup_createOffer] at found found'
  split at found
  · obtain rfl := Option.some.inj found
    rw [pending] at won
    cases won
  · split at found'
    · obtain rfl := Option.some.inj found'
      exact absurd won (hasOffer_eq_false_iff.mp unmatched k o found sameJob.symm)
    · exact locked k k' o o' found found' won sameJob different

/-- Accepting a pending offer closes the others of its job. -/
theorem Locked.acceptOffer {s : Ledger} (locked : s.Locked) (keyed : s.Keyed) {offerId : Uuid}
    {selected : OfferRecord} (selectedFound : s.offers.lookup offerId = some selected)
    (pending : selected.status = .pending) (respondedAt : DateTime) :
    (s.apply (.acceptOffer offerId respondedAt)).Locked := by
  -- the selected offer was pending, so its job had no winner
  have unmatched : ∀ k o, s.offers.lookup k = some o → o.jobId = selected.jobId →
      o.status ≠ .accepted := by
    intro k o found sameJob won
    have different : offerId ≠ k := by
      rintro rfl
      obtain rfl := Option.some.inj (found.symm.trans selectedFound)
      rw [won] at pending
      cases pending
    exact (locked k offerId o selected found selectedFound won sameJob.symm different).1 pending
  intro k k' o₁ o₁' found found' won sameJob₁ different
  rw [lookup_apply s (fun _ => Command.noConfusion), Option.map_eq_some_iff] at found found'
  obtain ⟨o, before, rfl⟩ := found
  obtain ⟨o', before', rfl⟩ := found'
  have sameJob : o'.jobId = o.jobId := sameJob₁
  simp only [newStatus, selectedFound] at won ⊢
  by_cases winner : k = offerId
  · subst winner
    obtain rfl := Option.some.inj (before.symm.trans selectedFound)
    have competitor : o'.offerId ≠ o.offerId := by
      rw [keyed k' o' before', keyed k o before]
      exact different
    have open' := unmatched k' o' before' sameJob
    simp only [different, if_false, competesWith, sameJob, beq_self_eq_true, Bool.true_and,
      Bool.and_eq_true, bne_iff_ne, ne_eq, competitor, not_false_eq_true, true_and, beq_iff_eq]
    split
    · simp
    · rename_i closed
      exact ⟨closed, open'⟩
  · rw [if_neg winner] at won
    split at won
    · cases won
    · have closed := locked k k' o o' before before' won sameJob different
      split
      · rename_i same
        subst same
        obtain rfl := Option.some.inj (before'.symm.trans selectedFound)
        exact absurd pending closed.1
      · split
        · simp
        · exact closed

theorem Locked.apply {s : Ledger} (locked : s.Locked) {cmd : Command}
    (noOffer : ∀ offer, cmd ≠ .createOffer offer)
    (noAnswer : ∀ offerId respondedAt, cmd ≠ .acceptOffer offerId respondedAt) :
    (s.apply cmd).Locked := by
  intro k k' o₁ o₁' found found' won sameJob different
  rw [lookup_apply s noOffer, Option.map_eq_some_iff] at found found'
  obtain ⟨o, before, rfl⟩ := found
  obtain ⟨o', before', rfl⟩ := found'
  rcases accepted_of_newStatus won with won | ⟨respondedAt, same⟩
  · have closed := locked k k' o o' before before' won sameJob different
    refine ⟨fun now => closed.1 (pending_of_newStatus now), fun now => ?_⟩
    rcases accepted_of_newStatus now with won' | ⟨respondedAt, same⟩
    · exact closed.2 won'
    · exact noAnswer k' respondedAt same
  · exact absurd same (noAnswer k respondedAt)

def NoNewWinner (s₀ s : Ledger) : Prop :=
  ∀ k o, s.offers.lookup k = some o → o.status = .accepted →
    ∃ o₀, s₀.offers.lookup k = some o₀ ∧ o₀.status = .accepted ∧ o₀.jobId = o.jobId

theorem noNewWinner_refl (s : Ledger) : NoNewWinner s s := fun _ o found won =>
  ⟨o, found, won, rfl⟩

theorem NoNewWinner.apply {s₀ s : Ledger} (old : NoNewWinner s₀ s) {cmd : Command}
    (noAnswer : ∀ offerId respondedAt, cmd ≠ .acceptOffer offerId respondedAt)
    (fresh : ∀ offer, cmd = .createOffer offer → offer.status = .pending) :
    NoNewWinner s₀ (s.apply cmd) := by
  intro k o' found won
  rcases offer_origin found with ⟨created, _⟩ | ⟨o, before, rfl | ⟨_, rfl⟩⟩
  · rw [fresh o' created] at won
    cases won
  · exact old k _ before won
  · rcases accepted_of_newStatus won with won | ⟨respondedAt, same⟩
    · exact old k o before won
    · exact absurd same (noAnswer k respondedAt)

end Ledger

def FreshSubmission (s : Ledger) : Op → Prop
  | .submitJob job => s.hasOffer job.jobId .accepted = false
  | _ => True

theorem locked_issued {s₀ s : Ledger} {op : Op} {cmd : Command} (fresh : FreshSubmission s₀ op)
    (keyed : s.Keyed) (locked : s.Locked) (issued : Issues s₀ op s cmd) :
    (s.apply cmd).Locked := by
  cases issued with
  | firstOffer forJob isFresh => exact locked.createOffer isFresh.pending (forJob ▸ fresh)
  | nextOffer _ isFresh _ _ unmatched => exact locked.createOffer isFresh.pending unmatched
  | accept found pending => exact locked.acceptOffer keyed found pending _
  | upsert | register | reject | expire | withdraw | cancelJob | removeDriver | webhook =>
      exact locked.apply (fun _ => Command.noConfusion) fun _ _ => Command.noConfusion

/-! ## Match results -/

def Reply.matched : Reply → Option MatchResult
  | .answered (.ok update) => update.matched
  | _ => none

def matchResults (past : List Exchange) : List MatchResult := past.filterMap fun x => x.2.matched

def Unmatched (past : List Exchange) : Op → Prop
  | .submitJob job => ∀ m ∈ matchResults past, m.jobId ≠ job.jobId
  | _ => True

variable {β : Type} [StorageBackend β] {host : Host} {e e' : DispatchService β}

theorem match_returned {x : Exchange} (taken : serviceStep host e x e') {m : MatchResult}
    (returned : x.2.matched = some m) :
    ∃ offerId o respondedAt, e.offers.lookup offerId = some o ∧ o.status = .pending ∧
      m = ⟨o.jobId, o.driverId, offerId, respondedAt⟩ ∧
      e'.toLedger = e.toLedger.apply (.acceptOffer offerId respondedAt) := by
  obtain ⟨op, reply⟩ := x
  simp only [serviceStep] at taken returned
  cases op with
  | handleOfferResponse offerId accepted =>
      have response := handleOfferResponse_response host e offerId accepted
      simp only [perform, Prod.map, id_eq, Prod.mk.injEq] at taken
      generalize DispatchService.handleOfferResponse host e offerId accepted = result
        at response taken
      obtain ⟨rfl, rfl⟩ := taken
      obtain ⟨e', answer⟩ := result
      cases response with
      | unknown | notPending | late | rejected => cases returned
      | @accepted o _ found pending _ state =>
          obtain rfl := Option.some.inj returned
          have ledger := congrArg Engine.toLedger state
          rw [Engine.appendAndApply_toLedger] at ledger
          exact ⟨offerId, o, _, found, pending, rfl, ledger⟩
  | cancelOffer | recordWebhookDeliveryFailed | upsertDriverLocation =>
      cases taken
      cases returned
  | submitJob | cancelJob | expirePendingOffersForDriver | expirePendingOffersGlobal
  | expireStaleDrivers =>
      simp only [perform, Prod.map, Prod.mk.injEq] at taken
      rw [← taken.2] at returned
      cases returned

/-- An offer that is accepted after a step was accepted before it, or the step
    returned its match. -/
theorem accepted_origin (sound : Sound host e) {x : Exchange} (taken : serviceStep host e x e')
    {k : Uuid} {o' : OfferRecord} (found : e'.offers.lookup k = some o')
    (won : o'.status = .accepted) :
    (∃ o, e.offers.lookup k = some o ∧ o.status = .accepted ∧ o.jobId = o'.jobId) ∨
      ∃ m, x.2.matched = some m ∧ m.jobId = o'.jobId := by
  by_cases answer : ∃ offerId, x.1 = .handleOfferResponse offerId true
  · obtain ⟨offerId, same⟩ := answer
    obtain ⟨op, reply⟩ := x
    subst same
    have response := handleOfferResponse_response host e offerId true
    simp only [serviceStep, perform, Prod.map, id_eq, Prod.mk.injEq] at taken
    generalize DispatchService.handleOfferResponse host e offerId true = result at response taken
    obtain ⟨rfl, rfl⟩ := taken
    obtain ⟨e', answer⟩ := result
    cases response with
    | unknown | notPending => exact .inl ⟨o', found, won, rfl⟩
    | late _ _ _ state =>
        rw [state, Engine.appendAndApply_toLedger] at found
        exact .inl ((Ledger.noNewWinner_refl e.toLedger).apply (fun _ _ => Command.noConfusion)
          (fun _ => Command.noConfusion) k o' found won)
    | @accepted o _ selected _ _ state =>
        rw [state, Engine.appendAndApply_toLedger,
          Ledger.lookup_apply _ (fun _ => Command.noConfusion), Option.map_eq_some_iff] at found
        obtain ⟨before, foundBefore, rfl⟩ := found
        dsimp only at won
        rcases Ledger.accepted_of_newStatus won with won | ⟨respondedAt, same⟩
        · exact .inl ⟨before, foundBefore, won, rfl⟩
        · obtain ⟨rfl, _⟩ := Command.acceptOffer.inj same
          obtain rfl := Option.some.inj (foundBefore.symm.trans selected)
          exact .inr ⟨_, rfl, rfl⟩
  · have old : Ledger.NoNewWinner e.toLedger e'.toLedger := by
      refine sound.step_invariant taken _ (Ledger.noNewWinner_refl _) ?_
      intro s cmd _ old issued
      refine old.apply ?_ fun offer same => (same ▸ issued).fresh.pending
      rintro offerId respondedAt rfl
      generalize x.1 = op at answer issued
      cases issued
      exact answer ⟨offerId, rfl⟩
    exact .inl (old k o' found won)

/-! ## Runs -/

/-- What holds while no matched job is submitted again. -/
structure Won (past : List Exchange) (s : Ledger) : Prop where
  locked : s.Locked
  claimed : ∀ k o, s.offers.lookup k = some o → o.status = .accepted →
    ∃ m ∈ matchResults past, m.jobId = o.jobId
  closed : ∀ m ∈ matchResults past, s.hasOffer m.jobId .pending = false
  distinct : (matchResults past).Pairwise fun m m' => m.jobId ≠ m'.jobId

theorem mem_matchResults_snoc {past : List Exchange} {x : Exchange} {m : MatchResult} :
    m ∈ matchResults (past ++ [x]) ↔ m ∈ matchResults past ∨ x.2.matched = some m := by
  simp only [matchResults, List.filterMap_append, List.mem_append, List.mem_filterMap,
    List.mem_singleton, exists_eq_left]

namespace Won

variable {past : List Exchange} {x : Exchange}

omit [StorageBackend β] in
theorem freshSubmission (won : Won past e.toLedger) (unmatched : Unmatched past x.1) :
    FreshSubmission e.toLedger x.1 := by
  generalize x.1 = op at unmatched
  cases op with
  | submitJob job =>
      refine Ledger.hasOffer_eq_false_iff.mpr fun k o found sameJob accepted => ?_
      obtain ⟨m, returned, ofJob⟩ := won.claimed k o found accepted
      exact unmatched m returned (ofJob.trans sameJob)
  | _ => trivial

theorem stays_closed (won : Won past e.toLedger) (unmatched : Unmatched past x.1)
    (sound : Sound host e) (taken : serviceStep host e x e') {m : MatchResult}
    (returned : m ∈ matchResults past) : e'.toLedger.hasOffer m.jobId .pending = false := by
  refine sound.step_invariant taken (fun s => s.hasOffer m.jobId .pending = false)
    (won.closed m returned) ?_
  intro s cmd _ closed issued
  refine Ledger.hasOffer_eq_false_iff.mpr fun k o' found sameJob pending => ?_
  rcases Ledger.offer_origin found with ⟨rfl, _⟩ | ⟨o, before, rfl | ⟨_, rfl⟩⟩
  · generalize x.1 = op at unmatched issued
    cases issued with
    | firstOffer forJob _ => exact unmatched m returned (sameJob.symm.trans forJob)
    | nextOffer _ _ _ _ _ _ _ freed =>
        rw [sameJob, won.closed m returned] at freed
        cases freed
  · exact Ledger.hasOffer_eq_false_iff.mp closed k _ before sameJob pending
  · exact Ledger.hasOffer_eq_false_iff.mp closed k o before sameJob
      (Ledger.pending_of_newStatus pending)

theorem step (won : Won past e.toLedger) (unmatched : Unmatched past x.1)
    (sound : Sound host e) (taken : serviceStep host e x e') : Won (past ++ [x]) e'.toLedger := by
  have locked : e'.toLedger.Locked :=
    sound.step_invariant taken Ledger.Locked won.locked fun s cmd keyed locked issued =>
      locked_issued (won.freshSubmission unmatched) keyed locked issued
  refine ⟨locked, ?_, ?_, ?_⟩
  · intro k o' found accepted
    rcases accepted_origin sound taken found accepted with ⟨o, before, was, sameJob⟩ | ⟨m, returned, ofJob⟩
    · obtain ⟨m, returned, ofJob⟩ := won.claimed k o before was
      exact ⟨m, mem_matchResults_snoc.mpr (.inl returned), ofJob.trans sameJob⟩
    · exact ⟨m, mem_matchResults_snoc.mpr (.inr returned), ofJob⟩
  · intro m member
    rcases mem_matchResults_snoc.mp member with old | returned
    · exact won.stays_closed unmatched sound taken old
    · obtain ⟨offerId, o, respondedAt, found, _, rfl, ledger⟩ := match_returned taken returned
      have winner : e'.offers.lookup offerId = some { o with status := .accepted } := by
        rw [ledger, Ledger.lookup_apply _ (fun _ => Command.noConfusion), found]
        simp [Ledger.newStatus]
      refine Ledger.hasOffer_eq_false_iff.mpr fun k o' found' sameJob pending => ?_
      by_cases same : k = offerId
      · subst same
        obtain rfl := Option.some.inj (found'.symm.trans winner)
        cases pending
      · exact (locked offerId k _ o' winner found' rfl sameJob same).1 pending
  · have appended : matchResults (past ++ [x]) = matchResults past ++ x.2.matched.toList := by
      simp only [matchResults, List.filterMap_append]
      cases returned : x.2.matched <;> simp [returned]
    rw [appended, List.pairwise_append]
    refine ⟨won.distinct, by cases x.2.matched <;> simp, ?_⟩
    intro m old m' new sameJob
    obtain ⟨offerId, o, respondedAt, found, pending, rfl, _⟩ :=
      match_returned taken (Option.mem_toList.mp new)
    have closed := won.closed m old
    exact Ledger.hasOffer_eq_false_iff.mp closed offerId o found sameJob.symm pending

end Won

/-- While no submission names a job with a winner, every state has single winners;
    while none names a job that was ever matched, no job is matched twice either. -/
theorem single_winner (host : Host) (h3Resolution : Nat) (storage : β) (tick : Nat)
    (past : List Exchange) (e : DispatchService β) :
    (Run (serviceStep host) (fun _ e x => FreshSubmission e.toLedger x.1)
        (Engine.withStorage h3Resolution storage tick) past e → e.toLedger.SingleWinner) ∧
      (Run (serviceStep host) (fun past _ x => Unmatched past x.1)
        (Engine.withStorage h3Resolution storage tick) past e →
        e.toLedger.SingleWinner ∧ (matchResults past).Pairwise fun m m' => m.jobId ≠ m'.jobId) := by
  have sound : Sound host (Engine.withStorage h3Resolution storage tick) :=
    sound_withStorage h3Resolution storage tick
  constructor
  · intro run
    have locked : e.toLedger.Locked := by
      refine run.invariant_under (Sound host) (fun _ e => e.toLedger.Locked) sound
        (fun _ _ _ sound taken => sound.step taken) Ledger.locked_empty ?_
      intro past e x e' sound locked fresh taken
      exact sound.step_invariant taken Ledger.Locked locked fun s cmd keyed locked issued =>
        locked_issued fresh keyed locked issued
    exact locked.singleWinner
  · intro run
    have won : Won past e.toLedger := by
      refine run.invariant_under (Sound host) (fun past e => Won past e.toLedger) sound
        (fun _ _ _ sound taken => sound.step taken) ?_ ?_
      · refine ⟨Ledger.locked_empty, ?_, ?_, List.Pairwise.nil⟩
        · intro k o found
          simp [Engine.withStorage, Ledger.empty] at found
        · intro m member
          cases member
      · intro past e x e' sound won unmatched taken
        exact won.step unmatched sound taken
    exact ⟨won.locked.singleWinner, won.distinct⟩

/-- Job 1 is accepted by driver 101, submitted again and accepted by driver 100. -/
def resubmission : List Op :=
  [comesOnline 100, comesOnline 101, .submitJob (jobAtOrigin 1), .handleOfferResponse 4 true,
    .submitJob (jobAtOrigin 1), .handleOfferResponse 12 true]

theorem two_winners :
    ∃ past e, Run (serviceStep (Host.plain fun _ => 0)) anyStep emptyService past e ∧
      past.map Prod.fst = resubmission ∧ ¬ e.toLedger.SingleWinner ∧
      (matchResults past).map MatchResult.jobId = [1, 1] := by
  refine ⟨_, _, performAll_run resubmission (permitted_any _ _ _) .start, by decide +kernel, ?_,
    by decide +kernel⟩
  intro single
  have same := single 4 12 ⟨4, 1, 101, .accepted, 30000000000⟩ ⟨12, 1, 100, .accepted, 30000000000⟩
    (by decide +kernel) (by decide +kernel) rfl rfl rfl
  cases same

/-- The lock at work: once driver 101 has accepted, job 1 has one winner. -/
theorem single_winner_of_acceptance :
    (performAll (Host.plain fun _ => 0) emptyService (resubmission.take 4)).2.toLedger.SingleWinner := by
  refine (single_winner (Host.plain fun _ => 0) 8 InMemoryBackend.mk 0 _ _).1
    (performAll_run (resubmission.take 4) ⟨trivial, trivial, ?_, trivial, trivial⟩ .start)
  show Ledger.hasOffer _ 1 .accepted = false
  decide +kernel

end Spatiad
