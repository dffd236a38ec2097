import Spatiad.ServiceRuns

/-! # Sequential dispatch

A job is offered to one driver at a time and to no driver twice, over any run that
submits it at most once.  A submission looks at no offers, so it has to find none;
re-dispatch makes sure of all three parts by its own guards.
-/

namespace Spatiad

open Foundation

namespace Ledger

/-- Of the offers of one job at most one is open, none beside a winner, and each
    went to a driver of its own. -/
structure Sequential (s : Ledger) : Prop where
  onePending : ∀ k k' o o', s.offers.lookup k = some o → s.offers.lookup k' = some o' →
    o'.jobId = o.jobId → o.status = .pending → o'.status = .pending → k' = k
  nonePendingOnceAccepted : ∀ k k' o o', s.offers.lookup k = some o →
    s.offers.lookup k' = some o' → o'.jobId = o.jobId → o.status = .accepted →
    o'.status ≠ .pending
  distinctDrivers : ∀ k k' o o', s.offers.lookup k = some o → s.offers.lookup k' = some o' →
    o'.jobId = o.jobId → o'.driverId = o.driverId → k' = k

theorem sequential_empty : Ledger.empty.Sequential := by
  constructor <;>
  · intro k k' o o' found
    simp [Ledger.empty] at found

/-- An offer for a job that has no open offer and no winner, to a driver who has
    not had the job. -/
theorem Sequential.createOffer {s : Ledger} (sequential : s.Sequential) {offer : OfferRecord}
    (pending : offer.status = .pending) (idle : s.hasOffer offer.jobId .pending = false)
    (unmatched : s.hasOffer offer.jobId .accepted = false)
    (untried : s.alreadyOffered offer.jobId offer.driverId = false) :
    (s.apply (.createOffer offer)).Sequential := by
  have noPending := hasOffer_eq_false_iff.mp idle
  have noWinner := hasOffer_eq_false_iff.mp unmatched
  have newDriver : ∀ k o, s.offers.lookup k = some o → o.jobId = offer.jobId →
      o.driverId ≠ offer.driverId := by
    intro k o found ofJob same
    have tried := alreadyOffered_iff.mpr ⟨k, o, found, ofJob, same⟩
    rw [untried] at tried
    cases tried
  constructor
  · intro k k' o o' found found' sameJob isPending isPending'
    rw [lookup_createOffer] at found found'
    split at found <;> split at found'
    · rename_i here here'
      exact here'.trans here.symm
    · obtain rfl := Option.some.inj found
      exact absurd isPending' (noPending k' o' found' sameJob)
    · obtain rfl := Option.some.inj found'
      exact absurd isPending (noPending k o found sameJob.symm)
    · exact sequential.onePending k k' o o' found found' sameJob isPending isPending'
  · intro k k' o o' found found' sameJob won
    rw [lookup_createOffer] at found found'
    split at found
    · obtain rfl := Option.some.inj found
      rw [pending] at won
      cases won
    · split at found'
      · obtain rfl := Option.some.inj found'
        exact absurd won (noWinner k o found sameJob.symm)
      · exact sequential.nonePendingOnceAccepted k k' o o' found found' sameJob won
  · intro k k' o o' found found' sameJob sameDriver
    rw [lookup_createOffer] at found found'
    split at found <;> split at found'
    · rename_i here here'
      exact here'.trans here.symm
    · obtain rfl := Option.some.inj found
      exact absurd sameDriver (newDriver k' o' found' sameJob)
    · obtain rfl := Option.some.inj found'
      exact absurd sameDriver.symm (newDriver k o found sameJob.symm)
    · exact sequential.distinctDrivers k k' o o' found found' sameJob sameDriver

/-- No other command opens an offer, and the one that accepts takes the open one. -/
theorem Sequential.apply {s : Ledger} (sequential : s.Sequential) {cmd : Command}
    (noOffer : ∀ offer, cmd ≠ .createOffer offer)
    (answersPending : ∀ k respondedAt, cmd = .acceptOffer k respondedAt →
      ∃ o, s.offers.lookup k = some o ∧ o.status = .pending) :
    (s.apply cmd).Sequential := by
  constructor
  · intro k k' o₁ o₁' found found' sameJob isPending isPending'
    rw [lookup_apply s noOffer, Option.map_eq_some_iff] at found found'
    obtain ⟨o, before, rfl⟩ := found
    obtain ⟨o', before', rfl⟩ := found'
    exact sequential.onePending k k' o o' before before' sameJob (pending_of_newStatus isPending)
      (pending_of_newStatus isPending')
  · intro k k' o₁ o₁' found found' sameJob won open'
    have after := found
    have after' := found'
    rw [lookup_apply s noOffer, Option.map_eq_some_iff] at found found'
    obtain ⟨o, before, rfl⟩ := found
    obtain ⟨o', before', rfl⟩ := found'
    have was := pending_of_newStatus open'
    rcases accepted_of_newStatus won with old | ⟨respondedAt, same⟩
    · exact sequential.nonePendingOnceAccepted k k' o o' before before' sameJob old was
    · -- the winner was the open offer of its job, so the other one is itself
      obtain ⟨selected, here, pending⟩ := answersPending k respondedAt same
      obtain rfl := Option.some.inj (here.symm.trans before)
      obtain rfl := sequential.onePending k k' selected o' before before' sameJob pending was
      rw [Option.some.inj (after'.symm.trans after)] at open'
      rw [open'] at won
      cases won
  · intro k k' o₁ o₁' found found' sameJob sameDriver
    rw [lookup_apply s noOffer, Option.map_eq_some_iff] at found found'
    obtain ⟨o, before, rfl⟩ := found
    obtain ⟨o', before', rfl⟩ := found'
    exact sequential.distinctDrivers k k' o o' before before' sameJob sameDriver

end Ledger

/-! ## Over whole runs -/

def Op.submitted : Op → Option Uuid
  | .submitJob job => some job.jobId
  | _ => none

def submissions (past : List Exchange) : List Uuid := past.filterMap fun x => x.1.submitted

def Ledger.OffersFor (jobs : List Uuid) (s : Ledger) : Prop :=
  ∀ k o, s.offers.lookup k = some o → o.jobId ∈ jobs

theorem sequential_issued {s₀ s : Ledger} {op : Op} {cmd : Command}
    (unseen : ∀ jobId, op.submitted = some jobId →
      ∀ k o, s₀.offers.lookup k = some o → o.jobId ≠ jobId)
    (sequential : s.Sequential) (issued : Issues s₀ op s cmd) : (s.apply cmd).Sequential := by
  cases issued with
  | @firstOffer job offer forJob fresh =>
      have none : ∀ k o, s₀.offers.lookup k = some o → o.jobId ≠ offer.jobId := by
        rw [forJob]
        exact unseen job.jobId rfl
      refine sequential.createOffer fresh.pending ?_ ?_ ?_
      · exact Ledger.hasOffer_eq_false_iff.mpr fun k o found ofJob => absurd ofJob (none k o found)
      · exact Ledger.hasOffer_eq_false_iff.mpr fun k o found ofJob => absurd ofJob (none k o found)
      · cases tried : Ledger.alreadyOffered _ offer.jobId offer.driverId with
        | false => rfl
        | true =>
            obtain ⟨k, o, found, ofJob, _⟩ := Ledger.alreadyOffered_iff.mp tried
            exact absurd ofJob (none k o found)
  | nextOffer _ fresh _ _ unmatched idle untried =>
      exact sequential.createOffer fresh.pending idle unmatched untried
  | accept found pending =>
      refine sequential.apply (fun _ => Command.noConfusion) fun k respondedAt same => ?_
      obtain ⟨rfl, _⟩ := Command.acceptOffer.inj same
      exact ⟨_, found, pending⟩
  | upsert | register | reject | expire | withdraw | cancelJob | removeDriver | webhook =>
      exact sequential.apply (fun _ => Command.noConfusion) fun _ _ => Command.noConfusion

theorem offersFor_issued {s₀ s : Ledger} {op : Op} {cmd : Command} {jobs : List Uuid}
    (before : s₀.OffersFor jobs) (submitted : ∀ jobId, op.submitted = some jobId → jobId ∈ jobs)
    (known : s.OffersFor jobs) (issued : Issues s₀ op s cmd) : (s.apply cmd).OffersFor jobs := by
  intro k o' found
  rcases Ledger.offer_origin found with ⟨rfl, _⟩ | ⟨o, old, rfl | ⟨_, rfl⟩⟩
  · cases issued with
    | firstOffer forJob _ =>
        rw [forJob]
        exact submitted _ rfl
    | nextOffer _ _ _ _ _ _ _ freed =>
        obtain ⟨k, o, found, ofJob, _⟩ := Ledger.hasOffer_iff.mp freed
        exact ofJob ▸ before k o found
  · exact known k _ old
  · exact known k o old

variable {β : Type} [StorageBackend β]

/-- In every run that submits each job at most once, dispatch is sequential in every
    state reached, whatever else it does and in whatever order. -/
theorem sequential_dispatch (host : Host) (h3Resolution : Nat) (storage : β) (tick : Nat)
    (past : List Exchange) (e : DispatchService β)
    (run : Run (serviceStep host) anyStep (Engine.withStorage h3Resolution storage tick) past e)
    (once : (submissions past).Nodup) : e.toLedger.Sequential := by
  let P (past : List Exchange) (e : DispatchService β) : Prop :=
    (submissions past).Nodup →
      e.toLedger.Sequential ∧ e.toLedger.OffersFor (submissions past)
  have held : P past e := by
    refine run.invariant_under (Sound host) P (sound_withStorage h3Resolution storage tick)
      (fun _ _ _ sound taken => sound.step taken) ?_ ?_
    · refine fun _ => ⟨Ledger.sequential_empty, fun k o found => ?_⟩
      simp [Engine.withStorage, Ledger.empty] at found
    · intro past e x e' sound held _ taken once
      have appended : submissions (past ++ [x]) = submissions past ++ x.1.submitted.toList := by
        simp only [submissions, List.filterMap_append]
        cases submits : x.1.submitted <;> simp [submits]
      rw [appended] at once ⊢
      obtain ⟨before, _, apart⟩ := List.nodup_append.mp once
      obtain ⟨sequential, known⟩ := held before
      constructor
      · refine sound.step_invariant taken Ledger.Sequential sequential ?_
        intro s cmd _ sequential issued
        refine sequential_issued ?_ sequential issued
        intro jobId submits k o found
        exact apart _ (known k o found) jobId (by simp [submits])
      · have wider : ∀ s : Ledger, s.OffersFor (submissions past) →
            s.OffersFor (submissions past ++ x.1.submitted.toList) :=
          fun s known k o found => List.mem_append_left _ (known k o found)
        refine sound.step_invariant taken _ (wider _ known) ?_
        intro s cmd _ known' issued
        refine offersFor_issued (wider _ known) ?_ known' issued
        intro jobId submits
        simp [submits]
  exact (held once).1

/-- Job 1 goes to driver 101, who refuses it, leaves and comes back; then to driver
    100, and to nobody else. -/
def oneAtATime : List Op :=
  [comesOnline 100, comesOnline 101, .submitJob (jobAtOrigin 1), .handleOfferResponse 4 false,
    .expireStaleDrivers (-1), comesOnline 101, comesOnline 100, .expirePendingOffersGlobal]

theorem sequential_dispatch_after_refusal :
    (performAll stillHost emptyService oneAtATime).2.offers.keys.length = 2 ∧
      (performAll stillHost emptyService oneAtATime).2.toLedger.Sequential :=
  ⟨by decide +kernel, sequential_dispatch stillHost 8 InMemoryBackend.mk 0 _ _
    (performAll_run oneAtATime (permitted_any _ _ _) .start) (by decide +kernel)⟩

end Spatiad
