import Spatiad.Cancellation
import Spatiad.HandOver

/-! # Reported job states

`job_dispatch_state` asks for the job's offers before it asks whether the job is
cancelled.  A job that is cancelled before it ever got an offer is therefore reported as
pending; all other reports say what the operations did.
-/

namespace Spatiad

open Foundation

namespace Ledger

def Offered (s : Ledger) (jobId : Uuid) : Prop :=
  ∃ k o, s.offers.lookup k = some o ∧ o.jobId = jobId

/-- What a reported state says of its job. -/
inductive Reported (s : Ledger) (jobId : Uuid) : JobDispatchState → Prop where
  | unknownJob (absent : s.jobs.lookup jobId = none) : Reported s jobId .unknownJob
  | pending (never : ¬ s.Offered jobId) : Reported s jobId .pending
  | matched {k o} (found : s.offers.lookup k = some o) (ofJob : o.jobId = jobId)
      (won : o.status = .accepted) : Reported s jobId (.matched o.driverId o.offerId)
  | cancelled (offered : s.Offered jobId) (unmatched : s.hasOffer jobId .accepted = false)
      (cancelled : jobId ∈ s.cancelledJobs) : Reported s jobId .cancelled
  | searching (unmatched : s.hasOffer jobId .accepted = false) (active : jobId ∉ s.cancelledJobs)
      (pending : s.hasOffer jobId .pending = true) : Reported s jobId .searching
  | exhausted (unmatched : s.hasOffer jobId .accepted = false) (active : jobId ∉ s.cancelledJobs)
      (idle : s.hasOffer jobId .pending = false) : Reported s jobId .exhausted

theorem Offered.of_hasOffer {s : Ledger} {jobId : Uuid} {status : OfferStatus}
    (has : s.hasOffer jobId status = true) : s.Offered jobId := by
  obtain ⟨k, o, found, ofJob, _⟩ := hasOffer_iff.mp has
  exact ⟨k, o, found, ofJob⟩

end Ledger

variable {β : Type} {host : Host} {e : Engine β} {j : Uuid}

theorem jobDispatchState_reported (host : Host) (e : Engine β) (jobId : Uuid) :
    e.toLedger.Reported jobId (e.jobDispatchState host jobId) := by
  have listed : ∀ o, o ∈ (e.offers.iter (host.order e.tick)).filter (fun o => o.jobId == jobId) ↔
      (∃ k, e.offers.lookup k = some o) ∧ o.jobId = jobId := by
    intro o
    rw [List.mem_filter, HashMap.mem_iter (host.order_perm e.tick), beq_iff_eq]
  unfold Engine.jobDispatchState
  split
  · rename_i absent
    exact .unknownJob (Option.isNone_iff_eq_none.mp absent)
  · simp only
    generalize (e.offers.iter (host.order e.tick)).filter (fun o => o.jobId == jobId) = offers
      at listed
    split
    · rename_i empty
      rw [List.isEmpty_iff] at empty
      refine .pending ?_
      rintro ⟨k, o, found, ofJob⟩
      have member := (listed o).mpr ⟨⟨k, found⟩, ofJob⟩
      rw [empty] at member
      cases member
    · rename_i nonempty
      cases accepted : offers.find? fun o => o.status == .accepted with
      | some o =>
          obtain ⟨⟨k, found⟩, ofJob⟩ := (listed o).mp (List.mem_of_find?_eq_some accepted)
          exact .matched found ofJob (by simpa using List.find?_some accepted)
      | none =>
          have unmatched : e.hasOffer jobId .accepted = false := by
            refine Ledger.hasOffer_eq_false_iff.mpr fun k o found ofJob won => ?_
            have refused := List.find?_eq_none.mp accepted o ((listed o).mpr ⟨⟨k, found⟩, ofJob⟩)
            simp [won] at refused
          have pending : (offers.any fun o => o.status == .pending) = e.hasOffer jobId .pending := by
            rw [Bool.eq_iff_iff, Ledger.hasOffer_iff, List.any_eq_true]
            constructor
            · rintro ⟨o, member, isPending⟩
              obtain ⟨⟨k, found⟩, ofJob⟩ := (listed o).mp member
              exact ⟨k, o, found, ofJob, by simpa using isPending⟩
            · rintro ⟨k, o, found, ofJob, isPending⟩
              exact ⟨o, (listed o).mpr ⟨⟨k, found⟩, ofJob⟩, by simpa using isPending⟩
          simp only [pending]
          split
          · rename_i cancelled
            obtain ⟨o, member⟩ := List.exists_mem_of_ne_nil offers (by simpa using nonempty)
            obtain ⟨⟨k, found⟩, ofJob⟩ := (listed o).mp member
            exact .cancelled ⟨k, o, found, ofJob⟩ unmatched cancelled
          · rename_i active
            split
            · rename_i isPending
              exact .searching unmatched active isPending
            · rename_i idle
              exact .exhausted unmatched active (by simpa using idle)

variable [StorageBackend β]

theorem offered_kept {e e' : DispatchService β} {more : List Exchange}
    {allow : List Exchange → DispatchService β → Exchange → Prop} (sound : Sound host e)
    (run : Run (serviceStep host) allow e more e') (offered : e.Offered j) : e'.Offered j := by
  refine run.invariant_under (Sound host) (fun _ e => e.Offered j) sound
    (fun _ _ _ sound taken => sound.step taken) offered ?_
  intro _ e x e' sound offered _ taken
  refine sound.step_invariant taken (fun s => s.Offered j) offered ?_
  rintro s cmd _ ⟨k, o, found, ofJob⟩ issued
  by_cases creates : ∃ offer, cmd = .createOffer offer
  · obtain ⟨offer, rfl⟩ := creates
    refine ⟨k, o, ?_, ofJob⟩
    rw [Ledger.lookup_createOffer, if_neg]
    · exact found
    · rintro rfl
      rw [issued.fresh.unused] at found
      cases found
  · refine ⟨k, { o with status := s.newStatus cmd k o }, ?_, ofJob⟩
    rw [Ledger.lookup_apply s fun offer same => creates ⟨offer, same⟩, found, Option.map_some]

end Spatiad
