import Spatiad.HandOver

/-! # Which offers an operation creates

Every operation reports exactly the offers it creates, each once, and removes none.
-/

namespace Spatiad

open Foundation

variable {β : Type} [StorageBackend β] {host : Host}

/-- From `e` to `e'` the offers in `new` were created, and no others. -/
structure Creates (host : Host) (e e' : Engine β) (new : List OfferRecord) : Prop where
  ids : IdsDrawn host e'
  kept : ∀ k o, e.offers.lookup k = some o →
    ∃ o', e'.offers.lookup k = some o' ∧ o'.driverId = o.driverId
  fresh : ∀ o ∈ new, e.offers.lookup o.offerId = none
  stored : ∀ o ∈ new, ∃ o', e'.offers.lookup o.offerId = some o' ∧ o'.driverId = o.driverId
  complete : ∀ k o', e.offers.lookup k = none → e'.offers.lookup k = some o' →
    ∃ o ∈ new, o.offerId = k
  distinct : (new.map OfferRecord.offerId).Nodup

namespace Creates

variable {e e' e'' : Engine β} {new more : List OfferRecord}

omit [StorageBackend β]

theorem nothing (ids : IdsDrawn host e')
    (same : ∀ k, (e'.offers.lookup k).map OfferRecord.driverId =
      (e.offers.lookup k).map OfferRecord.driverId) : Creates host e e' [] := by
  refine ⟨ids, ?_, by simp, by simp, ?_, List.nodup_nil⟩
  · intro k o found
    have there := same k
    rw [found, Option.map_some, Option.map_eq_some_iff] at there
    exact there
  · intro k o' absent found
    have there := same k
    rw [found, absent] at there
    cases there

theorem refl (ids : IdsDrawn host e) : Creates host e e [] := nothing ids fun _ => rfl

theorem trans (first : Creates host e e' new) (second : Creates host e' e'' more) :
    Creates host e e'' (new ++ more) := by
  refine ⟨second.ids, ?_, ?_, ?_, ?_, ?_⟩
  · intro k o found
    obtain ⟨o', found', same⟩ := first.kept k o found
    obtain ⟨o'', found'', same'⟩ := second.kept k o' found'
    exact ⟨o'', found'', same'.trans same⟩
  · intro o member
    rcases List.mem_append.mp member with early | late
    · exact first.fresh o early
    · cases before : e.offers.lookup o.offerId with
      | none => rfl
      | some old =>
          obtain ⟨o', found', _⟩ := first.kept _ old before
          rw [second.fresh o late] at found'
          cases found'
  · intro o member
    rcases List.mem_append.mp member with early | late
    · obtain ⟨o', found', same⟩ := first.stored o early
      obtain ⟨o'', found'', same'⟩ := second.kept _ o' found'
      exact ⟨o'', found'', same'.trans same⟩
    · exact second.stored o late
  · intro k o'' absent found
    cases between : e'.offers.lookup k with
    | none =>
        obtain ⟨o, member, same⟩ := second.complete k o'' between found
        exact ⟨o, List.mem_append_right _ member, same⟩
    | some o' =>
        obtain ⟨o, member, same⟩ := first.complete k o' absent between
        exact ⟨o, List.mem_append_left _ member, same⟩
  · rw [List.map_append, List.nodup_append]
    refine ⟨first.distinct, second.distinct, ?_⟩
    intro a early b late same
    obtain ⟨o, member, rfl⟩ := List.mem_map.mp early
    obtain ⟨o₂, member₂, rfl⟩ := List.mem_map.mp late
    obtain ⟨o', found', _⟩ := first.stored o member
    rw [same, second.fresh o₂ member₂] at found'
    cases found'

end Creates

/-! ## Commands and re-dispatch -/

section steps

variable {e : Engine β} (ids : IdsDrawn host e)

include ids

omit [StorageBackend β] in
theorem drawn_creates : Creates host e e.drawn [] := .nothing ids.drawn fun _ => rfl

theorem command_creates (cmd : Command) (other : ∀ offer, cmd ≠ .createOffer offer) :
    Creates host e (e.appendAndApply host cmd) [] := by
  have logged : Trace host (fun _ _ => True) e [cmd] (e.appendAndApply host cmd) :=
    .single trivial other
  refine .nothing (logged.idsDrawn ids) fun k => ?_
  rw [Engine.appendAndApply_toLedger, Ledger.lookup_apply _ other, Option.map_map]
  rfl

theorem createOffer_creates (jobId driverId : Uuid) (timeoutSeconds : Nat) :
    Creates host e (e.createOffer host jobId driverId timeoutSeconds).1
      [e.newOffer host jobId driverId timeoutSeconds] := by
  let offer := e.newOffer host jobId driverId timeoutSeconds
  have fresh : e.offers.lookup offer.offerId = none :=
    (newOffer_fresh ids jobId driverId timeoutSeconds).unused
  have lookups : ∀ k, (e.createOffer host jobId driverId timeoutSeconds).1.offers.lookup k =
      if k = offer.offerId then some offer else e.offers.lookup k :=
    Ledger.lookup_createOffer e.toLedger offer
  have created : Trace host (fun _ _ => True) e _
      (e.createOffer host jobId driverId timeoutSeconds).1 := createOffer_trace trivial
  refine ⟨created.idsDrawn ids, ?_, ?_, ?_, ?_, List.nodup_singleton _⟩
  · intro k o found
    have other : k ≠ offer.offerId := by
      rintro rfl
      rw [fresh] at found
      cases found
    exact ⟨o, by rw [lookups, if_neg other, found], rfl⟩
  · intro o member
    rw [List.mem_singleton.mp member]
    exact fresh
  · intro o member
    rw [List.mem_singleton.mp member]
    exact ⟨offer, by rw [lookups, if_pos rfl], rfl⟩
  · intro k o' absent found
    rw [lookups] at found
    split at found
    · rename_i same
      exact ⟨offer, List.mem_singleton_self _, same.symm⟩
    · rw [absent] at found
      cases found

theorem createNextOfferForJob_creates (jobId : Uuid) :
    Creates host e (e.createNextOfferForJob host jobId).1
      (e.createNextOfferForJob host jobId).2.toList := by
  rcases createNextOfferForJob_cases host e jobId with same | ⟨driverId, job, _, same⟩
  · rw [same]
    exact .refl ids
  · rw [same]
    exact createOffer_creates ids jobId driverId job.timeoutSeconds

theorem redispatch_creates (seenJobs : Finset Uuid) (items : List ExpiredOffer) :
    Creates host e (DispatchService.redispatch host e seenJobs items).1
      (DispatchService.redispatch host e seenJobs items).2 := by
  induction items generalizing e seenJobs with
  | nil => exact .refl ids
  | cons item rest ih =>
      simp only [DispatchService.redispatch]
      split
      · exact ih ids seenJobs
      · have first := createNextOfferForJob_creates ids item.jobId
        exact first.trans (ih first.ids _)

theorem expireOffers_creates (offerIds : List Uuid) :
    Creates host e (e.expireOffers host offerIds).1 [] := by
  induction offerIds generalizing e with
  | nil => exact .refl ids
  | cons offerId rest ih =>
      have first : Creates host e (e.appendAndApply host (.markOfferExpired offerId)) [] :=
        command_creates ids _ fun _ => Command.noConfusion
      exact first.trans (ih first.ids)

/-! ## Operations -/

theorem expirePendingOffersForDriver_creates (driverId : Uuid) :
    Creates host e (DispatchService.expirePendingOffersForDriver host e driverId).1
      (DispatchService.expirePendingOffersForDriver host e driverId).2.newOffers := by
  have sweep := (drawn_creates ids).trans (expireOffers_creates (drawn_creates ids).ids
    (e.drawn.dueOffers host (fun o => o.driverId == driverId) (host.clock e.tick)))
  exact sweep.trans (redispatch_creates sweep.ids ∅ _)

theorem expirePendingOffersGlobal_creates :
    Creates host e (DispatchService.expirePendingOffersGlobal host e).1
      (DispatchService.expirePendingOffersGlobal host e).2.newOffers := by
  have sweep := (drawn_creates ids).trans (expireOffers_creates (drawn_creates ids).ids
    (e.drawn.dueOffers host (fun _ => true) (host.clock e.tick)))
  exact sweep.trans (redispatch_creates sweep.ids ∅ _)

def answered : Except DispatchError OfferResponseUpdate → List OfferRecord
  | .ok update => update.newOffers
  | .error _ => []

theorem handleOfferResponse_creates (offerId : Uuid) (accepted : Bool) :
    Creates host e (DispatchService.handleOfferResponse host e offerId accepted).1
      (answered (DispatchService.handleOfferResponse host e offerId accepted).2) := by
  have response := handleOfferResponse_response host e offerId accepted
  generalize DispatchService.handleOfferResponse host e offerId accepted = result at response ⊢
  obtain ⟨e', reply⟩ := result
  have drawn := drawn_creates ids
  have drawn₂ := drawn.trans (drawn_creates drawn.ids)
  cases response with
  | unknown | notPending => exact .refl ids
  | late _ _ _ state =>
      subst state
      exact drawn.trans
        (command_creates drawn.ids (.markOfferExpired offerId) fun _ => Command.noConfusion)
  | accepted _ _ _ state =>
      subst state
      let acceptance := Command.acceptOffer offerId (host.clock e.drawn.tick)
      exact drawn₂.trans (command_creates drawn₂.ids acceptance fun _ => Command.noConfusion)
  | @rejected offer _ next _ _ _ handOver =>
      let refusal := Command.rejectOffer offerId (host.clock e.drawn.tick)
      have refused : Creates host e (e.drawn.drawn.appendAndApply host refusal) [] :=
        drawn₂.trans (command_creates drawn₂.ids refusal fun _ => Command.noConfusion)
      have handedOn := createNextOfferForJob_creates refused.ids offer.jobId
      rw [handOver] at handedOn
      exact refused.trans handedOn

def submitted : Except DispatchError OfferRecord → List OfferRecord
  | .ok offer => [offer]
  | .error _ => []

theorem submitJob_creates (job : JobRequest) :
    Creates host e (DispatchService.submitJob host e job).1
      (submitted (DispatchService.submitJob host e job).2) := by
  have registration : Creates host e (e.registerJob host job) [] :=
    command_creates ids _ fun _ => Command.noConfusion
  rcases submitJob_cases host e job with ⟨_, same⟩ | ⟨driverId, _, same⟩
  · rw [same]
    exact registration
  · rw [same]
    exact registration.trans
      (createOffer_creates registration.ids job.jobId driverId job.timeoutSeconds)

end steps

end Spatiad
