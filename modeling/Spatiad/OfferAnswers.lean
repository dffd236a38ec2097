import Spatiad.SessionSweeps

/-! # Who may answer an offer

The session of a driver passes answers on by the id of the offer, whoever the offer
was made to.  What keeps a stranger's answer without effect is the state of the
offer alone.
-/

namespace Spatiad

open Foundation

variable {β : Type} [StorageBackend β] {host : Host}

/-- From `s` to `s'` nothing came of the driver's answer to this offer: its status
    stands, nothing was matched or cancelled, no other driver changed, and what did
    change is the sweep of the driver's own due offers with its re-dispatch. -/
structure Ignored (host : Host) (s s' : ApiState β) (driverId offerId : Uuid) : Prop where
  standing : (s'.dispatch.offers.lookup offerId).map OfferRecord.status =
    (s.dispatch.offers.lookup offerId).map OfferRecord.status
  unmatched : ∀ k o', s'.dispatch.offers.lookup k = some o' → o'.status = .accepted →
    s.dispatch.offers.lookup k = some o'
  uncancelled : ∀ k o', s'.dispatch.offers.lookup k = some o' → o'.status = .cancelled →
    s.dispatch.offers.lookup k = some o'
  drivers : ∀ other, other ≠ driverId →
    s'.dispatch.drivers.lookup other = s.dispatch.drivers.lookup other
  sweptOnly : s'.dispatch =
    (DispatchService.expirePendingOffersForDriver host s.dispatch driverId).1

theorem ignored_of_swept {s s' : ApiState β} {driverId offerId : Uuid} (sound : s.Sound host)
    {o : OfferRecord} (found : s.dispatch.offers.lookup offerId = some o)
    (stranger : o.driverId ≠ driverId)
    (swept : s'.dispatch =
      (DispatchService.expirePendingOffersForDriver host s.dispatch driverId).1) :
    Ignored host s s' driverId offerId := by
  have frame := expirePendingOffersForDriver_swept sound.dispatch driverId
  rw [← swept] at frame
  refine ⟨?_, fun k o' found' accepted => ?_, fun k o' found' cancelled => ?_, fun other _ => ?_, swept⟩
  · rw [frame.kept offerId o found stranger, found]
  · rcases frame.origin k o' found' with before | expired | pending
    · exact before
    · rw [accepted] at expired
      cases expired
    · rw [accepted] at pending
      cases pending
  · rcases frame.origin k o' found' with before | expired | pending
    · exact before
    · rw [cancelled] at expired
      cases expired
    · rw [cancelled] at pending
      cases pending
  · rw [frame.drivers]

theorem handleOfferResponse_answered {e : DispatchService β} {offerId : Uuid} {o : OfferRecord}
    (found : e.offers.lookup offerId = some o) (answered : o.status ≠ .pending) (accepted : Bool) :
    DispatchService.handleOfferResponse host e offerId accepted =
      (e, .error .invalidOfferResponse) := by
  have response := handleOfferResponse_response host e offerId accepted
  generalize DispatchService.handleOfferResponse host e offerId accepted = result at response ⊢
  obtain ⟨e', reply⟩ := result
  cases response with
  | unknown | notPending => rfl
  | late found' pending | accepted found' pending | rejected found' pending =>
      obtain rfl := Option.some.inj (found.symm.trans found')
      exact absurd pending answered

theorem handleOfferResponse_closes {e : DispatchService β} (ids : IdsDrawn host e)
    {offerId : Uuid} {o : OfferRecord} (found : e.offers.lookup offerId = some o)
    (pending : o.status = .pending) (accepted : Bool) :
    ∃ o', (DispatchService.handleOfferResponse host e offerId accepted).1.offers.lookup offerId =
      some o' ∧ o'.status ≠ .pending := by
  have response := handleOfferResponse_response host e offerId accepted
  generalize DispatchService.handleOfferResponse host e offerId accepted = result at response ⊢
  obtain ⟨e', reply⟩ := result
  cases response with
  | unknown absent =>
      rw [found] at absent
      cases absent
  | notPending found' closed =>
      obtain rfl := Option.some.inj (found.symm.trans found')
      exact absurd pending closed
  | late _ _ _ state =>
      subst state
      exact ⟨_, (lookup_late found offerId).trans (if_pos rfl), OfferStatus.noConfusion⟩
  | accepted _ _ _ state =>
      subst state
      refine ⟨{ o with status := .accepted }, ?_, OfferStatus.noConfusion⟩
      dsimp only
      rw [Engine.appendAndApply_toLedger, Ledger.lookup_apply _ fun _ => Command.noConfusion]
      simp [found, Ledger.newStatus]
  | @rejected selected _ _ _ _ _ handOver =>
      have refused : (e.drawn.drawn.appendAndApply host
          (.rejectOffer offerId (host.clock e.drawn.tick))).offers.lookup offerId =
            some { o with status := .rejected } := by
        rw [Engine.appendAndApply_toLedger, Ledger.lookup_apply _ fun _ => Command.noConfusion]
        simp [found, Ledger.newStatus]
      have refusal : Trace host (fun _ _ => True) e _ (e.drawn.drawn.appendAndApply host
          (.rejectOffer offerId (host.clock e.drawn.tick))) :=
        .draw (.draw (.single trivial fun _ => Command.noConfusion))
      have kept := (createNextOfferForJob_handedOn (refusal.idsDrawn ids) selected.jobId).kept
        offerId _ refused
      rw [handOver] at kept
      exact ⟨_, kept, OfferStatus.noConfusion⟩

theorem recordWebhookDeliveryFailed_offers (e : Engine β) (jobId offerId : Uuid) :
    (e.recordWebhookDeliveryFailed host jobId offerId).offers = e.offers := by
  unfold Engine.recordWebhookDeliveryFailed
  split
  · rw [Engine.appendAndApply_toLedger]
    simp only [Ledger.apply]
    split <;> rfl
  · rfl

/-! ## The handler by itself -/

namespace Task

variable (t : Task β)

omit [StorageBackend β] in
theorem notifyNewOffers_dispatch (offers : List OfferRecord) :
    (t.notifyNewOffers (.none host β) offers).api.dispatch = t.api.dispatch := by
  unfold notifyNewOffers
  induction offers generalizing t with
  | nil => rfl
  | cons offer rest ih =>
      have first : (t.notifyNewOffer (.none host β) offer).api.dispatch = t.api.dispatch := by
        unfold notifyNewOffer
        simp only
        split <;> rfl
      exact (ih _).trans first

omit [StorageBackend β] in
theorem notifyCompetingCancellations_dispatch (jobId : Uuid) :
    (t.notifyCompetingCancellations (.none host β) jobId).api.dispatch = t.api.dispatch := by
  have each : ∀ (items : List CancelledDriverOffer) (t : Task β),
      (items.foldl (fun t item => t.send item.driverId (.offerCancelled item.offerId jobId))
        t).api.dispatch = t.api.dispatch := by
    intro items t
    exact List.foldlRecOn (motive := fun t' : Task β => t'.api.dispatch = t.api.dispatch) items _ rfl
      fun _ same _ _ => same
  unfold notifyCompetingCancellations
  simp only
  split
  · rfl
  · exact each _ _

theorem announceMatch_offers (delivers : String → MatchResult → Bool) (result : MatchResult) :
    (t.announceMatch (.none host β) delivers result).2.api.dispatch.offers =
      t.api.dispatch.offers := by
  have sent : (t.sendOutbound (.matched result.offerId result.jobId)).2.api = t.api := rfl
  unfold announceMatch
  generalize t.sendOutbound (.matched result.offerId result.jobId) = outcome at sent
  obtain ⟨_ | _, t₁⟩ := outcome
  · rw [← sent]
  · have told : (t₁.notifyCompetingCancellations (.none host β) result.jobId).api.dispatch =
        t.api.dispatch := (t₁.notifyCompetingCancellations_dispatch result.jobId).trans (by rw [← sent])
    simp only
    split
    · rw [told]
    · split
      · rw [told]
      · exact (recordWebhookDeliveryFailed_offers _ result.jobId result.offerId).trans
          (congrArg (fun e => e.offers) told)

/-- Whether or not the socket fails, a session's sweep has swept the engine. -/
theorem flushExpiredOffers_dispatch (driverId : Uuid) :
    (t.flushExpiredOffers (.none host β) driverId).2.api.dispatch =
      (DispatchService.expirePendingOffersForDriver host t.api.dispatch driverId).1 := by
  simp only [flushExpiredOffers]
  split
  · rw [notifyNewOffers_dispatch, sendAll_api]
    rfl
  · rw [sendAll_api]
    rfl

/-- The engine after an answer is the one the service leaves, but for the record of a
    failed webhook call; after an error it is just that. -/
theorem respond_dispatch (delivers : String → MatchResult → Bool) (offerId : Uuid)
    (accepted : Bool) :
    (t.respond (.none host β) delivers offerId accepted).2.api.dispatch.offers =
        (DispatchService.handleOfferResponse host t.api.dispatch offerId accepted).1.offers ∧
      ((DispatchService.handleOfferResponse host t.api.dispatch offerId accepted).2 =
          .error .invalidOfferResponse →
        (t.respond (.none host β) delivers offerId accepted).2.api.dispatch =
          (DispatchService.handleOfferResponse host t.api.dispatch offerId accepted).1) := by
  have ran : (t.run (.none host β) fun e =>
      DispatchService.handleOfferResponse host e offerId accepted).2.api.dispatch =
        (DispatchService.handleOfferResponse host t.api.dispatch offerId accepted).1 := rfl
  have reply : (t.run (.none host β) fun e =>
      DispatchService.handleOfferResponse host e offerId accepted).1 =
        (DispatchService.handleOfferResponse host t.api.dispatch offerId accepted).2 := rfl
  unfold respond
  rw [← ran, ← reply]
  generalize t.run (.none host β) (fun e =>
    DispatchService.handleOfferResponse host e offerId accepted) = result
  obtain ⟨_ | update, t'⟩ := result
  · exact ⟨rfl, fun _ => rfl⟩
  · refine ⟨?_, fun failed => by cases failed⟩
    have told := @notifyNewOffers_dispatch _ host t' update.newOffers
    simp only
    split
    · rw [told]
    · rw [announceMatch_offers, told]

end Task

/-- A stranger's answer is ignored iff the offer is not pending when the message
    arrives, or the session fails before it passes the answer on. -/
theorem strangers_answer_ignored_iff (delivers : String → MatchResult → Bool) (s : ApiState β)
    (reachable : s.Reachable host) (socket : Socket) (driverId offerId : Uuid) (accepted : Bool)
    (o : OfferRecord) (found : s.dispatch.offers.lookup offerId = some o)
    (stranger : o.driverId ≠ driverId) :
    Ignored host s ((Task.start s socket).handleDriverMessage (.none host β) delivers driverId
        (.text (some (.offerResponse offerId accepted)))).2.api driverId offerId ↔
      o.status ≠ .pending ∨ s.RefusesNotice host socket driverId := by
  have sound := reachable.sound
  have swept := @Task.flushExpiredOffers_dispatch _ _ host (.start s socket) driverId
  have refused : _ ↔ s.RefusesNotice host socket driverId :=
    (Task.start s socket).flushExpiredOffers_refused (.none host β) sound driverId
  simp only [Task.handleDriverMessage, Task.handleOfferAnswer]
  generalize (Task.start s socket).flushExpiredOffers (.none host β) driverId = result
    at swept refused
  obtain ⟨_ | _, t⟩ := result
  · exact ⟨fun _ => .inr (refused.mp rfl), fun _ => ignored_of_swept sound found stranger swept⟩
  · have unrefused : ¬ s.RefusesNotice host socket driverId := fun refuses =>
      Bool.noConfusion (refused.mpr refuses)
    have frame := expirePendingOffersForDriver_swept sound.dispatch driverId
    have kept : t.api.dispatch.offers.lookup offerId = some o := by
      rw [swept]
      exact frame.kept offerId o found stranger
    obtain ⟨offers, failed⟩ := @Task.respond_dispatch _ _ host t delivers offerId accepted
    by_cases pending : o.status = .pending
    · have ids : IdsDrawn host t.api.dispatch :=
        swept ▸ (expirePendingOffersForDriver_creates sound.dispatch.ids driverId).ids
      obtain ⟨o', closed, notPending⟩ := handleOfferResponse_closes ids kept pending accepted
      refine ⟨fun ignored => ?_, ?_⟩
      · have standing := ignored.standing
        rw [found, offers, closed] at standing
        exact absurd ((Option.some.inj standing).trans pending) notPending
      · rintro (answered | refuses)
        · exact absurd pending answered
        · exact absurd refuses unrefused
    · rw [handleOfferResponse_answered kept pending] at failed
      refine ⟨fun _ => .inl pending, fun _ => ignored_of_swept sound found stranger ?_⟩
      rw [failed rfl]
      exact swept

/-- Driver 101 accepts the offer made to driver 100, which is matched. -/
theorem strangers_answer_heard :
    let s := serviceAfter stillHost [comesOnline 100, .submitJob (jobAtOrigin 1)] [100, 101]
    s.Reachable stillHost ∧
      (s.dispatch.offers.lookup 3).map OfferRecord.driverId = some 100 ∧
      ¬ Ignored stillHost s ((Task.start s openSocket).handleDriverMessage
        (.none stillHost InMemoryBackend) (fun _ _ => true) 101
        (.text (some (.offerResponse 3 true)))).2.api 101 3 := by
  refine ⟨serviceAfter_reachable _ _ _, by decide +kernel, fun ignored => ?_⟩
  have standing := ignored.standing
  revert standing
  decide +kernel

/-- Once the offer is withdrawn, the same answer is ignored. -/
theorem answer_after_withdrawal_ignored :
    let s := serviceAfter stillHost
      [comesOnline 100, .submitJob (jobAtOrigin 1), .cancelOffer 3] [100, 101]
    Ignored stillHost s ((Task.start s openSocket).handleDriverMessage
      (.none stillHost InMemoryBackend) (fun _ _ => true) 101
      (.text (some (.offerResponse 3 true)))).2.api 101 3 :=
  (strangers_answer_ignored_iff _ _ (serviceAfter_reachable _ _ _) openSocket 101 3 true
    ⟨3, 1, 100, .cancelled, 30000000000⟩ (by decide +kernel) (by decide)).mpr (.inl (by decide))

end Spatiad
