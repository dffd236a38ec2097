import Spatiad.Engine

/-! # The command machine

What a command does to the ledger alone: a deterministic machine, free of the
clock, of storage and of iteration order.  An engine's ledger follows it step
for step, live and in replay.
-/

namespace Spatiad

open Foundation

namespace Ledger

def pushEvent (s : Ledger) (jobId : Uuid) : Ledger :=
  { s with
    jobEventSequences :=
      s.jobEventSequences.insert jobId ((s.jobEventSequences.lookup jobId).getD 0 + 1) }

def pushEvents (s : Ledger) (jobId : Uuid) : Nat → Ledger
  | 0 => s
  | n + 1 => pushEvents (s.pushEvent jobId) jobId n

def setOfferStatus (s : Ledger) (offerId : Uuid) (status : OfferStatus) : Ledger :=
  match s.offers.lookup offerId with
  | none => s
  | some offer =>
      { s with offers := s.offers.insert offerId { offer with status } }.pushEvent offer.jobId

def sweepCount (p : OfferRecord → Bool) (offers : HashMap Uuid OfferRecord) : Nat :=
  (offers.values.filter p).length

def apply (s : Ledger) : Command → Ledger
  | .upsertDriverLocation driverId category position status timestamp =>
      { s with
        drivers := s.drivers.insert driverId ⟨driverId, category, status, position, timestamp⟩ }
  | .registerJob job =>
      { s with
        jobs := s.jobs.insert job.jobId job
        cancelledJobs := s.cancelledJobs.erase job.jobId }.pushEvent job.jobId
  | .createOffer offer =>
      { s with offers := s.offers.insert offer.offerId offer }.pushEvent offer.jobId
  | .acceptOffer offerId _ =>
      match s.offers.lookup offerId with
      | none => s
      | some offer =>
          let offers := s.offers.insert offerId { offer with status := .accepted }
          let competing := competesWith offer.jobId offer.offerId
          { s with
            offers := cancelWhere competing offers
            drivers := markBusy offer.driverId s.drivers }.pushEvents offer.jobId
              (sweepCount competing offers + 2)
  | .rejectOffer offerId _ => s.setOfferStatus offerId .rejected
  | .markOfferExpired offerId => s.setOfferStatus offerId .expired
  | .markOfferCancelled offerId => s.setOfferStatus offerId .cancelled
  | .cancelJob jobId =>
      if (s.jobs.lookup jobId).isSome then
        { s with
          cancelledJobs := insert jobId s.cancelledJobs
          offers := cancelWhere (pendingOf jobId) s.offers }.pushEvents jobId
            (sweepCount (pendingOf jobId) s.offers + if jobId ∉ s.cancelledJobs then 1 else 0)
      else s
  | .removeDriver driverId => { s with drivers := s.drivers.erase driverId }
  | .recordWebhookDeliveryFailed jobId _ =>
      if (s.jobs.lookup jobId).isSome then s.pushEvent jobId else s

def replay (s : Ledger) (log : List Command) : Ledger := log.foldl apply s

theorem replay_append (s : Ledger) (log more : List Command) :
    s.replay (log ++ more) = (s.replay log).replay more :=
  List.foldl_append

theorem replay_snoc (s : Ledger) (log : List Command) (cmd : Command) :
    s.replay (log ++ [cmd]) = (s.replay log).apply cmd := by
  rw [replay_append]
  rfl

/-! ## What a command does to one offer -/

@[simp] theorem lookup_cancelWhere (p : OfferRecord → Bool) (offers : HashMap Uuid OfferRecord)
    (k : Uuid) :
    (cancelWhere p offers).lookup k =
      (offers.lookup k).map fun o => if p o then { o with status := .cancelled } else o :=
  HashMap.lookup_mapValues _ _ _

theorem lookup_markBusy (drivers : HashMap Uuid DriverSnapshot) (winner d : Uuid) :
    (markBusy winner drivers).lookup d =
      (drivers.lookup d).map fun r => if d = winner then { r with status := .busy } else r := by
  unfold markBusy
  cases registered : drivers.lookup winner with
  | none =>
      by_cases same : d = winner
      · subst same
        simp [registered]
      · simp [same]
  | some r =>
      simp only [HashMap.lookup_insert_if]
      by_cases same : d = winner
      · subst same
        simp [registered]
      · simp [same]

/-- The status a command leaves on the offer `o` stored under `k`. -/
def newStatus (s : Ledger) : Command → Uuid → OfferRecord → OfferStatus
  | .acceptOffer offerId _, k, o =>
      if k = offerId then .accepted
      else
        match s.offers.lookup offerId with
        | none => o.status
        | some selected =>
            if competesWith selected.jobId selected.offerId o then .cancelled else o.status
  | .rejectOffer offerId _, k, o => if k = offerId then .rejected else o.status
  | .markOfferExpired offerId, k, o => if k = offerId then .expired else o.status
  | .markOfferCancelled offerId, k, o => if k = offerId then .cancelled else o.status
  | .cancelJob jobId, _, o =>
      if (s.jobs.lookup jobId).isSome && pendingOf jobId o then .cancelled else o.status
  | _, _, o => o.status

/-! ## Counting events touches nothing else -/

section frame

variable (s : Ledger) (jobId : Uuid) (n : Nat)

@[simp] theorem pushEvent_drivers : (s.pushEvent jobId).drivers = s.drivers := rfl
@[simp] theorem pushEvent_jobs : (s.pushEvent jobId).jobs = s.jobs := rfl
@[simp] theorem pushEvent_offers : (s.pushEvent jobId).offers = s.offers := rfl
@[simp] theorem pushEvent_cancelledJobs :
    (s.pushEvent jobId).cancelledJobs = s.cancelledJobs := rfl

@[simp] theorem pushEvents_drivers : (s.pushEvents jobId n).drivers = s.drivers := by
  induction n generalizing s with
  | zero => rfl
  | succ n ih => exact ih _

@[simp] theorem pushEvents_jobs : (s.pushEvents jobId n).jobs = s.jobs := by
  induction n generalizing s with
  | zero => rfl
  | succ n ih => exact ih _

@[simp] theorem pushEvents_offers : (s.pushEvents jobId n).offers = s.offers := by
  induction n generalizing s with
  | zero => rfl
  | succ n ih => exact ih _

@[simp] theorem pushEvents_cancelledJobs :
    (s.pushEvents jobId n).cancelledJobs = s.cancelledJobs := by
  induction n generalizing s with
  | zero => rfl
  | succ n ih => exact ih _

theorem pushEvents_add (m : Nat) :
    s.pushEvents jobId (m + n) = (s.pushEvents jobId m).pushEvents jobId n := by
  induction m generalizing s with
  | zero => simp only [Nat.zero_add, pushEvents]
  | succ m ih => simp only [Nat.succ_add, pushEvents, ih]

end frame

theorem setOfferStatus_offers (s : Ledger) (offerId k : Uuid) (status : OfferStatus) :
    (s.setOfferStatus offerId status).offers.lookup k =
      (s.offers.lookup k).map fun o =>
        { o with status := if k = offerId then status else o.status } := by
  unfold setOfferStatus
  cases found : s.offers.lookup offerId with
  | none =>
      by_cases same : k = offerId
      · subst same
        simp [found]
      · simp [same]
  | some offer =>
      simp only [pushEvent_offers, HashMap.lookup_insert_if]
      by_cases same : k = offerId
      · subst same
        simp [found]
      · simp [same]

theorem lookup_createOffer (s : Ledger) (offer : OfferRecord) (k : Uuid) :
    (s.apply (.createOffer offer)).offers.lookup k =
      if k = offer.offerId then some offer else s.offers.lookup k :=
  HashMap.lookup_insert_if s.offers offer.offerId k offer

/-- Every other command keeps the offers there are and rewrites statuses alone. -/
theorem lookup_apply (s : Ledger) {cmd : Command} (other : ∀ offer, cmd ≠ .createOffer offer)
    (k : Uuid) :
    (s.apply cmd).offers.lookup k =
      (s.offers.lookup k).map fun o => { o with status := s.newStatus cmd k o } := by
  cases cmd with
  | createOffer offer => exact absurd rfl (other offer)
  | upsertDriverLocation | registerJob | removeDriver => simp [apply, newStatus]
  | rejectOffer | markOfferExpired | markOfferCancelled => exact setOfferStatus_offers s _ _ _
  | recordWebhookDeliveryFailed =>
      simp only [apply, newStatus]
      split <;> simp
  | acceptOffer offerId respondedAt =>
      simp only [apply, newStatus]
      cases found : s.offers.lookup offerId with
      | none =>
          by_cases same : k = offerId
          · subst same
            simp [found]
          · simp [same]
      | some selected =>
          simp only [pushEvents_offers, lookup_cancelWhere, HashMap.lookup_insert_if]
          by_cases same : k = offerId
          · subst same
            simp [found, competesWith]
          · simp only [same, if_false]
            congr 1
            funext o
            split <;> rfl
  | cancelJob jobId =>
      simp only [apply, newStatus]
      split
      · rename_i known
        simp only [pushEvents_offers, lookup_cancelWhere, known, Bool.true_and]
        congr 1
        funext o
        split <;> rfl
      · rename_i unknown
        simp [unknown]

theorem lookup_jobs_apply (s : Ledger) (cmd : Command) (j : Uuid) :
    (s.apply cmd).jobs.lookup j =
      match cmd with
      | .registerJob job => if j = job.jobId then some job else s.jobs.lookup j
      | _ => s.jobs.lookup j := by
  cases cmd with
  | registerJob job => exact HashMap.lookup_insert_if s.jobs job.jobId j job
  | rejectOffer | markOfferExpired | markOfferCancelled =>
      simp only [apply, setOfferStatus]
      split <;> rfl
  | acceptOffer | cancelJob | recordWebhookDeliveryFailed =>
      simp only [apply]
      split <;> simp
  | upsertDriverLocation | createOffer | removeDriver => rfl

theorem job_kept {s : Ledger} {jobId : Uuid} {job : JobRequest}
    (known : s.jobs.lookup jobId = some job) (cmd : Command) :
    ∃ job, (s.apply cmd).jobs.lookup jobId = some job := by
  rw [lookup_jobs_apply]
  cases cmd with
  | registerJob new =>
      simp only
      split
      · exact ⟨new, rfl⟩
      · exact ⟨job, known⟩
  | _ => exact ⟨job, known⟩

theorem cancelledJobs_apply (s : Ledger) (cmd : Command) :
    (s.apply cmd).cancelledJobs =
      match cmd with
      | .registerJob job => s.cancelledJobs.erase job.jobId
      | .cancelJob jobId =>
          if (s.jobs.lookup jobId).isSome then insert jobId s.cancelledJobs else s.cancelledJobs
      | _ => s.cancelledJobs := by
  cases cmd with
  | rejectOffer | markOfferExpired | markOfferCancelled =>
      simp only [apply, setOfferStatus]
      split <;> rfl
  | acceptOffer | cancelJob | recordWebhookDeliveryFailed =>
      simp only [apply]
      split <;> simp
  | registerJob | upsertDriverLocation | createOffer | removeDriver => rfl

end Ledger

/-! ## The engine follows the machine -/

namespace Engine

variable {β : Type} [StorageBackend β] (host : Host) (e : Engine β)

omit [StorageBackend β] in
@[simp] theorem drawn_toLedger : e.drawn.toLedger = e.toLedger := rfl

@[simp] theorem pushJobEvent_toLedger (jobId : Uuid) (kind : JobEventKind) :
    (e.pushJobEvent host jobId kind).toLedger = e.toLedger.pushEvent jobId := rfl

variable {host e} in
/-- The rule for several events: what each push keeps, they keep. -/
theorem pushJobEvents_rule {P : Engine β → Prop} {jobId : Uuid} (held : P e)
    (pushed : ∀ e kind, P e → P (e.pushJobEvent host jobId kind)) (kinds : List JobEventKind) :
    P (e.pushJobEvents host jobId kinds) :=
  List.foldlRecOn kinds _ held fun e held kind _ => pushed e kind held

@[simp] theorem pushJobEvents_toLedger (jobId : Uuid) (kinds : List JobEventKind) :
    (e.pushJobEvents host jobId kinds).toLedger = e.toLedger.pushEvents jobId kinds.length := by
  unfold pushJobEvents
  induction kinds generalizing e with
  | nil => rfl
  | cons kind kinds ih => simp only [List.foldl_cons, ih, pushJobEvent_toLedger,
      List.length_cons, Ledger.pushEvents]

omit [StorageBackend β] in
/-- The order of a sweep decides which event comes first, not how many there are. -/
theorem length_cancelledEvents (p : OfferRecord → Bool) (offers : HashMap Uuid OfferRecord) :
    (e.cancelledEvents host p offers).length = Ledger.sweepCount p offers := by
  simp only [cancelledEvents, List.length_map, Ledger.sweepCount]
  exact ((HashMap.iter_perm_values (host.order_perm e.tick) offers).filter p).length_eq

@[simp] theorem setOfferStatus_toLedger (offerId : Uuid) (status : OfferStatus)
    (kind : Uuid → JobEventKind) :
    (e.setOfferStatus host offerId status kind).toLedger =
      e.toLedger.setOfferStatus offerId status := by
  unfold setOfferStatus Ledger.setOfferStatus
  cases e.offers.lookup offerId <;> rfl

theorem applyCommand_toLedger (cmd : Command) :
    (e.applyCommand host cmd).toLedger = e.toLedger.apply cmd := by
  cases cmd with
  | upsertDriverLocation | registerJob | createOffer | removeDriver => rfl
  | acceptOffer offerId respondedAt =>
      simp only [applyCommand, Ledger.apply]
      cases e.offers.lookup offerId with
      | none => rfl
      | some offer =>
          simp only [pushJobEvent_toLedger, pushJobEvents_toLedger, length_cancelledEvents,
            Ledger.pushEvents_add]
          rfl
  | rejectOffer | markOfferExpired | markOfferCancelled =>
      exact setOfferStatus_toLedger host e _ _ _
  | cancelJob jobId =>
      simp only [applyCommand, Ledger.apply]
      split
      · split
        · simp only [pushJobEvent_toLedger, pushJobEvents_toLedger, length_cancelledEvents,
            Ledger.pushEvents_add]
          rfl
        · simp only [pushJobEvents_toLedger, length_cancelledEvents, Nat.add_zero]
      · rfl
  | recordWebhookDeliveryFailed jobId offerId =>
      simp only [applyCommand, Ledger.apply]
      split <;> rfl

@[simp] theorem appendAndApply_toLedger (cmd : Command) :
    (e.appendAndApply host cmd).toLedger = e.toLedger.apply cmd :=
  applyCommand_toLedger host _ cmd

/-! Commands leave the write-ahead position alone; logging advances it by one. -/

@[simp] theorem pushJobEvent_walSequence (jobId : Uuid) (kind : JobEventKind) :
    (e.pushJobEvent host jobId kind).walSequence = e.walSequence := rfl

@[simp] theorem pushJobEvents_walSequence (jobId : Uuid) (kinds : List JobEventKind) :
    (e.pushJobEvents host jobId kinds).walSequence = e.walSequence :=
  pushJobEvents_rule (P := fun e' => e'.walSequence = e.walSequence) rfl (fun _ _ same => same) kinds

theorem applyCommand_walSequence (cmd : Command) :
    (e.applyCommand host cmd).walSequence = e.walSequence := by
  cases cmd with
  | upsertDriverLocation | registerJob | createOffer | removeDriver => rfl
  | rejectOffer | markOfferExpired | markOfferCancelled =>
      simp only [applyCommand, setOfferStatus]
      split <;> rfl
  | acceptOffer =>
      simp only [applyCommand]
      split
      · rfl
      · simp only [pushJobEvent_walSequence, pushJobEvents_walSequence]
  | cancelJob =>
      simp only [applyCommand]
      split
      · split
        · simp only [pushJobEvent_walSequence, pushJobEvents_walSequence]
        · simp only [pushJobEvents_walSequence]
      · rfl
  | recordWebhookDeliveryFailed =>
      simp only [applyCommand]
      split <;> rfl

end Engine

end Spatiad
