import Spatiad.Dispatch
import Spatiad.Ledger
import Spatiad.Foundation.Runs

/-! # What each operation logs

An operation changes an engine only by draws from the host and by logged
commands.  `Issues` says once which command an operation may log in which
ledger; every invariant of the service is a case analysis on it.
-/

namespace Spatiad

open Foundation

namespace Ledger

def Keyed (s : Ledger) : Prop := ∀ k o, s.offers.lookup k = some o → o.offerId = k

theorem hasOffer_iff {s : Ledger} {jobId : Uuid} {status : OfferStatus} :
    s.hasOffer jobId status = true ↔
      ∃ k o, s.offers.lookup k = some o ∧ o.jobId = jobId ∧ o.status = status := by
  simp only [hasOffer, HashMap.any_values_iff, Bool.and_eq_true, beq_iff_eq]

theorem hasOffer_eq_false_iff {s : Ledger} {jobId : Uuid} {status : OfferStatus} :
    s.hasOffer jobId status = false ↔
      ∀ k o, s.offers.lookup k = some o → o.jobId = jobId → o.status ≠ status := by
  rw [← Bool.not_eq_true, hasOffer_iff]
  constructor
  · intro absent k o found ofJob has
    exact absent ⟨k, o, found, ofJob, has⟩
  · rintro absent ⟨k, o, found, ofJob, has⟩
    exact absent k o found ofJob has

theorem alreadyOffered_iff {s : Ledger} {jobId driverId : Uuid} :
    s.alreadyOffered jobId driverId = true ↔
      ∃ k o, s.offers.lookup k = some o ∧ o.jobId = jobId ∧ o.driverId = driverId := by
  simp only [alreadyOffered, HashMap.any_values_iff, Bool.and_eq_true, beq_iff_eq]

/-- An offer that is there after a command was there before, unless the command
    created it; only its status can have changed. -/
theorem offer_origin {s : Ledger} {cmd : Command} {k : Uuid} {o' : OfferRecord}
    (found : (s.apply cmd).offers.lookup k = some o') :
    (cmd = .createOffer o' ∧ k = o'.offerId) ∨
      ∃ o, s.offers.lookup k = some o ∧
        (o' = o ∨ (∀ offer, cmd ≠ .createOffer offer) ∧
          o' = { o with status := s.newStatus cmd k o }) := by
  by_cases creates : ∃ offer, cmd = .createOffer offer
  · obtain ⟨offer, rfl⟩ := creates
    rw [lookup_createOffer] at found
    split at found
    · rename_i same
      obtain rfl := Option.some.inj found
      exact .inl ⟨rfl, same⟩
    · exact .inr ⟨o', found, .inl rfl⟩
  · have other : ∀ offer, cmd ≠ .createOffer offer := fun offer same => creates ⟨offer, same⟩
    rw [lookup_apply s other, Option.map_eq_some_iff] at found
    obtain ⟨o, before, rfl⟩ := found
    exact .inr ⟨o, before, .inr ⟨other, rfl⟩⟩

/-- Where the record of a driver after a command comes from. -/
inductive DriverOrigin (s : Ledger) (k : Uuid) : Command → DriverSnapshot → Prop where
  | reported {category position status timestamp} :
      DriverOrigin s k (.upsertDriverLocation k category position status timestamp)
        ⟨k, category, status, position, timestamp⟩
  | kept {cmd d} (before : s.drivers.lookup k = some d) : DriverOrigin s k cmd d
  | matched {cmd d} (before : s.drivers.lookup k = some d) :
      DriverOrigin s k cmd { d with status := .busy }

/-- A driver was reported by the command, or was there before, perhaps not busy yet. -/
theorem driver_origin {s : Ledger} {cmd : Command} {k : Uuid} {d : DriverSnapshot}
    (found : (s.apply cmd).drivers.lookup k = some d) : DriverOrigin s k cmd d := by
  cases cmd with
  | upsertDriverLocation driverId =>
      simp only [apply, HashMap.lookup_insert_if] at found
      split at found
      · rename_i same
        subst same
        rw [← Option.some.inj found]
        exact .reported
      · exact .kept found
  | registerJob | createOffer => exact .kept found
  | rejectOffer | markOfferExpired | markOfferCancelled =>
      simp only [apply, setOfferStatus] at found
      split at found <;> exact .kept found
  | cancelJob | recordWebhookDeliveryFailed =>
      simp only [apply] at found
      split at found
      · simp only [pushEvents_drivers, pushEvent_drivers] at found
        exact .kept found
      · exact .kept found
  | removeDriver driverId =>
      simp only [apply, HashMap.lookup_erase_if] at found
      split at found
      · cases found
      · exact .kept found
  | acceptOffer offerId =>
      simp only [apply] at found
      split at found
      · exact .kept found
      · simp only [pushEvents_drivers, lookup_markBusy, Option.map_eq_some_iff] at found
        obtain ⟨r, before, rfl⟩ := found
        split
        · exact .matched before
        · exact .kept before

/-- The ways a command can rewrite a status: by naming the offer, or by a sweep. -/
inductive Rewritten (k : Uuid) (o : OfferRecord) : Command → OfferStatus → Prop where
  | kept {cmd} : Rewritten k o cmd o.status
  | accepted {respondedAt} : Rewritten k o (.acceptOffer k respondedAt) .accepted
  | rejected {respondedAt} : Rewritten k o (.rejectOffer k respondedAt) .rejected
  | expired : Rewritten k o (.markOfferExpired k) .expired
  | withdrawn : Rewritten k o (.markOfferCancelled k) .cancelled
  | swept {cmd} (pending : o.status = .pending) : Rewritten k o cmd .cancelled

theorem rewritten (s : Ledger) (cmd : Command) (k : Uuid) (o : OfferRecord) :
    Rewritten k o cmd (s.newStatus cmd k o) := by
  cases cmd with
  | upsertDriverLocation | registerJob | createOffer | removeDriver
  | recordWebhookDeliveryFailed => exact .kept
  | rejectOffer offerId | markOfferExpired offerId | markOfferCancelled offerId =>
      simp only [newStatus]
      split
      · rename_i same
        subst same
        constructor
      · exact .kept
  | acceptOffer offerId respondedAt =>
      simp only [newStatus]
      split
      · rename_i same
        subst same
        exact .accepted
      · split
        · exact .kept
        · split
          · rename_i competing
            simp only [competesWith, Bool.and_eq_true, beq_iff_eq] at competing
            exact .swept competing.2
          · exact .kept
  | cancelJob jobId =>
      simp only [newStatus]
      split
      · rename_i swept
        simp only [pendingOf, Bool.and_eq_true, beq_iff_eq] at swept
        exact .swept swept.2.2
      · exact .kept

theorem pending_of_newStatus {s : Ledger} {cmd : Command} {k : Uuid} {o : OfferRecord}
    (now : s.newStatus cmd k o = .pending) : o.status = .pending := by
  have change := rewritten s cmd k o
  generalize s.newStatus cmd k o = status at change now
  cases change with
  | kept => exact now
  | accepted | rejected | expired | withdrawn | swept => cases now

theorem accepted_of_newStatus {s : Ledger} {cmd : Command} {k : Uuid} {o : OfferRecord}
    (now : s.newStatus cmd k o = .accepted) :
    o.status = .accepted ∨ ∃ respondedAt, cmd = .acceptOffer k respondedAt := by
  have change := rewritten s cmd k o
  generalize s.newStatus cmd k o = status at change now
  cases change with
  | kept => exact .inl now
  | accepted => exact .inr ⟨_, rfl⟩
  | rejected | expired | withdrawn | swept => cases now

theorem Keyed.apply {s : Ledger} (keyed : s.Keyed) (cmd : Command) : (s.apply cmd).Keyed := by
  intro k o' found
  rcases offer_origin found with ⟨_, same⟩ | ⟨o, before, rfl | ⟨_, rfl⟩⟩
  · exact same.symm
  · exact keyed k _ before
  · exact keyed k o before

theorem Keyed.replay {s : Ledger} (keyed : s.Keyed) (log : List Command) : (s.replay log).Keyed := by
  induction log generalizing s with
  | nil => exact keyed
  | cons cmd log ih => exact ih (keyed.apply cmd)

theorem keyed_empty : Ledger.empty.Keyed := by
  intro k o found
  simp [Ledger.empty] at found

end Ledger

/-! ## Which commands an operation may log -/

/-- Operations that hand a freed job to its next driver. -/
def Op.Redispatches : Op → Prop
  | .expirePendingOffersForDriver _ | .expirePendingOffersGlobal | .handleOfferResponse _ _ => True
  | _ => False

/-- An offer as it is when created: pending, under an id not in use. -/
structure Ledger.Fresh (s : Ledger) (offer : OfferRecord) : Prop where
  pending : offer.status = .pending
  unused : s.offers.lookup offer.offerId = none

/-- `Issues s₀ op s cmd`: the operation `op`, begun in ledger `s₀`, may log `cmd`
    when the ledger is `s`. -/
inductive Issues (s₀ : Ledger) : Op → Ledger → Command → Prop where
  | upsert {driverId category position status s timestamp} :
      Issues s₀ (.upsertDriverLocation driverId category position status) s
        (.upsertDriverLocation driverId category position status timestamp)
  | register {job} : Issues s₀ (.submitJob job) s₀ (.registerJob job)
  /-- A submission looks at no offers the job may already have. -/
  | firstOffer {job offer} (forJob : offer.jobId = job.jobId)
      (fresh : (s₀.apply (.registerJob job)).Fresh offer) :
      Issues s₀ (.submitJob job) (s₀.apply (.registerJob job)) (.createOffer offer)
  /-- Re-dispatch does, and is set off by a pending offer of the job. -/
  | nextOffer {op s offer job} (kind : op.Redispatches) (fresh : s.Fresh offer)
      (registered : s.jobs.lookup offer.jobId = some job)
      (active : offer.jobId ∉ s.cancelledJobs)
      (unmatched : s.hasOffer offer.jobId .accepted = false)
      (idle : s.hasOffer offer.jobId .pending = false)
      (untried : s.alreadyOffered offer.jobId offer.driverId = false)
      (freed : s₀.hasOffer offer.jobId .pending = true) :
      Issues s₀ op s (.createOffer offer)
  | accept {offerId o respondedAt} (found : s₀.offers.lookup offerId = some o)
      (pending : o.status = .pending) :
      Issues s₀ (.handleOfferResponse offerId true) s₀ (.acceptOffer offerId respondedAt)
  | reject {offerId o respondedAt} (found : s₀.offers.lookup offerId = some o)
      (pending : o.status = .pending) :
      Issues s₀ (.handleOfferResponse offerId false) s₀ (.rejectOffer offerId respondedAt)
  | expire {op s offerId o} (kind : op.Redispatches) (found : s.offers.lookup offerId = some o)
      (pending : o.status = .pending) : Issues s₀ op s (.markOfferExpired offerId)
  /-- A withdrawal does not look at the status of the offer. -/
  | withdraw {offerId o} (found : s₀.offers.lookup offerId = some o) :
      Issues s₀ (.cancelOffer offerId) s₀ (.markOfferCancelled offerId)
  | cancelJob {jobId} (known : (s₀.jobs.lookup jobId).isSome) :
      Issues s₀ (.cancelJob jobId) s₀ (.cancelJob jobId)
  | removeDriver {ttl s driverId} : Issues s₀ (.expireStaleDrivers ttl) s (.removeDriver driverId)
  | webhook {jobId offerId} (known : (s₀.jobs.lookup jobId).isSome) :
      Issues s₀ (.recordWebhookDeliveryFailed jobId offerId) s₀
        (.recordWebhookDeliveryFailed jobId offerId)

theorem Issues.fresh {s₀ s : Ledger} {op : Op} {offer : OfferRecord}
    (issued : Issues s₀ op s (.createOffer offer)) : s.Fresh offer := by
  cases issued with
  | firstOffer _ isFresh => exact isFresh
  | nextOffer _ isFresh => exact isFresh

section trace

variable {β : Type} [StorageBackend β] (host : Host)

/-- From one engine to another by draws and by logging the listed commands, each
    in a ledger that `may` permits. -/
inductive Trace (may : Ledger → Command → Prop) : Engine β → List Command → Engine β → Prop where
  | done (e) : Trace may e [] e
  | draw {e log e'} : Trace may e.drawn log e' → Trace may e log e'
  | log {e cmd log e'} (permitted : may e.toLedger cmd)
      (drawnId : ∀ offer, cmd = .createOffer offer → ∃ n < e.tick, offer.offerId = host.newV4 n) :
      Trace may (e.appendAndApply host cmd) log e' → Trace may e (cmd :: log) e'

/-- Every offer id in use was drawn from the host. -/
def IdsDrawn (e : Engine β) : Prop :=
  ∀ k o, e.offers.lookup k = some o → ∃ n < e.tick, k = host.newV4 n

variable {host} {may : Ledger → Command → Prop} {e e' e'' : Engine β} {log more : List Command}

namespace Trace

theorem trans (first : Trace host may e log e') (second : Trace host may e' more e'') :
    Trace host may e (log ++ more) e'' := by
  induction first with
  | done => exact second
  | draw _ ih => exact .draw (ih second)
  | log permitted drawnId _ ih => exact .log permitted drawnId (ih second)

theorem single {cmd : Command} (permitted : may e.toLedger cmd)
    (other : ∀ offer, cmd ≠ .createOffer offer) :
    Trace host may e [cmd] (e.appendAndApply host cmd) :=
  .log permitted (fun offer same => absurd same (other offer)) (.done _)

/-- The ledger at the end is the log replayed on the ledger at the start. -/
theorem toLedger_eq (trace : Trace host may e log e') :
    e'.toLedger = e.toLedger.replay log := by
  induction trace with
  | done => rfl
  | draw _ ih => exact ih
  | log _ _ _ ih => rw [ih, Engine.appendAndApply_toLedger]; rfl

/-- The rule for a trace: what draws and permitted commands keep, it keeps. -/
theorem rule {P : Engine β → Prop} (trace : Trace host may e log e') (held : P e)
    (drawn : ∀ e, P e → P e.drawn)
    (logged : ∀ e cmd, may e.toLedger cmd →
      (∀ offer, cmd = .createOffer offer → ∃ n < e.tick, offer.offerId = host.newV4 n) →
      P e → P (e.appendAndApply host cmd)) : P e' := by
  induction trace with
  | done => exact held
  | draw _ ih => exact ih (drawn _ held)
  | log permitted drawnId _ ih => exact ih (logged _ _ permitted drawnId held)

theorem ledger_invariant (P : Ledger → Prop)
    (preserved : ∀ s cmd, P s → may s cmd → P (s.apply cmd))
    (trace : Trace host may e log e') (held : P e.toLedger) : P e'.toLedger := by
  apply trace.rule (P := fun e : Engine β => P e.toLedger) held
  case drawn => exact fun _ held => held
  case logged =>
    intro e cmd permitted _ held
    rw [Engine.appendAndApply_toLedger]
    exact preserved _ _ held permitted

theorem keyed (trace : Trace host may e log e') (held : e.toLedger.Keyed) :
    e'.toLedger.Keyed :=
  trace.ledger_invariant Ledger.Keyed (fun _ cmd held _ => held.apply cmd) held

end Trace

/-! Draws only go forward. -/

namespace Engine

variable (host) (e)

theorem tick_pushJobEvents (jobId : Uuid) (kinds : List JobEventKind) :
    e.tick ≤ (e.pushJobEvents host jobId kinds).tick :=
  pushJobEvents_rule (P := fun e' => e.tick ≤ e'.tick) (Nat.le_refl _)
    (fun _ _ later => Nat.le_succ_of_le later) kinds

theorem tick_setOfferStatus (offerId : Uuid) (status : OfferStatus)
    (kind : Uuid → JobEventKind) : e.tick ≤ (e.setOfferStatus host offerId status kind).tick := by
  unfold setOfferStatus
  split
  · exact Nat.le_refl _
  · exact Nat.le_succ _

theorem tick_applyCommand (cmd : Command) : e.tick ≤ (e.applyCommand host cmd).tick := by
  cases cmd with
  | upsertDriverLocation | removeDriver => exact Nat.le_refl _
  | registerJob | createOffer => exact Nat.le_succ _
  | rejectOffer | markOfferExpired | markOfferCancelled => exact tick_setOfferStatus host e _ _ _
  | acceptOffer offerId respondedAt =>
      simp only [applyCommand]
      split
      · exact Nat.le_refl _
      · rename_i offer _
        let offers := e.offers.insert offerId { offer with status := .accepted }
        let competing := competesWith offer.jobId offer.offerId
        have swept := tick_pushJobEvents host
          { e with
            offers := cancelWhere competing offers
            drivers := markBusy offer.driverId e.drivers }
          offer.jobId (e.cancelledEvents host competing offers)
        exact Nat.le_trans swept (Nat.le_trans (Nat.le_succ _) (Nat.le_succ _))
  | cancelJob jobId =>
      simp only [applyCommand]
      split
      · have swept := tick_pushJobEvents host
          { e with
            cancelledJobs := insert jobId e.cancelledJobs
            offers := cancelWhere (pendingOf jobId) e.offers }
          jobId (e.cancelledEvents host (pendingOf jobId) e.offers)
        split
        · exact Nat.le_trans swept (Nat.le_succ _)
        · exact swept
      · exact Nat.le_refl _
  | recordWebhookDeliveryFailed =>
      simp only [applyCommand]
      split
      · exact Nat.le_succ _
      · exact Nat.le_refl _

theorem tick_appendAndApply (cmd : Command) : e.tick ≤ (e.appendAndApply host cmd).tick := by
  let walSequence := e.walSequence + 1
  let storage := (StorageBackend.appendWal e.storage walSequence cmd).2
  exact tick_applyCommand host { e with walSequence, storage } cmd

end Engine

omit [StorageBackend β] in
theorem IdsDrawn.drawn (ids : IdsDrawn host e) : IdsDrawn host e.drawn := by
  intro k o found
  obtain ⟨n, early, same⟩ := ids k o found
  exact ⟨n, Nat.lt_succ_of_lt early, same⟩

namespace Trace

theorem idsDrawn (trace : Trace host may e log e') (held : IdsDrawn host e) :
    IdsDrawn host e' := by
  apply trace.rule held
  case drawn => exact fun _ held => held.drawn
  case logged =>
    intro e cmd _ drawnId held k o' found
    have later := Engine.tick_appendAndApply host e cmd
    rw [Engine.appendAndApply_toLedger] at found
    cases Ledger.offer_origin found with
    | inl created =>
        obtain ⟨n, early, drawn⟩ := drawnId o' created.1
        exact ⟨n, Nat.lt_of_lt_of_le early later, created.2.trans drawn⟩
    | inr known =>
        obtain ⟨o, before, _⟩ := known
        obtain ⟨n, early, drawn⟩ := held k o before
        exact ⟨n, Nat.lt_of_lt_of_le early later, drawn⟩

end Trace

end trace

end Spatiad
