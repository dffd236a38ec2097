import Spatiad.LoggedMutations
import Spatiad.Foundation.Views
import Spatiad.Foundation.Restriction

/-! # Jobs apart

What the engine holds about a job is a machine of its own: it follows the commands
that concern the job and no others.  A ledger is thus as many job machines side by
side, beside its drivers.
-/

namespace Spatiad

open Foundation HashMap

/-! ## The part of one job -/

/-- All that is held about one job. -/
structure JobPart where
  request : Option JobRequest
  cancelled : Bool
  offers : HashMap Uuid OfferRecord
  /-- How many events it has had. -/
  events : Nat

def forJob (jobId : Uuid) (o : OfferRecord) : Bool := o.jobId == jobId

def Ledger.part (s : Ledger) (jobId : Uuid) : JobPart where
  request := s.jobs.lookup jobId
  cancelled := jobId ∈ s.cancelledJobs
  offers := restrict (forJob jobId) s.offers
  events := (s.jobEventSequences.lookup jobId).getD 0

namespace JobPart

def blank : JobPart := ⟨none, false, ∅, 0⟩

def setOfferStatus (part : JobPart) (offerId : Uuid) (status : OfferStatus) : JobPart :=
  match part.offers.lookup offerId with
  | none => part
  | some offer =>
      { part with
        offers := part.offers.insert offerId { offer with status }
        events := part.events + 1 }

/-- What a command does to the job `jobId`, as far as the job can tell. -/
def act (jobId : Uuid) (part : JobPart) : Command → JobPart
  | .registerJob job =>
      if job.jobId = jobId then
        { part with request := some job, cancelled := false, events := part.events + 1 }
      else part
  | .createOffer offer =>
      if offer.jobId = jobId then
        { part with
          offers := part.offers.insert offer.offerId offer
          events := part.events + 1 }
      else part
  | .acceptOffer offerId _ =>
      match part.offers.lookup offerId with
      | none => part
      | some offer =>
          let offers := part.offers.insert offerId { offer with status := .accepted }
          let competing := competesWith jobId offer.offerId
          { part with
            offers := cancelWhere competing offers
            events := part.events + (Ledger.sweepCount competing offers + 2) }
  | .rejectOffer offerId _ => part.setOfferStatus offerId .rejected
  | .markOfferExpired offerId => part.setOfferStatus offerId .expired
  | .markOfferCancelled offerId => part.setOfferStatus offerId .cancelled
  | .cancelJob job =>
      if job = jobId ∧ part.request.isSome then
        { part with
          cancelled := true
          offers := cancelWhere (pendingOf jobId) part.offers
          events := part.events + (Ledger.sweepCount (pendingOf jobId) part.offers +
            if part.cancelled then 0 else 1) }
      else part
  | .recordWebhookDeliveryFailed job _ =>
      if job = jobId ∧ part.request.isSome then { part with events := part.events + 1 } else part
  | .upsertDriverLocation .. | .removeDriver _ => part

end JobPart

/-! ## A ledger's part follows the job's machine -/

namespace Ledger

variable {s : Ledger} {j : Uuid}

theorem part_ext {part : JobPart} (request : s.jobs.lookup j = part.request)
    (cancelled : decide (j ∈ s.cancelledJobs) = part.cancelled)
    (offers : restrict (forJob j) s.offers = part.offers)
    (events : (s.jobEventSequences.lookup j).getD 0 = part.events) : s.part j = part := by
  cases part
  simp_all [part]

theorem events_pushEvents (s : Ledger) (jobId : Uuid) (n : Nat) (j : Uuid) :
    ((s.pushEvents jobId n).jobEventSequences.lookup j).getD 0 =
      (s.jobEventSequences.lookup j).getD 0 + if j = jobId then n else 0 := by
  induction n generalizing s with
  | zero => simp [pushEvents]
  | succ n ih =>
      rw [pushEvents, ih, pushEvent, lookup_insert_if]
      by_cases same : j = jobId
      · subst same
        simp only [if_true, Option.getD_some]
        omega
      · simp only [same, if_false]

theorem lookup_part_offers (s : Ledger) (j k : Uuid) :
    (s.part j).offers.lookup k = (s.offers.lookup k).filter (forJob j) :=
  lookup_restrict _ _ _

theorem part_setOfferStatus (s : Ledger) (offerId : Uuid) (status : OfferStatus) (j : Uuid) :
    (s.setOfferStatus offerId status).part j = (s.part j).setOfferStatus offerId status := by
  unfold setOfferStatus JobPart.setOfferStatus
  rw [lookup_part_offers]
  cases found : s.offers.lookup offerId with
  | none => rfl
  | some offer =>
      have pushed := events_pushEvents
        { s with offers := s.offers.insert offerId { offer with status } } offer.jobId 1 j
      by_cases mine : offer.jobId = j
      · subst mine
        simp only [Option.filter, forJob, beq_self_eq_true, if_true]
        refine part_ext rfl rfl ?_ ?_
        · exact (restrict_insert _ _ _ _).trans (if_pos (by simp [forJob]))
        · exact pushed.trans (by simp [part])
      · have outside : forJob j { offer with status } = false := by simp [forJob, mine]
        have apart : (restrict (forJob j) s.offers).lookup offerId = none := by
          rw [lookup_restrict, found]
          simp [Option.filter, forJob, mine]
        simp only [Option.filter, forJob, beq_eq_false_iff_ne.mpr mine, Bool.false_eq_true, if_false]
        refine part_ext rfl rfl (restrict_insert_other outside apart) ?_
        exact pushed.trans (by simp [part, Ne.symm mine])

theorem sweep_part {p : OfferRecord → Bool} (within : ∀ o, p o = true → forJob j o = true)
    (offers : HashMap Uuid OfferRecord) :
    restrict (forJob j) (cancelWhere p offers) = cancelWhere p (restrict (forJob j) offers) ∧
      sweepCount p offers = sweepCount p (restrict (forJob j) offers) := by
  constructor
  · refine restrict_mapValues (fun o => ?_) offers
    simp only [forJob]
    split <;> rfl
  · rw [sweepCount, sweepCount, values_restrict, List.filter_filter]
    congr 1
    refine List.filter_congr fun o _ => ?_
    cases swept : p o with
    | false => rfl
    | true => simp [within o swept]

theorem sweep_other {p : OfferRecord → Bool} (outside : ∀ o, p o = true → forJob j o = false)
    (offers : HashMap Uuid OfferRecord) :
    restrict (forJob j) (cancelWhere p offers) = restrict (forJob j) offers := by
  have same : restrict (forJob j) (cancelWhere p offers) =
      cancelWhere p (restrict (forJob j) offers) := by
    refine restrict_mapValues (fun o => ?_) offers
    simp only [forJob]
    split <;> rfl
  rw [same]
  refine mapValues_eq_self fun k o found => ?_
  rw [lookup_restrict, Option.filter_eq_some_iff] at found
  have kept : p o ≠ true := fun swept => by
    rw [outside o swept] at found
    exact Bool.false_ne_true found.2
  exact if_neg kept

theorem part_acceptOffer (keyed : s.Keyed) (offerId : Uuid) (respondedAt : DateTime) (j : Uuid) :
    (s.apply (.acceptOffer offerId respondedAt)).part j =
      (s.part j).act j (.acceptOffer offerId respondedAt) := by
  simp only [apply, JobPart.act, lookup_part_offers]
  cases found : s.offers.lookup offerId with
  | none => rfl
  | some offer =>
      obtain rfl : offer.offerId = offerId := keyed offerId offer found
      let accepted := s.offers.insert offer.offerId { offer with status := .accepted }
      let competing := competesWith offer.jobId offer.offerId
      have pushed := events_pushEvents
        { s with offers := cancelWhere competing accepted, drivers := markBusy offer.driverId s.drivers }
        offer.jobId (sweepCount competing accepted + 2) j
      by_cases mine : offer.jobId = j
      · subst mine
        have within : ∀ o, competing o = true → forJob offer.jobId o = true := by
          intro o swept
          simp only [competing, competesWith, Bool.and_eq_true] at swept
          exact swept.1.1
        have stored : restrict (forJob offer.jobId) accepted =
            (restrict (forJob offer.jobId) s.offers).insert offer.offerId
              { offer with status := .accepted } :=
          (restrict_insert _ _ _ _).trans (if_pos (by simp [forJob]))
        obtain ⟨offers, count⟩ := sweep_part within accepted
        rw [stored] at offers count
        simp only [Option.filter, forJob, beq_self_eq_true, if_true]
        refine part_ext ?_ ?_ ?_ ?_
        · rw [pushEvents_jobs]
          rfl
        · rw [pushEvents_cancelledJobs]
          rfl
        · rw [pushEvents_offers]
          exact offers
        · refine pushed.trans ?_
          rw [if_pos rfl, count]
          rfl
      · have outside : forJob j { offer with status := .accepted } = false := by simp [forJob, mine]
        have apart : (restrict (forJob j) s.offers).lookup offer.offerId = none := by
          rw [lookup_restrict, found]
          simp [Option.filter, forJob, mine]
        have others : ∀ o, competing o = true → forJob j o = false := by
          intro o swept
          simp only [competing, competesWith, Bool.and_eq_true, beq_iff_eq] at swept
          simp [forJob, swept.1.1, mine]
        simp only [Option.filter, forJob, beq_eq_false_iff_ne.mpr mine, Bool.false_eq_true, if_false]
        refine part_ext ?_ ?_ ?_ ?_
        · rw [pushEvents_jobs]
          rfl
        · rw [pushEvents_cancelledJobs]
          rfl
        · rw [pushEvents_offers]
          exact (sweep_other others accepted).trans (restrict_insert_other outside apart)
        · exact pushed.trans (by simp [part, Ne.symm mine])

theorem part_cancelJob (s : Ledger) (jobId j : Uuid) :
    (s.apply (.cancelJob jobId)).part j = (s.part j).act j (.cancelJob jobId) := by
  simp only [apply, JobPart.act]
  by_cases known : (s.jobs.lookup jobId).isSome
  · rw [if_pos known]
    let count := sweepCount (pendingOf jobId) s.offers + if jobId ∉ s.cancelledJobs then 1 else 0
    have pushed := events_pushEvents
      { s with
        cancelledJobs := insert jobId s.cancelledJobs
        offers := cancelWhere (pendingOf jobId) s.offers } jobId count j
    by_cases mine : jobId = j
    · subst mine
      have within : ∀ o, pendingOf jobId o = true → forJob jobId o = true := by
        intro o swept
        simp only [pendingOf, Bool.and_eq_true] at swept
        exact swept.1
      obtain ⟨offers, swept⟩ := sweep_part within s.offers
      have concerned : jobId = jobId ∧ (s.part jobId).request.isSome = true := ⟨rfl, known⟩
      rw [if_pos concerned]
      refine part_ext ?_ ?_ ?_ ?_
      · rw [pushEvents_jobs]
        rfl
      · rw [pushEvents_cancelledJobs]
        simp
      · rw [pushEvents_offers]
        exact offers
      · refine pushed.trans ?_
        simp only [count, swept, if_true, part]
        by_cases again : jobId ∈ s.cancelledJobs <;> simp [again]
    · have others : ∀ o, pendingOf jobId o = true → forJob j o = false := by
        intro o swept
        simp only [pendingOf, Bool.and_eq_true, beq_iff_eq] at swept
        simp [forJob, swept.1, mine]
      have unconcerned : ¬ (jobId = j ∧ (s.part j).request.isSome = true) := fun both => mine both.1
      rw [if_neg unconcerned]
      refine part_ext ?_ ?_ ?_ ?_
      · rw [pushEvents_jobs]
        rfl
      · rw [pushEvents_cancelledJobs]
        simp [part, Ne.symm mine]
      · rw [pushEvents_offers]
        exact sweep_other others s.offers
      · exact pushed.trans (by simp [part, Ne.symm mine])
  · rw [if_neg known]
    refine (if_neg ?_).symm
    rintro ⟨rfl, isKnown⟩
    exact known isKnown

/-- Whatever a command does to a ledger, the part of each job goes where the job's own
    machine goes; a new offer needs an id that is not in use. -/
theorem part_apply (keyed : s.Keyed) {cmd : Command}
    (unused : ∀ offer, cmd = .createOffer offer → s.offers.lookup offer.offerId = none) (j : Uuid) :
    (s.apply cmd).part j = (s.part j).act j cmd := by
  cases cmd with
  | upsertDriverLocation | removeDriver => rfl
  | rejectOffer | markOfferExpired | markOfferCancelled => exact part_setOfferStatus s _ _ j
  | acceptOffer offerId respondedAt => exact part_acceptOffer keyed offerId respondedAt j
  | cancelJob jobId => exact part_cancelJob s jobId j
  | registerJob job =>
      have pushed := events_pushEvents
        { s with jobs := s.jobs.insert job.jobId job, cancelledJobs := s.cancelledJobs.erase job.jobId }
        job.jobId 1 j
      simp only [JobPart.act]
      by_cases mine : job.jobId = j
      · subst mine
        rw [if_pos rfl]
        refine part_ext (AList.lookup_insert _) ?_ rfl (pushed.trans (by simp [part]))
        exact decide_eq_false (Finset.notMem_erase _ _)
      · rw [if_neg mine]
        refine part_ext (AList.lookup_insert_ne (Ne.symm mine)) ?_ rfl ?_
        · simp [apply, part, Ne.symm mine]
        · exact pushed.trans (by simp [part, Ne.symm mine])
  | createOffer offer =>
      have pushed := events_pushEvents
        { s with offers := s.offers.insert offer.offerId offer } offer.jobId 1 j
      simp only [JobPart.act]
      by_cases mine : offer.jobId = j
      · subst mine
        rw [if_pos rfl]
        refine part_ext rfl rfl ?_ (pushed.trans (by simp [part]))
        exact (restrict_insert _ _ _ _).trans (if_pos (by simp [forJob]))
      · rw [if_neg mine]
        have outside : forJob j offer = false := by simp [forJob, mine]
        have apart : (restrict (forJob j) s.offers).lookup offer.offerId = none := by
          rw [lookup_restrict, unused offer rfl]
          rfl
        refine part_ext rfl rfl (restrict_insert_other outside apart) ?_
        exact pushed.trans (by simp [part, Ne.symm mine])
  | recordWebhookDeliveryFailed jobId offerId =>
      have pushed := events_pushEvents s jobId 1 j
      simp only [apply, JobPart.act]
      by_cases known : (s.jobs.lookup jobId).isSome
      · rw [if_pos known]
        by_cases mine : jobId = j
        · subst mine
          rw [if_pos ⟨rfl, known⟩]
          exact part_ext rfl rfl rfl (pushed.trans (by simp [part]))
        · rw [if_neg fun both => mine both.1]
          exact part_ext rfl rfl rfl (pushed.trans (by simp [part, Ne.symm mine]))
      · rw [if_neg known]
        refine (if_neg ?_).symm
        rintro ⟨rfl, isKnown⟩
        exact known isKnown

end Ledger

/-! ## Logs -/

def Command.createdOffer : Command → Option OfferRecord
  | .createOffer offer => some offer
  | _ => none

def createdIds (log : List Command) : List Uuid :=
  (log.filterMap Command.createdOffer).map OfferRecord.offerId

def offersOf (jobId : Uuid) (log : List Command) : List Uuid :=
  ((log.filterMap Command.createdOffer).filter (forJob jobId)).map OfferRecord.offerId

/-- A command names the job, or one of these offers. -/
def Command.concerns (jobId : Uuid) (offers : List Uuid) : Command → Bool
  | .registerJob job => job.jobId == jobId
  | .createOffer offer => offer.jobId == jobId
  | .acceptOffer offerId _ | .rejectOffer offerId _ | .markOfferExpired offerId
  | .markOfferCancelled offerId => offerId ∈ offers
  | .cancelJob job | .recordWebhookDeliveryFailed job _ => job == jobId
  | .upsertDriverLocation .. | .removeDriver _ => false

def ownCommands (jobId : Uuid) (log : List Command) : List Command :=
  log.filter (Command.concerns jobId (offersOf jobId log))

theorem createdIds_snoc (log : List Command) (cmd : Command) :
    createdIds (log ++ [cmd]) =
      createdIds log ++ (cmd.createdOffer.map OfferRecord.offerId).toList := by
  simp only [createdIds, List.filterMap_append, List.map_append]
  cases cmd <;> rfl

theorem offersOf_append (jobId : Uuid) (log more : List Command) :
    offersOf jobId (log ++ more) = offersOf jobId log ++ offersOf jobId more := by
  simp only [offersOf, List.filterMap_append, List.filter_append, List.map_append]

theorem createdIds_filter (keep : Command → Bool) (log : List Command) :
    (createdIds (log.filter keep)).Sublist (createdIds log) :=
  (List.filter_sublist.filterMap _).map _

theorem created_of_lookup {log : List Command} {k : Uuid} {o : OfferRecord}
    (found : (Ledger.empty.replay log).offers.lookup k = some o) :
    k ∈ createdIds log ∧ k ∈ offersOf o.jobId log := by
  induction log using List.reverseRecOn generalizing o with
  | nil => simp [Ledger.replay, Ledger.empty] at found
  | append_singleton log cmd ih =>
      rw [Ledger.replay_snoc] at found
      rw [createdIds_snoc, offersOf_append]
      rcases Ledger.offer_origin found with ⟨rfl, rfl⟩ | ⟨old, before, rfl | ⟨_, rfl⟩⟩
      · exact ⟨by simp [Command.createdOffer], by simp [offersOf, Command.createdOffer, forJob]⟩
      · exact ⟨List.mem_append_left _ (ih before).1, List.mem_append_left _ (ih before).2⟩
      · exact ⟨List.mem_append_left _ (ih before).1, List.mem_append_left _ (ih before).2⟩

theorem lookup_of_created {log : List Command} {k : Uuid} (created : k ∈ createdIds log) :
    (Ledger.empty.replay log).offers.lookup k ≠ none := by
  induction log using List.reverseRecOn with
  | nil => cases created
  | append_singleton log cmd ih =>
      rw [Ledger.replay_snoc]
      rw [createdIds_snoc, List.mem_append] at created
      by_cases creates : ∃ offer, cmd = .createOffer offer
      · obtain ⟨offer, rfl⟩ := creates
        rw [Ledger.lookup_createOffer]
        split
        · exact Option.some_ne_none _
        · rename_i other
          rcases created with before | here
          · exact ih before
          · simp [Command.createdOffer, other] at here
      · have other : ∀ offer, cmd ≠ .createOffer offer := fun offer same => creates ⟨offer, same⟩
        rw [Ledger.lookup_apply _ other]
        rcases created with before | here
        · cases found : (Ledger.empty.replay log).offers.lookup k with
          | none => exact absurd found (ih before)
          | some o => exact Option.some_ne_none _
        · cases cmd with
          | createOffer offer => exact absurd rfl (other offer)
          | _ => simp [Command.createdOffer] at here

section logs

variable {log : List Command} {j : Uuid}

/-- In a log that gives no id twice every new offer finds its id unused. -/
theorem unused_of_nodup (distinct : (createdIds log).Nodup) {past rest : List Command}
    {cmd : Command} (split : log = past ++ cmd :: rest) (offer : OfferRecord)
    (creates : cmd = .createOffer offer) :
    (Ledger.empty.replay past).offers.lookup offer.offerId = none := by
  cases found : (Ledger.empty.replay past).offers.lookup offer.offerId with
  | none => rfl
  | some o =>
      have twice : createdIds log = createdIds past ++ (offer.offerId :: createdIds rest) := by
        subst split creates
        simp [createdIds, Command.createdOffer]
      rw [twice] at distinct
      exact absurd rfl ((List.nodup_append.mp distinct).2.2 _ (created_of_lookup found).1 _
        List.mem_cons_self)

theorem part_replay (distinct : (createdIds log).Nodup) (j : Uuid) :
    (Ledger.empty.replay log).part j = log.foldl (JobPart.act j) .blank := by
  have start : Ledger.empty.part j = .blank := rfl
  rw [← start]
  apply Views.view_foldl (fun s => Ledger.part s j) fun past cmd => ∀ offer,
    cmd = .createOffer offer → (Ledger.empty.replay past).offers.lookup offer.offerId = none
  · intro past cmd unused
    exact Ledger.part_apply (Ledger.keyed_empty.replay past) unused j
  · intro past cmd rest split
    exact unused_of_nodup distinct split

theorem JobPart.lookup_act {part : JobPart} {cmd : Command} {k : Uuid}
    (present : (part.act j cmd).offers.lookup k ≠ none) :
    part.offers.lookup k ≠ none ∨ k ∈ offersOf j [cmd] := by
  have status : ∀ offerId status, (part.setOfferStatus offerId status).offers.lookup k ≠ none →
      part.offers.lookup k ≠ none := by
    intro offerId status present
    unfold setOfferStatus at present
    cases found : part.offers.lookup offerId with
    | none => simpa only [found] using present
    | some offer =>
        simp only [found, lookup_insert_if] at present
        split at present
        · rename_i here
          rw [here, found]
          exact Option.some_ne_none _
        · exact present
  have swept : ∀ p offers, (cancelWhere p offers).lookup k ≠ none → offers.lookup k ≠ none := by
    intro p offers present absent
    rw [Ledger.lookup_cancelWhere, absent] at present
    exact present rfl
  cases cmd with
  | upsertDriverLocation | removeDriver => exact .inl present
  | rejectOffer | markOfferExpired | markOfferCancelled => exact .inl (status _ _ present)
  | registerJob | recordWebhookDeliveryFailed =>
      simp only [act] at present
      split at present <;> exact .inl present
  | createOffer offer =>
      simp only [act] at present
      split at present
      · rename_i mine
        rw [lookup_insert_if] at present
        split at present
        · rename_i here
          exact .inr (by simp [offersOf, Command.createdOffer, forJob, mine, here])
        · exact .inl present
      · exact .inl present
  | cancelJob =>
      simp only [act] at present
      split at present
      · exact .inl (swept _ _ present)
      · exact .inl present
  | acceptOffer offerId =>
      simp only [act] at present
      cases found : part.offers.lookup offerId with
      | none =>
          simp only [found] at present
          exact .inl present
      | some offer =>
          simp only [found] at present
          have there := swept _ _ present
          rw [lookup_insert_if] at there
          split at there
          · rename_i here
            refine .inl ?_
            rw [here, found]
            exact Option.some_ne_none _
          · exact .inl there

theorem JobPart.act_other {part : JobPart} {offers : List Uuid} {cmd : Command}
    (known : ∀ k, part.offers.lookup k ≠ none → k ∈ offers)
    (other : cmd.concerns j offers = false) : part.act j cmd = part := by
  have foreign : ∀ {k}, decide (k ∈ offers) = false → part.offers.lookup k = none := by
    intro k absent
    by_contra present
    exact (decide_eq_false_iff_not.mp absent) (known k present)
  cases cmd with
  | upsertDriverLocation | removeDriver => rfl
  | rejectOffer | markOfferExpired | markOfferCancelled =>
      simp only [act, setOfferStatus, foreign other]
  | acceptOffer => simp only [act, foreign other]
  | registerJob | createOffer => exact if_neg (by simpa [Command.concerns] using other)
  | cancelJob | recordWebhookDeliveryFailed =>
      have apart := (beq_eq_false_iff_ne.mp other)
      exact if_neg fun both => apart both.1

/-- The commands that concern a job are all it takes to rebuild its part. -/
theorem part_own (distinct : (createdIds log).Nodup) (j : Uuid) :
    (Ledger.empty.replay log).part j = (Ledger.empty.replay (ownCommands j log)).part j := by
  have ownDistinct : (createdIds (ownCommands j log)).Nodup :=
    distinct.sublist (createdIds_filter _ log)
  rw [part_replay distinct, part_replay ownDistinct]
  refine Views.foldl_filter_own
    (fun past part => ∀ k, part.offers.lookup k ≠ none → k ∈ offersOf j past) ?_ ?_ ?_
  · intro k present
    exact absurd rfl present
  · intro past part cmd known k present
    rw [offersOf_append, List.mem_append]
    rcases JobPart.lookup_act present with before | created
    · exact .inl (known k before)
    · exact .inr created
  · intro past part cmd rest split known other
    refine JobPart.act_other (fun k present => ?_) other
    rw [split, offersOf_append]
    exact List.mem_append_left _ (known k present)

end logs

/-! ## Runs -/

/-- The log so far accounts for the ledger, and gives no id twice. -/
structure LogAccounts {β : Type} (e : Engine (Recording β)) : Prop where
  ledger : e.toLedger = Ledger.empty.replay e.storage.passed
  distinct : (createdIds e.storage.passed).Nodup

variable {β : Type} [StorageBackend β] {host : Host}

theorem passed_appendAndApply (host : Host) (e : Engine (Recording β)) (cmd : Command) :
    (e.appendAndApply host cmd).storage.passed = e.storage.passed ++ [cmd] :=
  Engine.applyCommand_storage (P := fun r : Recording β => r.passed = e.storage.passed ++ [cmd])
    (fun _ _ _ kept => kept) rfl cmd

theorem LogAccounts.appendAndApply {e : Engine (Recording β)} (accounted : LogAccounts e)
    {cmd : Command} (fresh : ∀ offer, cmd = .createOffer offer → e.toLedger.Fresh offer) :
    LogAccounts (e.appendAndApply host cmd) where
  ledger := by
    rw [Engine.appendAndApply_toLedger, passed_appendAndApply, Ledger.replay_snoc, accounted.ledger]
  distinct := by
    rw [passed_appendAndApply, createdIds_snoc]
    cases creates : cmd.createdOffer with
    | none => simpa using accounted.distinct
    | some offer =>
        have isNew : cmd = .createOffer offer := by
          cases cmd with
          | createOffer o => exact congrArg Command.createOffer (Option.some.inj creates)
          | _ => cases creates
        have unused := (fresh offer isNew).unused
        rw [accounted.ledger] at unused
        refine List.nodup_append.mpr ⟨accounted.distinct, by simp, ?_⟩
        intro k before k' here
        obtain rfl : k' = offer.offerId := by simpa using here
        rintro rfl
        exact lookup_of_created before unused

theorem accounted_run {h3Resolution : Nat} {storage : β} {tick : Nat} {past : List Exchange}
    {e : DispatchService (Recording β)}
    (run : Run (serviceStep host) anyStep
      (Engine.withStorage h3Resolution ⟨storage, []⟩ tick) past e) : LogAccounts e := by
  have start : LogAccounts (Engine.withStorage h3Resolution (⟨storage, []⟩ : Recording β) tick) :=
    ⟨rfl, List.nodup_nil⟩
  refine run.invariant_under (Sound host) (fun _ => LogAccounts) (sound_withStorage _ _ _)
    (fun _ _ _ sound taken => sound.step taken) start ?_
  intro _ e x e' sound accounted _ taken
  obtain ⟨log, trace⟩ := sound.trace taken
  apply trace.rule accounted
  case drawn => exact fun _ held => ⟨held.ledger, held.distinct⟩
  case logged =>
    intro mid cmd issued _ held
    refine held.appendAndApply fun offer creates => ?_
    subst creates
    exact issued.fresh

/-- In every state reached by any run of a service on any backend, what is held about a job
    is what replaying the logged commands that concern it gives; so two services, on whatever
    backends, that have logged the same commands about the job hold the same about it,
    whatever else they did and however it was interleaved. -/
theorem jobs_apart (host : Host) (h3Resolution : Nat) (storage : β) (tick : Nat)
    (past : List Exchange) (e : DispatchService (Recording β))
    (run : Run (serviceStep host) anyStep
      (Engine.withStorage h3Resolution ⟨storage, []⟩ tick) past e) (j : Uuid) :
    e.toLedger.part j = (Ledger.empty.replay (ownCommands j e.storage.passed)).part j ∧
      ∀ {γ : Type} [StorageBackend γ] (host' : Host) (h3Resolution' : Nat) (storage' : γ)
        (tick' : Nat) (past' : List Exchange) (e' : DispatchService (Recording γ)),
        Run (serviceStep host') anyStep (Engine.withStorage h3Resolution' ⟨storage', []⟩ tick')
          past' e' →
        ownCommands j e'.storage.passed = ownCommands j e.storage.passed →
        e'.toLedger.part j = e.toLedger.part j := by
  have accounted := accounted_run run
  have own : e.toLedger.part j =
      (Ledger.empty.replay (ownCommands j e.storage.passed)).part j := by
    rw [accounted.ledger]
    exact part_own accounted.distinct j
  refine ⟨own, ?_⟩
  intro γ _ host' h3Resolution' storage' tick' past' e' run' same
  have accounted' := accounted_run run'
  rw [own, ← same, accounted'.ledger]
  exact part_own accounted'.distinct j

def recordedService : DispatchService (Recording InMemoryBackend) := Engine.withStorage 8 ⟨⟨⟩, []⟩ 0

/-- Job 1 is offered to driver 100, who then leaves and comes back. -/
def firstJobAlone : List Op :=
  [comesOnline 100, .submitJob (jobAtOrigin 1), .expireStaleDrivers (-1), comesOnline 100]

/-- Job 1 is offered to driver 100, then job 2 is submitted and cancelled. -/
def withSecondJob : List Op :=
  [comesOnline 100, .submitJob (jobAtOrigin 1), .submitJob (jobAtOrigin 2), .cancelJob 2]

theorem job_one_apart :
    (performAll stillHost recordedService withSecondJob).2.toLedger.part 1 =
      (performAll stillHost recordedService firstJobAlone).2.toLedger.part 1 := by
  have runs : ∀ ops, Run (serviceStep stillHost) anyStep recordedService
      (performAll stillHost recordedService ops).1 (performAll stillHost recordedService ops).2 :=
    fun ops => performAll_run ops (permitted_any _ _ _) .start
  exact (jobs_apart stillHost 8 InMemoryBackend.mk 0 _ _ (runs firstJobAlone) 1).2 stillHost 8
    InMemoryBackend.mk 0 _ _ (runs withSecondJob) (by decide +kernel)

end Spatiad
