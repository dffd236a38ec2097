import Spatiad.EmittedEvents
import Spatiad.Foundation.FirstWrites

/-! # The events of a history of commands

A command emits a sweep, in whatever order the offers come out, and then the rest.
Counted over a history, its events are the numbers that the ledger gives out.
-/

namespace Spatiad

open Foundation

namespace Ledger

/-- How many offers a command cancels by a sweep. -/
def sweeps (s : Ledger) : Command → Nat
  | .acceptOffer offerId _ =>
      match s.offers.lookup offerId with
      | none => 0
      | some offer =>
          sweepCount (competesWith offer.jobId offer.offerId)
            (s.offers.insert offerId { offer with status := .accepted })
  | .cancelJob jobId =>
      if (s.jobs.lookup jobId).isSome then sweepCount (pendingOf jobId) s.offers else 0
  | _ => 0

def counted (s : Ledger) (j : Uuid) : Nat := (s.jobEventSequences.lookup j).getD 0

/-- The events that each command of a history produces for a job, offers taken in
    storage order. -/
def productions (s : Ledger) (j : Uuid) : List Command → List (List JobEventKind)
  | [] => []
  | cmd :: rest => s.emitted id cmd j :: (s.apply cmd).productions j rest

variable {order : List Uuid → List Uuid}

/-! ## One command -/

theorem sweepEvents_perm (arranged : ∀ ks, (order ks).Perm ks) (p : OfferRecord → Bool)
    (offers : HashMap Uuid OfferRecord) :
    (sweepEvents order p offers).Perm (sweepEvents id p offers) :=
  ((HashMap.iter_perm_values arranged offers).filter p).map _

theorem length_sweepEvents (arranged : ∀ ks, (order ks).Perm ks) (p : OfferRecord → Bool)
    (offers : HashMap Uuid OfferRecord) :
    (sweepEvents order p offers).length = sweepCount p offers := by
  rw [(sweepEvents_perm arranged p offers).length_eq, sweepEvents, List.length_map]
  rfl

theorem nodup_sweepEvents (arranged : ∀ ks, (order ks).Perm ks) (p : OfferRecord → Bool)
    {offers : HashMap Uuid OfferRecord} (keyed : ∀ k o, offers.lookup k = some o → o.offerId = k) :
    (sweepEvents order p offers).Nodup := by
  have ids := HashMap.nodup_iter arranged OfferRecord.offerId keyed
  refine List.Nodup.map_on ?_ ((ids.of_map _).filter p)
  intro a inSweep b inSweep' same
  rw [JobEventKind.offerCancelled.injEq] at same
  exact List.inj_on_of_nodup_map ids (List.mem_of_mem_filter inSweep)
    (List.mem_of_mem_filter inSweep') same.1

theorem sweepEvents_leads (arranged : ∀ ks, (order ks).Perm ks) {p : OfferRecord → Bool}
    {offers : HashMap Uuid OfferRecord} {event : JobEventKind}
    (member : event ∈ sweepEvents order p offers) :
    ∃ order' more, (∀ ks, (order' ks).Perm ks) ∧ sweepEvents order' p offers = event :: more := by
  simp only [sweepEvents, List.mem_map, List.mem_filter, HashMap.mem_iter arranged] at member
  obtain ⟨o, ⟨⟨k, found⟩, swept⟩, rfl⟩ := member
  have listed : k ∈ offers.keys := AList.mem_keys.mp (AList.lookup_isSome.mp (found ▸ rfl))
  let order' : List Uuid → List Uuid := fun ks => if k ∈ ks then k :: ks.erase k else ks
  have perm : ∀ ks, (order' ks).Perm ks := by
    intro ks
    simp only [order']
    split
    · exact (List.perm_cons_erase ‹_›).symm
    · exact .refl ks
  have moved : order' offers.keys = k :: offers.keys.erase k := if_pos listed
  have first : offers.iter order' = o :: (offers.keys.erase k).filterMap offers.lookup := by
    rw [HashMap.iter, moved]
    exact List.filterMap_cons_some found
  have out : sweepEvents order' p offers = .offerCancelled o.offerId o.driverId ::
      (((offers.keys.erase k).filterMap offers.lookup).filter p).map fun o =>
        .offerCancelled o.offerId o.driverId := by
    rw [sweepEvents, first, List.filter_cons_of_pos swept, List.map_cons]
  exact ⟨order', _, perm, out⟩

theorem counted_pushEvents (s : Ledger) (jobId j : Uuid) (n : Nat) :
    (s.pushEvents jobId n).counted j = s.counted j + if j = jobId then n else 0 := by
  induction n generalizing s with
  | zero => simp [pushEvents]
  | succ n ih =>
      rw [pushEvents, ih]
      unfold counted pushEvent
      rw [HashMap.lookup_insert_if]
      split
      · rename_i same
        rw [same, Option.getD_some]
        omega
      · rfl

/-- A command emits for one job a sweep, perhaps of no offer, and then events that do
    not depend on the order of the sweep. -/
structure Emits (s : Ledger) (cmd : Command) (jobId : Uuid)
    (sweep : (List Uuid → List Uuid) → List JobEventKind) (rest : List JobEventKind) : Prop where
  emitted : ∀ order, s.emitted order cmd = only jobId (sweep order ++ rest)
  perm : ∀ order, (∀ ks, (order ks).Perm ks) → (sweep order).Perm (sweep id)
  length : ∀ order, (∀ ks, (order ks).Perm ks) → (sweep order).length = s.sweeps cmd
  counted : ∀ j, (s.apply cmd).counted j =
    s.counted j + if j = jobId then s.sweeps cmd + rest.length else 0
  distinct : s.Keyed → ∀ order, (∀ ks, (order ks).Perm ks) → (sweep order).Nodup
  /-- Each of its events comes first in some order. -/
  leads : ∀ order, (∀ ks, (order ks).Perm ks) → ∀ event ∈ sweep order,
    ∃ order' more, (∀ ks, (order' ks).Perm ks) ∧ sweep order' = event :: more

variable {s : Ledger} {cmd : Command} {jobId : Uuid} {rest : List JobEventKind}

theorem emits_rest (emitted : ∀ order, s.emitted order cmd = only jobId rest)
    (none : s.sweeps cmd = 0)
    (counted : ∀ j, (s.apply cmd).counted j = (s.pushEvents jobId rest.length).counted j) :
    s.Emits cmd jobId (fun _ => []) rest where
  emitted := emitted
  perm _ _ := .nil
  length _ _ := none.symm
  counted j := by rw [counted, counted_pushEvents, none, Nat.zero_add]
  distinct _ _ _ := .nil
  leads _ _ _ member := by cases member

theorem emits_nothing (emitted : ∀ order, s.emitted order cmd = fun _ => [])
    (none : s.sweeps cmd = 0) (same : s.apply cmd = s) : s.Emits cmd 0 (fun _ => []) [] := by
  refine emits_rest (fun order => ?_) none fun j => ?_
  · rw [emitted]
    funext j
    exact (ite_self _).symm
  · rw [same]
    rfl

theorem emits_sweep {p : OfferRecord → Bool} {offers : HashMap Uuid OfferRecord}
    (emitted : ∀ order, s.emitted order cmd = only jobId (sweepEvents order p offers ++ rest))
    (count : s.sweeps cmd = sweepCount p offers)
    (counted : ∀ j, (s.apply cmd).counted j =
      (s.pushEvents jobId (sweepCount p offers + rest.length)).counted j)
    (keyed : s.Keyed → ∀ k o, offers.lookup k = some o → o.offerId = k) :
    s.Emits cmd jobId (fun order => sweepEvents order p offers) rest where
  emitted := emitted
  perm _ arranged := sweepEvents_perm arranged p offers
  length _ arranged := by rw [length_sweepEvents arranged, count]
  counted j := by rw [counted, counted_pushEvents, count]
  distinct sKeyed _ arranged := nodup_sweepEvents arranged p (keyed sKeyed)
  leads _ arranged _ member := sweepEvents_leads arranged member

theorem emits_status (offerId : Uuid) (status : OfferStatus) (kind : Uuid → JobEventKind)
    (emitted : ∀ order, s.emitted order cmd = s.emittedFor offerId kind) (none : s.sweeps cmd = 0)
    (applied : s.apply cmd = s.setOfferStatus offerId status) :
    ∃ jobId sweep rest, s.Emits cmd jobId sweep rest := by
  cases found : s.offers.lookup offerId with
  | none =>
      refine ⟨0, _, [], emits_nothing (fun order => ?_) none ?_⟩
      · rw [emitted]
        simp only [emittedFor, found]
      · rw [applied]
        simp only [setOfferStatus, found]
  | some offer =>
      refine ⟨offer.jobId, _, [kind offer.driverId], emits_rest (fun order => ?_) none fun j => ?_⟩
      · rw [emitted]
        simp only [emittedFor, found]
      · rw [applied]
        simp only [setOfferStatus, found]
        rfl

theorem emits (s : Ledger) (cmd : Command) : ∃ jobId sweep rest, s.Emits cmd jobId sweep rest := by
  cases cmd with
  | upsertDriverLocation | removeDriver =>
      refine ⟨0, _, [], emits_rest (fun order => ?_) rfl fun _ => rfl⟩
      funext j
      exact (ite_self _).symm
  | registerJob job => exact ⟨job.jobId, _, _, emits_rest (fun _ => rfl) rfl fun _ => rfl⟩
  | createOffer offer => exact ⟨offer.jobId, _, _, emits_rest (fun _ => rfl) rfl fun _ => rfl⟩
  | rejectOffer | markOfferExpired | markOfferCancelled =>
      exact emits_status _ _ _ (fun _ => rfl) rfl rfl
  | recordWebhookDeliveryFailed jobId offerId =>
      by_cases known : (s.jobs.lookup jobId).isSome
      · refine ⟨jobId, _, _, emits_rest (fun _ => if_pos known) rfl fun j => ?_⟩
        rw [apply, if_pos known]
        rfl
      · exact ⟨0, _, [], emits_nothing (fun _ => if_neg known) rfl (if_neg known)⟩
  | acceptOffer offerId respondedAt =>
      cases found : s.offers.lookup offerId with
      | none =>
          refine ⟨0, _, [], emits_nothing (fun _ => ?_) ?_ ?_⟩
          · simp only [emitted, found]
          · simp only [sweeps, found]
          · simp only [apply, found]
      | some offer =>
          let offers := s.offers.insert offerId { offer with status := .accepted }
          let competing := competesWith offer.jobId offer.offerId
          let won : List JobEventKind := [.offerAccepted offer.offerId offer.driverId,
            .matchConfirmed offer.offerId offer.driverId]
          have emits : s.Emits (.acceptOffer offerId respondedAt) offer.jobId
              (fun order => sweepEvents order competing offers) won := by
            refine emits_sweep (fun _ => ?_) ?_ (fun j => ?_) fun keyed => ?_
            · simp only [emitted, found]
              rfl
            · simp only [sweeps, found]
              rfl
            · simp only [apply, found]
              rw [counted_pushEvents, counted_pushEvents]
              rfl
            · obtain rfl : offer.offerId = offerId := keyed offerId offer found
              exact keyed.insert { offer with status := .accepted }
          exact ⟨_, _, _, emits⟩
  | cancelJob jobId =>
      by_cases known : (s.jobs.lookup jobId).isSome
      · refine ⟨jobId, _, _, emits_sweep (fun _ => if_pos known) (if_pos known) (fun j => ?_) id⟩
        have flag : (if jobId ∉ s.cancelledJobs then 1 else 0) =
            (if jobId ∉ s.cancelledJobs then [JobEventKind.jobCancelled] else []).length := by
          split <;> rfl
        rw [apply, if_pos known, counted_pushEvents, counted_pushEvents, flag]
        rfl
      · exact ⟨0, _, [], emits_nothing (fun _ => if_neg known) (if_neg known) (if_neg known)⟩

/-- In whatever order a sweep takes the offers, a command emits the same events. -/
theorem emitted_perm (arranged : ∀ ks, (order ks).Perm ks) (s : Ledger) (cmd : Command) (j : Uuid) :
    (s.emitted order cmd j).Perm (s.emitted id cmd j) := by
  obtain ⟨jobId, sweep, rest, emits⟩ := s.emits cmd
  rw [emits.emitted, emits.emitted]
  unfold only
  split
  · exact (emits.perm order arranged).append_right rest
  · exact .nil

theorem counted_apply (arranged : ∀ ks, (order ks).Perm ks) (s : Ledger) (cmd : Command)
    (j : Uuid) : (s.apply cmd).counted j = s.counted j + (s.emitted order cmd j).length := by
  obtain ⟨jobId, sweep, rest, emits⟩ := s.emits cmd
  rw [emits.counted, emits.emitted]
  unfold only
  split
  · rw [List.length_append, emits.length order arranged]
  · rfl

theorem id_perm (ks : List Uuid) : (id ks).Perm ks := .refl ks

/-! ## Histories -/

theorem counted_replay (s : Ledger) (log : List Command) (j : Uuid) :
    (s.replay log).counted j = s.counted j + (s.productions j log).flatten.length := by
  induction log generalizing s with
  | nil => rfl
  | cons cmd log ih =>
      have rest := ih (s.apply cmd)
      rw [counted_apply id_perm] at rest
      rw [productions, List.flatten_cons, List.length_append, ← Nat.add_assoc]
      exact rest

theorem productions_snoc (s : Ledger) (j : Uuid) (log : List Command) (cmd : Command) :
    s.productions j (log ++ [cmd]) =
      s.productions j log ++ [(s.replay log).emitted id cmd j] := by
  induction log generalizing s with
  | nil => rfl
  | cons first log ih =>
      rw [List.cons_append, productions, ih]
      rfl

/-- The events of each job are those that the commands produce, one command after
    another, each event once. -/
def Complete (log : List Command) (kinds : Uuid → List JobEventKind) : Prop :=
  ∀ j, Arranges (empty.productions j log) (kinds j)

theorem complete_nil : Complete [] fun _ => [] := fun _ => arranges_nil

theorem Complete.snoc {log : List Command} {kinds : Uuid → List JobEventKind}
    (complete : Complete log kinds) (arranged : ∀ ks, (order ks).Perm ks) (cmd : Command) :
    Complete (log ++ [cmd]) fun j => kinds j ++ (empty.replay log).emitted order cmd j := by
  intro j
  rw [productions_snoc]
  exact (complete j).snoc (emitted_perm arranged _ cmd j)

theorem Complete.length {log : List Command} {kinds : Uuid → List JobEventKind}
    (complete : Complete log kinds) (j : Uuid) :
    (kinds j).length = (empty.replay log).counted j := by
  rw [(complete j).perm.length_eq, counted_replay]
  exact (Nat.zero_add _).symm

end Ledger

end Spatiad
