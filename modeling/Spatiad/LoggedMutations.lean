import Spatiad.EventHistory

/-! # Mutations go through the log

A recorder in front of any backend keeps the commands an engine passes to
`append_wal`.  Applying those again is all a mutation does to the maps, unless it is
a status written by `mark_offer_status` itself.
-/

namespace Spatiad

open Foundation StorageBackend

/-- A backend that remembers the commands it was asked to append. -/
structure Recording (β : Type) where
  backend : β
  passed : List Command

variable {β : Type} [StorageBackend β]

namespace Recording

def call (r : Recording β) (method : β → Except StorageError Unit × β) :
    Except StorageError Unit × Recording β :=
  ((method r.backend).1, { r with backend := (method r.backend).2 })

/-- An append is remembered whether or not it succeeds. -/
instance : StorageBackend (Recording β) where
  appendWal r seq cmd :=
    { r with passed := r.passed ++ [cmd] }.call fun store => appendWal store seq cmd
  writeSnapshot r snapshot := r.call fun store => writeSnapshot store snapshot
  loadSnapshot r := loadSnapshot r.backend
  loadWalAfter r seq := loadWalAfter r.backend seq
  compactWal r seq := r.call fun store => compactWal store seq
  appendJobEvent r jobId event := r.call fun store => appendJobEvent store jobId event
  queryJobEvents r := queryJobEvents r.backend
  isPersistent r := isPersistent r.backend

end Recording

/-- From `e` to `e'` exactly these commands were passed to the log, and applying them in
    order is the whole change. -/
structure Logs (host : Host) (e e' : Engine (Recording β)) (cmds : List Command) : Prop where
  passed : e'.storage.passed = e.storage.passed ++ cmds
  applied : e'.toLedger = (cmds.foldl (Engine.applyCommand host) e).toLedger
  position : e'.walSequence = e.walSequence + cmds.length

variable {host : Host} {e e' : Engine (Recording β)}

theorem foldl_applyCommand_toLedger (host : Host) (e : Engine (Recording β)) (cmds : List Command) :
    (cmds.foldl (Engine.applyCommand host) e).toLedger = e.toLedger.replay cmds := by
  induction cmds generalizing e with
  | nil => rfl
  | cons cmd cmds ih =>
      rw [List.foldl_cons, ih, Engine.applyCommand_toLedger]
      rfl

theorem Trace.logs {may : Ledger → Command → Prop} {log : List Command}
    (trace : Trace host may e log e') : Logs host e e' log := by
  refine ⟨?_, ?_, ?_⟩
  · induction trace with
    | done => exact (List.append_nil _).symm
    | draw _ ih => exact ih
    | @log e cmd log e' _ _ _ ih =>
        have passed : (e.appendAndApply host cmd).storage.passed = e.storage.passed ++ [cmd] :=
          Engine.applyCommand_storage
            (P := fun r : Recording β => r.passed = e.storage.passed ++ [cmd])
            (fun _ _ _ kept => kept) rfl cmd
        rw [ih, passed, List.append_assoc, List.singleton_append]
  · rw [foldl_applyCommand_toLedger]
    exact trace.toLedger_eq
  · induction trace with
    | done => rfl
    | draw _ ih => exact ih
    | @log e cmd log e' _ _ _ ih =>
        have position : (e.appendAndApply host cmd).walSequence = e.walSequence + 1 := by
          unfold Engine.appendAndApply
          rw [Engine.applyCommand_walSequence]
        rw [ih, position, List.length_cons]
        omega

/-- `mark_offer_status` of a known offer, with a status that has no command. -/
def Engine.BypassesLog (e : Engine β) : Mutation → Prop
  | .markOfferStatus offerId status =>
      (e.offers.lookup offerId).isSome ∧ status ≠ .cancelled ∧ status ≠ .expired
  | _ => False

instance (e : Engine β) (mutation : Mutation) : Decidable (e.BypassesLog mutation) := by
  cases mutation <;> unfold Engine.BypassesLog <;> infer_instance

theorem createSnapshot_logs (e : Engine (Recording β)) : Logs host e e.createSnapshot.1 [] where
  passed := by
    rw [List.append_nil]
    exact Engine.createSnapshot_storage
      (P := fun r : Recording β => r.passed = e.storage.passed) (fun _ _ kept => kept)
      (fun _ _ kept => kept) rfl
  applied := e.createSnapshot_frame.1
  position := by
    obtain ⟨storage, same⟩ := e.createSnapshot_only
    rw [same]
    rfl

theorem mutate_logs (host : Host) (e : Engine (Recording β)) {mutation : Mutation}
    (through : ¬ e.BypassesLog mutation) : ∃ cmds, Logs host e (e.mutate host mutation) cmds := by
  have effect := e.mutate_effect_any host mutation
  generalize e.mutate host mutation = e' at effect ⊢
  cases effect with
  | logged trace => exact ⟨_, trace.logs⟩
  | written known notCancelled notExpired =>
      exact absurd ⟨known, notCancelled, notExpired⟩ through
  | snapshot => exact ⟨[], createSnapshot_logs e⟩

/-- A status that is written directly passes no command, yet it counts one more event. -/
theorem bypass_unlogged {mutation : Mutation} (bypasses : e.BypassesLog mutation)
    (cmds : List Command) : ¬ Logs host e (e.mutate host mutation) cmds := by
  intro logs
  cases mutation with
  | markOfferStatus offerId status =>
      obtain ⟨known, notCancelled, notExpired⟩ := bypasses
      obtain ⟨o, found⟩ := Option.isSome_iff_exists.mp known
      have direct : e.mutate host (.markOfferStatus offerId status) =
          e.setOfferStatus host offerId status fun _ => .offerStatusUpdated offerId status := by
        simp only [Engine.mutate, Engine.markOfferStatus, found]
      rw [direct] at logs
      have passed : (e.setOfferStatus host offerId status
          fun _ => .offerStatusUpdated offerId status).storage.passed = e.storage.passed :=
        Engine.setOfferStatus_storage (P := fun r : Recording β => r.passed = e.storage.passed)
          (fun _ _ _ kept => kept) rfl _ _ _
      obtain rfl : cmds = [] := by
        have same := logs.passed
        rw [passed] at same
        exact List.self_eq_append_right.mp same
      have sequences := congrArg (fun s : Ledger => s.jobEventSequences.lookup o.jobId) logs.applied
      simp only [Engine.setOfferStatus_toLedger, Ledger.setOfferStatus, found, Ledger.pushEvent,
        AList.lookup_insert, List.foldl_nil] at sequences
      rw [← sequences, Option.getD_some] at sequences
      simp at sequences
  | _ => exact bypasses

/-- In any state, a mutation changes the maps by exactly the commands it passed to the
    log, and counts them, unless it is a status written past the log. -/
theorem mutation_write_ahead_iff (host : Host) (e : Engine (Recording β)) (mutation : Mutation) :
    (∃ cmds, Logs host e (e.mutate host mutation) cmds) ↔ ¬ e.BypassesLog mutation := by
  constructor
  · rintro ⟨cmds, logs⟩ bypasses
    exact bypass_unlogged bypasses cmds logs
  · exact mutate_logs host e

/-- An offer is created and accepted by `mark_offer_status`: the log has no command for
    that. -/
theorem status_written_past_log :
    let e := ((Engine.withStorage 8 (⟨SqliteBackend.blank, []⟩ : Recording SqliteBackend) 0).mutate
      stillHost (.registerJob (jobAtOrigin 1))).mutate stillHost (.createOffer 1 100 30)
    (e.offers.lookup 2).map OfferRecord.status = some .pending ∧
      ((e.mutate stillHost (.markOfferStatus 2 .accepted)).offers.lookup 2).map OfferRecord.status =
        some .accepted ∧
      ∀ cmds, ¬ Logs stillHost e (e.mutate stillHost (.markOfferStatus 2 .accepted)) cmds := by
  refine ⟨by decide +kernel, by decide +kernel, fun cmds => bypass_unlogged ?_ cmds⟩
  decide +kernel

end Spatiad
