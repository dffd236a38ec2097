import Spatiad.CrashRuns

/-! # Effective cancellation

A cancelled job is registered and has no pending offer, after any operations and
any crashes; so until it is submitted again nothing can be offered or accepted.
-/

namespace Spatiad

open Foundation WriteAheadLog

namespace Ledger

/-- Cancelled jobs are registered and have no pending offer. -/
def CancelledClosed (s : Ledger) : Prop :=
  ∀ j ∈ s.cancelledJobs, (∃ job, s.jobs.lookup j = some job) ∧ s.hasOffer j .pending = false

theorem cancelledClosed_empty : Ledger.empty.CancelledClosed := by
  intro j member
  simp [Ledger.empty] at member

/-- A job's pending offer after a command was pending before, or was just created. -/
theorem pending_origin {s : Ledger} {cmd : Command} {j : Uuid}
    (other : ∀ offer, cmd = .createOffer offer → offer.jobId ≠ j)
    (closed : s.hasOffer j .pending = false) : (s.apply cmd).hasOffer j .pending = false := by
  refine hasOffer_eq_false_iff.mpr fun k o' found ofJob pending => ?_
  rcases offer_origin found with ⟨created, _⟩ | ⟨o, before, rfl | ⟨_, rfl⟩⟩
  · exact other o' created ofJob
  · exact hasOffer_eq_false_iff.mp closed k _ before ofJob pending
  · exact hasOffer_eq_false_iff.mp closed k o before ofJob (pending_of_newStatus pending)

theorem cancelJob_closes {s : Ledger} {jobId : Uuid} (known : (s.jobs.lookup jobId).isSome) :
    (s.apply (.cancelJob jobId)).hasOffer jobId .pending = false := by
  refine hasOffer_eq_false_iff.mpr fun k o' found ofJob pending => ?_
  rw [lookup_apply s fun _ => Command.noConfusion, Option.map_eq_some_iff] at found
  obtain ⟨o, before, rfl⟩ := found
  dsimp only at pending ofJob
  have was := pending_of_newStatus pending
  simp [newStatus, known, pendingOf, ofJob, was] at pending

end Ledger

theorem created_active {s₀ s : Ledger} {op : Op} {offer : OfferRecord}
    (issued : Issues s₀ op s (.createOffer offer)) : offer.jobId ∉ s.cancelledJobs := by
  cases issued with
  | firstOffer forJob _ =>
      rw [Ledger.cancelledJobs_apply, forJob]
      exact Finset.notMem_erase _ _
  | nextOffer _ _ _ active => exact active

theorem cancelledClosed_issued {s₀ s : Ledger} {op : Op} {cmd : Command}
    (closed : s.CancelledClosed) (issued : Issues s₀ op s cmd) : (s.apply cmd).CancelledClosed := by
  intro j cancelled
  by_cases now : cmd = .cancelJob j ∧ (s.jobs.lookup j).isSome
  · obtain ⟨rfl, known⟩ := now
    obtain ⟨job, registered⟩ := Option.isSome_iff_exists.mp known
    exact ⟨Ledger.job_kept registered _, Ledger.cancelJob_closes known⟩
  · have before : j ∈ s.cancelledJobs := by
      rw [Ledger.cancelledJobs_apply] at cancelled
      cases cmd with
      | registerJob job => exact Finset.mem_of_mem_erase cancelled
      | cancelJob jobId =>
          simp only at cancelled
          split at cancelled
          · rename_i known
            rcases Finset.mem_insert.mp cancelled with rfl | old
            · exact absurd ⟨rfl, known⟩ now
            · exact old
          · exact cancelled
      | _ => exact cancelled
    obtain ⟨⟨job, registered⟩, noPending⟩ := closed j before
    refine ⟨Ledger.job_kept registered cmd, Ledger.pending_origin ?_ noPending⟩
    rintro offer rfl rfl
    exact created_active issued before

/-! ## Until the job is submitted again -/

/-- From `s₀` on, the job has stayed cancelled and got no offer and no winner. -/
structure Withheld (j : Uuid) (s₀ s : Ledger) : Prop where
  cancelled : j ∈ s.cancelledJobs
  offers : ∀ k o, s.offers.lookup k = some o → o.jobId = j →
    ∃ o₀, s₀.offers.lookup k = some o₀ ∧ o₀.jobId = j ∧
      (o.status = .accepted → o₀.status = .accepted)

def NotResubmitted (j : Uuid) : Op → Prop
  | .submitJob job => job.jobId ≠ j
  | _ => True

theorem withheld_refl {s : Ledger} {j : Uuid} (cancelled : j ∈ s.cancelledJobs) :
    Withheld j s s where
  cancelled := cancelled
  offers _ o found ofJob := ⟨o, found, ofJob, fun won => won⟩

theorem withheld_issued {j : Uuid} {s₁ s₀ s : Ledger} {op : Op} {cmd : Command}
    (other : NotResubmitted j op) (closed : s.CancelledClosed) (withheld : Withheld j s₁ s)
    (issued : Issues s₀ op s cmd) : Withheld j s₁ (s.apply cmd) := by
  constructor
  · rw [Ledger.cancelledJobs_apply]
    cases issued with
    | register => exact Finset.mem_erase.mpr ⟨fun same => other same.symm, withheld.cancelled⟩
    | cancelJob known =>
        simp only [known, if_true]
        exact Finset.mem_insert_of_mem withheld.cancelled
    | _ => exact withheld.cancelled
  · intro k o' found ofJob
    rcases Ledger.offer_origin found with ⟨rfl, _⟩ | ⟨o, before, rfl | ⟨_, rfl⟩⟩
    · exact absurd (ofJob ▸ withheld.cancelled) (created_active issued)
    · exact withheld.offers k _ before ofJob
    · obtain ⟨o₁, first, ofJob₁, winner⟩ := withheld.offers k o before ofJob
      refine ⟨o₁, first, ofJob₁, fun won => ?_⟩
      rcases Ledger.accepted_of_newStatus won with won | ⟨respondedAt, rfl⟩
      · exact winner won
      · -- only a pending offer is accepted, and the job has none
        cases issued with
        | accept selected pending =>
            obtain rfl := Option.some.inj (selected.symm.trans before)
            have noPending := (closed j withheld.cancelled).2
            exact absurd pending (Ledger.hasOffer_eq_false_iff.mp noPending k _ before ofJob)

/-! ## Over whole runs -/

variable {β : Type} [StorageBackend β] {host : Host} {j : Uuid}

theorem cancelJob_recorded {e e' : Engine β}
    (result : perform host e (.cancelJob j) = (e', .cancelledJob true)) :
    j ∈ e'.toLedger.cancelledJobs := by
  simp only [perform, Engine.cancelJob] at result
  split at result
  · rename_i known
    simp only [Prod.map, id, Prod.mk.injEq, and_true] at result
    rw [← result, Engine.appendAndApply_toLedger, Ledger.cancelledJobs_apply]
    simp only [known, if_true]
    exact Finset.mem_insert_self _ _
  · simp at result

theorem cancelJob_found {e : Engine β} (known : (e.jobs.lookup j).isSome) :
    perform host e (.cancelJob j) = ((perform host e (.cancelJob j)).1, .cancelledJob true) := by
  simp [perform, Engine.cancelJob, known]

theorem cancelledClosed_run {start e : DispatchService β} {past : List Exchange}
    (sound : Sound host start) (closed : start.CancelledClosed)
    (run : Run (serviceStep host) anyStep start past e) : e.CancelledClosed := by
  refine run.invariant_under (Sound host) (fun _ e => e.CancelledClosed) sound
    (fun _ _ _ sound taken => sound.step taken) closed ?_
  intro past e x e' sound closed _ taken
  exact sound.step_invariant taken Ledger.CancelledClosed closed fun s cmd _ closed issued =>
    cancelledClosed_issued closed issued

theorem withheld_run {start e : DispatchService β} {past : List Exchange}
    (sound : Sound host start) (closed : start.CancelledClosed)
    (cancelled : j ∈ start.cancelledJobs)
    (run : Run (serviceStep host) (fun _ _ x => NotResubmitted j x.1) start past e) :
    Withheld j start.toLedger e.toLedger := by
  let P (s : Ledger) : Prop := s.CancelledClosed ∧ Withheld j start.toLedger s
  have held : P e.toLedger := by
    refine run.invariant_under (Sound host) (fun _ e => P e.toLedger) sound
      (fun _ _ _ sound taken => sound.step taken) ⟨closed, withheld_refl cancelled⟩ ?_
    intro past e x e' sound held other taken
    refine sound.step_invariant taken P held ?_
    rintro s cmd _ ⟨closed, withheld⟩ issued
    exact ⟨cancelledClosed_issued closed issued, withheld_issued other closed withheld issued⟩
  exact held.2

/-! ## Over runs with crashes -/

variable [LawfulBackend β]

/-- A turn that does not submit the job, whether or not the process survives it. -/
def Turn.SparesJob (j : Uuid) : Turn → Prop
  | .perform op _ _ => NotResubmitted j op
  | .snapshot _ | .recover _ => True

theorem cancelledClosed_logged {start w : World β} {past : List Turn}
    (logged : start.Logged host Ledger.CancelledClosed)
    (run : Run (worldStep host) anyStep start past w) : w.Logged host Ledger.CancelledClosed :=
  logged.run (fun _ _ _ _ _ _ _ _ _ closed issued => cancelledClosed_issued closed issued) run

theorem withheld_logged {start w : World β} {later : List Turn}
    (logged : start.Logged host Ledger.CancelledClosed) (running : start.alive = true)
    (cancelled : j ∈ start.engine.cancelledJobs)
    (run : Run (worldStep host) (fun _ _ turn => turn.SparesJob j) start later w)
    (alive : w.alive = true) : Withheld j start.engine.toLedger w.engine.toLedger := by
  let P (s : Ledger) : Prop := s.CancelledClosed ∧ Withheld j start.engine.toLedger s
  have first : start.Logged host P := by
    refine logged.also ⟨logged.logged.held, ?_⟩
    rw [← (logged.synced running).1]
    exact withheld_refl cancelled
  have last : w.Logged host P := by
    refine first.run ?_ run
    rintro past w op calls reply spared s cmd _ ⟨closed, withheld⟩ issued
    exact ⟨cancelledClosed_issued closed issued, withheld_issued spared closed withheld issued⟩
  rw [(last.synced alive).1]
  exact last.logged.held.2

/-- Cancellation is effective, on any storage while the process lives and on a lawful
    one over any crashes: a cancelled job is registered and has no pending offer, and
    once `cancel_job` has returned `true` no later turn, up to the next submission of
    the job, gives it an offer or a winner. -/
theorem cancellation_effective {α : Type} [StorageBackend α] (host : Host) (h3Resolution : Nat)
    (volatile : α) (storage : β) (tick : Nat) (blank : LawfulBackend.disk storage = Disk.empty) :
    (∀ past e, Run (serviceStep host) anyStep (Engine.withStorage h3Resolution volatile tick) past e →
      e.CancelledClosed ∧
      ∀ j e₁, serviceStep host e (.cancelJob j, .cancelledJob true) e₁ →
        ∀ before e₂, Run (serviceStep host) (fun _ _ x => NotResubmitted j x.1) e₁ before e₂ →
        ∀ later e₃, Run (serviceStep host) (fun _ _ x => NotResubmitted j x.1) e₂ later e₃ →
          Withheld j e₂.toLedger e₃.toLedger) ∧
    ∀ past w, Run (worldStep host) anyStep (World.start h3Resolution storage tick) past w →
      (w.alive = true → w.engine.CancelledClosed) ∧
      ∀ j w₁, worldStep host w (.perform (.cancelJob j) none (.cancelledJob true)) w₁ →
        ∀ before w₂, Run (worldStep host) (fun _ _ turn => turn.SparesJob j) w₁ before w₂ →
        ∀ later w₃, Run (worldStep host) (fun _ _ turn => turn.SparesJob j) w₂ later w₃ →
          w₂.alive = true → w₃.alive = true → Withheld j w₂.engine.toLedger w₃.engine.toLedger := by
  constructor
  · intro past e run
    have sound : Sound host (Engine.withStorage h3Resolution volatile tick) :=
      sound_withStorage h3Resolution volatile tick
    have closed := cancelledClosed_run sound Ledger.cancelledClosed_empty run
    refine ⟨closed, ?_⟩
    intro j e₁ cancel before e₂ first later e₃ second
    have sound₁ := (sound.run run).step cancel
    have closed₁ := cancelledClosed_run (sound.run run) closed (.next .start trivial cancel)
    have withheld := withheld_run sound₁ closed₁ (cancelJob_recorded cancel) first
    have closed₂ := cancelledClosed_run sound₁ closed₁ (first.relax fun _ _ _ _ => trivial)
    exact withheld_run (sound₁.run first) closed₂ withheld.cancelled second
  · intro past w run
    have start : (World.start h3Resolution storage tick).Logged host Ledger.CancelledClosed :=
      World.logged_start h3Resolution tick blank Ledger.cancelledClosed_empty
    have logged := cancelledClosed_logged start run
    refine ⟨fun alive => ?_, ?_⟩
    · rw [(logged.synced alive).1]
      exact logged.logged.held
    · intro j w₁ cancel before w₂ first later w₃ second alive₂ alive₃
      have logged₁ := cancelledClosed_logged logged (.next .start trivial cancel)
      have logged₂ := cancelledClosed_logged logged₁ (first.relax fun _ _ _ _ => trivial)
      have recorded : w₁.alive = true ∧ j ∈ w₁.engine.cancelledJobs := by
        cases cancel with
        | perform result => exact ⟨rfl, cancelJob_recorded result⟩
      have withheld := withheld_logged logged₁ recorded.1 recorded.2 first alive₂
      exact withheld_logged logged₂ alive₂ withheld.cancelled second alive₃

/-- The cancelled offer of a cancelled job is answered, the process dies over it, and
    its successor still withholds the job. -/
theorem withheld_after_crash :
    ∃ w₁ w₂ : World SqliteBackend, w₂.engine.hasOffer 1 .cancelled = true ∧
      Withheld 1 w₁.engine.toLedger w₂.engine.toLedger := by
  let host := Host.plain fun _ => 0
  let e₀ : Engine (Crashing SqliteBackend) := Engine.withStorage 8 ⟨SqliteBackend.blank, none, []⟩ 0
  let e₁ := e₀.recovered host
  let e₂ := (perform host (e₁.limited none) (comesOnline 100)).1
  let e₃ := (perform host (e₂.limited none) (.submitJob (jobAtOrigin 1))).1
  let e₄ := (perform host (e₃.limited none) (.cancelJob 1)).1
  let e₅ := (perform host (e₄.limited (some 0)) (.handleOfferResponse 4 true)).1
  let e₆ := e₅.recovered host
  have first : worldStep host ⟨e₀, false⟩ (.recover none) ⟨e₁, true⟩ := .recover rfl
  have second : worldStep host ⟨e₁, true⟩ (.perform (comesOnline 100) none _) ⟨e₂, true⟩ :=
    worldStep_perform ..
  have third : worldStep host ⟨e₂, true⟩ (.perform (.submitJob (jobAtOrigin 1)) none _) ⟨e₃, true⟩ :=
    worldStep_perform ..
  have cancel : worldStep host ⟨e₃, true⟩ (.perform (.cancelJob 1) none (.cancelledJob true))
    ⟨e₄, true⟩ := .perform (cancelJob_found (by decide +kernel))
  have answer : worldStep host ⟨e₄, true⟩ (.perform (.handleOfferResponse 4 true) (some 0) _)
    ⟨e₅, false⟩ := worldStep_perform ..
  have successor : worldStep host ⟨e₅, false⟩ (.recover none) ⟨e₆, true⟩ := .recover rfl
  have run : Run (worldStep host) anyStep ⟨e₀, false⟩ _ ⟨e₃, true⟩ :=
    ((Run.start.next trivial first).next trivial second).next trivial third
  have spared : Run (worldStep host) (fun _ _ turn => turn.SparesJob 1) ⟨e₄, true⟩ _ ⟨e₆, true⟩ :=
    (Run.start.next (by trivial) answer).next (by trivial) successor
  have effective := (cancellation_effective host 8 InMemoryBackend.mk SqliteBackend.blank 0 rfl).2
  have withheld := (effective _ ⟨e₃, true⟩ run).2 1 ⟨e₄, true⟩ cancel _ ⟨e₄, true⟩ .start _
    ⟨e₆, true⟩ spared rfl rfl
  exact ⟨⟨e₄, true⟩, ⟨e₆, true⟩, by decide +kernel, withheld⟩

end Spatiad
