import Spatiad.CrashRuns

/-! # Offers are answered once

An offer that has left Pending never comes back, neither in the process that closed
it nor in any that recovers what it logged.  So an answer, which asks for a pending
offer and logs that it no longer is one, succeeds once, and in time.
-/

namespace Spatiad

open Foundation WriteAheadLog

/-- The offer has left Pending. -/
def Ledger.Closed (k : Uuid) (s : Ledger) : Prop :=
  ∃ o, s.offers.lookup k = some o ∧ o.status ≠ .pending

theorem closed_issued {k : Uuid} {s₀ s : Ledger} {op : Op} {cmd : Command} (closed : s.Closed k)
    (issued : Issues s₀ op s cmd) : (s.apply cmd).Closed k := by
  obtain ⟨o, found, answered⟩ := closed
  by_cases creates : ∃ offer, cmd = .createOffer offer
  · obtain ⟨offer, rfl⟩ := creates
    refine ⟨o, ?_, answered⟩
    rw [Ledger.lookup_createOffer, if_neg]
    · exact found
    · rintro rfl
      rw [issued.fresh.unused] at found
      cases found
  · refine ⟨{ o with status := s.newStatus cmd k o }, ?_, ?_⟩
    · rw [Ledger.lookup_apply s fun offer same => creates ⟨offer, same⟩, found, Option.map_some]
    · exact fun pending => answered (Ledger.pending_of_newStatus pending)

theorem closed_answer {k : Uuid} {s : Ledger} {o : OfferRecord} (found : s.offers.lookup k = some o)
    (respondedAt : DateTime) :
    (s.apply (.acceptOffer k respondedAt)).Closed k ∧
      (s.apply (.rejectOffer k respondedAt)).Closed k := by
  constructor
  · refine ⟨{ o with status := .accepted }, ?_, fun same => OfferStatus.noConfusion same⟩
    rw [Ledger.lookup_apply s fun _ => Command.noConfusion, found]
    simp [Ledger.newStatus]
  · refine ⟨{ o with status := .rejected }, ?_, fun same => OfferStatus.noConfusion same⟩
    rw [Ledger.lookup_apply s fun _ => Command.noConfusion, found]
    simp [Ledger.newStatus]

/-! ## Over runs with crashes -/

/-- The offer a turn answered: the engine took the answer, and the process lived at
    least to log it. -/
def Turn.answered : Turn → Option Uuid
  | .perform (.handleOfferResponse offerId _) calls (.answered (.ok _)) =>
      if calls = some 0 then none else some offerId
  | _ => none

def answeredOffers (past : List Turn) : List Uuid := past.filterMap Turn.answered

variable {β : Type} [StorageBackend β] [LawfulBackend β] {host : Host}

theorem World.Logged.closed_step {P : Ledger → Prop} {w w' : World β} {turn : Turn} {k : Uuid}
    (logged : w.Logged host P) (taken : worldStep host w turn w')
    (closed : w.engine.storage.replayed.Closed k) : w'.engine.storage.replayed.Closed k := by
  have kept : w'.Logged host fun s => s.Closed k := by
    refine World.Logged.step taken (logged.also closed) ?_
    intro op calls reply _ s cmd _ closed issued
    exact closed_issued closed issued
  exact kept.logged.held

namespace Logged

variable {e e' : Engine (Crashing β)} {k : Uuid} {o : OfferRecord} {next : Option OfferRecord}

theorem drawn (logged : Logged host (fun _ => True) e) :
    Logged host (fun _ => True) e.drawn.drawn :=
  logged.same_history (.refl _) (Nat.le_add_right _ 2) fun _ => ⟨rfl, rfl⟩

theorem accepted (logged : Logged host (fun _ => True) e) (alive : e.storage.callsLeft ≠ some 0)
    (found : e.offers.lookup k = some o) (respondedAt : DateTime) :
    (e.drawn.drawn.appendAndApply host (.acceptOffer k respondedAt)).storage.replayed.Closed k := by
  have synced : e.toLedger = e.storage.replayed := (logged.sync.resolve_left alive).1
  have closed := (closed_answer found respondedAt).1
  rw [logged.drawn.replayed_appendAndApply alive]
  exact synced ▸ closed

/-- The job is handed on, which leaves the refused offer as it is. -/
theorem refused (logged : Logged host (fun _ => True) e) (alive : e.storage.callsLeft ≠ some 0)
    (ids : IdsDrawn host e) (found : e.offers.lookup k = some o) (pending : o.status = .pending)
    (respondedAt : DateTime)
    (handOver : (e.drawn.drawn.appendAndApply host
      (.rejectOffer k respondedAt)).createNextOfferForJob host o.jobId = (e', next)) :
    e'.storage.replayed.Closed k := by
  have synced : e.toLedger = e.storage.replayed := (logged.sync.resolve_left alive).1
  have closed := (closed_answer found respondedAt).2
  let refused := e.drawn.drawn.appendAndApply host (.rejectOffer k respondedAt)
  have logged' : Logged host (fun _ => True) refused :=
    logged.drawn.appendAndApply (fun _ same => Command.noConfusion same) fun _ _ => trivial
  have closed' : refused.storage.replayed.Closed k := by
    rw [logged.drawn.replayed_appendAndApply alive]
    exact synced ▸ closed
  have refusal : Trace host (fun _ _ => True) e [.rejectOffer k respondedAt] refused :=
    .draw (.draw (.single trivial fun _ => Command.noConfusion))
  have kind : (Op.handleOfferResponse k false).Redispatches := trivial
  obtain ⟨_, handedOn⟩ := createNextOfferForJob_trace e.toLedger kind (refusal.idsDrawn ids)
    (Ledger.hasOffer_iff.mpr ⟨k, o, found, rfl, pending⟩)
  rw [handOver] at handedOn
  have last : Logged host (fun s => s.Closed k) e' :=
    Logged.trace { logged' with held := closed' } handedOn
      fun _ _ _ closed issued => closed_issued closed issued
  exact last.held

end Logged

/-- A turn that answers an offer finds it pending and in time, and has closed it in
    what it logged. -/
theorem World.Logged.answer {w w' : World β} {turn : Turn} {k : Uuid}
    (logged : w.Logged host fun _ => True) (taken : worldStep host w turn w')
    (answered : turn.answered = some k) :
    w.alive = true ∧
      (∃ o, w.engine.offers.lookup k = some o ∧ o.status = .pending ∧
        host.clock w.engine.tick < o.expiresAt) ∧
      w'.engine.storage.replayed.Closed k := by
  cases taken with
  | snapshot | recover => cases answered
  | @perform e op calls e' reply result =>
      cases op with
      | handleOfferResponse offerId accepted =>
          have limited : Spatiad.Logged host (fun _ => True) (e.limited calls) :=
            logged.logged.limited (logged.synced rfl) calls
          have response := handleOfferResponse_response host (e.limited calls) offerId accepted
          simp only [perform, Prod.map, id_eq, Prod.mk.injEq] at result
          generalize DispatchService.handleOfferResponse host (e.limited calls) offerId accepted =
            outcome at response result
          obtain ⟨rfl, rfl⟩ := result
          obtain ⟨e', answer⟩ := outcome
          cases response with
          | unknown | notPending | late => cases answered
          | @accepted o _ found pending inTime state =>
              simp only [Turn.answered] at answered
              split at answered
              · cases answered
              · rename_i alive
                obtain rfl := Option.some.inj answered
                have closed := limited.accepted alive found (host.clock (e.limited calls).drawn.tick)
                rw [← state] at closed
                exact ⟨rfl, ⟨o, found, pending, inTime⟩, closed⟩
          | @rejected o _ next found pending inTime handOver =>
              simp only [Turn.answered] at answered
              split at answered
              · cases answered
              · rename_i alive
                obtain rfl := Option.some.inj answered
                have closed := limited.refused alive (logged.sound rfl).ids found pending _ handOver
                exact ⟨rfl, ⟨o, found, pending, inTime⟩, closed⟩
      | _ => cases reply <;> cases answered

/-- What a run has answered so far, each offer once and each one closed for good. -/
structure AnsweredOnce (host : Host) (past : List Turn) (w : World β) : Prop where
  logged : w.Logged host fun _ => True
  once : (answeredOffers past).Nodup
  closed : ∀ k ∈ answeredOffers past, w.engine.storage.replayed.Closed k

theorem AnsweredOnce.step {past : List Turn} {w w' : World β} {turn : Turn}
    (before : AnsweredOnce host past w) (taken : worldStep host w turn w') :
    AnsweredOnce host (past ++ [turn]) w' := by
  obtain ⟨logged, once, closed⟩ := before
  have logged' : w'.Logged host fun _ => True := logged.step taken fun _ _ _ _ _ _ _ _ _ => trivial
  have appended : answeredOffers (past ++ [turn]) = answeredOffers past ++ turn.answered.toList := by
    simp only [answeredOffers, List.filterMap_append]
    cases answer : turn.answered <;> simp [answer]
  have kept : ∀ k ∈ answeredOffers past, w'.engine.storage.replayed.Closed k :=
    fun k member => logged.closed_step taken (closed k member)
  cases answer : turn.answered with
  | none =>
      simp only [answer, Option.toList_none, List.append_nil] at appended
      rw [← appended] at once kept
      exact ⟨logged', once, kept⟩
  | some k =>
      obtain ⟨alive, ⟨o, found, pending, _⟩, now⟩ := logged.answer taken answer
      simp only [answer, Option.toList_some] at appended
      have unanswered : k ∉ answeredOffers past := by
        intro member
        obtain ⟨o', found', answered⟩ := closed k member
        rw [← (logged.synced alive).1, found] at found'
        exact answered (Option.some.inj found' ▸ pending)
      constructor
      · exact logged'
      · rw [appended]
        rw [← List.concat_eq_append]
        exact once.concat unanswered
      · intro j member
        rw [appended, List.mem_append, List.mem_singleton] at member
        cases member with
        | inl old => exact kept j old
        | inr new => exact new ▸ now

theorem closed_run {w w' : World β} {later : List Turn} {k : Uuid}
    (logged : w.Logged host fun _ => True) (run : Run (worldStep host) anyStep w later w')
    (alive : w.alive = true) (alive' : w'.alive = true) (closed : w.engine.toLedger.Closed k) :
    w'.engine.toLedger.Closed k := by
  have first : w.Logged host fun s => s.Closed k := by
    refine logged.also ?_
    rw [← (logged.synced alive).1]
    exact closed
  have last : w'.Logged host fun s => s.Closed k :=
    first.run (fun _ _ _ _ _ _ _ _ _ closed issued => closed_issued closed issued) run
  rw [(last.synced alive').1]
  exact last.logged.held

/-- Over every run with crashes: no offer is answered twice; an offer that some
    process saw closed is closed in every later one; and an answer that succeeds finds
    its offer pending, reads the clock before the offer expires, and no earlier process
    ever saw the offer closed. -/
theorem offers_answered_once (host : Host) (h3Resolution : Nat) (storage : β) (tick : Nat)
    (blank : LawfulBackend.disk storage = Disk.empty) (past : List Turn) (w : World β)
    (run : Run (worldStep host) anyStep (World.start h3Resolution storage tick) past w) :
    (answeredOffers past).Nodup ∧
    (∀ later w', Run (worldStep host) anyStep w later w' → w.alive = true → w'.alive = true →
      ∀ k, w.engine.toLedger.Closed k → w'.engine.toLedger.Closed k) ∧
    ∀ turn w' k, worldStep host w turn w' → turn.answered = some k →
      (∃ o, w.engine.offers.lookup k = some o ∧ o.status = .pending ∧
        host.clock w.engine.tick < o.expiresAt) ∧
      ∀ before w₀ between, Run (worldStep host) anyStep (World.start h3Resolution storage tick) before w₀ →
        Run (worldStep host) anyStep w₀ between w → w₀.alive = true →
        ¬ w₀.engine.toLedger.Closed k := by
  have start : (World.start h3Resolution storage tick).Logged host fun _ => True :=
    World.logged_start h3Resolution tick blank trivial
  have answered : AnsweredOnce host past w := by
    refine run.invariant (AnsweredOnce host) ⟨start, List.nodup_nil, fun k member => ?_⟩ ?_
    · cases member
    · intro past w turn w' before _ taken
      exact before.step taken
  refine ⟨answered.once, ?_, ?_⟩
  · intro later w' continued alive alive' k closed
    exact closed_run answered.logged continued alive alive' closed
  · intro turn w' k taken answer
    obtain ⟨alive, ⟨o, found, pending, inTime⟩, _⟩ := answered.logged.answer taken answer
    refine ⟨⟨o, found, pending, inTime⟩, ?_⟩
    intro before w₀ between first second alive₀ closed
    have logged₀ := (start.run_any first).1
    obtain ⟨o', found', closed'⟩ := closed_run logged₀ second alive₀ alive closed
    obtain rfl := Option.some.inj (found.symm.trans found')
    exact closed' pending

/-- The process dies right after it has logged an acceptance; its successor is asked
    to take the answer again. -/
theorem answered_once_after_crash :
    ∃ past w, Run (worldStep stillHost) anyStep (World.start 8 SqliteBackend.blank 0) past w ∧
      answeredOffers past = [3] ∧ (answeredOffers past).Nodup := by
  let e₀ : Engine (Crashing SqliteBackend) := Engine.withStorage 8 ⟨SqliteBackend.blank, none, []⟩ 0
  let e₁ := e₀.recovered stillHost
  let e₂ := (perform stillHost (e₁.limited none) (comesOnline 100)).1
  let e₃ := (perform stillHost (e₂.limited none) (.submitJob (jobAtOrigin 1))).1
  let e₄ := (perform stillHost (e₃.limited (some 1)) (.handleOfferResponse 3 true)).1
  let e₅ := e₄.recovered stillHost
  let e₆ := (perform stillHost (e₅.limited none) (.handleOfferResponse 3 true)).1
  have first : worldStep stillHost ⟨e₀, false⟩ (.recover none) ⟨e₁, true⟩ := .recover rfl
  have second : worldStep stillHost ⟨e₁, true⟩ (.perform (comesOnline 100) none _) ⟨e₂, true⟩ :=
    worldStep_perform ..
  have third : worldStep stillHost ⟨e₂, true⟩ (.perform (.submitJob (jobAtOrigin 1)) none _)
    ⟨e₃, true⟩ := worldStep_perform ..
  have answer : worldStep stillHost ⟨e₃, true⟩
    (.perform (.handleOfferResponse 3 true) (some 1) _) ⟨e₄, false⟩ := worldStep_perform ..
  have successor : worldStep stillHost ⟨e₄, false⟩ (.recover none) ⟨e₅, true⟩ := .recover rfl
  have again : worldStep stillHost ⟨e₅, true⟩ (.perform (.handleOfferResponse 3 true) none _)
    ⟨e₆, true⟩ := worldStep_perform ..
  have run : Run (worldStep stillHost) anyStep ⟨e₀, false⟩ _ ⟨e₆, true⟩ :=
    (((((Run.start.next trivial first).next trivial second).next trivial third).next trivial
      answer).next trivial successor).next trivial again
  exact ⟨_, ⟨e₆, true⟩, run, by decide +kernel,
    (offers_answered_once stillHost 8 SqliteBackend.blank 0 rfl _ ⟨e₆, true⟩ run).1⟩

end Spatiad
