import Spatiad.EventReaders

/-! # Carrying on after failed requests

A failed call leaves `iterateJobEvents` where it was, apart from its count of failures in
a row, so what it yields does not show which calls failed until there are too many.
-/

namespace Spatiad

open Foundation

/-- How many failed calls in a row are made again. -/
def IterateJobEventsRequest.resumesAllowed (request : IterateJobEventsRequest) : ℕ∞ :=
  request.resumeLimit.countsBelow

/-- At most so many calls fail before one that does not. -/
def FailsAtMost (most : ℕ∞) (schedule : Nat → Option Thrown) : Prop :=
  ∀ call, ∃ failures : Nat, failures ≤ most ∧ schedule (call + failures) = none

/-- More than so many calls in a row fail, from this one on. -/
def FailsBeyond (most : ℕ∞) (schedule : Nat → Option Thrown) (call : Nat) : Prop :=
  ∃ failures : Nat, most < failures ∧ ∀ i < failures, schedule (call + i) ≠ none

abbrev Reading := Nat → Round IterateState JobEventResponse Ending

/-- Nothing is yielded that the other reading does not yield, and all of it at last, with
    the same end if it has one. -/
structure SameReading (mine yours : Reading) : Prop where
  sound (fuel : Nat) : (mine fuel).handedOut <+: (yours fuel).handedOut
  complete (fuel : Nat) : ∃ enough, (mine enough).handedOut = (yours fuel).handedOut ∧
    (mine enough).result = (yours fuel).result

/-- A prefix of what the other reading yields, and then the error of the last call. -/
def RethrowsLast (schedule : Nat → Option Thrown) (mine yours : Reading) : Prop :=
  ∃ fuel error, (mine fuel).handedOut <+: (yours fuel).handedOut ∧
    (mine fuel).result = some (.threw error) ∧
    schedule ((mine fuel).state.fetches - 1) = some error

theorem resumesAllowed_whole {request : IterateJobEventsRequest} {n : Nat}
    (whole : request.maxResumeAttempts.getD (.ofInt 3) = .ofInt n) : request.resumesAllowed = n := by
  have nonneg : (JsNumber.ofInt 0).le (.ofInt n) = true := by simp
  have limit : request.resumeLimit = .ofInt n := by
    rw [IterateJobEventsRequest.resumeLimit, whole]
    simp only [JsNumber.ofInt, JsNumber.max] at nonneg ⊢
    rw [if_pos nonneg]
  rw [IterateJobEventsRequest.resumesAllowed, limit, JsNumber.countsBelow_ofInt]

section resuming

variable {server : GetJobEventsRequest → JobEventsResponse} {schedule : Nat → Option Thrown}
  {request : IterateJobEventsRequest} {s t : IterateState}

/-! ## Beside the reading without failures -/

/-- At the same page with the same count of events. -/
structure Beside (s t : IterateState) : Prop where
  cursor : s.cursor = t.cursor
  page : s.page = t.page
  yielded : s.yielded = t.yielded

theorem yieldPage_beside (beside : Beside s t) (current : JobEventsResponse) :
    Round.Alike Beside (yieldPage request s current) (yieldPage request t current) := by
  obtain ⟨cursor, page, yielded⟩ := beside
  simp only [yieldPage, yielded]
  generalize yieldEvents request.maxEvents t.yielded current.events = taken
  cases taken.2.2 with
  | true => exact ⟨rfl, rfl, nofun⟩
  | false =>
      cases current.following with
      | none => exact ⟨rfl, rfl, nofun⟩
      | some next => exact ⟨rfl, rfl, fun _ => ⟨rfl, congrArg (· + 1) page, rfl⟩⟩

theorem yieldPage_counts (request : IterateJobEventsRequest) (s : IterateState)
    (current : JobEventsResponse) :
    (yieldPage request s current).state.resumeAttempts = 0 ∧
      (yieldPage request s current).state.fetches = s.fetches + 1 := by
  simp only [yieldPage]
  cases (yieldEvents request.maxEvents s.yielded current.events).2.2 with
  | true => exact ⟨rfl, rfl⟩
  | false => cases current.following <;> exact ⟨rfl, rfl⟩

theorem round_over {R : IterateState → IterateState → Prop} {fetch fetch' : Fetches}
    (beside : Beside s t) (ended : (JsNumber.ofInt s.page).lt request.pageLimit = false) :
    Round.Alike R (iterateRound fetch request s) (iterateRound fetch' request t) := by
  rw [iterateRound_over ended, iterateRound_over (beside.page ▸ ended)]
  exact ⟨rfl, rfl, nofun⟩

theorem failing_none {call : Nat} (succeeds : schedule call = none) (request : GetJobEventsRequest) :
    failing server schedule call request = .ok (server request) := by
  rw [failing, succeeds]

variable (server) in
theorem failing_some {call : Nat} {error : Thrown} (fails : schedule call = some error)
    (request : GetJobEventsRequest) : failing server schedule call request = .error error := by
  rw [failing, fails]

variable (server) in
theorem round_beside (beside : Beside s t)
    (within : (JsNumber.ofInt s.page).lt request.pageLimit = true)
    (succeeds : schedule s.fetches = none) :
    Round.Alike Beside (iterateRound (failing server schedule) request s)
      (iterateRound (reliable server) request t) := by
  have clean : reliable server t.fetches (request.page t.cursor) =
      .ok (server (request.page s.cursor)) := by rw [beside.cursor]; rfl
  rw [iterateRound_fetched within (failing_none succeeds _),
    iterateRound_fetched (beside.page ▸ within) clean]
  exact yieldPage_beside beside _

variable (server) in
theorem round_failed (beside : Beside s t) {error : Thrown}
    (within : (JsNumber.ofInt s.page).lt request.pageLimit = true)
    (fails : schedule s.fetches = some error) :
    (iterateRound (failing server schedule) request s).handedOut = [] ∧
      Beside (iterateRound (failing server schedule) request s).state t := by
  have failed := failing_some server fails (request.page s.cursor)
  cases resumes : request.resumes s.resumeAttempts error with
  | true =>
      rw [iterateRound_resumed within failed resumes]
      exact ⟨rfl, beside.cursor, beside.page, beside.yielded⟩
  | false =>
      rw [iterateRound_threw within failed resumes]
      exact ⟨rfl, beside.cursor, beside.page, beside.yielded⟩

theorem yields_part (server : GetJobEventsRequest → JobEventsResponse)
    (schedule : Nat → Option Thrown) (request : IterateJobEventsRequest) (fuel : Nat) :
    (iterateJobEvents (failing server schedule) request fuel).handedOut <+:
      (iterateJobEvents (reliable server) request fuel).handedOut := by
  unfold iterateJobEvents
  split
  · exact List.prefix_rfl
  · have start : Beside .start .start := ⟨rfl, rfl, rfl⟩
    refine Round.run_follows (fun s t beside => ?_) start fuel
    cases within : (JsNumber.ofInt s.page).lt request.pageLimit with
    | false => exact .inl (round_over beside within)
    | true =>
        cases fails : schedule s.fetches with
        | none => exact .inl (round_beside server beside within fails)
        | some error =>
            have stays := round_failed server beside within fails
            exact .inr ⟨stays.1, fun _ => stays.2⟩

/-! ## Few failures -/

variable (on : request.resumeOnTransientError = some true)
  (transient : ∀ call error, schedule call = some error →
    ∃ api : SpatiadApiError, error = .api api ∧ api.retryable = true)

include on transient

theorem resumes_iff {call : Nat} {error : Thrown} (fails : schedule call = some error)
    (attempts : Nat) :
    request.resumes attempts error = true ↔ (attempts : ℕ∞) < request.resumesAllowed := by
  obtain ⟨api, rfl, retryable⟩ := transient call error fails
  rw [IterateJobEventsRequest.resumesAllowed, ← JsNumber.lt_iff_countsBelow]
  simp [IterateJobEventsRequest.resumes, on, retryable]

/-- So many failures are still to come, and attempts for all of them are left. -/
structure CatchingUp (schedule : Nat → Option Thrown) (request : IterateJobEventsRequest)
    (failures : Nat) (s t : IterateState) : Prop where
  beside : Beside s t
  succeeds : schedule (s.fetches + failures) = none
  left : ((s.resumeAttempts + failures : Nat) : ℕ∞) ≤ request.resumesAllowed

theorem few_failures (few : FailsAtMost request.resumesAllowed schedule) (fuel : Nat) :
    ∃ enough, (iterateJobEvents (failing server schedule) request enough).handedOut =
        (iterateJobEvents (reliable server) request fuel).handedOut ∧
      (iterateJobEvents (failing server schedule) request enough).result =
        (iterateJobEvents (reliable server) request fuel).result := by
  unfold iterateJobEvents
  split
  · exact ⟨0, rfl, rfl⟩
  · obtain ⟨failures, allowed, succeeds⟩ := few 0
    have start : CatchingUp schedule request failures .start .start :=
      ⟨⟨rfl, rfl, rfl⟩, succeeds, by simpa [IterateState.start] using allowed⟩
    refine Round.run_same (fun n s t catching => ?_) start fuel
    obtain ⟨beside, succeeds, left⟩ := catching
    cases within : (JsNumber.ofInt s.page).lt request.pageLimit with
    | false => exact .inl (round_over beside within)
    | true =>
        cases fails : schedule s.fetches with
        | none =>
            have alike := round_beside server beside within fails
            refine .inl ⟨alike.handedOut, alike.result, fun goesOn => ?_⟩
            obtain ⟨failures, allowed, succeeds⟩ := few (s.fetches + 1)
            have counts := yieldPage_counts request s (server (request.page s.cursor))
            rw [← iterateRound_fetched within (failing_none fails _)] at counts
            refine ⟨failures, alike.related goesOn, by rw [counts.2, succeeds], ?_⟩
            rw [counts.1, Nat.zero_add]
            exact allowed
        | some error =>
            cases n with
            | zero => cases succeeds.symm.trans fails
            | succ n =>
                have more : (s.resumeAttempts : ℕ∞) < request.resumesAllowed :=
                  lt_of_lt_of_le (by exact_mod_cast (by omega)) left
                have resumes := (resumes_iff on transient fails s.resumeAttempts).mpr more
                rw [iterateRound_resumed within (failing_some server fails _) resumes]
                refine .inr ⟨n, _, rfl, rfl, ⟨beside.cursor, beside.page, beside.yielded⟩, ?_, ?_⟩
                · rw [← succeeds, Nat.add_right_comm, Nat.add_assoc]
                · rw [← Nat.add_right_comm]
                  exact left

/-! ## Too many -/

variable (server) in
/-- Once it makes a call from which on too many fail, the reading ends with the last error. -/
theorem rethrows {call failures : Nat} (many : request.resumesAllowed < failures)
    (fail : ∀ i < failures, schedule (call + i) ≠ none) (s : IterateState)
    (within : (JsNumber.ofInt s.page).lt request.pageLimit = true)
    (from_ : call ≤ s.fetches) (upTo : s.fetches < call + failures)
    (counted : s.fetches - call ≤ s.resumeAttempts) :
    ∃ fuel error, (Round.run (iterateRound (failing server schedule) request) fuel s).result =
        some (.threw error) ∧
      schedule ((Round.run (iterateRound (failing server schedule) request) fuel s).state.fetches - 1) =
        some error := by
  induction left : call + failures - s.fetches generalizing s with
  | zero => omega
  | succ more ih =>
      obtain ⟨error, fails⟩ : ∃ error, schedule s.fetches = some error := by
        have here := fail (s.fetches - call) (by omega)
        rw [Nat.add_sub_cancel' from_] at here
        exact Option.ne_none_iff_exists'.mp here
      have failed := failing_some server fails (request.page s.cursor)
      cases resumes : request.resumes s.resumeAttempts error with
      | false =>
          have round := iterateRound_threw within failed resumes
          have ends : (iterateRound (failing server schedule) request s).result = some (.threw error) := by
            rw [round]
          refine ⟨1, error, ?_, ?_⟩
          · rw [Round.run_last ends, ends]
          · rw [Round.run_last ends, round]
            exact fails
      | true =>
          have allowed := (resumes_iff on transient fails s.resumeAttempts).mp resumes
          have below : s.resumeAttempts + 1 < failures := by
            have step := (Order.add_one_le_of_lt allowed).trans_lt many
            exact_mod_cast step
          have round := iterateRound_resumed within failed resumes
          have goesOn : (iterateRound (failing server schedule) request s).result = none := by rw [round]
          obtain ⟨fuel, last, threw, thrown⟩ := ih { s with
            resumeAttempts := s.resumeAttempts + 1
            fetches := s.fetches + 1 } within (by dsimp only; omega) (by dsimp only; omega)
            (by dsimp only; omega) (by dsimp only; omega)
          refine ⟨fuel + 1, last, ?_, ?_⟩
          · rw [Round.run_goOn goesOn, round]
            exact threw
          · rw [Round.run_goOn goesOn, round]
            exact thrown

omit on transient in
theorem iterateRound_fetches (fetch : Fetches) (request : IterateJobEventsRequest)
    (s : IterateState) : (iterateRound fetch request s).state.fetches =
      if (JsNumber.ofInt s.page).lt request.pageLimit then s.fetches + 1 else s.fetches := by
  cases within : (JsNumber.ofInt s.page).lt request.pageLimit with
  | false => rw [iterateRound_over within]; rfl
  | true =>
      cases fetched : fetch s.fetches (request.page s.cursor) with
      | ok current =>
          rw [iterateRound_fetched within fetched]
          exact (yieldPage_counts request s current).2
      | error error =>
          cases resumes : request.resumes s.resumeAttempts error with
          | true => rw [iterateRound_resumed within fetched resumes]; rfl
          | false => rw [iterateRound_threw within fetched resumes]; rfl

omit on transient in
theorem made_call {fetch : Fetches} {call fuel : Nat} (later : s.fetches ≤ call)
    (made : call < (Round.run (iterateRound fetch request) fuel s).state.fetches) :
    ∃ n, (Round.run (iterateRound fetch request) n s).result = none ∧
      (Round.run (iterateRound fetch request) n s).state.fetches = call ∧
      (JsNumber.ofInt (Round.run (iterateRound fetch request) n s).state.page).lt request.pageLimit =
        true := by
  induction fuel generalizing s with
  | zero => exact absurd made (Nat.not_lt.mpr later)
  | succ fuel ih =>
      have fetches := iterateRound_fetches fetch request s
      cases within : (JsNumber.ofInt s.page).lt request.pageLimit with
      | false =>
          have ends : (iterateRound fetch request s).result = some .done := by
            rw [iterateRound_over within]
          rw [Round.run_last ends, fetches, within] at made
          exact absurd made (Nat.not_lt.mpr later)
      | true =>
          rw [within, if_pos rfl] at fetches
          by_cases here : s.fetches = call
          · exact ⟨0, rfl, here, within⟩
          · cases result : (iterateRound fetch request s).result with
            | some ending =>
                rw [Round.run_last result] at made
                omega
            | none =>
                rw [Round.run_goOn result] at made
                obtain ⟨n, reached⟩ := ih (by omega) made
                exact ⟨n + 1, by rw [Round.run_goOn result]; exact reached⟩

end resuming

/-- Resuming shows in what is read only when more calls in a row fail than are allowed:
    then the reading breaks off and the last error is thrown. -/
theorem resuming_transparent (server : GetJobEventsRequest → JobEventsResponse)
    (schedule : Nat → Option Thrown) (request : IterateJobEventsRequest)
    (on : request.resumeOnTransientError = some true)
    (transient : ∀ call error, schedule call = some error →
      ∃ api : SpatiadApiError, error = .api api ∧ api.retryable = true) :
    let resumed := iterateJobEvents (failing server schedule) request
    let clean := iterateJobEvents (reliable server) request
    (FailsAtMost request.resumesAllowed schedule → SameReading resumed clean) ∧
      ∀ call, FailsBeyond request.resumesAllowed schedule call →
        (∃ fuel, call < (resumed fuel).state.fetches) → RethrowsLast schedule resumed clean := by
  refine ⟨fun few => ⟨yields_part server schedule request, few_failures on transient few⟩, ?_⟩
  rintro call ⟨failures, many, fail⟩ ⟨enough, made⟩
  have part := yields_part server schedule request
  unfold RethrowsLast iterateJobEvents at *
  cases none_ : request.pageLimit.lt (.ofInt 1) with
  | true =>
      rw [none_] at made
      cases made
  | false =>
      rw [none_] at made part
      obtain ⟨n, goesOn, here, within⟩ := made_call (Nat.zero_le call) made
      have some_ : 0 < failures := by
        exact_mod_cast lt_of_le_of_lt zero_le many
      obtain ⟨fuel, error, threw, last⟩ := rethrows server on transient many fail _ within
        here.ge (by omega) (by omega)
      have continued := Round.run_add n fuel goesOn
      refine ⟨n + fuel, error, part (n + fuel), ?_, ?_⟩
      · exact (congrArg Round.result continued).trans threw
      · exact (congrArg (fun round => schedule (round.state.fetches - 1)) continued).trans last

def eventPage : JobEventsResponse where
  jobId := 1
  events := [⟨0, "job_registered", none, none, none⟩]
  nextBeforeCursor := none
  nextCursor := none

def resumingRequest : IterateJobEventsRequest where
  jobId := 1
  limit := none
  kinds := none
  maxPages := none
  maxEvents := none
  resumeOnTransientError := some true
  maxResumeAttempts := none
  shouldResumeOnError := none

def unavailable : Thrown :=
  .api (.new "job events request failed with status 503" 503 none none)

def outage (n : Nat) (call : Nat) : Option Thrown := if call < n then some unavailable else none

theorem outage_transient {n call : Nat} {error : Thrown} (fails : outage n call = some error) :
    ∃ api : SpatiadApiError, error = .api api ∧ api.retryable = true := by
  unfold outage at fails
  split at fails <;> cases fails
  exact ⟨_, rfl, rfl⟩

/-- Three failures do not show, a fourth is thrown. -/
theorem outages_read :
    SameReading (iterateJobEvents (failing (fun _ => eventPage) (outage 3)) resumingRequest)
        (iterateJobEvents (reliable fun _ => eventPage) resumingRequest) ∧
      RethrowsLast (outage 4)
        (iterateJobEvents (failing (fun _ => eventPage) (outage 4)) resumingRequest)
        (iterateJobEvents (reliable fun _ => eventPage) resumingRequest) := by
  have allowed : resumingRequest.resumesAllowed = (3 : Nat) := resumesAllowed_whole rfl
  have few : FailsAtMost resumingRequest.resumesAllowed (outage 3) := by
    intro call
    refine ⟨3 - call, ?_, ?_⟩
    · rw [allowed]
      exact_mod_cast Nat.sub_le 3 call
    · exact if_neg (by omega)
  have many : FailsBeyond resumingRequest.resumesAllowed (outage 4) 0 := by
    refine ⟨4, ?_, fun i below => ?_⟩
    · rw [allowed]
      exact_mod_cast Nat.lt_succ_self 3
    · rw [outage, if_pos (by omega)]
      exact nofun
  exact ⟨(resuming_transparent _ _ _ rfl fun _ _ => outage_transient).1 few,
    (resuming_transparent _ _ _ rfl fun _ _ => outage_transient).2 0 many ⟨1, by decide +kernel⟩⟩

end Spatiad
