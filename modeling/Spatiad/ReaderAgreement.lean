import Spatiad.EventReaders

/-! # The two event readers

`iterateJobEvents` and `getJobEventsAllPages` read the same pages, and give the same
events unless none were asked for: the first checks its limit after it has yielded.
-/

namespace Spatiad

open Foundation

def AllPagesReturns (server : GetJobEventsRequest → JobEventsResponse)
    (request : GetJobEventsAllPagesRequest) (events : List JobEventResponse) : Prop :=
  ∃ fuel, (getJobEventsAllPages (reliable server) request fuel).result = some (.ok events)

def IterateYields (server : GetJobEventsRequest → JobEventsResponse)
    (request : IterateJobEventsRequest) (events : List JobEventResponse) : Prop :=
  ∃ fuel, (iterateJobEvents (reliable server) request fuel).handedOut = events ∧
    (iterateJobEvents (reliable server) request fuel).result = some .done

/-- Both give the same list, and there is one unless the number of pages is unlimited. -/
structure ReadersAgree (server : GetJobEventsRequest → JobEventsResponse)
    (request : IterateJobEventsRequest) : Prop where
  returns : request.pageLimit ≠ .posInfinity →
    ∃ events, AllPagesReturns server request.toGetJobEventsAllPagesRequest events
  same : ∀ events, AllPagesReturns server request.toGetJobEventsAllPagesRequest events ↔
    IterateYields server request events

/-- From a page on there are no events, until the pages or the page limit come to an end. -/
inductive NoEvents (server : GetJobEventsRequest → JobEventsResponse)
    (request : GetJobEventsAllPagesRequest) : Int → Option String → Prop
  | limit {page cursor} : (JsNumber.ofInt page).lt request.pageLimit = false →
      NoEvents server request page cursor
  | last {page cursor} : (server (request.page cursor)).events = [] →
      (server (request.page cursor)).following = none → NoEvents server request page cursor
  | more {page cursor next} : (server (request.page cursor)).events = [] →
      (server (request.page cursor)).following = some next →
      NoEvents server request (page + 1) (some next) → NoEvents server request page cursor

/-! ## Counting events -/

section counting

variable {limit yielded : Nat} {events : List JobEventResponse}

@[simp] theorem eventsReached_none (n : Nat) : eventsReached none n = false := rfl

@[simp] theorem eventsReached_ofInt (limit n : Nat) :
    eventsReached (some (.ofInt limit)) n = decide (limit ≤ n) := by
  rw [Bool.eq_iff_iff]
  simp [eventsReached]

theorem eventsReached_zero (n : Nat) : eventsReached (some (.ofInt 0)) n = true :=
  (eventsReached_ofInt 0 n).trans (decide_eq_true n.zero_le)

theorem yieldEvents_all {maxEvents : Option JsNumber}
    (open_ : ∀ n ≤ yielded + events.length, eventsReached maxEvents n = false) :
    yieldEvents maxEvents yielded events = (events, yielded + events.length, false) := by
  induction events generalizing yielded with
  | nil => rfl
  | cons event rest ih =>
      rw [List.length_cons] at open_
      have more := @ih (yielded + 1) fun n le => open_ n (by omega)
      have first := open_ (yielded + 1) (by omega)
      simp only [yieldEvents, first, more, List.length_cons]
      simp [Nat.add_comm, Nat.add_left_comm]

theorem yieldEvents_limit (below : yielded < limit) (reached : limit ≤ yielded + events.length) :
    yieldEvents (some (.ofInt limit)) yielded events = (events.take (limit - yielded), limit, true) := by
  induction events generalizing yielded with
  | nil => simp only [List.length_nil] at reached; omega
  | cons event rest ih =>
      rw [List.length_cons] at reached
      obtain ⟨left, eq⟩ : ∃ left, limit - yielded = left + 1 := ⟨limit - yielded - 1, by omega⟩
      rw [yieldEvents, eq, List.take_succ_cons]
      by_cases last : limit ≤ yielded + 1
      · obtain rfl : left = 0 := by omega
        have count : yielded + 1 = limit := by omega
        simp only [eventsReached_ofInt, count, le_refl, decide_true, if_true, List.take_zero]
      · have left_eq : limit - (yielded + 1) = left := by omega
        rw [ih (by omega) (by omega), left_eq]
        simp only [eventsReached_ofInt, last, decide_false, Bool.false_eq_true, if_false]

end counting

/-! ## Round by round -/

section agreement

variable {server : GetJobEventsRequest → JobEventsResponse} {request : IterateJobEventsRequest}

/-- Both are at the same page with the same events, and may take more. -/
structure SamePlace (maxEvents : Option Nat) (t : AllPagesState) (s : IterateState) : Prop where
  cursor : t.cursor = s.cursor
  page : t.page = s.page
  count : t.allEvents.length = s.yielded
  below : ∀ limit ∈ maxEvents, s.yielded < limit

def Ending.outcome (events : List JobEventResponse) : Ending → Except Thrown (List JobEventResponse)
  | .done => .ok events
  | .threw error => .error error

/-- A round of `getJobEventsAllPages` keeps what one of `iterateJobEvents` yields. -/
abbrev Kept (maxEvents : Option Nat) (t : AllPagesState)
    (one : Round IterateState JobEventResponse Ending)
    (all : Round AllPagesState JobEventResponse (Except Thrown (List JobEventResponse))) : Prop :=
  Round.Collects (SamePlace maxEvents) AllPagesState.allEvents (fun ending events => ending.outcome events)
    t.allEvents one all

theorem pages_agree {maxEvents : Option Nat}
    (whole : request.maxEvents = maxEvents.map fun n => .ofInt n) {t : AllPagesState}
    {s : IterateState} (same : SamePlace maxEvents t s) (current : JobEventsResponse) :
    Kept maxEvents t (yieldPage request s current)
      (collectPage request.toGetJobEventsAllPagesRequest t current) := by
  obtain ⟨cursor, page, count, below⟩ := same
  have length : (t.allEvents ++ current.events).length = s.yielded + current.events.length := by
    rw [List.length_append, count]
  by_cases reached : ∃ limit ∈ maxEvents, limit ≤ s.yielded + current.events.length
  · obtain ⟨limit, given, reached⟩ := reached
    cases given
    have short := below limit rfl
    have early : t.allEvents.take limit = t.allEvents := List.take_of_length_le (by omega)
    have yields := yieldEvents_limit short reached
    constructor <;>
      simp [collectPage, yieldPage, whole, yields, length, reached, List.take_append, early, count,
        Ending.outcome]
  · have room : ∀ limit ∈ maxEvents, s.yielded + current.events.length < limit :=
      fun limit given => Nat.lt_of_not_le fun h => reached ⟨limit, given, h⟩
    have goesOn : ∀ n ≤ s.yielded + current.events.length,
        eventsReached request.maxEvents n = false := by
      intro n le
      cases maxEvents with
      | none => rw [whole]; rfl
      | some limit =>
          have above := room limit rfl
          rw [whole, Option.map_some, eventsReached_ofInt, decide_eq_false_iff_not]
          omega
    have yields := yieldEvents_all goesOn
    cases following : current.following with
    | none =>
        constructor <;>
          simp [collectPage, yieldPage, yields, length, goesOn _ le_rfl, following, Ending.outcome]
    | some next =>
        simp only [collectPage, yieldPage, yields, length, goesOn _ le_rfl, following,
          Bool.false_eq_true, if_false]
        exact ⟨rfl, fun _ => ⟨rfl, congrArg (· + 1) page, length, room⟩, fun _ => rfl⟩

/-- A round of each does the same as long as more events may be taken. -/
theorem rounds_agree {maxEvents : Option Nat}
    (whole : request.maxEvents = maxEvents.map fun n => .ofInt n) (t : AllPagesState)
    (s : IterateState) (same : SamePlace maxEvents t s) :
    Kept maxEvents t (iterateRound (reliable server) request s)
      (allPagesRound (reliable server) request.toGetJobEventsAllPagesRequest t) := by
  cases within : (JsNumber.ofInt s.page).lt request.pageLimit with
  | false =>
      rw [allPagesRound_over (same.page.symm ▸ within), iterateRound_over within]
      constructor <;> simp [Ending.outcome]
  | true =>
      have fetched : reliable server t.fetches (request.page t.cursor) =
          .ok (server (request.page s.cursor)) := by rw [same.cursor]; rfl
      rw [allPagesRound_fetched (same.page.symm ▸ within) fetched, iterateRound_fetched within rfl]
      exact pages_agree whole same (server (request.page s.cursor))

theorem start_agrees {maxEvents : Option Nat} (room : maxEvents ≠ some 0) :
    SamePlace maxEvents .start .start where
  cursor := rfl
  page := rfl
  count := rfl
  below _ given := Nat.pos_of_ne_zero fun zero => room (zero ▸ given)

/-- Unless no event is asked for, both make the same list with the same number of rounds. -/
theorem readers_same {maxEvents : Option Nat}
    (whole : request.maxEvents = maxEvents.map fun n => .ofInt n) (room : maxEvents ≠ some 0)
    (fuel : Nat) :
    (getJobEventsAllPages (reliable server) request.toGetJobEventsAllPagesRequest fuel).result =
      (iterateJobEvents (reliable server) request fuel).result.map
        (·.outcome (iterateJobEvents (reliable server) request fuel).handedOut) := by
  unfold getJobEventsAllPages iterateJobEvents
  by_cases none_ : request.pageLimit.lt (.ofInt 1) = true
  · rw [if_pos none_, if_pos none_]
    rfl
  · rw [if_neg none_, if_neg none_]
    exact Round.run_collects (rounds_agree whole) (start_agrees room) fuel

/-! ## No event asked for -/

section zero

theorem yieldPage_empty {current : JobEventsResponse} (empty : current.events = [])
    (s : IterateState) : yieldPage request s current =
      let s := { s with resumeAttempts := 0, fetches := s.fetches + 1 }
      match current.following with
      | none => ⟨[], s, some .done⟩
      | some cursor => ⟨[], { s with cursor := some cursor, page := s.page + 1 }, none⟩ := by
  cases following : current.following <;> simp [yieldPage, empty, yieldEvents, following]

variable (server) in
theorem iterateRound_reliable {s : IterateState}
    (within : (JsNumber.ofInt s.page).lt request.pageLimit = true) :
    iterateRound (reliable server) request s =
      yieldPage request s (server (request.page s.cursor)) :=
  iterateRound_fetched within rfl

theorem ends_over {s : IterateState} (ended : (JsNumber.ofInt s.page).lt request.pageLimit = false) :
    Round.Ends (iterateRound (reliable server) request) s [] .done := by
  have round : iterateRound (reliable server) request s = ⟨[], s, some .done⟩ := iterateRound_over ended
  exact (Round.ends_last (by rw [round])).mpr ⟨by rw [round], rfl⟩

/-- After a page without events the reader yields none if it yields none from the next page on. -/
theorem ends_empty {s : IterateState} (empty : (server (request.page s.cursor)).events = [])
    (later : ∀ next, (server (request.page s.cursor)).following = some next →
      Round.Ends (iterateRound (reliable server) request)
        { s with cursor := some next, page := s.page + 1, resumeAttempts := 0,
                 fetches := s.fetches + 1 } [] .done) :
    Round.Ends (iterateRound (reliable server) request) s [] .done := by
  cases within : (JsNumber.ofInt s.page).lt request.pageLimit with
  | false => exact ends_over within
  | true =>
      have round := iterateRound_reliable server within
      rw [yieldPage_empty empty] at round
      cases following : (server (request.page s.cursor)).following with
      | none =>
          rw [following] at round
          exact (Round.ends_last (by rw [round])).mpr ⟨by rw [round], rfl⟩
      | some next =>
          rw [following] at round
          exact (Round.ends_goOn (by rw [round])).mpr
            ⟨[], by rw [round]; rfl, by rw [round]; exact later next following⟩

variable (zero : request.maxEvents = some (.ofInt 0))

include zero

theorem allPages_zero (events : List JobEventResponse) :
    AllPagesReturns server request.toGetJobEventsAllPagesRequest events ↔ events = [] := by
  have result : ∀ fuel, (getJobEventsAllPages (reliable server)
      request.toGetJobEventsAllPagesRequest (fuel + 1)).result = some (.ok []) := by
    intro fuel
    have round : (allPagesRound (reliable server) request.toGetJobEventsAllPagesRequest .start).result =
        some (.ok []) := by
      cases within : (JsNumber.ofInt AllPagesState.start.page).lt request.pageLimit with
      | false => rw [allPagesRound_over within]; rfl
      | true =>
          rw [allPagesRound_fetched within rfl, collectPage, zero]
          simp only [eventsReached_zero, if_true, Option.elim_some]
          exact congrArg (some <| Except.ok ·) (JsNumber.slice_ofInt _ 0)
    unfold getJobEventsAllPages
    split
    · rfl
    · rw [Round.run_last round, round]
  constructor
  · rintro ⟨fuel, returned⟩
    cases fuel with
    | zero =>
        unfold getJobEventsAllPages at returned
        split at returned
        · cases returned
          rfl
        · cases returned
    | succ fuel =>
        cases (result fuel).symm.trans returned
        rfl
  · rintro rfl
    exact ⟨1, result 0⟩

theorem yieldPage_first {current : JobEventsResponse} {event : JobEventResponse}
    {rest : List JobEventResponse} (events : current.events = event :: rest) (s : IterateState) :
    (yieldPage request s current).handedOut = [event] ∧
      (yieldPage request s current).result = some .done := by
  simp [yieldPage, events, yieldEvents, zero, eventsReached_zero]

variable (server) in
theorem ends_without_iff (s : IterateState) :
    Round.Ends (iterateRound (reliable server) request) s [] .done ↔
      NoEvents server request.toGetJobEventsAllPagesRequest s.page s.cursor := by
  constructor
  · rintro ⟨fuel, nothing, done⟩
    induction fuel generalizing s with
    | zero => cases done
    | succ fuel ih =>
        cases within : (JsNumber.ofInt s.page).lt request.pageLimit with
        | false => exact .limit within
        | true =>
            have round := iterateRound_reliable server within
            cases events : (server (request.page s.cursor)).events with
            | cons event rest =>
                have first := yieldPage_first zero events s
                rw [← round] at first
                rw [Round.run_last first.2, first.1] at nothing
                cases nothing
            | nil =>
                rw [yieldPage_empty events] at round
                cases following : (server (request.page s.cursor)).following with
                | none => exact .last events following
                | some next =>
                    rw [following] at round
                    rw [Round.run_goOn (by rw [round]), round] at nothing done
                    exact .more events following (ih _ nothing done)
  · intro empty
    generalize place : s.page = page at empty
    generalize at_ : s.cursor = cursor at empty
    induction empty generalizing s with
    | limit ended => exact ends_over (place ▸ ended)
    | last empty following =>
        subst place at_
        exact ends_empty empty fun next leads => by cases following.symm.trans leads
    | more empty following _ ih =>
        subst place at_
        refine ends_empty empty fun next leads => ?_
        cases following.symm.trans leads
        exact ih _ rfl rfl

end zero

/-! ## Agreement -/

theorem collectPage_cases (request : GetJobEventsAllPagesRequest) (s : AllPagesState)
    (current : JobEventsResponse) :
    (∃ events, (collectPage request s current).result = some (.ok events)) ∨
      (collectPage request s current).result = none ∧
        (collectPage request s current).state.page = s.page + 1 := by
  cases reached : eventsReached request.maxEvents (s.allEvents ++ current.events).length with
  | true =>
      simp only [collectPage, reached, if_true]
      exact .inl ⟨_, rfl⟩
  | false =>
      simp only [collectPage, reached, Bool.false_eq_true, if_false]
      cases current.following with
      | none => exact .inl ⟨_, rfl⟩
      | some next => exact .inr ⟨rfl, rfl⟩

theorem allPagesRound_cases (server : GetJobEventsRequest → JobEventsResponse)
    (request : GetJobEventsAllPagesRequest) (s : AllPagesState) :
    (∃ events, (allPagesRound (reliable server) request s).result = some (.ok events)) ∨
      (JsNumber.ofInt s.page).lt request.pageLimit = true ∧
        (allPagesRound (reliable server) request s).result = none ∧
        (allPagesRound (reliable server) request s).state.page = s.page + 1 := by
  cases within : (JsNumber.ofInt s.page).lt request.pageLimit with
  | false => exact .inl ⟨_, by rw [allPagesRound_over within]⟩
  | true =>
      rw [allPagesRound_fetched within rfl]
      exact (collectPage_cases request s _).imp_right fun next => ⟨rfl, next⟩

theorem allPages_returns (server : GetJobEventsRequest → JobEventsResponse)
    {request : GetJobEventsAllPagesRequest} (limited : request.pageLimit ≠ .posInfinity) :
    ∃ events, AllPagesReturns server request events := by
  obtain ⟨most, ended⟩ := JsNumber.exists_not_lt limited
  have decreases : ∀ s, (allPagesRound (reliable server) request s).result = none →
      (most - (allPagesRound (reliable server) request s).state.page).toNat < (most - s.page).toNat := by
    intro s goesOn
    cases allPagesRound_cases server request s with
    | inl returned => cases goesOn.symm.trans returned.choose_spec
    | inr next =>
        obtain ⟨within, -, page⟩ := next
        have below : s.page < most := by
          by_contra above
          cases (ended s.page (not_lt.mp above)).symm.trans within
        omega
  obtain ⟨fuel, r, through⟩ := Round.run_finishes (allPagesRound (reliable server) request)
    (fun s => (most - s.page).toNat) decreases .start
  obtain ⟨last, result⟩ := Round.exists_last through
  unfold AllPagesReturns getJobEventsAllPages
  cases request.pageLimit.lt (.ofInt 1) with
  | true => exact ⟨[], 0, rfl⟩
  | false =>
      cases allPagesRound_cases server request last with
      | inl returned =>
          obtain ⟨events, ok⟩ := returned
          cases result.symm.trans ok
          exact ⟨events, fuel, through⟩
      | inr next => cases result.symm.trans next.2.1

theorem allPages_iff_iterate {maxEvents : Option Nat}
    (whole : request.maxEvents = maxEvents.map fun n => .ofInt n) (room : maxEvents ≠ some 0)
    (events : List JobEventResponse) :
    AllPagesReturns server request.toGetJobEventsAllPagesRequest events ↔
      IterateYields server request events := by
  refine exists_congr fun fuel => ?_
  rw [readers_same whole room]
  cases result : (iterateJobEvents (reliable server) request fuel).result with
  | none => simp
  | some ending => cases ending <;> simp [Ending.outcome]

/-- Nothing is yielded iff no page is read or none that is read has an event. -/
theorem yields_nothing_iff (server : GetJobEventsRequest → JobEventsResponse)
    (zero : request.maxEvents = some (.ofInt 0)) :
    IterateYields server request [] ↔ request.pageLimit.lt (.ofInt 1) = true ∨
      NoEvents server request.toGetJobEventsAllPagesRequest 0 none := by
  have start := ends_without_iff server zero .start
  unfold IterateYields iterateJobEvents
  cases request.pageLimit.lt (.ofInt 1) with
  | true => exact iff_of_true ⟨0, rfl, rfl⟩ (.inl rfl)
  | false => exact start.trans (or_iff_right Bool.false_ne_true).symm

theorem IterateYields.unique {events events' : List JobEventResponse}
    (one : IterateYields server request events) (other : IterateYields server request events') :
    events = events' := by
  unfold IterateYields iterateJobEvents at one other
  cases none_ : request.pageLimit.lt (.ofInt 1) with
  | true =>
      rw [none_] at one other
      exact one.choose_spec.1.symm.trans other.choose_spec.1
  | false =>
      rw [none_] at one other
      exact Round.Ends.unique one other

end agreement

/-- The readers agree iff events are asked for or there are none to be had. -/
theorem readers_agree_iff (server : GetJobEventsRequest → JobEventsResponse)
    (request : IterateJobEventsRequest) (maxEvents : Option Nat)
    (whole : request.maxEvents = maxEvents.map fun n => .ofInt n) :
    ReadersAgree server request ↔ maxEvents ≠ some 0 ∨ request.pageLimit.lt (.ofInt 1) = true ∨
      NoEvents server request.toGetJobEventsAllPagesRequest 0 none := by
  by_cases room : maxEvents = some 0
  · subst room
    have nothing := yields_nothing_iff server whole
    rw [or_iff_right (not_not_intro rfl), ← nothing]
    constructor
    · intro agree
      exact (agree.same []).mp ((allPages_zero whole []).mpr rfl)
    · intro yields
      refine ⟨allPages_returns server, fun events => ?_⟩
      rw [allPages_zero whole]
      constructor
      · rintro rfl
        exact yields
      · exact fun other => other.unique yields
  · exact iff_of_true ⟨allPages_returns server, allPages_iff_iterate whole room⟩ (.inl room)

def loneEvent : JobEventsResponse where
  jobId := 1
  events := [⟨0, "job_registered", none, none, none⟩]
  nextBeforeCursor := none
  nextCursor := none

def readingUpTo (maxEvents : Nat) : IterateJobEventsRequest where
  jobId := 1
  limit := none
  kinds := none
  maxPages := none
  maxEvents := some (.ofInt maxEvents)
  resumeOnTransientError := none
  maxResumeAttempts := none
  shouldResumeOnError := none

theorem lone_event_read_alike : ReadersAgree (fun _ => loneEvent) (readingUpTo 1) :=
  (readers_agree_iff _ _ (some 1) rfl).mpr (.inl (by decide))

/-- Asked for no event, one reader returns none and the other yields one. -/
theorem lone_event_yielded_for_none : ¬ ReadersAgree (fun _ => loneEvent) (readingUpTo 0) := by
  intro agree
  have returned : AllPagesReturns (fun _ => loneEvent)
      (readingUpTo 0).toGetJobEventsAllPagesRequest [] := ⟨1, by decide +kernel⟩
  have yields : IterateYields (fun _ => loneEvent) (readingUpTo 0) loneEvent.events :=
    ⟨1, by decide +kernel, by decide +kernel⟩
  cases ((agree.same []).mp returned).unique yields

end Spatiad
