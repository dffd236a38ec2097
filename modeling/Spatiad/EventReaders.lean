import Spatiad.EventsEndpoint
import Spatiad.Foundation.JsNumber
import Spatiad.Foundation.Rounds

/-! # The SDK's event readers

`getJobEventsAllPages` collects a job's events page by page and returns them;
`iterateJobEvents` yields them as they come and can carry on after a failed request.
-/

namespace Spatiad

open Foundation

/-! ## Requests and errors -/

structure GetJobEventsRequest where
  jobId : Uuid
  limit : Option JsNumber
  cursor : Option String
  kinds : Option (List JobEventFilterKind)

def isRetryableStatus (status : Nat) : Bool :=
  status == 408 || status == 429 || status == 502 || status == 503 || status == 504

structure SpatiadApiError where
  message : String
  status : Nat
  code : Option String
  retryable : Bool
  deriving DecidableEq, Repr

def SpatiadApiError.new (message : String) (status : Nat) (code : Option String)
    (retryable : Option Bool) : SpatiadApiError where
  message := message
  status := status
  code := code
  retryable := retryable.getD (isRetryableStatus status)

/-- What `getJobEvents` throws: a `SpatiadApiError` or anything else. -/
inductive Thrown where
  | api (error : SpatiadApiError)
  | other (message : String)
  deriving DecidableEq, Repr

structure GetJobEventsAllPagesRequest where
  jobId : Uuid
  limit : Option JsNumber
  kinds : Option (List JobEventFilterKind)
  maxPages : Option JsNumber
  maxEvents : Option JsNumber

structure IterateJobEventsRequest extends GetJobEventsAllPagesRequest where
  resumeOnTransientError : Option Bool
  maxResumeAttempts : Option JsNumber
  shouldResumeOnError : Option (SpatiadApiError → Nat → Bool)

namespace GetJobEventsAllPagesRequest

variable (request : GetJobEventsAllPagesRequest)

def pageLimit : JsNumber := request.maxPages.getD (.ofInt 10)

def page (cursor : Option String) : GetJobEventsRequest where
  jobId := request.jobId
  limit := request.limit
  cursor := cursor
  kinds := request.kinds

end GetJobEventsAllPagesRequest

/-- `next_cursor ?? next_before_cursor`; an empty one is as good as none. -/
def JobEventsResponse.following (page : JobEventsResponse) : Option String :=
  (page.nextCursor <|> page.nextBeforeCursor).filter (· ≠ "")

/-- `typeof maxEvents === "number" && maxEvents >= 0 && events >= maxEvents` -/
def eventsReached (maxEvents : Option JsNumber) (events : Nat) : Bool :=
  maxEvents.any fun most => (JsNumber.ofInt 0).le most && most.le (.ofInt events)

/-- What each call of `getJobEvents` comes to, in the order of the calls. -/
abbrev Fetches := Nat → GetJobEventsRequest → Except Thrown JobEventsResponse

/-- A server that answers by the request, where a schedule lets calls fail. -/
def failing (server : GetJobEventsRequest → JobEventsResponse) (schedule : Nat → Option Thrown) :
    Fetches := fun call request =>
  match schedule call with
  | some error => .error error
  | none => .ok (server request)

def reliable (server : GetJobEventsRequest → JobEventsResponse) : Fetches :=
  failing server fun _ => none

/-! ## All pages -/

structure AllPagesState where
  cursor : Option String
  page : Int
  allEvents : List JobEventResponse
  fetches : Nat

/-- The rest of a round, once the page is there. -/
def collectPage (request : GetJobEventsAllPagesRequest) (s : AllPagesState)
    (current : JobEventsResponse) :
    Round AllPagesState JobEventResponse (Except Thrown (List JobEventResponse)) :=
  let allEvents := s.allEvents ++ current.events
  let s := { s with allEvents, fetches := s.fetches + 1 }
  if eventsReached request.maxEvents allEvents.length then
    ⟨[], s, some (.ok (request.maxEvents.elim allEvents (JsNumber.slice allEvents)))⟩
  else
    match current.following with
    | none => ⟨[], s, some (.ok allEvents)⟩
    | some cursor => ⟨[], { s with cursor := some cursor, page := s.page + 1 }, none⟩

section readers

variable (fetch : Fetches)

def allPagesRound (request : GetJobEventsAllPagesRequest) (s : AllPagesState) :
    Round AllPagesState JobEventResponse (Except Thrown (List JobEventResponse)) :=
  if (JsNumber.ofInt s.page).lt request.pageLimit then
    match fetch s.fetches (request.page s.cursor) with
    | .error error => ⟨[], { s with fetches := s.fetches + 1 }, some (.error error)⟩
    | .ok current => collectPage request s current
  else ⟨[], s, some (.ok s.allEvents)⟩

def AllPagesState.start : AllPagesState := ⟨none, 0, [], 0⟩

def getJobEventsAllPages (request : GetJobEventsAllPagesRequest) (fuel : Nat) :
    Round AllPagesState JobEventResponse (Except Thrown (List JobEventResponse)) :=
  if request.pageLimit.lt (.ofInt 1) then ⟨[], .start, some (.ok [])⟩
  else Round.run (allPagesRound fetch request) fuel .start

/-! ## One event at a time -/

/-- How `iterateJobEvents` ends. -/
inductive Ending where
  | done
  | threw (error : Thrown)
  deriving DecidableEq, Repr

structure IterateState where
  cursor : Option String
  page : Int
  yielded : Nat
  resumeAttempts : Nat
  fetches : Nat

/-- The events of a page that are yielded, how many there are then, and whether to return. -/
def yieldEvents (maxEvents : Option JsNumber) :
    Nat → List JobEventResponse → List JobEventResponse × Nat × Bool
  | yielded, [] => ([], yielded, false)
  | yielded, event :: rest =>
      if eventsReached maxEvents (yielded + 1) then ([event], yielded + 1, true)
      else
        let (events, yielded, returns) := yieldEvents maxEvents (yielded + 1) rest
        (event :: events, yielded, returns)

namespace IterateJobEventsRequest

variable (request : IterateJobEventsRequest)

def resumeLimit : JsNumber := .max (.ofInt 0) (request.maxResumeAttempts.getD (.ofInt 3))

def resumes (resumeAttempts : Nat) : Thrown → Bool
  | .api error =>
      (JsNumber.ofInt resumeAttempts).lt request.resumeLimit &&
        (request.shouldResumeOnError.any (fun callback => callback error (resumeAttempts + 1)) ||
          request.resumeOnTransientError.getD false && error.retryable)
  | .other _ => false

end IterateJobEventsRequest

def yieldPage (request : IterateJobEventsRequest) (s : IterateState) (current : JobEventsResponse) :
    Round IterateState JobEventResponse Ending :=
  let (events, yielded, returns) := yieldEvents request.maxEvents s.yielded current.events
  let s := { s with yielded, resumeAttempts := 0, fetches := s.fetches + 1 }
  if returns then ⟨events, s, some .done⟩
  else
    match current.following with
    | none => ⟨events, s, some .done⟩
    | some cursor => ⟨events, { s with cursor := some cursor, page := s.page + 1 }, none⟩

def iterateRound (request : IterateJobEventsRequest) (s : IterateState) :
    Round IterateState JobEventResponse Ending :=
  if (JsNumber.ofInt s.page).lt request.pageLimit then
    match fetch s.fetches (request.page s.cursor) with
    | .error error =>
        let s := { s with fetches := s.fetches + 1 }
        if request.resumes s.resumeAttempts error then
          -- `page -= 1; continue` goes through the loop's own `page += 1`.
          ⟨[], { s with resumeAttempts := s.resumeAttempts + 1, page := s.page - 1 + 1 }, none⟩
        else ⟨[], s, some (.threw error)⟩
    | .ok current => yieldPage request s current
  else ⟨[], s, some .done⟩

def IterateState.start : IterateState := ⟨none, 0, 0, 0, 0⟩

def iterateJobEvents (request : IterateJobEventsRequest) (fuel : Nat) :
    Round IterateState JobEventResponse Ending :=
  if request.pageLimit.lt (.ofInt 1) then ⟨[], .start, some .done⟩
  else Round.run (iterateRound fetch request) fuel .start

/-! ## What a round does -/

section rounds

variable {fetch : Fetches} {current : JobEventsResponse}

theorem allPagesRound_over {request : GetJobEventsAllPagesRequest} {s : AllPagesState}
    (ended : (JsNumber.ofInt s.page).lt request.pageLimit = false) :
    allPagesRound fetch request s = ⟨[], s, some (.ok s.allEvents)⟩ := by
  simp [allPagesRound, ended]

theorem allPagesRound_fetched {request : GetJobEventsAllPagesRequest} {s : AllPagesState}
    (within : (JsNumber.ofInt s.page).lt request.pageLimit = true)
    (fetched : fetch s.fetches (request.page s.cursor) = .ok current) :
    allPagesRound fetch request s = collectPage request s current := by
  simp [allPagesRound, within, fetched]

variable {request : IterateJobEventsRequest} {s : IterateState} {error : Thrown}

theorem iterateRound_over (ended : (JsNumber.ofInt s.page).lt request.pageLimit = false) :
    iterateRound fetch request s = ⟨[], s, some .done⟩ := by
  simp [iterateRound, ended]

theorem iterateRound_fetched (within : (JsNumber.ofInt s.page).lt request.pageLimit = true)
    (fetched : fetch s.fetches (request.page s.cursor) = .ok current) :
    iterateRound fetch request s = yieldPage request s current := by
  simp [iterateRound, within, fetched]

theorem iterateRound_resumed (within : (JsNumber.ofInt s.page).lt request.pageLimit = true)
    (failed : fetch s.fetches (request.page s.cursor) = .error error)
    (resumes : request.resumes s.resumeAttempts error = true) :
    iterateRound fetch request s =
      ⟨[], { s with resumeAttempts := s.resumeAttempts + 1, fetches := s.fetches + 1 }, none⟩ := by
  simp [iterateRound, within, failed, resumes]

theorem iterateRound_threw (within : (JsNumber.ofInt s.page).lt request.pageLimit = true)
    (failed : fetch s.fetches (request.page s.cursor) = .error error)
    (final : request.resumes s.resumeAttempts error = false) :
    iterateRound fetch request s =
      ⟨[], { s with fetches := s.fetches + 1 }, some (.threw error)⟩ := by
  simp [iterateRound, within, failed, final]

end rounds

end readers

end Spatiad
