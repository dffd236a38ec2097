import Spatiad.JobEventsUrls
import Spatiad.KindsFilter
import Spatiad.ResumedReading
import Spatiad.RetainedEvents
import Spatiad.Foundation.Scrolling

/-! # Reading a job's events from a running server

A reader of the SDK makes one request after another, while the server goes on pushing and
dropping events and now and then refuses one.  What it yields is the newest part of the
events there were at its first answer.
-/

namespace Spatiad

open Foundation Foundation.Paging Foundation.Scrolling

/-! ## A job's events while the reader is at work -/

section log

variable {β : Type} [StorageBackend β] {host : Host} {jobId : Uuid} {e e' : Engine β}
  {made : List (Uuid × JobEventRecord)}

theorem Pushing.numbered_above (pushing : Pushing host e made e') :
    (∀ j, e.lastSequence j ≤ e'.lastSequence j) ∧
      ∀ entry ∈ made, e.lastSequence entry.1 < entry.2.sequence := by
  induction pushing with
  | start => exact ⟨fun _ => le_refl _, nofun⟩
  | @push made e' _ j kind ih =>
      obtain ⟨counters, above⟩ := ih
      constructor
      · intro i
        have step : e'.lastSequence i ≤ (e'.pushJobEvent host j kind).lastSequence i := by
          rw [lastSequence_push]
          split <;> omega
        exact (counters i).trans step
      · intro entry member
        cases List.mem_append.mp member with
        | inl earlier => exact above entry earlier
        | inr here =>
            cases List.mem_singleton.mp here
            exact Nat.lt_succ_of_le (counters j)
  | other _ jobEvents sequences ih =>
      simpa only [Ledger.lastSequence, sequences] using ih

theorem Pushing.retained_eq (pushing : Pushing host e made e') (jobId : Uuid) :
    ∃ gone, e'.retained jobId = (e.retained jobId ++ madeFor jobId made).drop gone := by
  induction pushing with
  | start => exact ⟨0, by simp [madeFor]⟩
  | @push made e' _ j kind ih =>
      obtain ⟨gone, kept⟩ := ih
      rw [madeFor_push]
      split
      · rename_i same
        subst same
        rw [(pushJobEvent_adds host e' j kind).retained, kept, newest]
        let record : JobEventRecord := ⟨e'.lastSequence j + 1, host.clock e'.tick, kind⟩
        let all := e.retained j ++ madeFor j made
        have later : all.drop gone ++ [record] = (all ++ [record]).drop (min gone all.length) := by
          rw [List.drop_append_of_le_length (Nat.min_le_right _ _), ← List.drop_eq_drop_min]
        rw [← List.append_assoc, later, List.drop_drop]
        exact ⟨_, rfl⟩
      · rename_i other
        obtain ⟨jobEvents, _⟩ := (pushJobEvent_adds host e' j kind).others jobId (Ne.symm other)
        exact ⟨gone, by rw [← kept, Engine.retained, jobEvents, Engine.retained]⟩
  | @other made e' e'' _ jobEvents _ ih =>
      obtain ⟨gone, kept⟩ := ih
      exact ⟨gone, by rw [← kept, Engine.retained, jobEvents, Engine.retained]⟩

/-- The requested events scroll down: new ones come above all that were there. -/
theorem requestedEvents_scrolled (filed : Filed host jobId e) (nondecreasing : Monotone host.clock)
    {past : List Activity} (run : Run (engineStep host) anyStep e past e')
    (kinds : Option (List JobEventFilterKind)) :
    Scrolled JobEventRecord.key (requestedEvents e jobId kinds)
      (requestedEvents e' jobId kinds) := by
  obtain ⟨made, pushing⟩ := Pushing.run run
  obtain ⟨gone, kept⟩ := pushing.retained_eq jobId
  let old := (e.retained jobId).length
  have split : (e'.retained jobId).reverse =
      ((madeFor jobId made).drop (gone - old)).reverse ++
        (e.retained jobId).reverse.take (old - gone) := by
    rw [kept, List.drop_append, List.reverse_append, List.reverse_drop (l := e.retained jobId)]
  have prefix_ : ((e.retained jobId).reverse.take (old - gone)).filter
      (JobEventRecord.isRequested kinds) <+: requestedEvents e jobId kinds :=
    (List.take_prefix _ _).filter _
  obtain ⟨left, taken⟩ : ∃ left, ((e.retained jobId).reverse.take (old - gone)).filter
      (JobEventRecord.isRequested kinds) = (requestedEvents e jobId kinds).take left :=
    ⟨_, List.prefix_iff_eq_take.mp prefix_⟩
  let new := ((madeFor jobId made).drop (gone - old)).reverse
  refine ⟨new.filter (JobEventRecord.isRequested kinds), left, ?_, ?_⟩
  · rw [requestedEvents, split, List.filter_append, taken]
  · intro a gained b first
    obtain ⟨inMade, requested⟩ := List.mem_filter.mp gained
    have inMade := List.mem_of_mem_drop (List.mem_reverse.mp inMade)
    obtain ⟨entry, inAll, rfl⟩ := List.mem_map.mp inMade
    obtain ⟨inAll, same⟩ := List.mem_filter.mp inAll
    have above := pushing.numbered_above.2 entry inAll
    rw [of_decide_eq_true same] at above
    have retained : entry.2 ∈ e'.retained jobId := by
      rw [← List.mem_reverse, split]
      exact List.mem_append_left _ (List.mem_of_mem_filter gained)
    obtain ⟨inFirst, _⟩ := mem_requestedEvents.mp first
    have counted := filed.counted b inFirst
    cases (advances_run nondecreasing run).continues.pushed entry.2 retained with
    | inl there => exact absurd (filed.counted entry.2 there) (by omega)
    | inr new =>
        obtain ⟨_, n, later, stamp⟩ := new
        obtain ⟨k, early, stampB⟩ := filed.stamped b inFirst
        have earlier : b.occurredAt ≤ entry.2.occurredAt := by
          rw [stamp, stampB]
          exact nondecreasing (by omega)
        rw [JobEventRecord.key, JobEventRecord.key, Prod.Lex.toLex_lt_toLex]
        cases lt_or_eq_of_le earlier with
        | inl less => exact .inl less
        | inr equal => exact .inr ⟨equal, by dsimp only; omega⟩

omit [StorageBackend β] in
theorem requestedEvents_descending (filed : Filed host jobId e)
    (kinds : Option (List JobEventFilterKind)) :
    (requestedEvents e jobId kinds).Pairwise fun a b => b.key < a.key := by
  have ascending : (e.retained jobId).Pairwise fun a b => a.key < b.key :=
    filed.numbered.imp_of_mem fun first second lower => (filed.key_lt_iff first second).mpr lower
  exact (List.pairwise_reverse.mpr ascending).filter _

end log

/-! ## The kinds of a request -/

theorem label_plain (kind : JobEventFilterKind) :
    ',' ∉ kind.label.toList ∧ String.ofList (trimText kind.label.toList) = kind.label ∧
      kind.label.isEmpty = false := by
  cases kind <;> decide +kernel

theorem kindTokens_labels (kinds : List JobEventFilterKind) :
    kindTokens (",".intercalate (kinds.map JobEventFilterKind.label)) =
      kinds.map JobEventFilterKind.label := by
  by_cases none_ : kinds = []
  · subst none_
    decide
  · let parts := kinds.map fun kind => kind.label.toList
    have noComma : ∀ part ∈ parts, ',' ∉ part := by
      intro part member
      obtain ⟨kind, _, rfl⟩ := List.mem_map.mp member
      exact (label_plain kind).1
    have some_ : parts ≠ [] := by simpa [parts] using none_
    have joined : (",".intercalate (kinds.map JobEventFilterKind.label)).toList =
        [','].intercalate parts := by
      rw [String.toList_intercalate, List.map_map]
      rfl
    rw [kindTokens, joined, List.splitOn_intercalate ',' noComma some_, tokensOf, List.map_map]
    have trimmed : (kinds.map ((fun part => String.ofList (trimText part)) ∘
        fun kind => kind.label.toList)) = kinds.map JobEventFilterKind.label :=
      List.map_congr_left fun kind _ => (label_plain kind).2.1
    rw [trimmed, List.filter_eq_self]
    intro token member
    obtain ⟨kind, _, rfl⟩ := List.mem_map.mp member
    rw [(label_plain kind).2.2]
    rfl

theorem sent_kinds_read (kinds : Option (List JobEventFilterKind)) :
    ∃ read,
      parseJobEventKinds (joinKinds ((kinds.getD []).map JobEventFilterKind.label)) = .ok read ∧
      ∀ event : JobEventRecord, event.isRequested read = event.isRequested kinds := by
  cases kinds with
  | none => exact ⟨none, rfl, fun _ => rfl⟩
  | some kinds =>
      cases kinds with
      | nil => exact ⟨none, rfl, fun _ => rfl⟩
      | cons kind rest =>
          let labels := (kind :: rest).map JobEventFilterKind.label
          have tokens : kindTokens (",".intercalate labels) = labels :=
            kindTokens_labels (kind :: rest)
          cases parseJobEventKinds_cases (",".intercalate labels) with
          | inr refused =>
              obtain ⟨⟨token, member, unsupported⟩, _⟩ := refused
              rw [tokens] at member
              obtain ⟨kind, _, rfl⟩ := List.mem_map.mp member
              exact absurd (ofToken_label kind) (by rw [ofToken_unsupported unsupported]; nofun)
          | inl accepted =>
              obtain ⟨_, read, ok, requested⟩ := accepted
              refine ⟨read, ok, fun event => ?_⟩
              have asked : event.isRequested (some (kind :: rest)) = true ↔
                  eventFilterKind event.kind ∈ kind :: rest := by
                simp [JobEventRecord.isRequested]
              have some_ : labels ≠ [] := List.cons_ne_nil _ _
              rw [Bool.eq_iff_iff, requested, tokens, or_iff_right some_, asked,
                ← label_eventFilterKind, List.mem_map_of_injective fun a b => label_inj.mp]

/-! ## One call of `getJobEvents` -/

/-- What comes back for one call: nothing, an answer from somewhere on the way, or the
    server's own, given by a task of it. -/
inductive Delivery where
  | failed (message : String)
  | refused (status : Nat) (message code : Option String)
  | served (t : Task InMemoryBackend)

def createApiError (status : Nat) (message code : Option String) : Thrown :=
  .api (.new (message.getD ("job events request failed with status " ++ toString status)) status
    code none)

/-- A limit as `String` writes it, where it writes it in full.  The server reads a whole number
    that fits, and no other text; any other number is as good as a negative one. -/
def wholeLimit : JsNumber → Int
  | .finite value => if value.den = 1 then value.num else -1
  | _ => -1

def GetJobEventsRequest.params (request : GetJobEventsRequest) : JobEventsParams where
  limit := request.limit.map wholeLimit
  cursor := request.cursor
  before := none
  kinds := (request.kinds.getD []).map JobEventFilterKind.label

section calls

variable {host : Host} (chrono : Chrono)
  (extract : FormUrlencoded.Bytes → Option JobEventsQuery) (others : Others host InMemoryBackend)
  (headers : Headers)

/-- The route of the endpoint: the query is extracted, then handled. -/
def Task.serveJobEvents (t : Task InMemoryBackend) (jobId : Uuid) (query : FormUrlencoded.Bytes) :
    Except Thrown JobEventsResponse :=
  match extract query with
  | none => .error (createApiError 400 none none)
  | some query =>
      match (t.dispatchJobEvents chrono others headers jobId query).1 with
      | .error refusal =>
          .error (createApiError refusal.status (some refusal.message) (some refusal.error))
      | .ok response => .ok response

def TypeScript.getJobEvents (deliveries : Nat → Delivery) : Fetches := fun call request =>
  match TypeScript.buildJobEventsUrl request.params with
  | .error message => .error (.other message)
  | .ok query =>
      match deliveries call with
      | .failed message => .error (.other message)
      | .refused status message code => .error (createApiError status message code)
      | .served t => t.serveJobEvents chrono extract others headers request.jobId query

/-- Why a call fails before its query is looked at, if it does. -/
def Delivery.refusal : Delivery → Option Thrown
  | .failed message => some (.other message)
  | .refused status message code => some (createApiError status message code)
  | .served t =>
      if !isDispatcherAuthorized t.api headers then
        some (createApiError 401 (some "missing or invalid dispatcher auth token")
          (some "unauthorized"))
      else if !(t.checkDispatchRequest others headers "dispatch_job_events").1.allowed then
        some (createApiError 429 (some "dispatch request rate limit exceeded")
          (some "rate_limited"))
      else none

def Task.eventsEngine (t : Task InMemoryBackend) : DispatchService InMemoryBackend :=
  ((t.checkDispatchRequest others headers "dispatch_job_events").2.lock others).api.dispatch

variable {chrono extract others headers} {deliveries : Nat → Delivery} {call : Nat}
  {request : GetJobEventsRequest} {limit : Option Nat}

theorem query_arrives (extracts : ExtractsForms extract)
    (whole : request.limit = limit.map fun n => .ofInt n) (safe : ∀ n ∈ limit, n < 2 ^ 53)
    (given : request.cursor ≠ some "") :
    ∃ query, TypeScript.buildJobEventsUrl request.params = .ok query ∧
      extract query = some (pageQuery limit
        (joinKinds ((request.kinds.getD []).map JobEventFilterKind.label)) request.cursor) := by
  have sent : truthy request.cursor = request.cursor := by
    cases cursor : request.cursor with
    | none => rfl
    | some text =>
        have some_ : text ≠ "" := fun empty => given (by rw [cursor, empty])
        simp [truthy, Option.filter, some_]
  have limitRead : readLimit (request.limit.map wholeLimit) = some limit := by
    rw [whole]
    cases limit with
    | none => rfl
    | some n =>
        have small : n < 2 ^ 53 := safe n rfl
        have inRange : (0 : Int) ≤ n ∧ (n : Int) < 2 ^ 64 := by omega
        have same : wholeLimit (.ofInt n) = n := by simp [wholeLimit, JsNumber.ofInt]
        simp only [Option.map_some, same, readLimit, if_pos inRange, Int.toNat_natCast]
  have arrives := typescript_arrives extracts request.params
  simp only [GetJobEventsRequest.params, sent, limitRead] at arrives
  cases built : TypeScript.buildJobEventsUrl request.params with
  | error message =>
      simp only [GetJobEventsRequest.params] at built
      rw [built] at arrives
      cases arrives
  | ok query =>
      simp only [GetJobEventsRequest.params] at built
      rw [built] at arrives
      exact ⟨query, rfl, Except.ok.inj arrives⟩

theorem getJobEvents_refused {query : FormUrlencoded.Bytes} {asked : JobEventsQuery}
    (built : TypeScript.buildJobEventsUrl request.params = .ok query)
    (extracted : extract query = some asked) {error : Thrown}
    (refused : (deliveries call).refusal others headers = some error) :
    TypeScript.getJobEvents chrono extract others headers deliveries call request =
      .error error := by
  unfold TypeScript.getJobEvents
  simp only [built]
  cases delivered : deliveries call with
  | failed message | refused status message code =>
      rw [delivered] at refused
      exact congrArg Except.error (Option.some.inj refused)
  | served t =>
      rw [delivered, Delivery.refusal] at refused
      simp only [Task.serveJobEvents, extracted, Task.dispatchJobEvents]
      split at refused
      · rename_i unauthorized
        rw [if_pos unauthorized]
        exact congrArg Except.error (Option.some.inj refused)
      · rename_i authorized
        rw [if_neg authorized]
        split at refused
        · rename_i limited
          simp only [if_pos limited]
          exact congrArg Except.error (Option.some.inj refused)
        · cases refused

theorem getJobEvents_answered {query : FormUrlencoded.Bytes} {rawKinds : Option String}
    {kinds : Option (List JobEventFilterKind)} {events : List JobEventRecord}
    {place : Option (DateTime ×ₗ Nat)}
    (built : TypeScript.buildJobEventsUrl request.params = .ok query)
    (extracted : extract query = some (pageQuery limit rawKinds request.cursor))
    (valid : parseJobEventKinds rawKinds = .ok kinds) (resumable : Resumable chrono events)
    (resumes : Resumes chrono events (some request.cursor) (some place))
    {t : Task InMemoryBackend} (delivered : deliveries call = .served t)
    (answered : (deliveries call).refusal others headers = none) :
    TypeScript.getJobEvents chrono extract others headers deliveries call request =
      .ok (.ofRecords chrono request.jobId (limit.getD 50)
        (page JobEventRecord.key (maxItems (limit.getD 50)) place
          (requestedEvents (t.eventsEngine others headers) request.jobId kinds))) := by
  obtain ⟨selection, place', same, sameLimit, parsed, isPage⟩ :=
    @Resumes.answered host request.jobId chrono limit rawKinds kinds _ resumable valid
      request.cursor _ resumes
  obtain rfl := Option.some.inj same
  have admitted : Admitted others t headers := by
    rw [delivered, Delivery.refusal] at answered
    split at answered
    · cases answered
    · rename_i authorized
      split at answered
      · cases answered
      · rename_i allowed
        exact ⟨by simpa using authorized, by simpa using allowed⟩
  unfold TypeScript.getJobEvents
  simp only [built, delivered, Task.serveJobEvents, extracted, dispatchJobEvents_admitted admitted,
    parsed, sameLimit, isPage]
  rfl

end calls

/-! ## What a page adds -/

/-- Of a page as many events are yielded as it takes to reach the limit. -/
structure YieldsUpTo (maxEvents : Option JsNumber) (yielded : Nat) (events : List JobEventResponse)
    (n : Nat) (returns : Bool) : Prop where
  yields : yieldEvents maxEvents yielded events = (events.take n, yielded + n, returns)
  within : n ≤ events.length
  below : ∀ k < n, 0 < k → eventsReached maxEvents (yielded + k) = false
  reached : returns = true → 0 < n ∧ eventsReached maxEvents (yielded + n) = true
  all : returns = false →
    n = events.length ∧ ∀ k ≤ n, 0 < k → eventsReached maxEvents (yielded + k) = false

theorem exists_yieldsUpTo (maxEvents : Option JsNumber) (yielded : Nat)
    (events : List JobEventResponse) :
    ∃ n returns, YieldsUpTo maxEvents yielded events n returns := by
  induction events generalizing yielded with
  | nil =>
      refine ⟨0, false, rfl, le_refl _, ?_, nofun, fun _ => ⟨rfl, ?_⟩⟩
      · intro k small
        omega
      · intro k small positive
        omega
  | cons event rest ih =>
      cases reached : eventsReached maxEvents (yielded + 1) with
      | true =>
          refine ⟨1, true, ?_, by simp, ?_, fun _ => ⟨Nat.one_pos, reached⟩, nofun⟩
          · simp [yieldEvents, reached]
          · intro k small positive
            omega
      | false =>
          obtain ⟨n, returns, yields, within, below, reached', all⟩ := ih (yielded + 1)
          have shift : ∀ k, yielded + 1 + k = yielded + (k + 1) := fun k => by omega
          have earlier : ∀ bound, (∀ k, k < bound → 0 < k →
              eventsReached maxEvents (yielded + 1 + k) = false) →
              ∀ k, k < bound + 1 → 0 < k → eventsReached maxEvents (yielded + k) = false := by
            intro bound later k small positive
            by_cases one : k = 1
            · rw [one, reached]
            · have before := later (k - 1) (by omega) (by omega)
              rw [shift] at before
              rwa [Nat.sub_add_cancel positive] at before
          refine ⟨n + 1, returns, ?_, ?_, earlier n below, ?_, ?_⟩
          · simp [yieldEvents, reached, yields, shift]
          · exact Nat.succ_le_succ within
          · intro stops
            obtain ⟨positive, there⟩ := reached' stops
            rw [shift] at there
            exact ⟨Nat.succ_pos n, there⟩
          · intro goesOn
            obtain ⟨whole, none_⟩ := all goesOn
            refine ⟨by rw [whole, List.length_cons], fun k small => ?_⟩
            exact earlier (n + 1) (fun k small => none_ k (by omega)) k (by omega)

/-! ## The whole reading -/

def GetJobEventsAllPagesRequest.pagesAllowed (request : GetJobEventsAllPagesRequest) : ℕ∞ :=
  if request.pageLimit.lt (.ofInt 1) then 0 else request.pageLimit.countsBelow

/-- The cursor of a reader who has the first `n` events. -/
def cursorAt (chrono : Chrono) (first : List JobEventRecord) (n : Nat) : Option String :=
  (first.take n).getLast?.map (encodeEventsCursor chrono)

/-- Calls of the reader are refused, or answered from a log that scrolls down from the first
    one that is answered. -/
structure Answers (chrono : Chrono) (request : GetJobEventsAllPagesRequest) (limit : Nat)
    (first : List JobEventRecord) (log : Nat → List JobEventRecord)
    (refusal : Nat → Option Thrown) (fetch : Fetches) : Prop where
  descending : first.Pairwise fun a b => b.key < a.key
  opening : ∀ n, refusal n = none → (∀ k < n, refusal k ≠ none) → log n = first
  scrolled : ∀ n k, refusal n = none → n ≤ k → Scrolled JobEventRecord.key first (log k)
  lost : ∀ n k l, refusal n = none → n ≤ k → k ≤ l → ∀ a ∈ first, a ∈ log l → a ∈ log k
  refused : ∀ n k error, refusal n = some error →
    fetch n (request.page (cursorAt chrono first k)) = .error error
  answered : ∀ n k, refusal n = none → fetch n (request.page (cursorAt chrono first k)) =
    .ok (.ofRecords chrono request.jobId limit
      (page JobEventRecord.key (maxItems limit) (place JobEventRecord.key first k) (log n)))

/-- The newest `n` events of the first log were yielded, page by page, and no more than were
    asked for; if the reading is through, it had all that were asked for or that were left. -/
structure ReadsNewest (request : IterateJobEventsRequest) (size : Nat)
    (first : List JobEventRecord) (log : Nat → List JobEventRecord)
    (reading : Round IterateState JobEventResponse Ending) (n : Nat) : Prop where
  yields : reading.handedOut = (first.take n).map mapJobEvent
  pages : (n : ℕ∞) ≤ request.pagesAllowed * size
  events : ∀ k < n, 0 < k → eventsReached request.maxEvents k = false
  whole : reading.result = some .done →
    (n : ℕ∞) = request.pagesAllowed * size ∨ (0 < n ∧ eventsReached request.maxEvents n = true) ∨
      ∀ event ∈ first, event ∈ log (reading.state.fetches - 1) → event ∈ first.take n

section reading

variable {chrono : Chrono} {request : IterateJobEventsRequest} {limit : Nat}
  {first : List JobEventRecord} {log : Nat → List JobEventRecord}
  {refusal : Nat → Option Thrown} {fetch : Fetches}

/-- Where the reader is between two rounds, after some pages. -/
structure HasRead (chrono : Chrono) (request : IterateJobEventsRequest) (limit : Nat)
    (first : List JobEventRecord) (log : Nat → List JobEventRecord)
    (refusal : Nat → Option Thrown) (s : IterateState) (pages : Nat) : Prop where
  within : s.yielded ≤ first.length
  cursor : s.cursor = cursorAt chrono first s.yielded
  pageNumber : s.page = pages
  allowed : (pages : ℕ∞) ≤ request.pageLimit.countsBelow
  most : s.yielded ≤ pages * maxItems limit
  below : ∀ k ≤ s.yielded, 0 < k → eventsReached request.maxEvents k = false
  untouched : s.yielded = 0 → ∀ k < s.fetches, refusal k ≠ none
  touched : 0 < s.yielded → ∃ k < s.fetches, refusal k = none
  /-- Every page was full, or there is nothing left to read. -/
  full : s.yielded = pages * maxItems limit ∨ 0 < s.yielded ∧
    ∀ event ∈ first, event ∈ log (s.fetches - 1) → event ∈ first.take s.yielded

theorem HasRead.start : HasRead chrono request limit first log refusal .start 0 where
  within := Nat.zero_le _
  cursor := rfl
  pageNumber := rfl
  allowed := by simp
  most := Nat.zero_le _
  below := by
    intro k small positive
    exact absurd positive (Nat.not_lt.mpr small)
  untouched _ := nofun
  touched := nofun
  full := .inl (by simp [IterateState.start])

theorem following_ofRecords (chrono : Chrono) (jobId : Uuid) (limit : Nat)
    (records : List JobEventRecord) :
    (JobEventsResponse.ofRecords chrono jobId limit records).following =
      if max limit 1 ≤ records.length then records.getLast?.map (encodeEventsCursor chrono)
      else none := by
  unfold JobEventsResponse.following JobEventsResponse.ofRecords
  simp only
  split
  · cases records.getLast? with
    | none => rfl
    | some event =>
        have bar : '|' ∈ (encodeEventsCursor chrono event).toList := by simp [encodeEventsCursor]
        have some_ : encodeEventsCursor chrono event ≠ "" := by
          intro empty
          rw [empty] at bar
          cases bar
        simp [Option.filter, some_]
  · rfl

theorem HasRead.next_page
    (answers : Answers chrono request.toGetJobEventsAllPagesRequest limit first log refusal fetch)
    {s : IterateState} {pages : Nat}
    (read : HasRead chrono request limit first log refusal s pages)
    (answered : refusal s.fetches = none) :
    ∃ n', NextPage JobEventRecord.key first (log s.fetches) (maxItems limit) s.yielded
      (page JobEventRecord.key (maxItems limit) (place JobEventRecord.key first s.yielded)
        (log s.fetches)) n' := by
  have opening : s.yielded = 0 → log s.fetches = first := fun nothing =>
    answers.opening s.fetches answered (read.untouched nothing)
  refine Scrolling.next_page answers.descending read.within ?_ opening
  exact answers.scrolled s.fetches s.fetches answered (le_refl _)

/-- What comes of a call that is answered: a further page, or the end. -/
inductive AfterPage (request : IterateJobEventsRequest) (chrono : Chrono) (limit : Nat)
    (first : List JobEventRecord) (log : Nat → List JobEventRecord)
    (refusal : Nat → Option Thrown) (s : IterateState) (pages n : Nat)
    (round : Round IterateState JobEventResponse Ending) : Prop where
  | goesOn (goesOn : round.result = none) (further : s.yielded < n)
      (yielded : round.state.yielded = n) (attempts : round.state.resumeAttempts = 0)
      (read : HasRead chrono request limit first log refusal round.state (pages + 1))
  | ends (ends : round.result = some .done) (most : n ≤ (pages + 1) * maxItems limit)
      (below : ∀ k < n, 0 < k → eventsReached request.maxEvents k = false)
      (whole : (0 < n ∧ eventsReached request.maxEvents n = true) ∨
        ∀ event ∈ first, event ∈ log s.fetches → event ∈ first.take n)

/-- What a round yields that got a page, and what comes of it. -/
structure YieldsPage (request : IterateJobEventsRequest) (chrono : Chrono) (limit : Nat)
    (first : List JobEventRecord) (log : Nat → List JobEventRecord)
    (refusal : Nat → Option Thrown) (s : IterateState) (pages n : Nat)
    (round : Round IterateState JobEventResponse Ending) : Prop where
  yields : (first.take s.yielded).map mapJobEvent ++ round.handedOut =
    (first.take n).map mapJobEvent
  fetches : round.state.fetches = s.fetches + 1
  after : AfterPage request chrono limit first log refusal s pages n round

section page

variable {s : IterateState} {pages n' j : Nat} {records : List JobEventRecord} {returns : Bool}

theorem HasRead.most_after (read : HasRead chrono request limit first log refusal s pages)
    (next : NextPage JobEventRecord.key first (log s.fetches) (maxItems limit) s.yielded records n')
    {n : Nat} (few : n ≤ n') : n ≤ (pages + 1) * maxItems limit := by
  have before := read.most
  have most := next.most
  rw [Nat.succ_mul]
  omega

theorem HasRead.below_after (read : HasRead chrono request limit first log refusal s pages)
    (upTo : YieldsUpTo request.maxEvents s.yielded (records.map mapJobEvent) j returns) :
    ∀ k, k < s.yielded + j → 0 < k → eventsReached request.maxEvents k = false := by
  intro k small positive
  by_cases early : k ≤ s.yielded
  · exact read.below k early positive
  · have here := upTo.below (k - s.yielded) (by omega) (by omega)
    rwa [Nat.add_sub_cancel' (by omega)] at here

theorem HasRead.limit_reached (read : HasRead chrono request limit first log refusal s pages)
    (next : NextPage JobEventRecord.key first (log s.fetches) (maxItems limit) s.yielded records n')
    (upTo : YieldsUpTo request.maxEvents s.yielded (records.map mapJobEvent) j true) :
    YieldsPage request chrono limit first log refusal s pages (s.yielded + j)
      (yieldPage request s (.ofRecords chrono request.jobId limit records)) := by
  obtain ⟨positive, reached⟩ := upTo.reached rfl
  have short := upTo.within
  rw [List.length_map, next.count] at short
  have shown : (JobEventsResponse.ofRecords chrono request.jobId limit records).events =
      records.map mapJobEvent := rfl
  have few : s.yielded + j ≤ n' := by
    have further := next.further
    omega
  constructor
  · simp only [yieldPage, shown, upTo.yields, if_true, next.part read.within short, List.map_append,
      List.map_take]
  · simp only [yieldPage, shown, upTo.yields, if_true]
  · refine .ends ?_ (read.most_after next few) (read.below_after upTo) ?_
    · simp only [yieldPage, shown, upTo.yields, if_true]
    · exact .inl ⟨by omega, reached⟩

theorem page_yielded_whole
    (next : NextPage JobEventRecord.key first (log s.fetches) (maxItems limit) s.yielded records n')
    (upTo : YieldsUpTo request.maxEvents s.yielded (records.map mapJobEvent) j false) :
    s.yielded + j = n' ∧ (first.take s.yielded).map mapJobEvent ++ (records.map mapJobEvent).take j =
      (first.take n').map mapJobEvent := by
  obtain ⟨whole, _⟩ := upTo.all rfl
  rw [whole, List.take_length, next.taken, List.map_append]
  have count := next.count
  have further := next.further
  rw [List.length_map] at whole ⊢
  exact ⟨by omega, rfl⟩

/-- Between two pages, every page was full or there is nothing left to read. -/
theorem HasRead.full_after
    (answers : Answers chrono request.toGetJobEventsAllPagesRequest limit first log refusal fetch)
    (read : HasRead chrono request limit first log refusal s pages)
    (next : NextPage JobEventRecord.key first (log s.fetches) (maxItems limit) s.yielded records n')
    (some_ : 0 < n') :
    n' = (pages + 1) * maxItems limit ∨
      0 < n' ∧ ∀ event ∈ first, event ∈ log s.fetches → event ∈ first.take n' := by
  obtain ⟨further, _, _, count, most, rest⟩ := next
  rw [count] at rest
  by_cases fullPage : n' - s.yielded < maxItems limit
  · exact .inr ⟨some_, rest fullPage⟩
  · cases read.full with
    | inl exact_ =>
        refine .inl ?_
        rw [Nat.succ_mul]
        omega
    | inr left =>
        obtain ⟨positive, left⟩ := left
        refine .inr ⟨some_, fun event inFirst there => ?_⟩
        obtain ⟨k, early, first_⟩ := read.touched positive
        have before := answers.lost k (s.fetches - 1) s.fetches first_ (by omega) (by omega) event
          inFirst there
        exact List.take_subset_take_left first further (left event inFirst before)

/-- A page that names a cursor: the reader goes on. -/
theorem HasRead.further_page
    (answers : Answers chrono request.toGetJobEventsAllPagesRequest limit first log refusal fetch)
    (read : HasRead chrono request limit first log refusal s pages)
    (within : (JsNumber.ofInt s.page).lt request.pageLimit = true)
    (answered : refusal s.fetches = none)
    (next : NextPage JobEventRecord.key first (log s.fetches) (maxItems limit) s.yielded records n')
    (upTo : YieldsUpTo request.maxEvents s.yielded (records.map mapJobEvent) j false)
    (full : max limit 1 ≤ n' - s.yielded) :
    YieldsPage request chrono limit first log refusal s pages n'
      (yieldPage request s (.ofRecords chrono request.jobId limit records)) := by
  obtain ⟨sum, handed⟩ := page_yielded_whole next upTo
  have following := following_ofRecords chrono request.jobId limit records
  have shown : (JobEventsResponse.ofRecords chrono request.jobId limit records).events =
      records.map mapJobEvent := rfl
  have some_ : records ≠ [] := by
    intro empty
    have count := next.count
    rw [empty, List.length_nil] at count
    omega
  have last : records.getLast?.map (encodeEventsCursor chrono) = cursorAt chrono first n' := by
    rw [cursorAt, next.taken, List.getLast?_append_of_ne_nil _ some_]
  obtain ⟨c, cursor⟩ : ∃ c, cursorAt chrono first n' = some c := by
    rw [← last, List.getLast?_eq_some_getLast some_]
    exact ⟨_, rfl⟩
  rw [next.count, if_pos full, last, cursor] at following
  have more : s.yielded < n' := by omega
  have below : ∀ k ≤ n', 0 < k → eventsReached request.maxEvents k = false := by
    intro k small positive
    by_cases last : k = s.yielded + j
    · have more : 0 < j := by omega
      exact last ▸ (upTo.all rfl).2 j (le_refl _) more
    · exact read.below_after upTo k (by omega) positive
  refine ⟨?_, ?_, .goesOn ?_ more ?_ ?_ ?_⟩
  · simpa only [yieldPage, shown, upTo.yields, Bool.false_eq_true, if_false, following] using handed
  all_goals simp only [yieldPage, shown, upTo.yields, Bool.false_eq_true, if_false, following]
  · exact sum
  · rw [sum]
    constructor
    case within => exact next.within
    case cursor => exact cursor.symm
    case pageNumber =>
      rw [read.pageNumber]
      rfl
    case allowed =>
      have allowed := within
      rw [read.pageNumber, JsNumber.lt_iff_countsBelow] at allowed
      exact_mod_cast Order.add_one_le_of_lt allowed
    case most => exact read.most_after next (le_refl _)
    case below => exact below
    case untouched =>
      intro zero
      dsimp only at zero
      omega
    case touched => exact fun _ => ⟨s.fetches, Nat.lt_succ_self _, answered⟩
    case full =>
      rw [Nat.add_sub_cancel]
      exact read.full_after answers next (Nat.zero_lt_of_lt more)

theorem HasRead.last_page (read : HasRead chrono request limit first log refusal s pages)
    (next : NextPage JobEventRecord.key first (log s.fetches) (maxItems limit) s.yielded records n')
    (upTo : YieldsUpTo request.maxEvents s.yielded (records.map mapJobEvent) j false)
    (short : ¬ max limit 1 ≤ n' - s.yielded) :
    YieldsPage request chrono limit first log refusal s pages n'
      (yieldPage request s (.ofRecords chrono request.jobId limit records)) := by
  obtain ⟨sum, handed⟩ := page_yielded_whole next upTo
  have following := following_ofRecords chrono request.jobId limit records
  rw [next.count, if_neg short] at following
  have shown : (JobEventsResponse.ofRecords chrono request.jobId limit records).events =
      records.map mapJobEvent := rfl
  have ended : records.length < maxItems limit := by
    obtain ⟨one, fits⟩ := page_sizes limit
    rw [next.count]
    omega
  refine ⟨?_, ?_, .ends ?_ (read.most_after next (le_refl _)) ?_ (.inr (next.rest ended))⟩
  · simpa only [yieldPage, shown, upTo.yields, Bool.false_eq_true, if_false, following] using handed
  · simp only [yieldPage, shown, upTo.yields, Bool.false_eq_true, if_false, following]
  · simp only [yieldPage, shown, upTo.yields, Bool.false_eq_true, if_false, following]
  · exact sum ▸ read.below_after upTo

end page

theorem HasRead.answered_round
    (answers : Answers chrono request.toGetJobEventsAllPagesRequest limit first log refusal fetch)
    {s : IterateState} {pages : Nat}
    (read : HasRead chrono request limit first log refusal s pages)
    (within : (JsNumber.ofInt s.page).lt request.pageLimit = true)
    (answered : refusal s.fetches = none) :
    ∃ n, YieldsPage request chrono limit first log refusal s pages n
      (iterateRound fetch request s) := by
  obtain ⟨n', next⟩ := read.next_page answers answered
  have fetched := answers.answered s.fetches s.yielded answered
  rw [← read.cursor] at fetched
  rw [iterateRound_fetched within fetched]
  generalize page JobEventRecord.key (maxItems limit) (place JobEventRecord.key first s.yielded)
    (log s.fetches) = records at next
  obtain ⟨j, returns, upTo⟩ :=
    exists_yieldsUpTo request.maxEvents s.yielded (records.map mapJobEvent)
  cases returns with
  | true => exact ⟨_, read.limit_reached next upTo⟩
  | false =>
      by_cases full : max limit 1 ≤ n' - s.yielded
      · exact ⟨n', read.further_page answers within answered next upTo full⟩
      · exact ⟨n', read.last_page next upTo full⟩

theorem HasRead.refused
    (answers : Answers chrono request.toGetJobEventsAllPagesRequest limit first log refusal fetch)
    {s : IterateState} {pages attempts : Nat}
    (read : HasRead chrono request limit first log refusal s pages) {error : Thrown}
    (refused : refusal s.fetches = some error) :
    HasRead chrono request limit first log refusal
      { s with resumeAttempts := attempts, fetches := s.fetches + 1 } pages where
  within := read.within
  cursor := read.cursor
  pageNumber := read.pageNumber
  allowed := read.allowed
  most := read.most
  below := read.below
  untouched nothing k small := by
    by_cases here : k = s.fetches
    · rw [here, refused]
      exact Option.some_ne_none error
    · exact read.untouched nothing k (by dsimp only at small; omega)
  touched some_ := by
    obtain ⟨k, early, answered⟩ := read.touched some_
    exact ⟨k, Nat.lt_succ_of_lt early, answered⟩
  full := by
    cases read.full with
    | inl exact_ => exact .inl exact_
    | inr left =>
        obtain ⟨positive, left⟩ := left
        refine .inr ⟨positive, fun event inFirst there => left event inFirst ?_⟩
        obtain ⟨k, early, answered⟩ := read.touched positive
        exact answers.lost k (s.fetches - 1) s.fetches answered (by omega) (by omega) event
          inFirst there

/-- What a round does to the reader. -/
inductive ReadingRound (chrono : Chrono) (request : IterateJobEventsRequest) (limit : Nat)
    (first : List JobEventRecord) (log : Nat → List JobEventRecord)
    (refusal : Nat → Option Thrown) (s : IterateState) (pages : Nat)
    (round : Round IterateState JobEventResponse Ending) : Prop where
  | limited (allowed : (pages : ℕ∞) = request.pageLimit.countsBelow)
      (same : round = ⟨[], s, some .done⟩)
  | threw (error : Thrown) (refused : refusal s.fetches = some error)
      (final : request.resumes s.resumeAttempts error = false)
      (same : round = ⟨[], { s with fetches := s.fetches + 1 }, some (.threw error)⟩)
  | resumed (error : Thrown) (refused : refusal s.fetches = some error)
      (same : round = ⟨[], { s with
        resumeAttempts := s.resumeAttempts + 1
        fetches := s.fetches + 1 }, none⟩)
  | answered (answered : refusal s.fetches = none) (n : Nat)
      (allowed : (pages : ℕ∞) < request.pageLimit.countsBelow)
      (yields : (first.take s.yielded).map mapJobEvent ++ round.handedOut =
        (first.take n).map mapJobEvent)
      (fetches : round.state.fetches = s.fetches + 1)
      (after : AfterPage request chrono limit first log refusal s pages n round)

theorem HasRead.round
    (answers : Answers chrono request.toGetJobEventsAllPagesRequest limit first log refusal fetch)
    {s : IterateState} {pages : Nat}
    (read : HasRead chrono request limit first log refusal s pages) :
    ReadingRound chrono request limit first log refusal s pages (iterateRound fetch request s) := by
  have allowed_iff := @JsNumber.lt_iff_countsBelow pages request.pageLimit
  cases within : (JsNumber.ofInt s.page).lt request.pageLimit with
  | false =>
      have over_ := within
      rw [read.pageNumber, Bool.eq_false_iff, ne_eq, allowed_iff, not_lt] at over_
      exact .limited (le_antisymm read.allowed over_) (iterateRound_over within)
  | true =>
      have allowed := within
      rw [read.pageNumber, allowed_iff] at allowed
      cases refused : refusal s.fetches with
      | none =>
          obtain ⟨n, yields, fetches, after⟩ := read.answered_round answers within refused
          exact .answered refused n allowed yields fetches after
      | some error =>
          have failed := answers.refused s.fetches s.yielded error refused
          rw [← read.cursor] at failed
          cases resumes : request.resumes s.resumeAttempts error with
          | true => exact .resumed error refused (iterateRound_resumed within failed resumes)
          | false => exact .threw error refused resumes (iterateRound_threw within failed resumes)

/-- Where the reader is, and what it has yielded until then. -/
def ReadSoFar (chrono : Chrono) (request : IterateJobEventsRequest) (limit : Nat)
    (first : List JobEventRecord) (log : Nat → List JobEventRecord)
    (refusal : Nat → Option Thrown) (s : IterateState) (yielded : List JobEventResponse) : Prop :=
  ∃ pages, HasRead chrono request limit first log refusal s pages ∧
    yielded = (first.take s.yielded).map mapJobEvent

theorem HasRead.most_asked {s : IterateState} {pages : Nat}
    (read : HasRead chrono request limit first log refusal s pages) :
    (s.yielded : ℕ∞) ≤ request.pageLimit.countsBelow * maxItems limit := by
  have most : (s.yielded : ℕ∞) ≤ (pages : ℕ∞) * (maxItems limit : ℕ) := by exact_mod_cast read.most
  exact most.trans (mul_le_mul_left read.allowed _)

theorem ReadSoFar.next
    (answers : Answers chrono request.toGetJobEventsAllPagesRequest limit first log refusal fetch)
    (s : IterateState) (before : List JobEventResponse)
    (soFar : ReadSoFar chrono request limit first log refusal s before)
    (open_ : (iterateRound fetch request s).result = none) :
    ReadSoFar chrono request limit first log refusal (iterateRound fetch request s).state
      (before ++ (iterateRound fetch request s).handedOut) := by
  obtain ⟨pages, read, rfl⟩ := soFar
  cases read.round answers with
  | limited _ same | threw _ _ _ same =>
      rw [same] at open_
      cases open_
  | resumed error refused same =>
      rw [same]
      exact ⟨pages, read.refused answers refused, List.append_nil _⟩
  | answered _ n _ yields _ after =>
      cases after with
      | ends ends => cases ends.symm.trans open_
      | goesOn _ _ yielded _ further =>
          refine ⟨pages + 1, further, ?_⟩
          rw [yields, yielded]

theorem reads_newest
    (answers : Answers chrono request.toGetJobEventsAllPagesRequest limit first log refusal fetch)
    (fuel : Nat) : ∃ n, ReadsNewest request (maxItems limit) first log
      (iterateJobEvents fetch request fuel) n := by
  unfold iterateJobEvents
  by_cases none_ : request.pageLimit.lt (.ofInt 1) = true
  · have pages : request.pagesAllowed = 0 := if_pos none_
    rw [if_pos none_]
    refine ⟨0, rfl, by simp, nofun, fun _ => .inl ?_⟩
    rw [pages, zero_mul]
    rfl
  · have pages : request.pagesAllowed = request.pageLimit.countsBelow := if_neg none_
    rw [if_neg none_]
    have start : ReadSoFar chrono request limit first log refusal .start [] := ⟨0, .start, rfl⟩
    cases Round.run_reaches (ReadSoFar.next answers) start fuel with
    | inl goesOn =>
        obtain ⟨open_, pagesRead, read, yields⟩ := goesOn
        rw [List.nil_append] at yields
        refine ⟨_, yields, by rw [pages]; exact read.most_asked, ?_, ?_⟩
        · exact fun k small positive => read.below k (le_of_lt small) positive
        · rw [open_]
          nofun
    | inr last =>
        obtain ⟨s, earlier, r, ⟨pagesRead, read, before⟩, ends, result, state, yields⟩ := last
        subst before
        rw [List.nil_append] at yields
        have asked := read.most_asked
        have below := fun k (small : k < s.yielded) positive =>
          read.below k (le_of_lt small) positive
        cases read.round answers with
        | limited allowed same =>
            rw [same, List.append_nil] at yields
            refine ⟨s.yielded, yields, by rw [pages]; exact asked, below, fun _ => ?_⟩
            cases read.full with
            | inl exact_ =>
                refine .inl ?_
                rw [exact_, pages, ← allowed]
                norm_cast
            | inr left =>
                refine .inr (.inr ?_)
                rw [state, same]
                exact left.2
        | threw error refused final same =>
            rw [same, List.append_nil] at yields
            refine ⟨s.yielded, yields, by rw [pages]; exact asked, below, fun done => ?_⟩
            rw [same] at ends
            cases (result.symm.trans done).symm.trans ends.symm
        | resumed error refused same =>
            rw [same] at ends
            cases ends
        | answered answered n allowed handed fetches after =>
            rw [handed] at yields
            cases after with
            | goesOn goesOn => cases goesOn.symm.trans ends
            | ends _ most below whole =>
                refine ⟨n, yields, ?_, below, fun _ => .inr ?_⟩
                · have some_ : (n : ℕ∞) ≤ ((pagesRead + 1 : ℕ) : ℕ∞) * (maxItems limit : ℕ) := by
                    exact_mod_cast most
                  refine some_.trans ?_
                  rw [pages]
                  exact mul_le_mul_left (by exact_mod_cast Order.add_one_le_of_lt allowed) _
                · rw [state, fetches, Nat.add_sub_cancel]
                  exact whole

/-- A reader who may still resume as often as calls are refused gets through. -/
theorem HasRead.ends
    (answers : Answers chrono request.toGetJobEventsAllPagesRequest limit first log refusal fetch)
    (on : request.resumeOnTransientError = some true)
    (transient : ∀ call error, refusal call = some error →
      ∃ api : SpatiadApiError, error = .api api ∧ api.retryable = true)
    (few : FailsAtMost request.resumesAllowed refusal) {s : IterateState} {pages failures : Nat}
    (read : HasRead chrono request limit first log refusal s pages)
    (succeeds : refusal (s.fetches + failures) = none)
    (left : ((s.resumeAttempts + failures : Nat) : ℕ∞) ≤ request.resumesAllowed) :
    ∃ fuel, (Round.run (iterateRound fetch request) fuel s).result = some .done := by
  have allowed_again : failures ≠ 0 → (s.resumeAttempts : ℕ∞) < request.resumesAllowed := by
    intro more
    refine lt_of_lt_of_le ?_ left
    exact_mod_cast Nat.lt_add_of_pos_right (Nat.pos_of_ne_zero more)
  have refused_more : ∀ error, refusal s.fetches = some error → failures ≠ 0 := by
    rintro error refused rfl
    cases succeeds.symm.trans refused
  cases read.round answers with
  | limited _ same => exact ⟨1, by rw [Round.run_last (by rw [same]), same]⟩
  | threw error refused final same =>
      have resumes := (resumes_iff on transient refused s.resumeAttempts).mpr
        (allowed_again (refused_more error refused))
      cases final.symm.trans resumes
  | resumed error refused same =>
      obtain ⟨fewer, eq⟩ := Nat.exists_eq_succ_of_ne_zero (refused_more error refused)
      have succeeds : refusal (s.fetches + 1 + fewer) = none := by
        rw [← succeeds, eq, Nat.add_right_comm, Nat.add_assoc]
      have left : ((s.resumeAttempts + 1 + fewer : Nat) : ℕ∞) ≤ request.resumesAllowed := by
        rwa [eq, Nat.succ_eq_add_one, ← Nat.add_assoc, Nat.add_right_comm] at left
      obtain ⟨fuel, done⟩ := HasRead.ends answers on transient few
        (read.refused answers refused) succeeds left
      exact ⟨fuel + 1, by rw [Round.run_goOn (by rw [same]), same]; exact done⟩
  | answered answered n _ _ fetches after =>
      cases after with
      | ends ends => exact ⟨1, by rw [Round.run_last ends, ends]⟩
      | goesOn goesOn further yielded attempts read' =>
          obtain ⟨failures, allowed, succeeds⟩ := few (s.fetches + 1)
          rw [← fetches] at succeeds
          have left :
              (((iterateRound fetch request s).state.resumeAttempts + failures : Nat) : ℕ∞) ≤
                request.resumesAllowed := by
            rw [attempts, Nat.zero_add]
            exact allowed
          obtain ⟨fuel, done⟩ := HasRead.ends answers on transient few read' succeeds left
          exact ⟨fuel + 1, by rw [Round.run_goOn goesOn]; exact done⟩
-- Every page is further down the first log, and between two pages the refusals run out.
termination_by (first.length - s.yielded, failures)
decreasing_by
  · exact Prod.Lex.right _ (by omega)
  · have within := read'.within
    exact Prod.Lex.left _ _ (by omega)

end reading

/-! ## From a running server -/

section server

variable {chrono : Chrono} {first : List JobEventRecord}

theorem cursorAt_resumes (chrono : Chrono) (first : List JobEventRecord) (k : Nat) :
    cursorAt chrono first k ≠ some "" ∧
      Resumes chrono first (some (cursorAt chrono first k))
        (some (place JobEventRecord.key first k)) := by
  unfold cursorAt place
  cases last : (first.take k).getLast? with
  | none => exact ⟨nofun, .first⟩
  | some event =>
      have bar : '|' ∈ (encodeEventsCursor chrono event).toList := by simp [encodeEventsCursor]
      refine ⟨fun empty => ?_, .after (List.mem_of_mem_take (List.mem_of_getLast? last))⟩
      rw [Option.map_some, Option.some_inj] at empty
      rw [empty] at bar
      cases bar

variable {host : Host} {extract : FormUrlencoded.Bytes → Option JobEventsQuery}
  {others : Others host InMemoryBackend} {headers : Headers} {deliveries : Nat → Delivery}
  {engines : Nat → DispatchService InMemoryBackend} {request : GetJobEventsAllPagesRequest}
  {limit : Option Nat} {opening : Nat}

theorem server_answers (extracts : ExtractsForms extract)
    (filed : Filed host request.jobId (engines opening)) (nondecreasing : Monotone host.clock)
    (between : ∀ n, ∃ activities,
      Run (engineStep host) anyStep (engines n) activities (engines (n + 1)))
    (resumable : Resumable chrono (requestedEvents (engines opening) request.jobId request.kinds))
    (meets : ∀ n t, deliveries n = .served t → t.eventsEngine others headers = engines n)
    (whole : request.limit = limit.map fun n => .ofInt n) (safe : ∀ n ∈ limit, n < 2 ^ 53)
    (answered : (deliveries opening).refusal others headers = none)
    (before : ∀ n < opening, (deliveries n).refusal others headers ≠ none) :
    Answers chrono request (limit.getD 50)
      (requestedEvents (engines opening) request.jobId request.kinds)
      (fun n => requestedEvents (engines n) request.jobId request.kinds)
      (fun n => (deliveries n).refusal others headers)
      (TypeScript.getJobEvents chrono extract others headers deliveries) := by
  have notBefore : ∀ n, (deliveries n).refusal others headers = none → opening ≤ n :=
    fun n refused => Nat.le_of_not_lt fun early => before n early refused
  have onward : ∀ m n, m ≤ n → ∃ activities,
      Run (engineStep host) anyStep (engines m) activities (engines n) := by
    intro m n ordered
    induction n, ordered using Nat.le_induction with
    | base => exact ⟨[], .start⟩
    | succ n _ ih =>
        obtain ⟨_, run⟩ := ih
        obtain ⟨_, step⟩ := between n
        exact ⟨_, run.append step⟩
  obtain ⟨read, valid, same⟩ := sent_kinds_read request.kinds
  have requested : ∀ e : DispatchService InMemoryBackend,
      requestedEvents e request.jobId read = requestedEvents e request.jobId request.kinds :=
    fun e => requestedEvents_congr same
  have growing : Growing JobEventRecord.key fun n =>
      requestedEvents (engines (opening + n)) request.jobId request.kinds := by
    refine growing_requestedEvents filed nondecreasing (fun m n ordered => ?_) request.kinds
    obtain ⟨_, run⟩ := onward (opening + m) (opening + n) (by omega)
    exact advances_run nondecreasing run
  have query (n k : Nat) := @query_arrives extract (request.page (cursorAt chrono
    (requestedEvents (engines opening) request.jobId request.kinds) k)) limit extracts whole safe
    (cursorAt_resumes chrono _ k).1
  constructor
  case descending => exact requestedEvents_descending filed request.kinds
  case opening =>
    intro n first earlier
    have same : n = opening :=
      le_antisymm (Nat.le_of_not_lt fun later => earlier opening later answered) (notBefore n first)
    rw [same]
  case scrolled =>
    intro n k first later
    obtain ⟨_, run⟩ := onward opening k ((notBefore n first).trans later)
    exact requestedEvents_scrolled filed nondecreasing run request.kinds
  case lost =>
    intro n k l first later ordered a inFirst there
    have from_ := notBefore n first
    have kept := growing.lost (k - opening) (l - opening) (by omega) a inFirst
    rw [Nat.add_sub_cancel' (by omega), Nat.add_sub_cancel' (by omega)] at kept
    exact kept there
  case refused =>
    intro n k error refused
    obtain ⟨query, built, extracted⟩ := query n k
    exact getJobEvents_refused built extracted refused
  case answered =>
    intro n k answered
    obtain ⟨query, built, extracted⟩ := query n k
    obtain ⟨t, delivered⟩ : ∃ t, deliveries n = .served t := by
      cases delivered : deliveries n with
      | served t => exact ⟨t, rfl⟩
      | failed message | refused status message code =>
          rw [delivered] at answered
          cases answered
    rw [getJobEvents_answered built extracted valid resumable (cursorAt_resumes chrono _ k).2
      delivered answered, meets n t delivered]
    simp only [GetJobEventsAllPagesRequest.page, requested]

end server

/-- A reader that resumes, against an in-memory server whose clock does not go back and whose
    engine undergoes anything from each of its calls to the next, while any calls are lost or
    refused.  At every point it has yielded the newest part of the requested events that were
    retained at its first answered call, page by page: none twice, none out of order, none
    left out between.  When it is through it has yielded as many as it was asked for, or all
    that were still retained at its last call; and it gets through if no more calls in a row
    are refused, for passing reasons, than it may resume after. -/
theorem server_events_read (chrono : Chrono) (host : Host)
    (extract : FormUrlencoded.Bytes → Option JobEventsQuery) (extracts : ExtractsForms extract)
    (others : Others host InMemoryBackend) (headers : Headers) (h3Resolution tick : Nat)
    (past : List Activity) (engines : Nat → DispatchService InMemoryBackend)
    (run : Run (engineStep host) anyStep (Engine.withStorage h3Resolution InMemoryBackend.mk tick)
      past (engines 0))
    (between : ∀ n, ∃ activities,
      Run (engineStep host) anyStep (engines n) activities (engines (n + 1)))
    (nondecreasing : Monotone host.clock)
    (undoes : ∀ n, chrono.parseFromRfc3339 (chrono.toRfc3339 (host.clock n)) = some (host.clock n))
    (deliveries : Nat → Delivery)
    (meets : ∀ n t, deliveries n = .served t → t.eventsEngine others headers = engines n)
    (request : IterateJobEventsRequest) (limit : Option Nat)
    (whole : request.limit = limit.map fun n => .ofInt n) (safe : ∀ n ∈ limit, n < 2 ^ 53)
    (opening : Nat) (counter : (engines opening).lastSequence request.jobId < 2 ^ 64)
    (answered : (deliveries opening).refusal others headers = none)
    (before : ∀ n < opening, (deliveries n).refusal others headers ≠ none) :
    let fetch := TypeScript.getJobEvents chrono extract others headers deliveries
    let refusal n := (deliveries n).refusal others headers
    let log n := requestedEvents (engines n) request.jobId request.kinds
    (∀ fuel, ∃ n, ReadsNewest request (maxItems (limit.getD 50)) (log opening) log
      (iterateJobEvents fetch request fuel) n) ∧
    (request.resumeOnTransientError = some true →
      (∀ call error, refusal call = some error →
        ∃ api : SpatiadApiError, error = .api api ∧ api.retryable = true) →
      FailsAtMost request.resumesAllowed refusal →
      ∃ fuel, (iterateJobEvents fetch request fuel).result = some .done) := by
  intro fetch refusal log
  have start : ∀ j, Filed host j (Engine.withStorage h3Resolution InMemoryBackend.mk tick) := by
    intro j
    refine ⟨List.Pairwise.nil, List.Pairwise.nil, ?_, ?_⟩ <;> exact fun _ none_ => nomatch none_
  have reached : ∃ activities, Run (engineStep host) anyStep
      (Engine.withStorage h3Resolution InMemoryBackend.mk tick) activities (engines opening) := by
    clear answered before counter
    induction opening with
    | zero => exact ⟨past, run⟩
    | succ n ih =>
        obtain ⟨_, run⟩ := ih
        obtain ⟨_, step⟩ := between n
        exact ⟨_, run.append step⟩
  obtain ⟨_, reached⟩ := reached
  have filed := (advances_run nondecreasing reached).filed (start request.jobId)
  have resumable : Resumable chrono (log opening) := by
    refine ⟨fun event member => ?_, fun event member => ?_⟩
    · exact Nat.lt_of_le_of_lt (filed.counted event (mem_requestedEvents.mp member).1) counter
    · obtain ⟨n, _, stamp⟩ := filed.stamped event (mem_requestedEvents.mp member).1
      rw [stamp]
      exact undoes n
  have answers : Answers chrono request.toGetJobEventsAllPagesRequest (limit.getD 50) (log opening)
      log refusal fetch :=
    server_answers extracts filed nondecreasing between resumable meets whole safe answered before
  refine ⟨reads_newest answers, fun on transient few => ?_⟩
  unfold iterateJobEvents
  split
  · exact ⟨0, rfl⟩
  · obtain ⟨failures, allowed, succeeds⟩ := few 0
    have left : ((IterateState.start.resumeAttempts + failures : Nat) : ℕ∞) ≤
        request.resumesAllowed := by
      simpa [IterateState.start] using allowed
    exact HasRead.ends answers on transient few .start succeeds left

/-- A server on the engine with two offers, whose job is cancelled after the first call. -/
def busyServer (n : Nat) : Task InMemoryBackend :=
  let service :=
    if n = 0 then cancelledMeanwhile 0
    else (cancelledMeanwhile 0).drawn.mutate stillHost (.cancelJob 1)
  .start ⟨service, none, none, .new 1000 60, .empty⟩ ⟨fun _ => true, 0, []⟩

def gatewayErrors (n : Nat) : Delivery :=
  if n = 1 then .refused 503 none none else .served (busyServer n)

def creationsOneByOne : IterateJobEventsRequest where
  jobId := 1
  limit := some (.ofInt 1)
  kinds := some [.offerCreated]
  maxPages := none
  maxEvents := none
  resumeOnTransientError := some true
  maxResumeAttempts := none
  shouldResumeOnError := none

/-- Both creations are read, one by one. -/
theorem creations_read_one_by_one :
    let chrono : Chrono := ⟨toRfc3339, parseFromRfc3339⟩
    let others := Others.none stillHost InMemoryBackend
    let fetch := TypeScript.getJobEvents chrono formReader others (fun _ => none) gatewayErrors
    (iterateJobEvents fetch creationsOneByOne 4).handedOut.map JobEventResponse.kind =
      ["offer_created", "offer_created"] ∧
    ∃ fuel, (iterateJobEvents fetch creationsOneByOne fuel).result = some .done := by
  intro chrono others fetch
  have run : Run (engineStep stillHost) anyStep (Engine.withStorage 8 InMemoryBackend.mk 0) _
      ((busyServer 0).eventsEngine others fun _ => none) :=
    (((Run.start.next trivial
      (rfl : engineStep stillHost _ (.mutation (.registerJob (jobAtOrigin 1))) _)).next
      trivial (rfl : engineStep stillHost _ (.mutation (.createOffer 1 100 30)) _)).next
      trivial (rfl : engineStep stillHost _ (.mutation (.createOffer 1 101 30)) _)).next
      trivial (rfl : engineStep stillHost _ .reading _)
  have between : ∀ n, ∃ activities, Run (engineStep stillHost) anyStep
      ((busyServer n).eventsEngine others fun _ => none) activities
      ((busyServer (n + 1)).eventsEngine others fun _ => none) := by
    intro n
    cases n with
    | zero =>
        exact ⟨_, (Run.start.next trivial
          (rfl : engineStep stillHost _ (.mutation (.cancelJob 1)) _)).next trivial
          (rfl : engineStep stillHost _ .reading _)⟩
    | succ n => exact ⟨[], .start⟩
  have meets : ∀ n t, gatewayErrors n = .served t →
      t.eventsEngine others (fun _ => none) = (busyServer n).eventsEngine others fun _ => none := by
    intro n t served
    unfold gatewayErrors at served
    split at served
    · cases served
    · cases served
      rfl
  have refusals : ∀ n, (gatewayErrors n).refusal others (fun _ => none) =
      if n = 1 then some (createApiError 503 none none) else none := by
    intro n
    match n with
    | 0 => decide +kernel
    | 1 => rfl
    | n + 2 =>
        show (Delivery.served (busyServer 1)).refusal others (fun _ => none) = none
        decide +kernel
  have transient : ∀ call error, (gatewayErrors call).refusal others (fun _ => none) = some error →
      ∃ api : SpatiadApiError, error = .api api ∧ api.retryable = true := by
    intro call error refused
    rw [refusals] at refused
    split at refused
    · exact ⟨_, (Option.some.inj refused).symm, rfl⟩
    · cases refused
  have few : FailsAtMost creationsOneByOne.resumesAllowed
      fun n => (gatewayErrors n).refusal others fun _ => none := by
    intro call
    rw [resumesAllowed_whole (n := 3) rfl]
    by_cases one : call = 1
    · exact ⟨1, by decide, (refusals (call + 1)).trans (by rw [one]; rfl)⟩
    · exact ⟨0, by decide, (refusals call).trans (if_neg one)⟩
  have read : chrono.parseFromRfc3339 (chrono.toRfc3339 0) = some 0 := by decide +kernel
  obtain ⟨_, through⟩ := server_events_read chrono stillHost formReader formReader_extracts others
    (fun _ => none) 8 0 _ (fun n => (busyServer n).eventsEngine others fun _ => none) run between
    (fun _ _ _ => le_refl _) (fun _ => read) gatewayErrors meets creationsOneByOne (some 1) rfl
    (by decide) 0 (by decide +kernel) (by decide +kernel) (by decide)
  exact ⟨by decide +kernel, through rfl transient few⟩

end Spatiad
