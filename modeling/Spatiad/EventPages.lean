import Spatiad.EventsEndpoint
import Spatiad.EventHistory
import Spatiad.QueryAgreement
import Spatiad.Foundation.Paging

/-! # Paging through retained events

Whatever is done to an engine, the events of a job are only added to at one end, with
higher numbers and no earlier times, and dropped at the other.  A client that follows the
cursors it is given therefore walks down a log that grows above it.
-/

namespace Spatiad

open Foundation Foundation.Paging

/-! ## What is retained -/

variable {β : Type} [StorageBackend β] {host : Host} {jobId : Uuid}

omit [StorageBackend β] in
def Engine.retained (e : Engine β) (jobId : Uuid) : List JobEventRecord :=
  (e.jobEvents.lookup jobId).getD []

def JobEventRecord.key (event : JobEventRecord) : DateTime ×ₗ Nat :=
  toLex (event.occurredAt, event.sequence)

def JobEventsCursor.key (cursor : JobEventsCursor) : DateTime ×ₗ Nat :=
  toLex (cursor.occurredAt, cursor.sequence)

/-- What is retained for a job was pushed under ascending numbers, at times read in turn. -/
structure Filed (host : Host) (jobId : Uuid) (e : Engine β) : Prop where
  numbered : (e.retained jobId).Pairwise fun a b => a.sequence < b.sequence
  nondecreasing : (e.retained jobId).Pairwise fun a b => a.occurredAt ≤ b.occurredAt
  counted : ∀ event ∈ e.retained jobId, event.sequence ≤ e.lastSequence jobId
  stamped : ∀ event ∈ e.retained jobId, ∃ n < e.tick, event.occurredAt = host.clock n

omit [StorageBackend β] in
theorem Filed.key_lt_iff {e : Engine β} (filed : Filed host jobId e) {a b : JobEventRecord}
    (first : a ∈ e.retained jobId) (second : b ∈ e.retained jobId) :
    a.key < b.key ↔ a.sequence < b.sequence := by
  rw [JobEventRecord.key, JobEventRecord.key, Prod.Lex.toLex_lt_toLex]
  exact earlier_iff JobEventRecord.occurredAt filed.numbered filed.nondecreasing first second

/-- From `e` to `e'` events were pushed and dropped. -/
structure Continues (host : Host) (jobId : Uuid) (e e' : Engine β) : Prop where
  later : e.tick ≤ e'.tick
  counter : e.lastSequence jobId ≤ e'.lastSequence jobId
  pushed : ∀ event ∈ e'.retained jobId, event ∈ e.retained jobId ∨
    e.lastSequence jobId < event.sequence ∧ ∃ n, e.tick ≤ n ∧ event.occurredAt = host.clock n

namespace Continues

variable {e e' e'' : Engine β}

omit [StorageBackend β] in
theorem trans (first : Continues host jobId e e') (second : Continues host jobId e' e'') :
    Continues host jobId e e'' where
  later := le_trans first.later second.later
  counter := le_trans first.counter second.counter
  pushed event member := by
    rcases second.pushed event member with before | ⟨above, n, later, same⟩
    · exact first.pushed event before
    · exact .inr ⟨Nat.lt_of_le_of_lt first.counter above, n, le_trans first.later later, same⟩

omit [StorageBackend β] in
theorem of_same (jobEvents : e'.jobEvents = e.jobEvents)
    (sequences : e'.jobEventSequences = e.jobEventSequences) (later : e.tick ≤ e'.tick) :
    Continues host jobId e e' where
  later := later
  counter := by
    simp only [Ledger.lastSequence, sequences]
    exact le_refl _
  pushed event member := by
    simp only [Engine.retained, jobEvents] at member
    exact .inl member

end Continues

/-- What a clock that never goes back keeps in order. -/
structure Advances (host : Host) (jobId : Uuid) (e e' : Engine β) : Prop where
  continues : Continues host jobId e e'
  filed : Filed host jobId e → Filed host jobId e'

namespace Advances

variable {e e' e'' : Engine β}

omit [StorageBackend β] in
theorem trans (first : Advances host jobId e e') (second : Advances host jobId e' e'') :
    Advances host jobId e e'' where
  continues := first.continues.trans second.continues
  filed before := second.filed (first.filed before)

omit [StorageBackend β] in
theorem of_same (jobEvents : e'.jobEvents = e.jobEvents)
    (sequences : e'.jobEventSequences = e.jobEventSequences) (later : e.tick ≤ e'.tick) :
    Advances host jobId e e' where
  continues := .of_same jobEvents sequences later
  filed before := by
    have retained : e'.retained jobId = e.retained jobId := by simp only [Engine.retained, jobEvents]
    have counter : e'.lastSequence jobId = e.lastSequence jobId := by
      simp only [Ledger.lastSequence, sequences]
    refine ⟨?_, ?_, ?_, ?_⟩
    · rw [retained]
      exact before.numbered
    · rw [retained]
      exact before.nondecreasing
    · rw [retained, counter]
      exact before.counted
    · rw [retained]
      intro event member
      obtain ⟨n, early, same⟩ := before.stamped event member
      exact ⟨n, Nat.lt_of_lt_of_le early later, same⟩

variable (nondecreasing : Monotone host.clock)

include nondecreasing in
theorem pushJobEvent (e : Engine β) (j : Uuid) (kind : JobEventKind) :
    Advances host jobId e (e.pushJobEvent host j kind) := by
  by_cases same : j = jobId
  · subst same
    let event : JobEventRecord := ⟨e.lastSequence j + 1, host.clock e.tick, kind⟩
    let entries := e.retained j ++ [event]
    have retained : (e.pushJobEvent host j kind).retained j =
        entries.drop (entries.length - maxJobEvents) := by
      simp only [Engine.retained, Engine.pushJobEvent, AList.lookup_insert, Option.getD_some]
      rfl
    have counter : (e.pushJobEvent host j kind).lastSequence j = e.lastSequence j + 1 := by
      rw [lastSequence_push, if_pos rfl]
    have origin : ∀ a ∈ (e.pushJobEvent host j kind).retained j, a ∈ e.retained j ∨ a = event := by
      intro a member
      rw [retained] at member
      rcases List.mem_append.mp (List.mem_of_mem_drop member) with old | new
      · exact .inl old
      · exact .inr (List.mem_singleton.mp new)
    refine ⟨⟨Nat.le_succ _, ?_, ?_⟩, fun before => ⟨?_, ?_, ?_, ?_⟩⟩
    · rw [counter]
      exact Nat.le_succ _
    · intro a member
      rcases origin a member with old | rfl
      · exact .inl old
      · exact .inr ⟨Nat.lt_succ_self _, e.tick, le_refl _, rfl⟩
    · rw [retained]
      refine List.Pairwise.drop (List.pairwise_append.mpr ⟨before.numbered,
        List.pairwise_singleton _ _, ?_⟩)
      intro a old b new
      rw [List.mem_singleton.mp new]
      exact Nat.lt_succ_of_le (before.counted a old)
    · rw [retained]
      refine List.Pairwise.drop (List.pairwise_append.mpr ⟨before.nondecreasing,
        List.pairwise_singleton _ _, ?_⟩)
      intro a old b new
      obtain ⟨n, early, stamp⟩ := before.stamped a old
      rw [List.mem_singleton.mp new, stamp]
      exact nondecreasing (le_of_lt early)
    · intro a member
      rw [counter]
      rcases origin a member with old | rfl
      · exact Nat.le_succ_of_le (before.counted a old)
      · exact le_refl _
    · intro a member
      rcases origin a member with old | rfl
      · obtain ⟨n, early, stamp⟩ := before.stamped a old
        exact ⟨n, Nat.lt_succ_of_lt early, stamp⟩
      · exact ⟨e.tick, Nat.lt_succ_self _, rfl⟩
  · have kept : (e.pushJobEvent host j kind).retained jobId = e.retained jobId := by
      simp only [Engine.retained, Engine.pushJobEvent, HashMap.lookup_insert_if,
        if_neg (Ne.symm same)]
    have counter : (e.pushJobEvent host j kind).lastSequence jobId = e.lastSequence jobId := by
      rw [lastSequence_push, if_neg same]
    refine ⟨⟨Nat.le_succ _, le_of_eq counter.symm, ?_⟩, fun before => ⟨?_, ?_, ?_, ?_⟩⟩
    · intro a member
      rw [kept] at member
      exact .inl member
    · rw [kept]
      exact before.numbered
    · rw [kept]
      exact before.nondecreasing
    · rw [kept, counter]
      exact before.counted
    · rw [kept]
      intro a member
      obtain ⟨n, early, stamp⟩ := before.stamped a member
      exact ⟨n, Nat.lt_succ_of_lt early, stamp⟩

include nondecreasing in
theorem pushJobEvents (e : Engine β) (j : Uuid) (kinds : List JobEventKind) :
    Advances host jobId e (e.pushJobEvents host j kinds) := by
  have start : Advances host jobId e e := .of_same rfl rfl (le_refl _)
  apply Engine.pushJobEvents_rule start
  exact fun mid kind advances => advances.trans (pushJobEvent nondecreasing mid j kind)

include nondecreasing in
theorem pushes {kinds : Uuid → List JobEventKind} (pushes : e.Pushes host e' kinds) :
    Advances host jobId e e' := by
  obtain ⟨mid, j, events, same, rfl, _⟩ := pushes
  have moved : Advances host jobId e mid :=
    .of_same same.jobEvents same.sequences (le_of_eq same.tick.symm)
  exact moved.trans (pushJobEvents nondecreasing mid j events)

include nondecreasing in
theorem appendAndApply (e : Engine β) (cmd : Command) :
    Advances host jobId e (e.appendAndApply host cmd) := by
  let mid := { e with
    walSequence := e.walSequence + 1
    storage := (StorageBackend.appendWal e.storage (e.walSequence + 1) cmd).2 }
  have moved : Advances host jobId e mid := .of_same rfl rfl (le_refl _)
  exact moved.trans (pushes nondecreasing (mid.applyCommand_pushes host cmd))

include nondecreasing in
theorem trace {may : Ledger → Command → Prop} {log : List Command}
    (trace : Trace host may e log e') : Advances host jobId e e' := by
  have start : Advances host jobId e e := .of_same rfl rfl (le_refl _)
  apply trace.rule start
  case drawn =>
    intro mid advances
    have moved : Advances host jobId mid mid.drawn := .of_same rfl rfl (Nat.le_succ _)
    exact advances.trans moved
  case logged => exact fun mid cmd _ _ advances => advances.trans (appendAndApply nondecreasing mid cmd)

end Advances

/-! ## Engine runs -/

/-- What happens to an engine: a mutation, or a reading of the clock elsewhere. -/
inductive Activity where
  | mutation (mutation : Mutation)
  | reading
  deriving DecidableEq, Repr

def Engine.undergo (host : Host) (e : Engine β) : Activity → Engine β
  | .mutation mutation => e.mutate host mutation
  | .reading => e.drawn

def engineStep (host : Host) (e : Engine β) (activity : Activity) (e' : Engine β) : Prop :=
  e.undergo host activity = e'

theorem advances_step (nondecreasing : Monotone host.clock) {e e' : Engine β} {activity : Activity}
    (taken : engineStep host e activity e') : Advances host jobId e e' := by
  unfold engineStep at taken
  subst taken
  cases activity with
  | reading => exact .of_same rfl rfl (Nat.le_succ _)
  | mutation mutation =>
      simp only [Engine.undergo]
      apply Engine.mutate_rule
      case logged => exact .trace nondecreasing
      case written =>
        exact fun _ _ _ => .pushes nondecreasing (Engine.setOfferStatus_pushes host e _ _ _)
      case snapshot =>
        obtain ⟨ledger, tick⟩ := e.createSnapshot_frame
        exact .of_same e.createSnapshot_jobEvents (congrArg Ledger.jobEventSequences ledger)
          (le_of_eq tick.symm)

theorem advances_run (nondecreasing : Monotone host.clock) {e e' : Engine β}
    {past : List Activity} (run : Run (engineStep host) anyStep e past e') :
    Advances host jobId e e' := by
  refine run.state_invariant (Advances host jobId e) (.of_same rfl rfl (le_refl _)) ?_
  intro _ _ _ advances taken
  exact advances.trans (advances_step nondecreasing taken)

/-! ## A client's walk -/

def pageQuery (limit : Option Nat) (kinds : Option String) (cursor : Option String) :
    JobEventsQuery where
  limit := limit
  before := none
  cursor := cursor
  kinds := kinds

/-- The records of the responses so far, where `engines n` is the engine at the `n`-th
    request, and the cursor of the next request: none at first, then the `next_cursor` of
    each response, until that is null. -/
inductive EventsWalk (chrono : Chrono) (host : Host) (jobId : Uuid) (limit : Option Nat)
    (kinds : Option String) (engines : Nat → DispatchService β) :
    List (List JobEventRecord) → Option (Option String) → Prop where
  | start : EventsWalk chrono host jobId limit kinds engines [] (some none)
  | next {pages cursor selection records}
      (walk : EventsWalk chrono host jobId limit kinds engines pages (some cursor))
      (parsed : (pageQuery limit kinds cursor).parse chrono = .ok selection)
      (answered : selection.records host (engines pages.length) jobId = records) :
      EventsWalk chrono host jobId limit kinds engines (pages ++ [records])
        ((JobEventsResponse.ofRecords chrono jobId selection.limit records).nextCursor.map some)

/-- The retained events of requested kinds, newest first. -/
def requestedEvents (e : DispatchService β) (jobId : Uuid)
    (kinds : Option (List JobEventFilterKind)) : List JobEventRecord :=
  (e.retained jobId).reverse.filter (JobEventRecord.isRequested kinds)

omit [StorageBackend β] in
theorem mem_requestedEvents {e : DispatchService β} {kinds : Option (List JobEventFilterKind)}
    {event : JobEventRecord} :
    event ∈ requestedEvents e jobId kinds ↔
      event ∈ e.retained jobId ∧ event.isRequested kinds = true := by
  simp only [requestedEvents, List.mem_filter, List.mem_reverse]

omit [StorageBackend β] in
/-- The log of requested events grows at its newest end alone. -/
theorem growing_requestedEvents {engines : Nat → Engine β} (filed : Filed host jobId (engines 0))
    (nondecreasing : Monotone host.clock)
    (advances : ∀ m n, m ≤ n → Advances host jobId (engines m) (engines n))
    (kinds : Option (List JobEventFilterKind)) :
    Growing JobEventRecord.key fun n => requestedEvents (engines n) jobId kinds where
  descending n := by
    have here := (advances 0 n (Nat.zero_le n)).filed filed
    have ascending : ((engines n).retained jobId).Pairwise fun a b => a.key < b.key :=
      here.numbered.imp_of_mem fun first second lower => (here.key_lt_iff first second).mpr lower
    exact (List.pairwise_reverse.mpr ascending).filter _
  fresh n a member := by
    obtain ⟨retained, requested⟩ := mem_requestedEvents.mp member
    rcases (advances 0 n (Nat.zero_le n)).continues.pushed a retained with old | ⟨above, m, later, stamp⟩
    · exact .inl (mem_requestedEvents.mpr ⟨old, requested⟩)
    · refine .inr fun b first => ?_
      obtain ⟨inFirst, _⟩ := mem_requestedEvents.mp first
      obtain ⟨k, early, stampB⟩ := filed.stamped b inFirst
      have earlier : b.occurredAt ≤ a.occurredAt := by
        rw [stamp, stampB]
        exact nondecreasing (le_trans (le_of_lt early) later)
      have lower : b.sequence < a.sequence := Nat.lt_of_le_of_lt (filed.counted b inFirst) above
      rw [JobEventRecord.key, JobEventRecord.key, Prod.Lex.toLex_lt_toLex]
      rcases lt_or_eq_of_le earlier with less | equal
      · exact .inl less
      · exact .inr ⟨equal, lower⟩
  lost m n ordered a first last := by
    obtain ⟨inFirst, requested⟩ := mem_requestedEvents.mp first
    obtain ⟨inLast, _⟩ := mem_requestedEvents.mp last
    rcases (advances m n ordered).continues.pushed a inLast with old | ⟨above, _⟩
    · exact mem_requestedEvents.mpr ⟨old, requested⟩
    · have counted := filed.counted a inFirst
      have counter := (advances 0 m (Nat.zero_le m)).continues.counter
      omega

/-- An in-memory engine answers with a page of the requested events. -/
theorem jobEventsCursorFiltered_eq (e : Engine InMemoryBackend) (limit : Nat)
    (cursor : Option JobEventsCursor) (kinds : Option (List JobEventFilterKind)) :
    e.jobEventsCursorFiltered host jobId limit cursor kinds =
      page JobEventRecord.key (maxItems limit) (cursor.map JobEventsCursor.key)
        (requestedEvents e jobId kinds) := by
  have below : JobEventRecord.beforeCursor cursor = fun a : JobEventRecord =>
      decide (∀ c ∈ cursor.map JobEventsCursor.key, a.key < c) := by
    funext a
    cases cursor with
    | none => simp [JobEventRecord.beforeCursor]
    | some c =>
        rw [Bool.eq_iff_iff]
        simp [JobEventRecord.beforeCursor, JobEventRecord.key, JobEventsCursor.key,
          Prod.Lex.toLex_lt_toLex]
  have volatile : StorageBackend.isPersistent e.storage = false := rfl
  simp only [Engine.jobEventsCursorFiltered, volatile, Bool.false_eq_true, if_false, page,
    requestedEvents, Engine.retained, below, List.filter_filter]
  cases e.jobEvents.lookup jobId with
  | none => simp
  | some events =>
      simp only [Option.getD_some]
      congr 1
      refine List.filter_congr fun a _ => ?_
      exact Bool.and_comm _ _

section walks

variable {chrono : Chrono} {limit : Option Nat} {rawKinds : Option String}
variable {kinds : Option (List JobEventFilterKind)} {engines : Nat → DispatchService InMemoryBackend}

theorem page_sizes (limit : Nat) : 1 ≤ max limit 1 ∧ max limit 1 ≤ maxItems limit := by
  unfold maxItems
  split <;> omega

/-- The text of a request's cursor, and the key it stands for. -/
inductive Resumes (chrono : Chrono) (events : List JobEventRecord) :
    Option (Option String) → Option (Option (DateTime ×ₗ Nat)) → Prop where
  | ended : Resumes chrono events none none
  | first : Resumes chrono events (some none) (some none)
  | after {event} (member : event ∈ events) :
      Resumes chrono events (some (some (encodeEventsCursor chrono event))) (some (some event.key))

/-- Each event of the first log can be passed back as a cursor. -/
structure Resumable (chrono : Chrono) (events : List JobEventRecord) : Prop where
  fits : ∀ event ∈ events, event.sequence < 2 ^ 64
  undoes : ∀ event ∈ events,
    chrono.parseFromRfc3339 (chrono.toRfc3339 event.occurredAt) = some event.occurredAt

theorem Resumes.answered {events : List JobEventRecord} (resumable : Resumable chrono events)
    (valid : parseJobEventKinds rawKinds = .ok kinds) {cursor : Option String}
    {request : Option (Option (DateTime ×ₗ Nat))}
    (resumes : Resumes chrono events (some cursor) request) :
    ∃ selection key, request = some key ∧ selection.limit = limit.getD 50 ∧
      (pageQuery limit rawKinds cursor).parse chrono = .ok selection ∧
      ∀ e : DispatchService InMemoryBackend, selection.records host e jobId =
        page JobEventRecord.key (maxItems (limit.getD 50)) key (requestedEvents e jobId kinds) := by
  cases resumes with
  | first =>
      refine ⟨⟨limit.getD 50, none, none, kinds⟩, none, rfl, rfl, ?_, ?_⟩
      · simp [JobEventsQuery.parse, pageQuery, valid, bind, Except.bind]
      · exact fun e => @jobEventsCursorFiltered_eq host jobId e _ none kinds
  | @after event member =>
      have read := parse_encodeEventsCursor chrono (resumable.fits event member)
        (resumable.undoes event member)
      let c : JobEventsCursor := ⟨event.occurredAt, event.sequence⟩
      refine ⟨⟨limit.getD 50, none, some c, kinds⟩, some event.key, rfl, rfl, ?_, ?_⟩
      · simp [JobEventsQuery.parse, pageQuery, valid, read, bind, Except.bind, Except.map, c]
      · exact fun e => @jobEventsCursorFiltered_eq host jobId e _ (some c) kinds

theorem Resumes.following {events page : List JobEventRecord} {n : Nat}
    (inEvents : ∀ event ∈ page, event ∈ events) :
    Resumes chrono events
      ((JobEventsResponse.ofRecords chrono jobId n page).nextCursor.map some)
      ((following JobEventRecord.key (max n 1) page).map some) := by
  unfold JobEventsResponse.ofRecords Paging.following
  simp only
  split
  · cases isLast : page.getLast? with
    | none => exact .ended
    | some last => exact .after (inEvents last (List.mem_of_getLast? isLast))
  · exact .ended

theorem EventsWalk.paging {log : Nat → List JobEventRecord}
    (isLog : ∀ n, log n = requestedEvents (engines n) jobId kinds)
    (resumable : Resumable chrono (log 0)) (growing : Growing JobEventRecord.key log)
    (valid : parseJobEventKinds rawKinds = .ok kinds)
    {pages : List (List JobEventRecord)} {request : Option (Option String)}
    (walk : EventsWalk chrono host jobId limit rawKinds engines pages request) :
    ∃ request', Resumes chrono (log 0) request request' ∧
      Walk JobEventRecord.key (maxItems (limit.getD 50)) (max (limit.getD 50) 1) log pages
        request' := by
  obtain ⟨positive, fits⟩ := page_sizes (limit.getD 50)
  induction walk with
  | start => exact ⟨some none, .first, .start⟩
  | @next pages cursor selection records _ parsed answered ih =>
      obtain ⟨request', resumes, walk⟩ := ih
      obtain ⟨selection', key, rfl, sameLimit, parsed', isPage⟩ :=
        @Resumes.answered host jobId chrono limit rawKinds kinds _ resumable valid cursor request' resumes
      obtain rfl := Except.ok.inj (parsed.symm.trans parsed')
      have onward := walk.next
      rw [isLog pages.length, ← isPage, answered] at onward
      refine ⟨_, ?_, onward⟩
      rw [sameLimit]
      refine Resumes.following fun event member => ?_
      have origin := (onward.sound growing positive fits).origin
      exact origin event (by rw [List.flatten_concat]; exact List.mem_append_right _ member)

/-- Every request of a walk can be answered, so the whole walk can be. -/
theorem exists_eventsWalk {log : Nat → List JobEventRecord}
    (isLog : ∀ n, log n = requestedEvents (engines n) jobId kinds)
    (resumable : Resumable chrono (log 0)) (growing : Growing JobEventRecord.key log)
    (valid : parseJobEventKinds rawKinds = .ok kinds) {pages : List (List JobEventRecord)}
    {request : Option (Option (DateTime ×ₗ Nat))}
    (walk : Walk JobEventRecord.key (maxItems (limit.getD 50)) (max (limit.getD 50) 1) log pages
      request) :
    ∃ request', Resumes chrono (log 0) request' request ∧
      EventsWalk chrono host jobId limit rawKinds engines pages request' := by
  obtain ⟨positive, fits⟩ := page_sizes (limit.getD 50)
  induction walk with
  | start => exact ⟨some none, .first, .start⟩
  | @next pages key walk ih =>
      obtain ⟨request', resumes, client⟩ := ih
      obtain ⟨cursor, rfl⟩ : ∃ cursor, request' = some cursor := by
        cases resumes with
        | first => exact ⟨_, rfl⟩
        | after => exact ⟨_, rfl⟩
      obtain ⟨selection, key', same, sameLimit, parsed, isPage⟩ :=
        @Resumes.answered host jobId chrono limit rawKinds kinds _ resumable valid cursor _ resumes
      obtain rfl := Option.some.inj same
      have answered := isPage (engines pages.length)
      rw [← isLog] at answered
      refine ⟨_, ?_, client.next parsed answered⟩
      rw [sameLimit]
      refine Resumes.following fun event member => ?_
      have origin := (walk.next.sound growing positive fits).origin
      exact origin event (by rw [List.flatten_concat]; exact List.mem_append_right _ member)

end walks

/-- Whatever an in-memory engine undergoes before a client's first request for the events
    of a job and from each request to the next, on a clock that never goes back and whose
    times `chrono` reads as it wrote them: every request of the client is understood, and
    after finitely many the walk ends.  At every point the records it was given have
    descending numbers, are of requested kinds and were retained at the first request;
    at its end these are all that were retained then and still are. -/
theorem events_walk_complete (chrono : Chrono) (host : Host) (h3Resolution tick : Nat)
    (past : List Activity) (engines : Nat → DispatchService InMemoryBackend)
    (run : Run (engineStep host) anyStep (Engine.withStorage h3Resolution InMemoryBackend.mk tick) past
      (engines 0))
    (between : ∀ n, ∃ activities,
      Run (engineStep host) anyStep (engines n) activities (engines (n + 1)))
    (nondecreasing : Monotone host.clock)
    (undoes : ∀ n, chrono.parseFromRfc3339 (chrono.toRfc3339 (host.clock n)) = some (host.clock n))
    (jobId : Uuid) (counter : (engines 0).lastSequence jobId < 2 ^ 64) (limit : Option Nat)
    (rawKinds : Option String) (kinds : Option (List JobEventFilterKind))
    (valid : parseJobEventKinds rawKinds = .ok kinds) :
    (∃ pages, EventsWalk chrono host jobId limit rawKinds engines pages none) ∧
      ∀ pages request, EventsWalk chrono host jobId limit rawKinds engines pages request →
        pages.length ≤ ((engines 0).retained jobId).length + 1 ∧
        (∀ cursor, request = some cursor →
          ∃ selection, (pageQuery limit rawKinds cursor).parse chrono = .ok selection) ∧
        pages.flatten.Pairwise (fun a b => b.sequence < a.sequence) ∧
        (∀ event ∈ pages.flatten,
          event ∈ (engines 0).retained jobId ∧ event.isRequested kinds = true) ∧
        (request = none → ∀ event ∈ (engines 0).retained jobId,
          event ∈ (engines (pages.length - 1)).retained jobId → event.isRequested kinds = true →
            event ∈ pages.flatten) := by
  have filed : Filed host jobId (engines 0) := by
    refine (advances_run nondecreasing run).filed ⟨List.Pairwise.nil, List.Pairwise.nil, ?_, ?_⟩
    · intro event none
      cases none
    · intro event none
      cases none
  have advances : ∀ m n, m ≤ n → Advances host jobId (engines m) (engines n) := by
    intro m n ordered
    induction n, ordered using Nat.le_induction with
    | base => exact .of_same rfl rfl (le_refl _)
    | succ n _ ih =>
        obtain ⟨activities, onward⟩ := between n
        exact ih.trans (advances_run nondecreasing onward)
  let log (n : Nat) := requestedEvents (engines n) jobId kinds
  have growing : Growing JobEventRecord.key log :=
    growing_requestedEvents filed nondecreasing advances kinds
  have resumable : Resumable chrono (log 0) := by
    refine ⟨fun event member => ?_, fun event member => ?_⟩
    · exact Nat.lt_of_le_of_lt (filed.counted event (mem_requestedEvents.mp member).1) counter
    · obtain ⟨n, _, stamp⟩ := filed.stamped event (mem_requestedEvents.mp member).1
      rw [stamp]
      exact undoes n
  obtain ⟨positive, fits⟩ := page_sizes (limit.getD 50)
  constructor
  · obtain ⟨pages, walk⟩ := exists_ended growing positive fits
    obtain ⟨request, resumes, client⟩ :=
      exists_eventsWalk (fun _ => rfl) resumable growing valid walk
    cases resumes with
    | ended => exact ⟨pages, client⟩
  · intro pages request client
    obtain ⟨request', resumes, walk⟩ := client.paging (fun _ => rfl) resumable growing valid
    have sound := walk.sound growing positive fits
    refine ⟨?_, ?_, ?_, ?_, ?_⟩
    · have bounded := walk.length_le growing positive fits
      have fewer : (log 0).length ≤ ((engines 0).retained jobId).length := by
        have filtered := List.length_filter_le (JobEventRecord.isRequested kinds)
          ((engines 0).retained jobId).reverse
        rw [List.length_reverse] at filtered
        exact filtered
      omega
    · rintro cursor rfl
      obtain ⟨selection, _, _, _, parsed, _⟩ :=
        @Resumes.answered host jobId chrono limit rawKinds kinds _ resumable valid cursor _ resumes
      exact ⟨selection, parsed⟩
    · refine sound.descending.imp_of_mem fun first second lower => ?_
      exact (filed.key_lt_iff (mem_requestedEvents.mp (sound.origin _ second)).1
        (mem_requestedEvents.mp (sound.origin _ first)).1).mp lower
    · intro event member
      exact mem_requestedEvents.mp (sound.origin event member)
    · rintro rfl event first last requested
      cases resumes with
      | ended =>
          exact walk.complete growing positive fits (mem_requestedEvents.mpr ⟨first, requested⟩)
            (mem_requestedEvents.mpr ⟨last, requested⟩)

/-- A job with two offers, which is cancelled after the first request. -/
def cancelledMeanwhile (n : Nat) : DispatchService InMemoryBackend :=
  let e := (((Engine.withStorage 8 InMemoryBackend.mk 0).mutate stillHost
    (.registerJob (jobAtOrigin 1))).mutate stillHost (.createOffer 1 100 30)).mutate stillHost
    (.createOffer 1 101 30)
  if n = 0 then e else e.mutate stillHost (.cancelJob 1)

/-- A client that takes them one by one is given both creations. -/
theorem offers_read_one_by_one :
    let chrono : Chrono := ⟨toRfc3339, parseFromRfc3339⟩
    ∃ pages, EventsWalk chrono stillHost 1 (some 1) (some "offer_created") cancelledMeanwhile pages
        none ∧
      ∀ event ∈ (cancelledMeanwhile 0).retained 1, event.sequence ≠ 1 → event ∈ pages.flatten := by
  intro chrono
  have run : Run (engineStep stillHost) anyStep (Engine.withStorage 8 InMemoryBackend.mk 0) _
      (cancelledMeanwhile 0) :=
    ((Run.start.next trivial (rfl : engineStep stillHost _ (.mutation (.registerJob (jobAtOrigin 1))) _)).next
      trivial (rfl : engineStep stillHost _ (.mutation (.createOffer 1 100 30)) _)).next
      trivial (rfl : engineStep stillHost _ (.mutation (.createOffer 1 101 30)) _)
  have between : ∀ n, ∃ activities, Run (engineStep stillHost) anyStep (cancelledMeanwhile n)
      activities (cancelledMeanwhile (n + 1)) := by
    intro n
    cases n with
    | zero => exact ⟨_, Run.start.next trivial (rfl : engineStep stillHost _ (.mutation (.cancelJob 1)) _)⟩
    | succ n => exact ⟨[], .start⟩
  have read : chrono.parseFromRfc3339 (chrono.toRfc3339 0) = some 0 := by decide +kernel
  obtain ⟨⟨pages, walk⟩, all⟩ := events_walk_complete chrono stillHost 8 0 _ cancelledMeanwhile run
    between (fun _ _ _ => le_refl _) (fun _ => read) 1 (by decide +kernel) (some 1)
    (some "offer_created") (some [.offerCreated]) (by decide +kernel)
  have created : ∀ event ∈ (cancelledMeanwhile 0).retained 1, event.sequence ≠ 1 →
      event.isRequested (some [.offerCreated]) = true := by decide +kernel
  have kept : ∀ n, ∀ event ∈ (cancelledMeanwhile 0).retained 1,
      event ∈ (cancelledMeanwhile n).retained 1 := by
    intro n
    cases n with
    | zero => exact fun _ member => member
    | succ n =>
        show ∀ event ∈ (cancelledMeanwhile 0).retained 1, event ∈ (cancelledMeanwhile 1).retained 1
        decide +kernel
  obtain ⟨_, _, _, _, whole⟩ := all pages none walk
  exact ⟨pages, walk, fun event first notFirst =>
    whole rfl event first (kept _ event first) (created event first notFirst)⟩

end Spatiad
