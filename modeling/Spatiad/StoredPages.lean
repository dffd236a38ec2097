import Spatiad.Databases
import Spatiad.TimestampRoundTrip
import Spatiad.Foundation.Pages
import Spatiad.Foundation.Paging

/-! # Paging through stored events

SQLite keeps times as texts of varying width.  Their order is that of the instants, and
a time that was read is printed as the same text again, so pages that go on from the last
row read every event once.
-/

namespace Spatiad

open Foundation Foundation.Pages Foundation.Paging

def StoredJobEvent.key (event : StoredJobEvent) : DateTime ×ₗ Nat :=
  toLex (event.occurredAt, event.sequence)

def StoredJobEvent.cursor (event : StoredJobEvent) : EventCursor :=
  ⟨event.occurredAt, event.sequence⟩

def EventCursor.key (cursor : EventCursor) : DateTime ×ₗ Nat :=
  toLex (cursor.occurredAt, cursor.sequence)

def eventsOf (jobId : Uuid) (appends : List (Uuid × StoredJobEvent)) : List StoredJobEvent :=
  (appends.filter fun append => append.1 = jobId).map Prod.snd

/-! ## What is stored -/

namespace SqlBackend

variable {d : Dialect}

def appendJobEvents (store : SqlBackend d) (appends : List (Uuid × StoredJobEvent)) : SqlBackend d :=
  appends.foldl (fun store append => (store.appendJobEvent append.1 append.2).2) store

def rowOf (event : StoredJobEvent) : Nat × JobEventRow d :=
  (event.sequence, ⟨d.encode event.occurredAt, event.kindJson⟩)

theorem jobRows_append_perm (store : SqlBackend d) (jobId : Uuid) (event : StoredJobEvent)
    (unused : event.sequence ∉ (store.jobRows jobId).map Prod.fst) :
    ((store.appendJobEvent jobId event).2.jobRows jobId).Perm
      (rowOf event :: store.jobRows jobId) := by
  have fresh : toLex (jobId, event.sequence) ∉ store.jobEvents.keys := by
    intro used
    obtain ⟨row, member, same⟩ := List.mem_map.mp used
    have selected : ofJob jobId row.1 = true := by rw [same]; simp [ofJob]
    refine unused (List.mem_map.mpr ⟨((ofLex row.1).2, row.2), ?_, by rw [same]; rfl⟩)
    exact List.mem_map.mpr ⟨row, List.mem_filter.mpr ⟨member, selected⟩, rfl⟩
  have inside : ofJob jobId (toLex (jobId, event.sequence)) = true := by simp [ofJob]
  simp only [appendJobEvent, Table.insert, if_neg fresh, jobRows, Table.restrict]
  have added := ((Table.upsert_perm (r := (⟨d.encode event.occurredAt, event.kindJson⟩ :
    JobEventRow d)) fresh).filter fun row => ofJob jobId row.1).map
      fun row => ((ofLex row.1).2, row.2)
  rw [List.filter_cons, if_pos inside, List.map_cons] at added
  exact added

theorem jobRows_appendJobEvents (store : SqlBackend d) (jobId : Uuid)
    (appends : List (Uuid × StoredJobEvent))
    (distinct : ((eventsOf jobId appends).map StoredJobEvent.sequence ++
      (store.jobRows jobId).map Prod.fst).Nodup) :
    ((store.appendJobEvents appends).jobRows jobId).Perm
      ((eventsOf jobId appends).map rowOf ++ store.jobRows jobId) := by
  induction appends generalizing store with
  | nil => exact List.Perm.refl _
  | cons append rest ih =>
      obtain ⟨j, event⟩ := append
      by_cases same : j = jobId
      · subst same
        have events : eventsOf j ((j, event) :: rest) = event :: eventsOf j rest := by
          simp [eventsOf]
        rw [events, List.map_cons, List.cons_append] at distinct
        have unused : event.sequence ∉ (store.jobRows j).map Prod.fst := fun used =>
          (List.nodup_cons.mp distinct).1 (List.mem_append_right _ used)
        have added := store.jobRows_append_perm j event unused
        have numbers : ((eventsOf j rest).map StoredJobEvent.sequence ++
            ((store.appendJobEvent j event).2.jobRows j).map Prod.fst).Nodup := by
          have rearranged := ((added.map Prod.fst).append_left
            ((eventsOf j rest).map StoredJobEvent.sequence)).trans List.perm_middle
          exact rearranged.nodup_iff.mpr distinct
        have later := ih (store.appendJobEvent j event).2 numbers
        rw [events, List.map_cons, List.cons_append]
        exact later.trans ((added.append_left _).trans List.perm_middle)
      · have events : eventsOf jobId ((j, event) :: rest) = eventsOf jobId rest := by
          simp [eventsOf, same]
        have kept := store.jobRows_append_other event (Ne.symm same)
        rw [events] at distinct ⊢
        have later := ih (store.appendJobEvent j event).2 (by rw [kept]; exact distinct)
        rw [kept] at later
        exact later

def rowKey (row : Nat × JobEventRow d) : d.Time ×ₗ Nat := toLex (row.2.occurredAt, row.1)

theorem newerRow_iff {a b : Nat × JobEventRow d} : newerRow a b ↔ rowKey b ≤ rowKey a := by
  unfold newerRow rowKey
  rw [Prod.Lex.toLex_le_toLex]

instance : Std.Total (@newerRow d) where
  total a b := by
    rw [newerRow_iff, newerRow_iff]
    exact le_total _ _

instance : IsTrans _ (@newerRow d) where
  trans a b c first second := by
    rw [newerRow_iff] at first second ⊢
    exact le_trans second first

end SqlBackend

/-! ## Order -/

theorem encode_lt_iff {a b : DateTime} (yearA : FourDigitYear a) (yearB : FourDigitYear b) :
    sqlite.encode a < sqlite.encode b ↔ a < b := by
  constructor
  · intro textLess
    rcases lt_trichotomy a b with less | same | more
    · exact less
    · subst same
      exact absurd textLess (lt_irrefl _)
    · exact absurd textLess (lt_asymm (toRfc3339_lt more yearB yearA))
  · intro less
    exact toRfc3339_lt less yearA yearB

theorem encode_eq_iff {a b : DateTime} (yearA : FourDigitYear a) (yearB : FourDigitYear b) :
    sqlite.encode a = sqlite.encode b ↔ a = b :=
  ⟨toRfc3339_injective yearA yearB, congrArg _⟩

section order

variable {a b : StoredJobEvent}

theorem key_lt_iff : a.key < b.key ↔
    a.occurredAt < b.occurredAt ∨ a.occurredAt = b.occurredAt ∧ a.sequence < b.sequence :=
  Prod.Lex.toLex_lt_toLex

theorem key_le_iff : a.key ≤ b.key ↔
    a.occurredAt < b.occurredAt ∨ a.occurredAt = b.occurredAt ∧ a.sequence ≤ b.sequence :=
  Prod.Lex.toLex_le_toLex

/-- The text of a cursor cuts where its instant does. -/
theorem rowBefore_iff (yearA : FourDigitYear a.occurredAt) (yearB : FourDigitYear b.occurredAt)
    (small : b.sequence < 2 ^ 63) :
    SqlBackend.rowBefore (d := sqlite) b.cursor (SqlBackend.rowOf a) = decide (a.key < b.key) := by
  simp only [SqlBackend.rowBefore, SqlBackend.rowOf, StoredJobEvent.cursor, asI64_small small,
    encode_lt_iff yearA yearB, encode_eq_iff yearA yearB, Int.ofNat_lt]
  rw [decide_eq_decide, key_lt_iff]

theorem newerRow_rowOf (yearA : FourDigitYear a.occurredAt) (yearB : FourDigitYear b.occurredAt) :
    SqlBackend.newerRow (d := sqlite) (SqlBackend.rowOf a) (SqlBackend.rowOf b) ↔ b.key ≤ a.key := by
  simp only [SqlBackend.newerRow, SqlBackend.rowOf, encode_lt_iff yearB yearA,
    encode_eq_iff yearB yearA, key_le_iff]

end order

/-! ## One query -/

def newestFirst (events : List StoredJobEvent) : List StoredJobEvent :=
  events.insertionSort fun a b => b.key ≤ a.key

/-- The job has a row for each of these events. -/
structure Stores (store : SqliteBackend) (jobId : Uuid) (events : List StoredJobEvent) : Prop where
  rows : (store.jobRows jobId).Perm (events.map SqlBackend.rowOf)
  distinct : (events.map StoredJobEvent.sequence).Nodup
  small : ∀ event ∈ events, event.sequence < 2 ^ 63
  years : ∀ event ∈ events, FourDigitYear event.occurredAt

namespace Stores

variable {store : SqliteBackend} {jobId : Uuid} {events : List StoredJobEvent}

theorem mem_newestFirst {event : StoredJobEvent} : event ∈ newestFirst events ↔ event ∈ events :=
  List.mem_insertionSort _

theorem same_of_key (stores : Stores store jobId events) {a b : StoredJobEvent} (first : a ∈ events)
    (second : b ∈ events) (same : a.key = b.key) : a = b := by
  have sequence : a.sequence = b.sequence := congrArg (fun key => (ofLex key).2) same
  exact List.inj_on_of_nodup_map stores.distinct first second sequence

theorem descending (stores : Stores store jobId events) :
    (newestFirst events).Pairwise fun a b => b.key < a.key := by
  have total : Std.Total fun a b : StoredJobEvent => b.key ≤ a.key := ⟨fun _ _ => le_total _ _⟩
  have transitive : IsTrans StoredJobEvent fun a b => b.key ≤ a.key :=
    ⟨fun _ _ _ first second => le_trans second first⟩
  have sorted := events.pairwise_insertionSort fun a b => b.key ≤ a.key
  have distinct : (newestFirst events).Nodup :=
    (List.perm_insertionSort _ events).nodup_iff.mpr (List.Nodup.of_map _ stores.distinct)
  refine (sorted.and distinct).imp_of_mem ?_
  rintro a b first second ⟨lower, different⟩
  refine lt_of_le_of_ne lower fun same => different ?_
  exact (stores.same_of_key (mem_newestFirst.mp second) (mem_newestFirst.mp first) same).symm

theorem rowsBefore (stores : Stores store jobId events) {cursor : Option EventCursor}
    (ofEvent : ∀ c ∈ cursor, ∃ event ∈ events, event.cursor = c) :
    (store.rowsBefore jobId cursor).Perm
      (((newestFirst events).filter fun a =>
        decide (∀ c ∈ cursor.map EventCursor.key, a.key < c)).map SqlBackend.rowOf) := by
  have all : (store.jobRows jobId).Perm ((newestFirst events).map SqlBackend.rowOf) :=
    stores.rows.trans ((List.perm_insertionSort _ events).symm.map _)
  cases cursor with
  | none =>
      have kept : ((newestFirst events).filter fun a =>
          decide (∀ c ∈ (none : Option EventCursor).map EventCursor.key, a.key < c)) =
          newestFirst events := List.filter_eq_self.mpr fun a _ => by simp
      rw [kept]
      exact all
  | some c =>
      obtain ⟨event, member, rfl⟩ := ofEvent c rfl
      have selected := all.filter (SqlBackend.rowBefore event.cursor)
      rw [List.filter_map] at selected
      refine selected.trans (List.Perm.of_eq (congrArg _ (List.filter_congr fun a inside => ?_)))
      rw [Function.comp_apply, rowBefore_iff (stores.years a (mem_newestFirst.mp inside))
        (stores.years event member) (stores.small event member), decide_eq_decide]
      simp [EventCursor.key, StoredJobEvent.cursor, StoredJobEvent.key]

theorem queryJobEvents_eq (stores : Stores store jobId events) {cursor : Option EventCursor}
    (ofEvent : ∀ c ∈ cursor, ∃ event ∈ events, event.cursor = c) {limit : Nat}
    (atLeastOne : 1 ≤ limit) (inRange : limit < 2 ^ 63) (now : DateTime) :
    store.queryJobEvents jobId limit cursor none now =
      .ok (page StoredJobEvent.key limit (cursor.map EventCursor.key) (newestFirst events)) := by
  let below := (newestFirst events).filter fun a =>
    decide (∀ c ∈ cursor.map EventCursor.key, a.key < c)
  have inEvents : ∀ a ∈ below, a ∈ events := fun a member =>
    mem_newestFirst.mp (List.mem_of_mem_filter member)
  have sorted : (below.map SqlBackend.rowOf).Pairwise (SqlBackend.newerRow (d := sqlite)) := by
    rw [List.pairwise_map]
    refine (stores.descending.filter _).imp_of_mem fun first second lower => ?_
    exact (newerRow_rowOf (stores.years _ (inEvents _ first))
      (stores.years _ (inEvents _ second))).mpr (le_of_lt lower)
  have antisymm : ∀ a ∈ below.map SqlBackend.rowOf, ∀ b ∈ below.map SqlBackend.rowOf,
      SqlBackend.newerRow (d := sqlite) a b → SqlBackend.newerRow b a → a = b := by
    intro _ first _ second newer older
    obtain ⟨a, inA, rfl⟩ := List.mem_map.mp first
    obtain ⟨b, inB, rfl⟩ := List.mem_map.mp second
    have yearA := stores.years a (inEvents a inA)
    have yearB := stores.years b (inEvents b inB)
    have same : a.key = b.key :=
      le_antisymm ((newerRow_rowOf yearB yearA).mp older) ((newerRow_rowOf yearA yearB).mp newer)
    rw [stores.same_of_key (inEvents a inA) (inEvents b inB) same]
  have rows : (store.rowsBefore jobId cursor).insertionSort SqlBackend.newerRow =
      below.map SqlBackend.rowOf :=
    insertionSort_of_perm (stores.rowsBefore ofEvent) sorted antisymm
  have count : maxItems limit = limit := if_neg (by omega)
  have read : ∀ event ∈ below.take limit,
      (⟨(SqlBackend.rowOf (d := sqlite) event).1,
        sqlite.decode (SqlBackend.rowOf (d := sqlite) event).2.occurredAt now,
        (SqlBackend.rowOf (d := sqlite) event).2.kindJson⟩ : StoredJobEvent) = event := by
    intro event member
    have year := stores.years event (inEvents event (List.mem_of_mem_take member))
    simp only [SqlBackend.rowOf, sqlite, parseFromRfc3339_toRfc3339 year, Option.getD_some]
  have whole := List.map_congr_left (g := id) read
  rw [List.map_id] at whole
  unfold SqlBackend.queryJobEvents SqlBackend.newestRows
  rw [count, if_neg (by omega), rows, ← List.map_take, List.map_map]
  exact congrArg Except.ok whole

end Stores

/-! ## Query after query -/

/-- The pages that were returned so far, and the cursor of the next query: none at first,
    then that of the last event returned, until there is no event. -/
inductive QueryWalk (store : SqliteBackend) (jobId : Uuid) (limit : Nat) :
    List (List StoredJobEvent) → Option (Option EventCursor) → Prop where
  | start : QueryWalk store jobId limit [] (some none)
  | next {pages cursor page} (now : DateTime) (walk : QueryWalk store jobId limit pages (some cursor))
      (answered : store.queryJobEvents jobId limit cursor none now = .ok page) :
      QueryWalk store jobId limit (pages ++ [page])
        (page.getLast?.map fun last => some last.cursor)

section walks

variable {store : SqliteBackend} {jobId : Uuid} {events : List StoredJobEvent} {limit : Nat}

def AtEvent (events : List StoredJobEvent) (request : Option (Option EventCursor)) : Prop :=
  ∀ cursor, request = some cursor → ∀ c ∈ cursor, ∃ event ∈ events, event.cursor = c

theorem following_last (page : List StoredJobEvent) :
    (page.getLast?.map fun last => some last.cursor).map (Option.map EventCursor.key) =
      (following StoredJobEvent.key 1 page).map some := by
  unfold following
  cases isLast : page.getLast? with
  | none =>
      rw [List.getLast?_eq_none_iff.mp isLast]
      rfl
  | some last =>
      have nonempty : 1 ≤ page.length := List.length_pos_of_mem (List.mem_of_getLast? isLast)
      rw [if_pos nonempty]
      rfl

theorem atEvent_last {page : List StoredJobEvent} (inEvents : ∀ event ∈ page, event ∈ events) :
    AtEvent events (page.getLast?.map fun last => some last.cursor) := by
  rintro _ goesOn c ⟨⟩
  obtain ⟨last, isLast, same⟩ := Option.map_eq_some_iff.mp goesOn
  exact ⟨last, inEvents last (List.mem_of_getLast? isLast), Option.some.inj same⟩

theorem page_subset {cursor : Option (DateTime ×ₗ Nat)} (event : StoredJobEvent)
    (member : event ∈ page StoredJobEvent.key limit cursor (newestFirst events)) : event ∈ events :=
  Stores.mem_newestFirst.mp (mem_page member).1

theorem QueryWalk.paging (stores : Stores store jobId events) (atLeastOne : 1 ≤ limit)
    (inRange : limit < 2 ^ 63) {pages : List (List StoredJobEvent)}
    {request : Option (Option EventCursor)} (walk : QueryWalk store jobId limit pages request) :
    AtEvent events request ∧ Walk StoredJobEvent.key limit 1 (fun _ => newestFirst events) pages
      (request.map (Option.map EventCursor.key)) := by
  induction walk with
  | start =>
      refine ⟨?_, .start⟩
      rintro _ ⟨⟩ c none
      cases none
  | next now _ answered ih =>
      obtain ⟨atEvent, walk⟩ := ih
      rw [stores.queryJobEvents_eq (atEvent _ rfl) atLeastOne inRange] at answered
      obtain rfl := Except.ok.inj answered
      refine ⟨atEvent_last page_subset, ?_⟩
      rw [following_last]
      exact walk.next

theorem exists_queryWalk (stores : Stores store jobId events) (atLeastOne : 1 ≤ limit)
    (inRange : limit < 2 ^ 63) {pages : List (List StoredJobEvent)}
    {request : Option (Option (DateTime ×ₗ Nat))}
    (walk : Walk StoredJobEvent.key limit 1 (fun _ => newestFirst events) pages request) :
    ∃ request', request'.map (Option.map EventCursor.key) = request ∧ AtEvent events request' ∧
      QueryWalk store jobId limit pages request' := by
  induction walk with
  | start =>
      refine ⟨some none, rfl, ?_, .start⟩
      rintro _ ⟨⟩ c none
      cases none
  | next _ ih =>
      obtain ⟨request', same, atEvent, walk⟩ := ih
      obtain ⟨cursor, rfl, rfl⟩ := Option.map_eq_some_iff.mp same
      have answered := stores.queryJobEvents_eq (atEvent _ rfl) atLeastOne inRange 0
      exact ⟨_, following_last _, atEvent_last page_subset, walk.next 0 answered⟩

end walks

/-- Whatever was appended for a job under different numbers, at instants of four-digit
    years: queries from row to row, with any limit from one on, never fail, return events
    newest first, and end after every event was returned once. -/
theorem sqlite_paging_exact (appends : List (Uuid × StoredJobEvent)) (jobId : Uuid) (limit : Nat)
    (distinct : ((eventsOf jobId appends).map StoredJobEvent.sequence).Nodup)
    (small : ∀ event ∈ eventsOf jobId appends, event.sequence < 2 ^ 63)
    (years : ∀ event ∈ eventsOf jobId appends, FourDigitYear event.occurredAt)
    (atLeastOne : 1 ≤ limit) (inRange : limit < 2 ^ 63) :
    let store := SqliteBackend.blank.appendJobEvents appends
    (∃ pages, QueryWalk store jobId limit pages none) ∧
      ∀ pages request, QueryWalk store jobId limit pages request →
        pages.length ≤ (eventsOf jobId appends).length + 1 ∧
        (∀ cursor now, request = some cursor →
          ∃ page, store.queryJobEvents jobId limit cursor none now = .ok page) ∧
        pages.flatten.Pairwise (fun a b => b.key < a.key) ∧
        (request = none → pages.flatten.Perm (eventsOf jobId appends)) := by
  intro store
  have noRows : SqliteBackend.blank.jobRows jobId = [] := rfl
  have rows := SqlBackend.jobRows_appendJobEvents SqliteBackend.blank jobId appends
    (by rw [noRows, List.map_nil, List.append_nil]; exact distinct)
  rw [noRows, List.append_nil] at rows
  have stores : Stores store jobId (eventsOf jobId appends) := ⟨rows, distinct, small, years⟩
  have growing := growing_const StoredJobEvent.key stores.descending
  constructor
  · obtain ⟨pages, walk⟩ := exists_ended growing (le_refl 1) atLeastOne
    obtain ⟨request, ended, _, queries⟩ := exists_queryWalk stores atLeastOne inRange walk
    obtain rfl := Option.map_eq_none_iff.mp ended
    exact ⟨pages, queries⟩
  · intro pages request queries
    obtain ⟨atEvent, walk⟩ := queries.paging stores atLeastOne inRange
    refine ⟨?_, ?_, (walk.sound growing (le_refl 1) atLeastOne).descending, ?_⟩
    · have bounded := walk.length_le growing (le_refl 1) atLeastOne
      rw [newestFirst, List.length_insertionSort] at bounded
      exact bounded
    · intro cursor now goesOn
      exact ⟨_, stores.queryJobEvents_eq (atEvent cursor goesOn) atLeastOne inRange now⟩
    · rintro rfl
      rw [Walk.flatten_eq stores.descending (le_refl 1) atLeastOne walk]
      exact List.perm_insertionSort _ _

/-- Two events of a whole second and one half a second later, with one of another job in
    between. -/
def mixedPrecisions : List (Uuid × StoredJobEvent) :=
  [(1, ⟨7, 0, .text "JobRegistered"⟩), (1, ⟨2, seconds 1 / 2, .text "JobCancelled"⟩),
    (2, ⟨7, 0, .text "JobRegistered"⟩), (1, ⟨3, 0, .text "JobRegistered"⟩)]

/-- Two to a page, each event of the job is returned once. -/
theorem mixed_precisions_paged :
    ∃ pages, QueryWalk (SqliteBackend.blank.appendJobEvents mixedPrecisions) 1 2 pages none ∧
      pages.flatten.Perm (eventsOf 1 mixedPrecisions) := by
  obtain ⟨⟨pages, walk⟩, all⟩ := sqlite_paging_exact mixedPrecisions 1 2 (by decide) (by decide)
    (by unfold FourDigitYear; decide +kernel) (by decide) (by decide)
  exact ⟨pages, walk, (all pages none walk).2.2.2 rfl⟩

end Spatiad
