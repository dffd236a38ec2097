import Spatiad.EventQueries
import Spatiad.ServiceRuns

/-! # In-memory and persistent queries

Along a history whose clock readings do not decrease, number order, time order and
the order of the stored times are one.  Both ways of answering therefore turn over
the same list, and differ by the filter on kinds alone.
-/

namespace Spatiad

open Foundation Foundation.Pages

/-- Both answers list the same numbers and kinds, and each kind was requested. -/
structure Agrees (kinds : Option (List JobEventFilterKind))
    (persistent memory : List JobEventRecord) : Prop where
  same : persistent.map (fun event => (event.sequence, event.kind)) =
    memory.map fun event => (event.sequence, event.kind)
  requested : ∀ event ∈ persistent, event.isRequested kinds = true

/-- The page of a history that starts at the cursor, whatever the kinds. -/
def pageBefore (history : List JobEventRecord) (limit : Nat) (cursor : Option JobEventsCursor) :
    List JobEventRecord :=
  (history.reverse.filter (JobEventRecord.beforeCursor cursor)).take (maxItems limit)

/-- The cursor is that of an event of the history, if there is one. -/
def CursorOf (history : List JobEventRecord) (cursor : Option JobEventsCursor) : Prop :=
  ∀ c ∈ cursor, ∃ event ∈ history, c = ⟨event.occurredAt, event.sequence⟩

/-- A history numbered upwards, whose times and stored times do not decrease. -/
structure Chronicle (d : Dialect) (history : List JobEventRecord) : Prop where
  numbered : history.Pairwise fun a b => a.sequence < b.sequence
  nondecreasing : history.Pairwise fun a b => a.occurredAt ≤ b.occurredAt
  stored : history.Pairwise fun a b => d.encode a.occurredAt ≤ d.encode b.occurredAt
  small : ∀ event ∈ history, event.sequence < 2 ^ 63

/-! ## Order -/

/-- Where times do not decrease, to be earlier or as early with a lower number is to
    have the lower number. -/
theorem earlier_iff {τ : Type} [LinearOrder τ] {history : List JobEventRecord}
    (time : JobEventRecord → τ)
    (numbered : history.Pairwise fun a b => a.sequence < b.sequence)
    (nondecreasing : history.Pairwise fun a b => time a ≤ time b) {a b : JobEventRecord}
    (first : a ∈ history) (second : b ∈ history) :
    time a < time b ∨ time a = time b ∧ a.sequence < b.sequence ↔ a.sequence < b.sequence := by
  let ordered (a b : JobEventRecord) : Prop :=
    (a.sequence ≤ b.sequence → time a ≤ time b) ∧ (b.sequence ≤ a.sequence → time b ≤ time a)
  have pairs : history.Pairwise ordered := by
    refine List.Pairwise.imp ?_ (numbered.and nondecreasing)
    rintro a b ⟨lower, earlier⟩
    exact ⟨fun _ => earlier, fun higher => absurd lower (Nat.not_lt.mpr higher)⟩
  have symmetric : Std.Symm ordered := ⟨fun _ _ both => ⟨both.2, both.1⟩⟩
  have both : ordered a b :=
    pairs.forall_of_forall (fun _ _ => ⟨fun _ => le_refl _, fun _ => le_refl _⟩) first second
  constructor
  · rintro (earlier | ⟨_, lower⟩)
    · by_contra notLower
      exact absurd earlier (not_lt.mpr (both.2 (Nat.not_lt.mp notLower)))
    · exact lower
  · intro lower
    rcases lt_or_eq_of_le (both.1 (Nat.le_of_lt lower)) with earlier | same
    · exact .inl earlier
    · exact .inr ⟨same, lower⟩

section chronicle

variable {d : Dialect} {history : List JobEventRecord} {cursor : Option JobEventsCursor}

theorem rowBefore_row (chronicle : Chronicle d history) {c event : JobEventRecord}
    (ofHistory : c ∈ history) (member : event ∈ history) :
    SqlBackend.rowBefore ⟨c.occurredAt, c.sequence⟩ (event.row d) =
      event.beforeCursor (some ⟨c.occurredAt, c.sequence⟩) := by
  have stored := earlier_iff (fun event => d.encode event.occurredAt) chronicle.numbered
    chronicle.stored member ofHistory
  have memory := earlier_iff JobEventRecord.occurredAt chronicle.numbered
    chronicle.nondecreasing member ofHistory
  rw [Bool.eq_iff_iff]
  simp only [SqlBackend.rowBefore, JobEventRecord.row, JobEventRecord.beforeCursor, Bool.or_eq_true,
    Bool.and_eq_true, beq_iff_eq, asI64_small (chronicle.small c ofHistory), Int.ofNat_lt,
    decide_eq_true_eq]
  exact stored.trans memory.symm

theorem newestRows_history (chronicle : Chronicle d history) (ofHistory : CursorOf history cursor)
    {store : SqlBackend d} {jobId : Uuid}
    (stored : store.jobRows jobId = history.map (JobEventRecord.row d)) (n : Nat) :
    store.newestRows jobId (cursor.map fun c => ⟨c.occurredAt, c.sequence⟩) n =
      ((history.reverse.filter (JobEventRecord.beforeCursor cursor)).take n).map
        (JobEventRecord.row d) := by
  have selected : store.rowsBefore jobId (cursor.map fun c => ⟨c.occurredAt, c.sequence⟩) =
      (history.filter (JobEventRecord.beforeCursor cursor)).map (JobEventRecord.row d) := by
    cases cursor with
    | none =>
        have all : history.filter (JobEventRecord.beforeCursor none) = history :=
          List.filter_eq_self.mpr fun _ _ => rfl
        rw [all]
        exact stored
    | some c =>
        obtain ⟨event, inHistory, rfl⟩ := ofHistory c rfl
        simp only [Option.map_some, SqlBackend.rowsBefore]
        rw [stored, List.filter_map]
        refine congrArg (List.map _) (List.filter_congr fun other member => ?_)
        exact rowBefore_row chronicle inHistory member
  have turned : ((history.filter (JobEventRecord.beforeCursor cursor)).map
      (JobEventRecord.row d)).Pairwise fun a b => ¬ SqlBackend.newerRow a b := by
    rw [List.pairwise_map]
    refine List.Pairwise.imp ?_ ((chronicle.numbered.and chronicle.stored).filter _)
    rintro a b ⟨lower, earlier⟩ (newer | ⟨_, higher⟩)
    · exact absurd newer (not_lt.mpr earlier)
    · exact absurd lower (Nat.not_lt.mpr higher)
  unfold SqlBackend.newestRows
  rw [selected, insertionSort_reverse turned, ← List.map_reverse, ← List.filter_reverse,
    List.map_take]

theorem persistent_answer (chronicle : Chronicle d history) (ofHistory : CursorOf history cursor)
    {e : Engine (SqlBackend d)} {jobId : Uuid}
    (stored : e.storage.jobRows jobId = history.map (JobEventRecord.row d)) {limit : Nat}
    (small : limit < 2 ^ 63) (host : Host) (kinds : Option (List JobEventFilterKind)) :
    e.jobEventsCursorFiltered host jobId limit cursor kinds =
      (pageBefore history limit cursor).map fun event =>
        { event with occurredAt := d.decode (d.encode event.occurredAt) (host.clock e.tick) } := by
  have persistent : StorageBackend.isPersistent e.storage = true := rfl
  have inRange : ¬ 2 ^ 63 ≤ maxItems limit := by
    unfold maxItems
    split <;> omega
  have read : ∀ event : JobEventRecord,
      ((JobEventKind.fromJson (event.row d).2.kindJson).map fun kind =>
        (⟨(event.row d).1, d.decode (event.row d).2.occurredAt (host.clock e.tick), kind⟩ :
          JobEventRecord)) =
        some { event with occurredAt := d.decode (d.encode event.occurredAt) (host.clock e.tick) } := by
    intro event
    simp only [JobEventRecord.row, JobEventKind.fromJson_toJson, Option.map_some]
  simp only [Engine.jobEventsCursorFiltered, persistent, if_true, Engine.queryPersistentEvents,
    StorageBackend.queryJobEvents, SqlBackend.queryJobEvents, if_neg inRange,
    newestRows_history chronicle ofHistory stored]
  rw [List.map_map, List.filterMap_map, ← List.filterMap_eq_map]
  exact List.filterMap_congr fun event _ => read event

theorem memory_answer {e : Engine InMemoryBackend} {jobId : Uuid}
    (retained : (e.jobEvents.lookup jobId).getD [] = history) (host : Host) (limit : Nat)
    (kinds : Option (List JobEventFilterKind)) :
    e.jobEventsCursorFiltered host jobId limit cursor kinds =
      ((history.reverse.filter (JobEventRecord.beforeCursor cursor)).filter
        (JobEventRecord.isRequested kinds)).take (maxItems limit) := by
  have volatile : StorageBackend.isPersistent e.storage = false := rfl
  simp only [Engine.jobEventsCursorFiltered, volatile, Bool.false_eq_true, if_false]
  subst retained
  cases e.jobEvents.lookup jobId with
  | none => simp
  | some events => rfl

theorem agrees_iff (chronicle : Chronicle d history) (ofHistory : CursorOf history cursor)
    {e : Engine (SqlBackend d)} {jobId : Uuid}
    (stored : e.storage.jobRows jobId = history.map (JobEventRecord.row d))
    {m : Engine InMemoryBackend} (retained : (m.jobEvents.lookup jobId).getD [] = history)
    {limit : Nat} (small : limit < 2 ^ 63) (host : Host)
    (kinds : Option (List JobEventFilterKind)) :
    Agrees kinds (e.jobEventsCursorFiltered host jobId limit cursor kinds)
        (m.jobEventsCursorFiltered host jobId limit cursor kinds) ↔
      ∀ event ∈ pageBefore history limit cursor, event.isRequested kinds = true := by
  rw [persistent_answer chronicle ofHistory stored small, memory_answer retained]
  constructor
  · intro agrees event member
    have requested := agrees.requested _ (List.mem_map.mpr ⟨event, member, rfl⟩)
    exact requested
  · intro all
    have same := (take_filter_eq_iff (JobEventRecord.isRequested kinds) (maxItems limit)
      (history.reverse.filter (JobEventRecord.beforeCursor cursor))).mpr all
    refine ⟨?_, ?_⟩
    · rw [same, List.map_map]
      rfl
    · intro event member
      obtain ⟨original, inPage, rfl⟩ := List.mem_map.mp member
      exact all original inPage

end chronicle

/-! ## The two databases -/

/-- The answer of an engine that started on this storage and pushed these events. -/
def answerAfter {β : Type} [StorageBackend β] (host : Host) (h3Resolution tick : Nat) (storage : β)
    (pushes : List (Uuid × JobEventKind)) (jobId : Uuid) (limit : Nat)
    (cursor : Option JobEventsCursor) (kinds : Option (List JobEventFilterKind)) :
    List JobEventRecord :=
  ((Engine.withStorage h3Resolution storage tick).pushAll host pushes).jobEventsCursorFiltered host
    jobId limit cursor kinds

section databases

variable {host : Host} {tick : Nat} {pushes : List (Uuid × JobEventKind)} {jobId : Uuid}

theorem history_chronicle {d : Dialect}
    (short : (jobHistory host jobId tick 0 pushes).length ≤ maxJobEvents)
    (nondecreasing : (jobHistory host jobId tick 0 pushes).Pairwise fun a b =>
      a.occurredAt ≤ b.occurredAt)
    (stored : (jobHistory host jobId tick 0 pushes).Pairwise fun a b =>
      d.encode a.occurredAt ≤ d.encode b.occurredAt) :
    Chronicle d (jobHistory host jobId tick 0 pushes) := by
  obtain ⟨numbered, range⟩ := jobHistory_sequences host jobId tick 0 pushes
  refine ⟨numbered, nondecreasing, stored, fun event member => ?_⟩
  have bounds := range event member
  unfold maxJobEvents at short
  omega

theorem answers_agree_iff {d : Dialect} {limit : Nat} {cursor : Option JobEventsCursor}
    (chronicle : Chronicle d (jobHistory host jobId tick 0 pushes))
    (short : (jobHistory host jobId tick 0 pushes).length ≤ maxJobEvents)
    (ofHistory : CursorOf (jobHistory host jobId tick 0 pushes) cursor) (small : limit < 2 ^ 63)
    (h3Resolution : Nat) (kinds : Option (List JobEventFilterKind)) :
    Agrees kinds
        (answerAfter host h3Resolution tick (.blank : SqlBackend d) pushes jobId limit cursor kinds)
        (answerAfter host h3Resolution tick InMemoryBackend.mk pushes jobId limit cursor kinds) ↔
      ∀ event ∈ pageBefore (jobHistory host jobId tick 0 pushes) limit cursor,
        event.isRequested kinds = true := by
  have noRows : (Engine.withStorage h3Resolution (.blank : SqlBackend d) tick).storage.jobRows
      jobId = [] := rfl
  have stored := @pushAll_stores host jobId d (Engine.withStorage h3Resolution .blank tick) pushes
    (by simp [noRows])
  have retained := @pushAll_retains host jobId _ _
    (Engine.withStorage h3Resolution InMemoryBackend.mk tick) pushes
    (le_of_eq_of_le (Nat.zero_add _) short)
  exact agrees_iff chronicle ofHistory stored retained small host kinds

theorem encode_sqlite {a b : DateTime} (first : FourDigitYear a) (last : FourDigitYear b)
    (earlier : a ≤ b) : sqlite.encode a ≤ sqlite.encode b := by
  rcases lt_or_eq_of_le earlier with less | rfl
  · exact le_of_lt (toRfc3339_lt less first last)
  · exact le_refl _

theorem encode_postgres {a b : DateTime} (earlier : a ≤ b) :
    postgres.encode a ≤ postgres.encode b :=
  Int.tdiv_le_tdiv (by decide) (Int.sub_le_sub_right earlier postgresEpoch)

end databases

/-- For every history of at most 200 events whose clock readings do not decrease (and,
    for SQLite, have four-digit years), every limit, every cursor of one of its events
    and every choice of kinds, a persistent engine answers as an in-memory one does iff
    each event of the unfiltered page is of a requested kind. -/
theorem event_queries_agree_iff (host : Host) (h3Resolution tick : Nat)
    (pushes : List (Uuid × JobEventKind)) (jobId : Uuid) (limit : Nat)
    (cursor : Option JobEventsCursor) (kinds : Option (List JobEventFilterKind))
    (short : (jobHistory host jobId tick 0 pushes).length ≤ 200)
    (nondecreasing : (jobHistory host jobId tick 0 pushes).Pairwise fun a b =>
      a.occurredAt ≤ b.occurredAt)
    (small : limit < 2 ^ 63) (ofHistory : CursorOf (jobHistory host jobId tick 0 pushes) cursor) :
    let memory := answerAfter host h3Resolution tick InMemoryBackend.mk pushes jobId limit cursor
      kinds
    let allRequested := ∀ event ∈ pageBefore (jobHistory host jobId tick 0 pushes) limit cursor,
      event.isRequested kinds = true
    ((∀ event ∈ jobHistory host jobId tick 0 pushes, FourDigitYear event.occurredAt) →
        (Agrees kinds (answerAfter host h3Resolution tick (.blank : SqliteBackend) pushes jobId
          limit cursor kinds) memory ↔ allRequested)) ∧
      (Agrees kinds (answerAfter host h3Resolution tick (.blank : PostgresBackend) pushes jobId
        limit cursor kinds) memory ↔ allRequested) := by
  refine ⟨fun years => ?_, ?_⟩
  · refine answers_agree_iff (history_chronicle short nondecreasing ?_) short ofHistory small
      h3Resolution kinds
    exact nondecreasing.imp_of_mem fun first second earlier =>
      encode_sqlite (years _ first) (years _ second) earlier
  · refine answers_agree_iff (history_chronicle short nondecreasing ?_) short ofHistory small
      h3Resolution kinds
    exact nondecreasing.imp encode_postgres

def shortHistory : List (Uuid × JobEventKind) :=
  [(1, .jobRegistered), (1, .offerCreated 2 100), (1, .matchConfirmed 2 100)]

/-- Asked for the registration alone, both databases return all three events. -/
theorem unrequested_events_returned :
    let kinds := some [JobEventFilterKind.jobRegistered]
    let memory := answerAfter stillHost 8 0 InMemoryBackend.mk shortHistory 1 0 none kinds
    ¬ Agrees kinds (answerAfter stillHost 8 0 (.blank : SqliteBackend) shortHistory 1 0 none kinds)
        memory ∧
      ¬ Agrees kinds
        (answerAfter stillHost 8 0 (.blank : PostgresBackend) shortHistory 1 0 none kinds) memory := by
  refine ⟨fun agrees => ?_, fun agrees => ?_⟩
  · have same := agrees.same
    revert same
    decide +kernel
  · have same := agrees.same
    revert same
    decide +kernel

/-- The page before the match is the same everywhere, unfiltered and also when exactly
    the kinds on it are requested. -/
theorem unfiltered_page_agrees :
    let cursor := some ⟨0, 3⟩
    ∀ kinds ∈ [none, some [JobEventFilterKind.offerCreated, .jobRegistered]],
      let memory := answerAfter stillHost 8 0 InMemoryBackend.mk shortHistory 1 5 cursor kinds
      Agrees kinds (answerAfter stillHost 8 0 (.blank : SqliteBackend) shortHistory 1 5 cursor kinds)
          memory ∧
        Agrees kinds
          (answerAfter stillHost 8 0 (.blank : PostgresBackend) shortHistory 1 5 cursor kinds)
          memory := by
  intro cursor kinds listed
  have requested : ∀ event ∈ pageBefore (jobHistory stillHost 1 0 0 shortHistory) 5 cursor,
      event.isRequested kinds = true := by
    rw [List.mem_pair] at listed
    rcases listed with rfl | rfl
    · exact fun _ _ => rfl
    · decide +kernel
  have agreement := event_queries_agree_iff stillHost 8 0 shortHistory 1 5 cursor kinds
    (by decide +kernel) (by decide +kernel) (by decide) (fun c same => by
      obtain rfl := Option.some.inj same
      exact ⟨⟨3, 0, .matchConfirmed 2 100⟩, by decide +kernel, rfl⟩)
  refine ⟨(agreement.1 ?_).mpr requested, agreement.2.mpr requested⟩
  unfold FourDigitYear
  decide +kernel

end Spatiad
