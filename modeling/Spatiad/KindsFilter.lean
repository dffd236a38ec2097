import Spatiad.EventPages

/-! # The kinds filter

The `kinds` of a query are names, the engine filters by its own kinds, and a response shows
a label for each event.  The three tables agree, so a client may read the filter as one on
the labels it is shown.
-/

namespace Spatiad

open Foundation Foundation.Paging

/-! ## The tables -/

def supportedKinds : List String :=
  ["job_registered", "job_cancelled", "webhook_delivery_failed", "offer_created", "offer_expired",
    "offer_cancelled", "offer_rejected", "offer_accepted", "match_confirmed", "offer_status_updated"]

def JobEventFilterKind.label : JobEventFilterKind → String
  | jobRegistered => "job_registered"
  | jobCancelled => "job_cancelled"
  | webhookDeliveryFailed => "webhook_delivery_failed"
  | offerCreated => "offer_created"
  | offerExpired => "offer_expired"
  | offerCancelled => "offer_cancelled"
  | offerRejected => "offer_rejected"
  | offerAccepted => "offer_accepted"
  | matchConfirmed => "match_confirmed"
  | offerStatusUpdated => "offer_status_updated"

theorem label_eventFilterKind (event : JobEventRecord) :
    (eventFilterKind event.kind).label = (mapJobEvent event).kind := by
  obtain ⟨sequence, occurredAt, kind⟩ := event
  cases kind <;> rfl

theorem ofToken_label (kind : JobEventFilterKind) :
    JobEventFilterKind.ofToken kind.label = some kind := by
  cases kind <;> rfl

theorem ofToken_supported {token : String} (supported : token ∈ supportedKinds) :
    ∃ kind, JobEventFilterKind.ofToken token = some kind ∧ kind.label = token := by
  have all : ∀ token ∈ supportedKinds, ∃ kind, JobEventFilterKind.ofToken token = some kind ∧
      kind.label = token := by
    simp only [supportedKinds, List.forall_mem_cons, List.not_mem_nil, false_imp_iff, implies_true,
      and_true]
    exact ⟨⟨_, rfl, rfl⟩, ⟨_, rfl, rfl⟩, ⟨_, rfl, rfl⟩, ⟨_, rfl, rfl⟩, ⟨_, rfl, rfl⟩,
      ⟨_, rfl, rfl⟩, ⟨_, rfl, rfl⟩, ⟨_, rfl, rfl⟩, ⟨_, rfl, rfl⟩, ⟨_, rfl, rfl⟩⟩
  exact all token supported

theorem ofToken_unsupported {token : String} (unsupported : token ∉ supportedKinds) :
    JobEventFilterKind.ofToken token = none := by
  unfold JobEventFilterKind.ofToken
  split
  case h_11 => rfl
  all_goals exact absurd (by decide) unsupported

theorem ofToken_eq_some_iff {token : String} {kind : JobEventFilterKind} :
    JobEventFilterKind.ofToken token = some kind ↔ token = kind.label := by
  constructor
  · intro named
    by_cases supported : token ∈ supportedKinds
    · obtain ⟨kind', named', same⟩ := ofToken_supported supported
      obtain rfl := Option.some.inj (named.symm.trans named')
      exact same.symm
    · cases (ofToken_unsupported supported).symm.trans named
  · rintro rfl
    exact ofToken_label kind

theorem label_inj {a b : JobEventFilterKind} : a.label = b.label ↔ a = b := by
  rw [← ofToken_eq_some_iff, ofToken_label, Option.some_inj]

/-! ## The tokens of a query -/

/-- The parts of a query, trimmed, but for those that are blank. -/
def tokensOf (parts : List (List Char)) : List String :=
  (parts.map fun part => String.ofList (trimText part)).filter fun token => !token.isEmpty

def kindTokens (raw : String) : List String := tokensOf (raw.toList.splitOn ',')

/-- The loop fails at an unsupported token, or collects the kind of each. -/
theorem parseKindTokens_cases (parts : List (List Char)) (parsed : List JobEventFilterKind) :
    ((∀ token ∈ tokensOf parts, token ∈ supportedKinds) ∧
      ∃ kinds, parseKindTokens parts parsed = .ok kinds ∧
        ∀ kind, kind ∈ kinds ↔ kind ∈ parsed ∨ kind.label ∈ tokensOf parts) ∨
    (∃ token ∈ tokensOf parts, token ∉ supportedKinds) ∧
      ∃ message, parseKindTokens parts parsed = .error message := by
  induction parts generalizing parsed with
  | nil => exact .inl ⟨by simp [tokensOf], parsed, rfl, by simp [tokensOf]⟩
  | cons part rest ih =>
      simp only [parseKindTokens]
      by_cases blank : (String.ofList (trimText part)).isEmpty
      · have tokens : tokensOf (part :: rest) = tokensOf rest := by
          simp [tokensOf, blank]
        rw [if_pos blank, tokens]
        exact ih parsed
      · have tokens : tokensOf (part :: rest) = String.ofList (trimText part) :: tokensOf rest := by
          simp [tokensOf, blank]
        rw [if_neg blank, tokens]
        generalize String.ofList (trimText part) = token
        by_cases supported : token ∈ supportedKinds
        · obtain ⟨kind, named, rfl⟩ := ofToken_supported supported
          simp only [named]
          rcases ih (if parsed.contains kind then parsed else parsed ++ [kind]) with
            ⟨all, kinds, ok, members⟩ | ⟨⟨token, member, unsupported⟩, refused⟩
          · refine .inl ⟨List.forall_mem_cons.mpr ⟨supported, all⟩, kinds, ok, fun other => ?_⟩
            have kept : other ∈ (if parsed.contains kind then parsed else parsed ++ [kind]) ↔
                other ∈ parsed ∨ other = kind := by
              split
              · rename_i seen
                have seen := List.contains_iff_mem.mp seen
                exact ⟨.inl, fun either => either.elim id fun same => same ▸ seen⟩
              · rw [List.mem_append, List.mem_singleton]
            rw [members, kept, List.mem_cons, or_assoc, label_inj]
          · exact .inr ⟨⟨token, List.mem_cons_of_mem _ member, unsupported⟩, refused⟩
        · simp only [ofToken_unsupported supported]
          exact .inr ⟨⟨token, List.mem_cons_self, supported⟩, _, rfl⟩

/-- A string is refused for a token that is not supported; otherwise its kinds are those of
    its tokens, and none at all if it has no token. -/
theorem parseJobEventKinds_cases (raw : String) :
    ((∀ token ∈ kindTokens raw, token ∈ supportedKinds) ∧
      ∃ kinds, parseJobEventKinds (some raw) = .ok kinds ∧ ∀ event : JobEventRecord,
        event.isRequested kinds = true ↔
          kindTokens raw = [] ∨ (mapJobEvent event).kind ∈ kindTokens raw) ∨
    (∃ token ∈ kindTokens raw, token ∉ supportedKinds) ∧
      ∃ message, parseJobEventKinds (some raw) = .error message := by
  rcases parseKindTokens_cases (raw.toList.splitOn ',') [] with
    ⟨all, kinds, ok, members⟩ | ⟨unsupported, message, refused⟩
  · have named : ∀ kind, kind ∈ kinds ↔ kind.label ∈ kindTokens raw := by
      intro kind
      rw [members]
      exact or_iff_right (List.not_mem_nil)
    have noKinds : kinds = [] ↔ kindTokens raw = [] := by
      constructor
      · rintro rfl
        refine List.eq_nil_iff_forall_not_mem.mpr fun token member => ?_
        obtain ⟨kind, _, rfl⟩ := ofToken_supported (all token member)
        exact List.not_mem_nil ((named kind).mpr member)
      · intro empty
        refine List.eq_nil_iff_forall_not_mem.mpr fun kind member => ?_
        rw [named, empty] at member
        exact List.not_mem_nil member
    refine .inl ⟨all, if kinds.isEmpty then none else some kinds, ?_, fun event => ?_⟩
    · simp only [parseJobEventKinds, ok]
      rfl
    · rw [← noKinds, ← label_eventFilterKind, ← named]
      cases kinds with
      | nil => simp [JobEventRecord.isRequested]
      | cons kind rest => simp [JobEventRecord.isRequested]
  · refine .inr ⟨unsupported, message, ?_⟩
    simp only [parseJobEventKinds, refused]
    rfl

/-! ## The endpoint -/

section endpoint

variable {host : Host} {chrono : Chrono} {others : Others host InMemoryBackend}
  {t : Task InMemoryBackend} {headers : Headers} {jobId : Uuid} {limit : Option Nat} {raw : String}

/-- What the endpoint answers a request for the newest events of these kinds. -/
def kindsAnswer (chrono : Chrono) (others : Others host InMemoryBackend) (t : Task InMemoryBackend)
    (headers : Headers) (jobId : Uuid) (limit : Option Nat) (raw : String) :
    Except ApiError JobEventsResponse × Task InMemoryBackend :=
  t.dispatchJobEvents chrono others headers jobId (pageQuery limit (some raw) none)

/-- The request is of someone who may ask, and not too often. -/
structure Admitted (others : Others host InMemoryBackend) (t : Task InMemoryBackend)
    (headers : Headers) : Prop where
  authorized : isDispatcherAuthorized t.api headers = true
  allowed : (t.checkDispatchRequest others headers "dispatch_job_events").1.allowed = true

/-- The `kinds` string is read as a filter on the labels that the response shows. -/
structure FiltersByLabel (chrono : Chrono) (others : Others host InMemoryBackend)
    (t : Task InMemoryBackend) (headers : Headers) (jobId : Uuid) (limit : Option Nat)
    (raw : String) : Prop where
  rejected_iff : (∃ message, (kindsAnswer chrono others t headers jobId limit raw).1 =
      .error ⟨400, none, "invalid_query", message⟩) ↔
    ∃ token ∈ kindTokens raw, token ∉ supportedKinds
  answered_iff : (∃ response, (kindsAnswer chrono others t headers jobId limit raw).1 =
      .ok response) ↔ ∀ token ∈ kindTokens raw, token ∈ supportedKinds
  /-- Every event, newest first, with a label among the tokens, if there are any. -/
  selected : ∀ response t', kindsAnswer chrono others t headers jobId limit raw = (.ok response, t') →
    (t'.api.dispatch.retained jobId).length < limit.getD 50 →
    response.events = ((t'.api.dispatch.retained jobId).reverse.map mapJobEvent).filter
      fun event => decide (kindTokens raw = [] ∨ event.kind ∈ kindTokens raw)
  /-- Order, repetition and spacing of the tokens make no difference. -/
  sameTokens : ∀ raw', (∀ token, token ∈ kindTokens raw' ↔ token ∈ kindTokens raw) →
    (∀ token ∈ kindTokens raw, token ∈ supportedKinds) →
    kindsAnswer chrono others t headers jobId limit raw' =
      kindsAnswer chrono others t headers jobId limit raw

theorem dispatchJobEvents_admitted (admitted : Admitted others t headers) (query : JobEventsQuery) :
    t.dispatchJobEvents chrono others headers jobId query =
      match query.parse chrono with
      | .error message =>
          (.error ⟨400, none, "invalid_query", message⟩,
            (t.checkDispatchRequest others headers "dispatch_job_events").2)
      | .ok selection =>
          let t := (t.checkDispatchRequest others headers "dispatch_job_events").2.lock others
          (.ok (.ofRecords chrono jobId selection.limit
            (selection.records host t.api.dispatch jobId)), t) := by
  cases parsed : query.parse chrono <;>
    simp [Task.dispatchJobEvents, admitted.authorized, admitted.allowed, parsed]

theorem kindsAnswer_cases (admitted : Admitted others t headers) (chrono : Chrono) (jobId : Uuid)
    (limit : Option Nat) (raw : String) :
    ((∀ token ∈ kindTokens raw, token ∈ supportedKinds) ∧
      ∃ kinds, (∀ event : JobEventRecord, event.isRequested kinds = true ↔
          kindTokens raw = [] ∨ (mapJobEvent event).kind ∈ kindTokens raw) ∧
        let t' := (t.checkDispatchRequest others headers "dispatch_job_events").2.lock others
        kindsAnswer chrono others t headers jobId limit raw =
          (.ok (.ofRecords chrono jobId (limit.getD 50)
            (page JobEventRecord.key (maxItems (limit.getD 50)) none
              (requestedEvents t'.api.dispatch jobId kinds))), t')) ∨
    (∃ token ∈ kindTokens raw, token ∉ supportedKinds) ∧
      ∃ message, (kindsAnswer chrono others t headers jobId limit raw).1 =
        .error ⟨400, none, "invalid_query", message⟩ := by
  unfold kindsAnswer
  rw [dispatchJobEvents_admitted admitted]
  rcases parseJobEventKinds_cases raw with ⟨all, kinds, ok, requested⟩ | ⟨unsupported, message, refused⟩
  · have nothing : Resumable chrono [] :=
      ⟨fun _ member => absurd member List.not_mem_nil, fun _ member => absurd member List.not_mem_nil⟩
    obtain ⟨selection, key, same, sameLimit, parsed, isPage⟩ :=
      @Resumes.answered host jobId chrono limit (some raw) kinds [] nothing ok none _ .first
    obtain rfl := Option.some.inj same
    refine .inl ⟨all, kinds, requested, ?_⟩
    simp only [parsed, isPage, sameLimit]
  · have unread : (pageQuery limit (some raw) none).parse chrono = .error message := by
      simp [JobEventsQuery.parse, pageQuery, refused, bind, Except.bind]
    exact .inr ⟨unsupported, message, by rw [unread]⟩

theorem page_whole {log : List JobEventRecord} {size : Nat} (room : log.length < size) :
    page JobEventRecord.key (maxItems size) none log = log := by
  have items : maxItems size = size := if_neg (Nat.ne_zero_of_lt room)
  have everything : (log.filter fun event =>
      decide (∀ c ∈ (none : Option (DateTime ×ₗ Nat)), event.key < c)) = log := by
    refine List.filter_eq_self.mpr fun event _ => decide_eq_true fun c member => ?_
    cases member
  rw [page, items, everything]
  exact List.take_of_length_le room.le

theorem requestedEvents_congr {e : DispatchService InMemoryBackend}
    {kinds kinds' : Option (List JobEventFilterKind)}
    (same : ∀ event : JobEventRecord, event.isRequested kinds = event.isRequested kinds') :
    requestedEvents e jobId kinds = requestedEvents e jobId kinds' :=
  List.filter_congr fun event _ => same event

theorem kindsAnswer_rejected_iff (admitted : Admitted others t headers) :
    (∃ message, (kindsAnswer chrono others t headers jobId limit raw).1 =
      .error ⟨400, none, "invalid_query", message⟩) ↔
        ∃ token ∈ kindTokens raw, token ∉ supportedKinds := by
  cases kindsAnswer_cases admitted chrono jobId limit raw with
  | inl answered =>
      obtain ⟨all, kinds, _, same⟩ := answered
      constructor
      · rintro ⟨message, refused⟩
        rw [same] at refused
        cases refused
      · rintro ⟨token, member, unsupported⟩
        exact absurd (all token member) unsupported
  | inr refused =>
      obtain ⟨unsupported, message, refused⟩ := refused
      exact iff_of_true ⟨message, refused⟩ unsupported

theorem kindsAnswer_answered_iff (admitted : Admitted others t headers) :
    (∃ response, (kindsAnswer chrono others t headers jobId limit raw).1 = .ok response) ↔
      ∀ token ∈ kindTokens raw, token ∈ supportedKinds := by
  cases kindsAnswer_cases admitted chrono jobId limit raw with
  | inl answered =>
      obtain ⟨all, kinds, _, same⟩ := answered
      exact iff_of_true ⟨_, congrArg Prod.fst same⟩ all
  | inr refused =>
      obtain ⟨⟨token, member, unsupported⟩, message, refused⟩ := refused
      constructor
      · rintro ⟨response, answered⟩
        cases refused.symm.trans answered
      · intro all
        exact absurd (all token member) unsupported

/-- With room for all events, those that are shown are those with a label among the tokens. -/
theorem kindsAnswer_selected (admitted : Admitted others t headers) {response : JobEventsResponse}
    {t' : Task InMemoryBackend}
    (answered : kindsAnswer chrono others t headers jobId limit raw = (.ok response, t'))
    (short : (t'.api.dispatch.retained jobId).length < limit.getD 50) :
    response.events = ((t'.api.dispatch.retained jobId).reverse.map mapJobEvent).filter
      fun event => decide (kindTokens raw = [] ∨ event.kind ∈ kindTokens raw) := by
  cases kindsAnswer_cases admitted chrono jobId limit raw with
  | inr refused =>
      obtain ⟨_, message, refused⟩ := refused
      rw [answered] at refused
      cases refused
  | inl whole =>
      obtain ⟨_, kinds, requested, same⟩ := whole
      obtain ⟨sameResponse, rfl⟩ := Prod.mk.inj (same.symm.trans answered)
      obtain rfl := Except.ok.inj sameResponse
      generalize Task.lock others (t.checkDispatchRequest others headers "dispatch_job_events").2 = t'
        at short ⊢
      have fewer : (requestedEvents t'.api.dispatch jobId kinds).length < limit.getD 50 := by
        refine Nat.lt_of_le_of_lt (List.length_filter_le _ _) ?_
        rwa [List.length_reverse]
      rw [page_whole fewer]
      show (requestedEvents t'.api.dispatch jobId kinds).map mapJobEvent = _
      rw [requestedEvents, List.filter_map]
      congr 1
      refine List.filter_congr fun event _ => ?_
      exact Bool.eq_iff_iff.mpr ((requested event).trans decide_eq_true_iff.symm)

theorem kindsAnswer_sameTokens (admitted : Admitted others t headers) {raw' : String}
    (sameTokens : ∀ token, token ∈ kindTokens raw' ↔ token ∈ kindTokens raw)
    (all : ∀ token ∈ kindTokens raw, token ∈ supportedKinds) :
    kindsAnswer chrono others t headers jobId limit raw' =
      kindsAnswer chrono others t headers jobId limit raw := by
  have none : kindTokens raw' = [] ↔ kindTokens raw = [] := by
    simp only [List.eq_nil_iff_forall_not_mem, sameTokens]
  rcases kindsAnswer_cases admitted chrono jobId limit raw with
    ⟨_, kinds, requested, same⟩ | ⟨⟨token, member, unsupported⟩, _⟩
  · rcases kindsAnswer_cases admitted chrono jobId limit raw' with
      ⟨_, kinds', requested', same'⟩ | ⟨⟨token, member, unsupported⟩, _⟩
    · have agree : ∀ event : JobEventRecord, event.isRequested kinds' = event.isRequested kinds := by
        intro event
        rw [Bool.eq_iff_iff, requested, requested', none, sameTokens]
      rw [same, same', requestedEvents_congr agree]
    · exact absurd (all token ((sameTokens token).mp member)) unsupported
  · exact absurd (all token member) unsupported

end endpoint

/-- For every list of events and every string, the filter is one on labels. -/
theorem kinds_filter_labels {host : Host} (chrono : Chrono) (others : Others host InMemoryBackend)
    (t : Task InMemoryBackend) (headers : Headers) (admitted : Admitted others t headers)
    (jobId : Uuid) (limit : Option Nat) (raw : String) :
    FiltersByLabel chrono others t headers jobId limit raw where
  rejected_iff := kindsAnswer_rejected_iff admitted
  answered_iff := kindsAnswer_answered_iff admitted
  selected _ _ := kindsAnswer_selected admitted
  sameTokens _ := kindsAnswer_sameTokens admitted

def openTask : Task InMemoryBackend :=
  .start ⟨cancelledMeanwhile 0, none, none, .new 1000 60, .empty⟩ ⟨fun _ => true, 0, []⟩

/-- A token that is given twice, with spaces and an empty part, selects both creations. -/
theorem spaced_tokens_select :
    let chrono : Chrono := ⟨toRfc3339, parseFromRfc3339⟩
    let others := Others.none stillHost InMemoryBackend
    let raw := " offer_created,,offer_created "
    (kindsAnswer chrono others openTask (fun _ => none) 1 none raw).1.toOption.map
        (fun response => response.events.map JobEventResponse.kind) =
      some ["offer_created", "offer_created"] ∧
      FiltersByLabel chrono others openTask (fun _ => none) 1 none raw := by
  intro chrono others raw
  have admitted : Admitted others openTask fun _ => none := ⟨rfl, by decide +kernel⟩
  exact ⟨by decide +kernel, kinds_filter_labels chrono others openTask (fun _ => none) admitted 1 none raw⟩

end Spatiad
