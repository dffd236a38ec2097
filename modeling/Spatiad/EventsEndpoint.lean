import Spatiad.Api
import Spatiad.EventQueries
import Spatiad.Foundation.Numerals

/-! # The events endpoint

`GET /api/v1/dispatch/job/:job_id/events`: what a request asks for, the texts that
cursors travel as, and the response.
-/

namespace Spatiad

open Foundation

/-! ## Texts -/

def splitOnce (c : Char) : List Char → Option (List Char × List Char)
  | [] => none
  | d :: rest =>
      if d = c then some ([], rest)
      else (splitOnce c rest).map fun (before, after) => (d :: before, after)

/-- `str::rsplit_once` -/
def rsplitOnce (c : Char) (text : List Char) : Option (List Char × List Char) :=
  (splitOnce c text.reverse).map fun (after, before) => (before.reverse, after.reverse)

theorem splitOnce_append {c : Char} {before : List Char} (absent : c ∉ before)
    (after : List Char) : splitOnce c (before ++ c :: after) = some (before, after) := by
  induction before with
  | nil => simp [splitOnce]
  | cons d rest ih =>
      rw [List.mem_cons, not_or] at absent
      obtain ⟨different, absent⟩ := absent
      rw [List.cons_append, splitOnce, if_neg (Ne.symm different), ih absent]
      rfl

theorem rsplitOnce_append {c : Char} {after : List Char} (absent : c ∉ after)
    (before : List Char) : rsplitOnce c (before ++ c :: after) = some (before, after) := by
  have turned : (before ++ c :: after).reverse = after.reverse ++ c :: before.reverse := by simp
  have split := splitOnce_append (List.mem_reverse.not.mpr absent) before.reverse
  rw [rsplitOnce, turned, split]
  simp

/-- `str::parse::<u64>`; a plus may stand before the digits. -/
def parseU64 (text : List Char) : Option Nat :=
  let digits :=
    match text with
    | '+' :: rest => rest
    | _ => text
  (Numeral.whole digits).filter (· < 2 ^ 64)

theorem parseU64_toDigits {n : Nat} (fits : n < 2 ^ 64) : parseU64 (Nat.toDigits 10 n) = some n := by
  obtain ⟨d, rest, digits, isDigit⟩ := Numeral.head_toDigits n
  have unsigned : d ≠ '+' := by
    rintro rfl
    cases isDigit
  have whole := Numeral.whole_toDigits n
  rw [digits] at whole ⊢
  simpa [parseU64, unsigned, whole, Option.filter] using fits

/-- `char::is_whitespace` -/
def isWhitespace (c : Char) : Bool :=
  (9 ≤ c.toNat && c.toNat ≤ 13) || (0x2000 ≤ c.toNat && c.toNat ≤ 0x200A) ||
    [0x20, 0x85, 0xA0, 0x1680, 0x2028, 0x2029, 0x202F, 0x205F, 0x3000].contains c.toNat

/-- `str::trim` -/
def trimText (text : List Char) : List Char :=
  ((text.dropWhile isWhitespace).reverse.dropWhile isWhitespace).reverse

/-- How `chrono` writes a UTC time and reads one. -/
structure Chrono where
  toRfc3339 : DateTime → String
  parseFromRfc3339 : String → Option DateTime

/-! ## Cursors -/

variable (chrono : Chrono)

def encodeEventsCursor (event : JobEventRecord) : String :=
  chrono.toRfc3339 event.occurredAt ++ "|" ++ event.sequence.repr

def parseEventsCursor (raw : String) : Except String JobEventsCursor :=
  match rsplitOnce '|' raw.toList with
  | none => .error "invalid 'cursor' format; expected '<rfc3339>|<sequence>'"
  | some (timestamp, sequence) =>
      match chrono.parseFromRfc3339 (String.ofList timestamp) with
      | none => .error "invalid cursor timestamp; expected RFC3339"
      | some occurredAt =>
          match parseU64 sequence with
          | none => .error "invalid cursor sequence; expected unsigned integer"
          | some sequence => .ok ⟨occurredAt, sequence⟩

theorem parse_encodeEventsCursor {event : JobEventRecord} (fits : event.sequence < 2 ^ 64)
    (undoes : chrono.parseFromRfc3339 (chrono.toRfc3339 event.occurredAt) = some event.occurredAt) :
    parseEventsCursor chrono (encodeEventsCursor chrono event) =
      .ok ⟨event.occurredAt, event.sequence⟩ := by
  have noBar : '|' ∉ Nat.toDigits 10 event.sequence := by
    intro member
    have digit := Nat.isDigit_of_mem_toDigits (by omega) (by omega) member
    cases digit
  have text : (encodeEventsCursor chrono event).toList =
      (chrono.toRfc3339 event.occurredAt).toList ++ '|' :: Nat.toDigits 10 event.sequence := by
    simp [encodeEventsCursor, Nat.toList_repr]
  unfold parseEventsCursor
  simp only [text, rsplitOnce_append noBar, String.ofList_toList, undoes, parseU64_toDigits fits]

/-! ## Requested kinds -/

def JobEventFilterKind.ofToken : String → Option JobEventFilterKind
  | "job_registered" => some .jobRegistered
  | "job_cancelled" => some .jobCancelled
  | "webhook_delivery_failed" => some .webhookDeliveryFailed
  | "offer_created" => some .offerCreated
  | "offer_expired" => some .offerExpired
  | "offer_cancelled" => some .offerCancelled
  | "offer_rejected" => some .offerRejected
  | "offer_accepted" => some .offerAccepted
  | "match_confirmed" => some .matchConfirmed
  | "offer_status_updated" => some .offerStatusUpdated
  | _ => none

/-- Blank parts are skipped, repeated kinds are kept once. -/
def parseKindTokens : List (List Char) → List JobEventFilterKind →
    Except String (List JobEventFilterKind)
  | [], parsed => .ok parsed
  | part :: rest, parsed =>
      let token := String.ofList (trimText part)
      if token.isEmpty then parseKindTokens rest parsed
      else
        match JobEventFilterKind.ofToken token with
        | none =>
            .error ("unsupported event kind '" ++ token ++ "' in 'kinds' query parameter")
        | some kind =>
            parseKindTokens rest (if parsed.contains kind then parsed else parsed ++ [kind])

def parseJobEventKinds : Option String → Except String (Option (List JobEventFilterKind))
  | none => .ok none
  | some raw =>
      (parseKindTokens (raw.toList.splitOn ',') []).map fun parsed =>
        if parsed.isEmpty then none else some parsed

example : parseJobEventKinds (some " offer_created,,offer_created, job_cancelled") =
    .ok (some [.offerCreated, .jobCancelled]) := by decide +kernel

/-! ## The request -/

structure JobEventsQuery where
  limit : Option Nat
  before : Option String
  cursor : Option String
  kinds : Option String
  deriving DecidableEq, Repr

/-- What a query that was understood asks for. -/
structure EventSelection where
  limit : Nat
  before : Option DateTime
  cursor : Option JobEventsCursor
  kinds : Option (List JobEventFilterKind)
  deriving DecidableEq, Repr

def JobEventsQuery.parse (query : JobEventsQuery) : Except String EventSelection := do
  let limit := query.limit.getD 50
  if query.before.isSome && query.cursor.isSome then
    .error "use either 'before' or 'cursor', not both"
  let before ←
    match query.before with
    | none => .ok none
    | some raw =>
        match chrono.parseFromRfc3339 raw with
        | none => .error "invalid 'before' cursor; expected RFC3339 timestamp"
        | some value => .ok (some value)
  let cursor ←
    match query.cursor with
    | none => .ok none
    | some raw => (parseEventsCursor chrono raw).map some
  let kinds ← parseJobEventKinds query.kinds
  .ok { limit, before, cursor, kinds }

section selection

variable {β : Type} [StorageBackend β] (host : Host)

def Engine.jobEventsBeforeFiltered (e : Engine β) (jobId : Uuid) (limit : Nat)
    (before : Option DateTime) (kinds : Option (List JobEventFilterKind)) : List JobEventRecord :=
  e.jobEventsCursorFiltered host jobId limit (before.map fun occurredAt => ⟨occurredAt, 0⟩) kinds

def EventSelection.records (selection : EventSelection) (e : DispatchService β) (jobId : Uuid) :
    List JobEventRecord :=
  if selection.cursor.isSome then
    e.jobEventsCursorFiltered host jobId selection.limit selection.cursor selection.kinds
  else e.jobEventsBeforeFiltered host jobId selection.limit selection.before selection.kinds

end selection

/-! ## The response -/

/-- `occurredAt` is sent as `at`. -/
structure JobEventResponse where
  occurredAt : DateTime
  kind : String
  offerId : Option Uuid
  driverId : Option Uuid
  status : Option String
  deriving DecidableEq, Repr

def offerStatusLabel : OfferStatus → String
  | .pending => "pending"
  | .accepted => "accepted"
  | .rejected => "rejected"
  | .expired => "expired"
  | .cancelled => "cancelled"

def mapJobEvent (event : JobEventRecord) : JobEventResponse :=
  let response := JobEventResponse.mk event.occurredAt
  match event.kind with
  | .jobRegistered => response "job_registered" none none none
  | .jobCancelled => response "job_cancelled" none none (some "cancelled")
  | .webhookDeliveryFailed o =>
      response "webhook_delivery_failed" (some o) none (some "webhook_delivery_failed")
  | .offerCreated o d => response "offer_created" (some o) (some d) (some "pending")
  | .offerExpired o d => response "offer_expired" (some o) (some d) (some "expired")
  | .offerCancelled o d => response "offer_cancelled" (some o) (some d) (some "cancelled")
  | .offerRejected o d => response "offer_rejected" (some o) (some d) (some "rejected")
  | .offerAccepted o d => response "offer_accepted" (some o) (some d) (some "accepted")
  | .matchConfirmed o d => response "match_confirmed" (some o) (some d) (some "matched")
  | .offerStatusUpdated o status =>
      response "offer_status_updated" (some o) none (some (offerStatusLabel status))

structure JobEventsResponse where
  jobId : Uuid
  events : List JobEventResponse
  nextBeforeCursor : Option String
  nextCursor : Option String
  deriving DecidableEq, Repr

/-- A response of at least `limit` events, or of any with limit 0, says where to go on. -/
def JobEventsResponse.ofRecords (jobId : Uuid) (limit : Nat) (records : List JobEventRecord) :
    JobEventsResponse where
  jobId := jobId
  events := records.map mapJobEvent
  nextBeforeCursor :=
    if max limit 1 ≤ records.length then
      records.getLast?.map fun event => chrono.toRfc3339 event.occurredAt
    else none
  nextCursor :=
    if max limit 1 ≤ records.length then records.getLast?.map (encodeEventsCursor chrono) else none

/-- A refusal: its status, the rate limit its headers tell of, its error and message. -/
structure ApiError where
  status : Nat
  rateLimit : Option RateLimitSnapshot
  error : String
  message : String
  deriving DecidableEq, Repr

namespace Task

variable {β : Type} [StorageBackend β] {host : Host} (others : Others host β) (t : Task β)

def dispatchJobEvents (headers : Headers) (jobId : Uuid) (query : JobEventsQuery) :
    Except ApiError JobEventsResponse × Task β :=
  if !isDispatcherAuthorized t.api headers then
    (.error ⟨401, none, "unauthorized", "missing or invalid dispatcher auth token"⟩, t)
  else
    let (rateLimit, t) := t.checkDispatchRequest others headers "dispatch_job_events"
    if !rateLimit.allowed then
      (.error ⟨429, some rateLimit, "rate_limited", "dispatch request rate limit exceeded"⟩, t)
    else
      match query.parse chrono with
      | .error message => (.error ⟨400, none, "invalid_query", message⟩, t)
      | .ok selection =>
          let t := t.lock others
          let records := selection.records host t.api.dispatch jobId
          (.ok (.ofRecords chrono jobId selection.limit records), t)

end Task

end Spatiad
