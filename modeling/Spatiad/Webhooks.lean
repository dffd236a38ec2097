import Spatiad.ServiceRuns
import Spatiad.Foundation.Numerals

/-! # Match webhooks

The two ends of a match callback: `send_match_webhook`, which makes up to three
attempts with one request, and `verifySpatiadWebhook` of the Express plugin, which
lets each nonce pass once.
-/

namespace Spatiad

open Foundation

/-! ## The request -/

/-- What is posted to the receiver. -/
structure WebhookRequest where
  timestamp : String
  nonce : String
  signature : Option String
  body : String
  deriving DecidableEq, Repr

structure MatchWebhookPayload where
  event : String
  jobId : Uuid
  driverId : Uuid
  offerId : Uuid
  matchedAt : DateTime
  deriving DecidableEq, Repr

/-- What both ends take from libraries. -/
structure WebhookLibraries where
  /-- `serde_json::to_string` of a payload. -/
  jsonText : MatchWebhookPayload → String
  /-- HMAC-SHA256 of a message under a key, its 32 bytes. -/
  hmacSha256 : String → String → Fin 32 → Fin 256

def hexDigit (d : Nat) : Char := if d < 10 then Char.ofNat (48 + d) else Char.ofNat (87 + d)

/-- `hex::encode`, and `digest("hex")` on the other side. -/
def hexEncode (bytes : Fin 32 → Fin 256) : String :=
  String.ofList ((List.ofFn bytes).flatMap fun b => [hexDigit (b.val / 16), hexDigit (b.val % 16)])

def hexFixed : (width n : Nat) → List Char
  | 0, _ => []
  | width + 1, n => hexDigit (n / 16 ^ width % 16) :: hexFixed width n

/-- `Uuid` as `Display` shows it, hyphenated. -/
def uuidText (id : Uuid) : String :=
  String.ofList (hexFixed 8 (id / 16 ^ 24) ++ '-' :: hexFixed 4 (id / 16 ^ 20) ++
    '-' :: hexFixed 4 (id / 16 ^ 16) ++ '-' :: hexFixed 4 (id / 16 ^ 12) ++ '-' :: hexFixed 12 id)

section sender

variable (libraries : WebhookLibraries)

def signWebhook (secret timestamp nonce body : String) : String :=
  hexEncode (libraries.hmacSha256 secret (timestamp ++ "." ++ nonce ++ "." ++ body))

def isSuccess (status : Nat) : Bool := 200 ≤ status && status < 300

/-- The attempts that are left, each with the same request: any answer that is no
    success, and no answer at all, leads to the next one. -/
def attempts {σ : Type} (post : σ → WebhookRequest → Option Nat × σ) (request : WebhookRequest) :
    Nat → σ → Except Unit Unit × σ
  | 0, s => (.error (), s)
  | left + 1, s =>
      match post s request with
      | (some status, s) =>
          if isSuccess status then (.ok (), s) else attempts post request left s
      | (none, s) => attempts post request left s

/-- Timestamp, nonce and body are made before the first attempt.  The pauses between
    attempts show only in what the receiver's clock reads. -/
def sendMatchWebhook {σ : Type} (post : σ → WebhookRequest → Option Nat × σ) (host : Host)
    (tick : Nat) (webhookSecret : Option String) (result : MatchResult) (s : σ) :
    Except Unit Unit × σ :=
  let payload : MatchWebhookPayload :=
    { event := "trip_matched", jobId := result.jobId, driverId := result.driverId
      offerId := result.offerId, matchedAt := result.matchedAt }
  let body := libraries.jsonText payload
  let timestamp := Int.repr (host.clock tick / 1000000000)
  let nonce := uuidText (host.newV4 (tick + 1))
  let signature := webhookSecret.map fun secret =>
    signWebhook libraries secret timestamp nonce body
  attempts post { timestamp, nonce, signature, body } 3 s

end sender

/-! ## The receiver -/

/-- White space as JavaScript's `parseInt` and `trim` see it. -/
def isJsSpace (c : Char) : Bool :=
  c.toNat ∈ [9, 10, 11, 12, 13, 32, 160, 5760, 8232, 8233, 8239, 8287, 12288, 65279] ||
    (8192 ≤ c.toNat && c.toNat ≤ 8202)

/-- `Number.parseInt(text, 10)`; `none` is `NaN`.  Numbers are exact, as those of a clock
    in seconds are. -/
def parseInt (text : String) : Option Int :=
  match text.toList.dropWhile isJsSpace with
  | '-' :: digits => (Numeral.leading digits).map fun n => -(n : Int)
  | '+' :: digits => (Numeral.leading digits).map fun n => (n : Int)
  | digits => (Numeral.leading digits).map fun n => (n : Int)

/-- `text.trim()` -/
def jsTrim (text : List Char) : List Char :=
  ((text.dropWhile isJsSpace).reverse.dropWhile isJsSpace).reverse

/-- `toLowerCase` of a character that a header value may have, which is one up to U+00FF. -/
def lowerLatin1 (c : Char) : Char :=
  if 192 ≤ c.toNat && c.toNat ≤ 222 && c.toNat != 215 then Char.ofNat (c.toNat + 32) else c.toLower

/-- `text.trim().toLowerCase()` -/
def trimLower (text : String) : String := String.ofList ((jsTrim text.toList).map lowerLatin1)

/-- Length in UTF-16 units. -/
def jsLength (text : String) : Nat :=
  (text.toList.map fun c => if c.toNat < 65536 then 1 else 2).sum

/-- `none` is the exception that `timingSafeEqual` throws for buffers of two sizes. -/
def timingSafeEqualHex (a b : String) : Option Bool :=
  if jsLength a ≠ jsLength b then some false
  else if a.utf8ByteSize ≠ b.utf8ByteSize then none
  else some (a == b)

structure WebhookVerificationConfig where
  secret : String
  maxSkewSeconds : Option Int
  nonceTtlSeconds : Option Int

abbrev UsedNonces := HashMap String Int

def forgetExpired (nowTs nonceTtlSeconds : Int) (usedNonceAt : UsedNonces) (nonce : String) :
    UsedNonces :=
  match usedNonceAt.lookup nonce with
  | some seenAt => if nowTs - seenAt > nonceTtlSeconds then usedNonceAt.erase nonce else usedNonceAt
  | none => usedNonceAt

def cleanupExpiredNonces (nowTs nonceTtlSeconds : Int) (usedNonceAt : UsedNonces) : UsedNonces :=
  usedNonceAt.keys.foldl (forgetExpired nowTs nonceTtlSeconds) usedNonceAt

/-- What the middleware answers a request it does not hand on. -/
structure Refusal where
  status : Nat
  error : String
  deriving DecidableEq, Repr

def header : Option String → Option String
  | some "" => none
  | value => value

section receiver

variable (libraries : WebhookLibraries)

/-- `verifySpatiadWebhook` on a request whose raw body was kept: `next()`, or a refusal. -/
def verifySpatiadWebhook (config : WebhookVerificationConfig) (nowTs : Int)
    (usedNonceAt : UsedNonces) (request : WebhookRequest) : Except Refusal Unit × UsedNonces :=
  let maxSkewSeconds := config.maxSkewSeconds.getD 300
  let nonceTtlSeconds := config.nonceTtlSeconds.getD 600
  match header (some request.timestamp), header (some request.nonce), header request.signature with
  | some timestampHeader, some nonce, some signature =>
      match parseInt timestampHeader with
      | none => (.error ⟨401, "invalid timestamp header"⟩, usedNonceAt)
      | some timestamp =>
          if |nowTs - timestamp| > maxSkewSeconds then
            (.error ⟨401, "timestamp skew exceeded"⟩, usedNonceAt)
          else
            let usedNonceAt := cleanupExpiredNonces nowTs nonceTtlSeconds usedNonceAt
            if (usedNonceAt.lookup nonce).isSome then
              (.error ⟨401, "replayed nonce"⟩, usedNonceAt)
            else
              let payloadToSign := timestampHeader ++ "." ++ nonce ++ "." ++ request.body
              let expected := hexEncode (libraries.hmacSha256 config.secret payloadToSign)
              match timingSafeEqualHex expected (trimLower signature) with
              -- an exception, which Express turns into an answer of its own
              | none => (.error ⟨500, "Internal Server Error"⟩, usedNonceAt)
              | some false => (.error ⟨401, "invalid webhook signature"⟩, usedNonceAt)
              | some true => (.ok (), usedNonceAt.insert nonce nowTs)
  | _, _, _ => (.error ⟨401, "missing webhook auth headers"⟩, usedNonceAt)

/-- The receiver's nonce table, and how many requests and how many calls of its
    business handler it has had. -/
structure Receiver where
  usedNonceAt : UsedNonces
  requests : Nat
  calls : Nat

/-- Verify, then let the business handler answer.  `now` is what the clock reads at each
    request, `handler` the status of each call of the handler. -/
def receive (config : WebhookVerificationConfig) (now : Nat → Int) (handler : Nat → Nat)
    (r : Receiver) (request : WebhookRequest) : Option Nat × Receiver :=
  match verifySpatiadWebhook libraries config (now r.requests) r.usedNonceAt request with
  | (.error refusal, usedNonceAt) =>
      (some refusal.status, { r with usedNonceAt, requests := r.requests + 1 })
  | (.ok (), usedNonceAt) =>
      (some (handler r.calls), ⟨usedNonceAt, r.requests + 1, r.calls + 1⟩)

end receiver

/-! ## What one end writes the other reads -/

theorem not_jsSpace_of_isDigit {c : Char} (digit : c.isDigit = true) : isJsSpace c = false := by
  simp only [Char.isDigit, Bool.and_eq_true, decide_eq_true_eq] at digit
  have low : 48 ≤ c.toNat := digit.1
  have high : c.toNat ≤ 57 := digit.2
  simp only [isJsSpace, List.mem_cons, List.not_mem_nil, or_false, Bool.or_eq_false_iff,
    decide_eq_false_iff_not, Bool.and_eq_false_imp, decide_eq_true_eq]
  omega

theorem parseInt_repr (n : Int) : parseInt n.repr = some n := by
  cases n with
  | ofNat m =>
      obtain ⟨d, rest, digits, isDigit⟩ := Numeral.head_toDigits m
      have minus : d ≠ '-' := by
        rintro rfl
        cases isDigit
      have plus : d ≠ '+' := by
        rintro rfl
        cases isDigit
      have read := Numeral.leading_toDigits m
      rw [digits] at read
      simp [parseInt, Int.repr, digits, not_jsSpace_of_isDigit isDigit, minus, plus, read]
  | negSucc m =>
      have text : (Int.repr (.negSucc m)).toList = '-' :: Nat.toDigits 10 (m + 1) := by
        simp [Int.repr]
      have blank : isJsSpace '-' = false := by decide
      simp only [parseInt, text, List.dropWhile_cons, blank, Bool.false_eq_true, if_false,
        Numeral.leading_toDigits]
      rfl

theorem hexDigit_plain {d : Nat} (small : d < 16) :
    isJsSpace (hexDigit d) = false ∧ lowerLatin1 (hexDigit d) = hexDigit d := by
  have all : ∀ d : Fin 16, isJsSpace (hexDigit d) = false ∧ lowerLatin1 (hexDigit d) = hexDigit d := by
    decide
  exact all ⟨d, small⟩

/-- A digest comes through the header unchanged. -/
theorem trimLower_hexEncode (bytes : Fin 32 → Fin 256) :
    trimLower (hexEncode bytes) = hexEncode bytes := by
  have plain : ∀ c ∈ (hexEncode bytes).toList, isJsSpace c = false ∧ lowerLatin1 c = c := by
    intro c member
    simp only [hexEncode, String.toList_ofList, List.mem_flatMap, List.mem_cons, List.not_mem_nil,
      or_false] at member
    obtain ⟨b, _, rfl | rfl⟩ := member
    · exact hexDigit_plain (by omega)
    · exact hexDigit_plain (by omega)
  have keeps : ∀ text : List Char, (∀ c ∈ text, isJsSpace c = false) →
      text.dropWhile isJsSpace = text := by
    intro text none
    cases text with
    | nil => rfl
    | cons c rest => simp [none c List.mem_cons_self]
  have front := keeps _ fun c member => (plain c member).1
  have back := keeps (hexEncode bytes).toList.reverse fun c member =>
    (plain c (List.mem_reverse.mp member)).1
  have lower : (hexEncode bytes).toList.map lowerLatin1 = (hexEncode bytes).toList.map id :=
    List.map_congr_left fun c member => (plain c member).2
  simp only [trimLower, jsTrim, front, back, List.reverse_reverse, lower, List.map_id, String.ofList_toList]

theorem header_of_ne {text : String} (present : text ≠ "") : header (some text) = some text := by
  unfold header
  split
  · rename_i same
    exact absurd (Option.some.inj same) present
  · rfl

theorem hexEncode_ne (bytes : Fin 32 → Fin 256) : hexEncode bytes ≠ "" := by
  intro none
  have length := congrArg (fun text : String => text.toList.length) none
  simp [hexEncode] at length

theorem uuidText_ne (id : Uuid) : uuidText id ≠ "" := by
  intro none
  have length := congrArg (fun text : String => text.toList.length) none
  simp [uuidText] at length

theorem intRepr_ne (n : Int) : n.repr ≠ "" := by
  intro none
  have read := parseInt_repr n
  rw [none] at read
  cases read

theorem timingSafeEqualHex_self (a : String) : timingSafeEqualHex a a = some true := by
  simp [timingSafeEqualHex]

/-! ## The nonce table -/

section cleanup

variable (nowTs ttl : Int) (used : UsedNonces) (nonce : String)

theorem lookup_forgetExpired (key : String) :
    (forgetExpired nowTs ttl used key).lookup nonce =
      if nonce = key then (used.lookup nonce).filter fun seenAt => decide (nowTs - seenAt ≤ ttl)
      else used.lookup nonce := by
  unfold forgetExpired
  by_cases same : nonce = key
  · subst same
    rw [if_pos rfl]
    cases seen : used.lookup nonce with
    | none => simp only [seen, Option.filter_none]
    | some seenAt =>
        by_cases recent : nowTs - seenAt ≤ ttl
        · simp only [gt_iff_lt, not_lt.mpr recent, if_false, seen, Option.filter_some, recent,
            decide_true, if_true]
        · simp only [gt_iff_lt, not_le.mp recent, if_true, AList.lookup_erase, Option.filter_some,
            recent, decide_false, Bool.false_eq_true, if_false]
  · rw [if_neg same]
    split
    · split
      · rw [HashMap.lookup_erase_if, if_neg same]
      · rfl
    · rfl

theorem lookup_cleanup :
    (cleanupExpiredNonces nowTs ttl used).lookup nonce =
      (used.lookup nonce).filter fun seenAt => decide (nowTs - seenAt ≤ ttl) := by
  have forgets : ∀ keys : List String, (keys.foldl (forgetExpired nowTs ttl) used).lookup nonce =
      if nonce ∈ keys then (used.lookup nonce).filter fun seenAt => decide (nowTs - seenAt ≤ ttl)
      else used.lookup nonce := by
    intro keys
    induction keys generalizing used with
    | nil => rfl
    | cons key keys ih =>
        rw [List.foldl_cons, ih, lookup_forgetExpired]
        by_cases here : nonce = key <;> by_cases later : nonce ∈ keys <;>
          simp [here, later, Option.filter_filter]
  unfold cleanupExpiredNonces
  rw [forgets]
  split
  · rfl
  · rename_i unlisted
    have absent : used.lookup nonce = none :=
      AList.lookup_eq_none.mpr fun member => unlisted (AList.mem_keys.mp member)
    rw [absent, Option.filter_none]

theorem lookup_cleanup_of_none (fresh : used.lookup nonce = none) :
    (cleanupExpiredNonces nowTs ttl used).lookup nonce = none := by
  rw [lookup_cleanup, fresh, Option.filter_none]

theorem lookup_cleanup_of_recent {seenAt : Int} (seen : used.lookup nonce = some seenAt)
    (recent : nowTs - seenAt ≤ ttl) :
    (cleanupExpiredNonces nowTs ttl used).lookup nonce = some seenAt := by
  rw [lookup_cleanup, seen, Option.filter_some, if_pos (decide_eq_true recent)]

end cleanup

/-! ## One delivery -/

section delivery

variable (libraries : WebhookLibraries) (secret nonce body : String) (timestamp : Int)

def signedRequest : WebhookRequest where
  timestamp := timestamp.repr
  nonce := nonce
  signature := some (signWebhook libraries secret timestamp.repr nonce body)
  body := body

def defaultConfig : WebhookVerificationConfig := ⟨secret, none, none⟩

variable {libraries secret nonce body timestamp} (named : nonce ≠ "") {nowTs : Int}
  (inSkew : |nowTs - timestamp| ≤ 300) {used : UsedNonces}

include named inSkew

theorem verify_first (fresh : used.lookup nonce = none) :
    verifySpatiadWebhook libraries (defaultConfig secret) nowTs used
        (signedRequest libraries secret nonce body timestamp) =
      (.ok (), (cleanupExpiredNonces nowTs 600 used).insert nonce nowTs) := by
  have digest : timingSafeEqualHex
      (hexEncode (libraries.hmacSha256 secret (timestamp.repr ++ "." ++ nonce ++ "." ++ body)))
      (trimLower (signWebhook libraries secret timestamp.repr nonce body)) = some true := by
    rw [signWebhook, trimLower_hexEncode, timingSafeEqualHex_self]
  simp only [verifySpatiadWebhook, signedRequest, defaultConfig, Option.getD_none,
    header_of_ne (intRepr_ne timestamp), header_of_ne named, parseInt_repr, signWebhook,
    header_of_ne (hexEncode_ne _), gt_iff_lt, not_lt.mpr inSkew, if_false,
    lookup_cleanup_of_none nowTs 600 used nonce fresh, Option.isSome_none, Bool.false_eq_true]
  rw [signWebhook] at digest
  rw [digest]

theorem verify_again {seenAt : Int} (seen : used.lookup nonce = some seenAt)
    (recent : nowTs - seenAt ≤ 600) :
    verifySpatiadWebhook libraries (defaultConfig secret) nowTs used
        (signedRequest libraries secret nonce body timestamp) =
      (.error ⟨401, "replayed nonce"⟩, cleanupExpiredNonces nowTs 600 used) := by
  simp only [verifySpatiadWebhook, signedRequest, defaultConfig, Option.getD_none,
    header_of_ne (intRepr_ne timestamp), header_of_ne named, parseInt_repr, signWebhook,
    header_of_ne (hexEncode_ne _), gt_iff_lt, not_lt.mpr inSkew, if_false,
    lookup_cleanup_of_recent nowTs 600 used nonce seen recent, Option.isSome_some, if_true]

omit inSkew

theorem attempts_refused {now : Nat → Int} (inSkew : ∀ i, |now i - timestamp| ≤ 300)
    (handler : Nat → Nat) (left : Nat) (r : Receiver) {seenAt : Int}
    (seen : r.usedNonceAt.lookup nonce = some seenAt) (close : |seenAt - timestamp| ≤ 300) :
    (attempts (receive libraries (defaultConfig secret) now handler)
      (signedRequest libraries secret nonce body timestamp) left r).1 = .error () := by
  induction left generalizing r with
  | zero => rfl
  | succ left ih =>
      have recent : now r.requests - seenAt ≤ 600 := by
        have upper := (abs_le.mp (inSkew r.requests)).2
        have lower := (abs_le.mp close).1
        omega
      have refused : isSuccess 401 = false := by decide
      simp only [attempts, receive, verify_again named (inSkew r.requests) seen recent, refused,
        Bool.false_eq_true, if_false]
      exact ih _ (lookup_cleanup_of_recent _ 600 _ nonce seen recent)

end delivery

/-- A delivery to a receiver with the same secret, a clock within the skew and a handler
    that fails on its first `k` calls succeeds exactly if `k` is zero: a second attempt
    repeats a nonce that the first one has used up. -/
theorem webhook_delivered_iff (libraries : WebhookLibraries) (host : Host) (tick : Nat)
    (secret : String) (result : MatchResult) (r : Receiver) (now : Nat → Int) (handler : Nat → Nat)
    (k : Nat) (inSkew : ∀ i, |now i - host.clock tick / 1000000000| ≤ 300)
    (fresh : r.usedNonceAt.lookup (uuidText (host.newV4 (tick + 1))) = none)
    (fails : ∀ i < k, isSuccess (handler (r.calls + i)) = false)
    (succeeds : isSuccess (handler (r.calls + k)) = true) :
    (sendMatchWebhook libraries (receive libraries (defaultConfig secret) now handler) host tick
      (some secret) result r).1 = .ok () ↔ k = 0 := by
  let timestamp := host.clock tick / 1000000000
  let nonce := uuidText (host.newV4 (tick + 1))
  let body := libraries.jsonText
    ⟨"trip_matched", result.jobId, result.driverId, result.offerId, result.matchedAt⟩
  have named : nonce ≠ "" := uuidText_ne _
  let request := signedRequest libraries secret nonce body timestamp
  let r' : Receiver :=
    ⟨(cleanupExpiredNonces (now r.requests) 600 r.usedNonceAt).insert nonce (now r.requests),
      r.requests + 1, r.calls + 1⟩
  have passed : verifySpatiadWebhook libraries (defaultConfig secret) (now r.requests)
      r.usedNonceAt request = (.ok (), r'.usedNonceAt) :=
    verify_first named (inSkew r.requests) fresh
  have first : receive libraries (defaultConfig secret) now handler r request =
      (some (handler r.calls), r') := by
    rw [receive, passed]
  show (attempts (receive libraries (defaultConfig secret) now handler) request 3 r).1 = .ok () ↔ k = 0
  rw [attempts, first]
  cases k with
  | zero =>
      rw [Nat.add_zero] at succeeds
      simp [succeeds]
  | succ k =>
      have failed : isSuccess (handler r.calls) = false := fails 0 (Nat.succ_pos k)
      have refused : (attempts (receive libraries (defaultConfig secret) now handler) request 2
          r').1 = .error () :=
        attempts_refused named inSkew handler 2 r' (AList.lookup_insert _) (inSkew r.requests)
      simp [failed, refused]

def zeroDigests : WebhookLibraries := ⟨fun _ => "", fun _ _ _ => 0⟩

def firstDelivery (handler : Nat → Nat) : Except Unit Unit × Receiver :=
  sendMatchWebhook zeroDigests (receive zeroDigests (defaultConfig "secret") (fun _ => 0) handler)
    stillHost 0 (some "secret") ⟨1, 100, 4, 0⟩ ⟨∅, 0, 0⟩

/-- The handler fails once, and would succeed from then on; it is not called again. -/
theorem webhook_retry_refused :
    (firstDelivery fun call => if call = 0 then 503 else 200).1 = .error () ∧
      (firstDelivery fun call => if call = 0 then 503 else 200).2.calls = 1 := by
  exact ⟨by rfl, by decide +kernel⟩

theorem webhook_delivered_at_once : (firstDelivery fun _ => 204).1 = .ok () :=
  (webhook_delivered_iff zeroDigests stillHost 0 "secret" ⟨1, 100, 4, 0⟩ ⟨∅, 0, 0⟩ (fun _ => 0)
    (fun _ => 204) 0 (fun _ => by decide) rfl (fun _ none => absurd none (Nat.not_lt_zero _))
    (by decide)).mpr rfl

end Spatiad
