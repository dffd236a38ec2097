import Spatiad.Webhooks

/-! # Replays at the receiver

A request is fresh within the skew of its own timestamp, which may lie ahead of the clock.
A nonce that has passed is remembered until no request with that timestamp is fresh.
-/

namespace Spatiad

open Foundation

/-- A request as Express hands it to the middleware: a header may be missing, and the raw
    body is there if it was kept. -/
structure IncomingRequest where
  timestamp : Option String
  nonce : Option String
  signature : Option String
  rawBody : Option String
  /-- `JSON.stringify(req.body ?? {})` -/
  bodyText : String
  deriving DecidableEq, Repr

/-- An empty header counts as a missing one. -/
def IncomingRequest.read (request : IncomingRequest) : WebhookRequest where
  timestamp := request.timestamp.getD ""
  nonce := request.nonce.getD ""
  signature := request.signature
  body := request.rawBody.getD request.bodyText

variable (libraries : WebhookLibraries) (config : WebhookVerificationConfig)

def acceptedOf : UsedNonces → List (Int × IncomingRequest) → List IncomingRequest
  | _, [] => []
  | usedNonceAt, (nowTs, request) :: rest =>
      match verifySpatiadWebhook libraries config nowTs usedNonceAt request.read with
      | (.ok (), usedNonceAt) => request :: acceptedOf usedNonceAt rest
      | (.error _, usedNonceAt) => acceptedOf usedNonceAt rest

def WebhookVerificationConfig.maxSkew (config : WebhookVerificationConfig) : Int :=
  config.maxSkewSeconds.getD 300

def WebhookVerificationConfig.nonceTtl (config : WebhookVerificationConfig) : Int :=
  config.nonceTtlSeconds.getD 600

/-! ## One request -/

section verify

variable {libraries config} {nowTs : Int} {used : UsedNonces} {request : WebhookRequest}

/-- What a request that passes has shown. -/
structure Passes (config : WebhookVerificationConfig) (nowTs : Int) (used : UsedNonces)
    (request : WebhookRequest) (used' : UsedNonces) : Prop where
  fresh : ∃ timestamp, parseInt request.timestamp = some timestamp ∧
    |nowTs - timestamp| ≤ config.maxSkew
  unused : (cleanupExpiredNonces nowTs config.nonceTtl used).lookup request.nonce = none
  table : used' = (cleanupExpiredNonces nowTs config.nonceTtl used).insert request.nonce nowTs

theorem header_eq_some {value : Option String} {text : String} (present : header value = some text) :
    value = some text := by
  unfold header at present
  split at present
  · cases present
  · exact present

/-- A request passes, or leaves the table as it is but for a cleanup. -/
theorem verify_cases (libraries : WebhookLibraries) (config : WebhookVerificationConfig)
    (nowTs : Int) (used : UsedNonces) (request : WebhookRequest) :
    (∃ used', verifySpatiadWebhook libraries config nowTs used request = (.ok (), used') ∧
      Passes config nowTs used request used') ∨
    ∃ refusal used', verifySpatiadWebhook libraries config nowTs used request =
        (.error refusal, used') ∧
      (used' = used ∨ used' = cleanupExpiredNonces nowTs config.nonceTtl used) := by
  simp only [verifySpatiadWebhook]
  split
  · rename_i timestampHeader nonce signature stamped named signed
    obtain rfl := Option.some.inj (header_eq_some stamped)
    obtain rfl := Option.some.inj (header_eq_some named)
    split
    · exact .inr ⟨_, _, rfl, .inl rfl⟩
    · rename_i timestamp parsed
      split
      · exact .inr ⟨_, _, rfl, .inl rfl⟩
      · rename_i inSkew
        split
        · exact .inr ⟨_, _, rfl, .inr rfl⟩
        · rename_i unused
          split
          · exact .inr ⟨_, _, rfl, .inr rfl⟩
          · exact .inr ⟨_, _, rfl, .inr rfl⟩
          · exact .inl ⟨_, rfl, ⟨timestamp, parsed, not_lt.mp inSkew⟩,
              Option.not_isSome_iff_eq_none.mp unused, rfl⟩
  · exact .inr ⟨_, _, rfl, .inl rfl⟩

/-! ## Spent nonces -/

/-- No request with this nonce and timestamp passes any more: the nonce is remembered from
    within the skew of the timestamp, or the timestamp is too old. -/
def Spent (config : WebhookVerificationConfig) (nowTs : Int) (used : UsedNonces) (nonce : String)
    (timestamp : Int) : Prop :=
  (∃ seenAt, used.lookup nonce = some seenAt ∧ |seenAt - timestamp| ≤ config.maxSkew) ∨
    config.maxSkew < nowTs - timestamp

theorem Spent.later {nonce : String} {timestamp later : Int}
    (spent : Spent config nowTs used nonce timestamp) (onward : nowTs ≤ later) :
    Spent config later used nonce timestamp := by
  cases spent with
  | inl remembered => exact .inl remembered
  | inr old => exact .inr (by omega)

variable (longEnough : 2 * config.maxSkew ≤ config.nonceTtl)

include longEnough

theorem Spent.cleanup {nonce : String} {timestamp : Int}
    (spent : Spent config nowTs used nonce timestamp) :
    Spent config nowTs (cleanupExpiredNonces nowTs config.nonceTtl used) nonce timestamp := by
  cases spent with
  | inr old => exact .inr old
  | inl remembered =>
      obtain ⟨seenAt, seen, close⟩ := remembered
      by_cases recent : nowTs - seenAt ≤ config.nonceTtl
      · exact .inl ⟨seenAt, lookup_cleanup_of_recent _ _ _ _ seen recent, close⟩
      · -- the nonce may be forgotten, at a time when its timestamp is out of the skew
        have bounds := abs_le.mp close
        exact .inr (by omega)

theorem Spent.refuses {timestamp : Int} {used' : UsedNonces}
    (spent : Spent config nowTs used request.nonce timestamp)
    (parsed : parseInt request.timestamp = some timestamp)
    (passes : Passes config nowTs used request used') : False := by
  obtain ⟨timestamp', parsed', inSkew⟩ := passes.fresh
  obtain rfl := Option.some.inj (parsed.symm.trans parsed')
  cases spent.cleanup longEnough with
  | inl remembered =>
      obtain ⟨seenAt, seen, _⟩ := remembered
      cases passes.unused.symm.trans seen
  | inr old =>
      have bounds := abs_le.mp inSkew
      omega

variable (libraries) in
theorem Spent.verify {nonce : String} {timestamp : Int}
    (spent : Spent config nowTs used nonce timestamp) (request : WebhookRequest) :
    Spent config nowTs (verifySpatiadWebhook libraries config nowTs used request).2 nonce
      timestamp := by
  have cleaned := spent.cleanup longEnough
  rcases verify_cases libraries config nowTs used request with
    ⟨used', passed, passes⟩ | ⟨refusal, used', refused, rfl | rfl⟩
  · rw [passed, passes.table]
    cases cleaned with
    | inr old => exact .inr old
    | inl remembered =>
        obtain ⟨seenAt, seen, close⟩ := remembered
        have other : nonce ≠ request.nonce := by
          rintro rfl
          cases passes.unused.symm.trans seen
        exact .inl ⟨seenAt, (AList.lookup_insert_ne other).trans seen, close⟩
  · rw [refused]
    exact spent
  · rw [refused]
    exact cleaned

end verify

/-! ## Sequences of requests -/

variable {libraries config}

theorem Spent.not_accepted (longEnough : 2 * config.maxSkew ≤ config.nonceTtl) {nowTs : Int}
    {used : UsedNonces} {nonce : String} {timestamp : Int}
    (spent : Spent config nowTs used nonce timestamp) {requests : List (Int × IncomingRequest)}
    (onward : (nowTs :: requests.map Prod.fst).Pairwise (· ≤ ·)) :
    ∀ request ∈ acceptedOf libraries config used requests,
      request.read.nonce = nonce → parseInt request.read.timestamp ≠ some timestamp := by
  induction requests generalizing used nowTs with
  | nil => exact fun _ member => absurd member List.not_mem_nil
  | cons call rest ih =>
      obtain ⟨later, request⟩ := call
      obtain ⟨first, onward⟩ := List.pairwise_cons.mp onward
      have spent : Spent config later used nonce timestamp := spent.later (first later List.mem_cons_self)
      have after := spent.verify libraries longEnough request.read
      have rest := ih after onward
      rcases verify_cases libraries config later used request.read with
        ⟨used', passed, passes⟩ | ⟨refusal, used', refused, _⟩
      · rw [passed] at rest
        simp only [acceptedOf, passed]
        intro accepted member named parsed
        rcases List.mem_cons.mp member with rfl | member
        · exact Spent.refuses longEnough (named ▸ spent) parsed passes
        · exact rest accepted member named parsed
      · rw [refused] at rest
        simp only [acceptedOf, refused]
        exact rest

/-- While a nonce is remembered for twice the skew, no two accepted requests share it together
    with their timestamp header. -/
theorem accepted_not_replayed (libraries : WebhookLibraries) (config : WebhookVerificationConfig)
    (longEnough : 2 * config.maxSkewSeconds.getD 300 ≤ config.nonceTtlSeconds.getD 600)
    (used : UsedNonces) (requests : List (Int × IncomingRequest))
    (nondecreasing : (requests.map Prod.fst).Pairwise (· ≤ ·)) :
    ((acceptedOf libraries config used requests).map fun request =>
      (request.timestamp, request.nonce)).Nodup := by
  induction requests generalizing used with
  | nil => exact List.nodup_nil
  | cons call rest ih =>
      obtain ⟨nowTs, request⟩ := call
      have onward := nondecreasing
      obtain ⟨_, nondecreasing⟩ := List.pairwise_cons.mp nondecreasing
      rcases verify_cases libraries config nowTs used request.read with
        ⟨used', passed, passes⟩ | ⟨refusal, used', refused, _⟩
      · simp only [acceptedOf, passed, List.map_cons]
        refine List.nodup_cons.mpr ⟨fun again => ?_, ih used' nondecreasing⟩
        obtain ⟨timestamp, parsed, inSkew⟩ := passes.fresh
        have spent : Spent config nowTs used' request.read.nonce timestamp :=
          .inl ⟨nowTs, by rw [passes.table, AList.lookup_insert], inSkew⟩
        obtain ⟨other, accepted, same⟩ := List.mem_map.mp again
        obtain ⟨stamped, named⟩ := Prod.mk.inj same
        refine spent.not_accepted longEnough onward other accepted ?_ ?_
        · rw [IncomingRequest.read, IncomingRequest.read, named]
        · rw [← parsed, IncomingRequest.read, IncomingRequest.read, stamped]
      · simp only [acceptedOf, refused]
        exact ih used' nondecreasing

/-- A request that is signed for 300 seconds ahead passes at once, and not at the last moment
    at which it is fresh nor after it; another one in between runs the cleanup. -/
theorem early_request_passes_once :
    let copy : IncomingRequest :=
      ⟨some "300", some "n1", some (hexEncode fun _ => 0), some "body", "text"⟩
    let other : IncomingRequest := { copy with nonce := some "n2", rawBody := none }
    let requests := [(0, copy), (600, other), (600, copy), (601, copy)]
    acceptedOf zeroDigests (defaultConfig "secret") ∅ requests = [copy, other] ∧
      ((acceptedOf zeroDigests (defaultConfig "secret") ∅ requests).map fun request =>
        (request.timestamp, request.nonce)).Nodup := by
  intro copy other requests
  exact ⟨by decide +kernel, accepted_not_replayed zeroDigests (defaultConfig "secret") (by decide) ∅
    requests (by decide)⟩

end Spatiad
