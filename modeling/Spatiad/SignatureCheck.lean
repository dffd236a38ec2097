import Spatiad.NonceReplay
import Mathlib.Algebra.BigOperators.Group.List.Basic

/-! # What the signature check throws

`timingSafeEqualHex` compares lengths in UTF-16 units before it hands two buffers to a
primitive that throws when their UTF-8 lengths differ.  A header value may hold any
character up to U+00FF, and those beyond ASCII take two bytes.
-/

namespace Spatiad

open Foundation

/-! ## Lengths -/

/-- A header value as Node hands it over. -/
def HeaderText (text : String) : Prop := ∀ c ∈ text.toList, 1 ≤ c.toNat ∧ c.toNat ≤ 255

instance (text : String) : Decidable (HeaderText text) :=
  inferInstanceAs (Decidable (∀ c ∈ text.toList, _))

def IncomingRequest.Deliverable (request : IncomingRequest) : Prop :=
  ∀ value ∈ [request.timestamp, request.nonce, request.signature], ∀ text ∈ value, HeaderText text

instance (request : IncomingRequest) : Decidable request.Deliverable :=
  inferInstanceAs (Decidable (∀ value ∈ _, ∀ text ∈ value, HeaderText text))

theorem utf8ByteSize_ofList (text : List Char) :
    (String.ofList text).utf8ByteSize = (text.map Char.utf8Size).sum := by
  induction text with
  | nil => rfl
  | cons c rest ih =>
      have parts : String.ofList (c :: rest) = String.singleton c ++ String.ofList rest := by
        rw [String.singleton_eq_ofList, ← String.ofList_append]
        rfl
      rw [parts, String.utf8ByteSize_append, String.utf8ByteSize_singleton, ih]
      rfl

theorem utf8Size_ascii_iff {c : Char} : c.utf8Size = 1 ↔ c.toNat ≤ 127 := Char.utf8Size_eq_one_iff

/-- A text takes more bytes than it has characters exactly if one is not ASCII. -/
theorem utf8ByteSize_eq_length_iff (text : List Char) :
    (String.ofList text).utf8ByteSize = text.length ↔ ∀ c ∈ text, c.toNat ≤ 127 := by
  rw [utf8ByteSize_ofList]
  induction text with
  | nil => simp
  | cons c rest ih =>
      have least : rest.length ≤ (rest.map Char.utf8Size).sum := by
        have bytes := List.length_le_sum_of_one_le (rest.map Char.utf8Size) fun n member => by
          obtain ⟨d, _, rfl⟩ := List.mem_map.mp member
          exact d.utf8Size_pos
        rwa [List.length_map] at bytes
      have positive := c.utf8Size_pos
      rw [List.map_cons, List.sum_cons, List.length_cons, List.forall_mem_cons, ← ih,
        ← utf8Size_ascii_iff]
      omega

theorem jsLength_ofList {text : List Char} (small : ∀ c ∈ text, c.toNat < 65536) :
    jsLength (String.ofList text) = text.length := by
  unfold jsLength
  rw [String.toList_ofList]
  induction text with
  | nil => rfl
  | cons c rest ih =>
      obtain ⟨first, later⟩ := List.forall_mem_cons.mp small
      rw [List.map_cons, List.sum_cons, if_pos first, ih later, List.length_cons, Nat.add_comm]

theorem lowerLatin1_range {c : Char} (range : c.toNat ≤ 255) :
    (lowerLatin1 c).toNat ≤ 255 ∧ ((lowerLatin1 c).toNat ≤ 127 ↔ c.toNat ≤ 127) := by
  have all : ∀ n : Fin 256, (lowerLatin1 (Char.ofNat n)).toNat ≤ 255 ∧
      ((lowerLatin1 (Char.ofNat n)).toNat ≤ 127 ↔ (Char.ofNat n).toNat ≤ 127) := by
    decide +kernel
  have here := all ⟨c.toNat, Nat.lt_succ_of_le range⟩
  rwa [Char.ofNat_toNat] at here

theorem mem_jsTrim {text : List Char} {c : Char} (member : c ∈ jsTrim text) : c ∈ text := by
  have turned := List.mem_reverse.mp member
  have front := List.mem_reverse.mp ((List.dropWhile_suffix _).mem turned)
  exact (List.dropWhile_suffix _).mem front

section trimmed

variable {signature : String} (readable : HeaderText signature)

include readable

theorem jsTrim_range {c : Char} (member : c ∈ jsTrim signature.toList) : c.toNat ≤ 255 :=
  (readable c (mem_jsTrim member)).2

theorem jsLength_trimLower : jsLength (trimLower signature) = (jsTrim signature.toList).length := by
  unfold trimLower
  rw [jsLength_ofList, List.length_map]
  intro d member
  obtain ⟨c, inText, rfl⟩ := List.mem_map.mp member
  exact Nat.lt_of_le_of_lt (lowerLatin1_range (jsTrim_range readable inText)).1 (by decide)

theorem utf8ByteSize_trimLower_iff :
    (trimLower signature).utf8ByteSize = (jsTrim signature.toList).length ↔
      ∀ c ∈ jsTrim signature.toList, c.toNat ≤ 127 := by
  have bytes := utf8ByteSize_eq_length_iff ((jsTrim signature.toList).map lowerLatin1)
  rw [List.length_map, List.forall_mem_map] at bytes
  refine bytes.trans (forall₂_congr fun c member => ?_)
  exact (lowerLatin1_range (jsTrim_range readable member)).2

end trimmed

theorem hexEncode_sizes (bytes : Fin 32 → Fin 256) :
    jsLength (hexEncode bytes) = 64 ∧ (hexEncode bytes).utf8ByteSize = 64 := by
  have digits : ∀ d : Fin 16, (hexDigit d).toNat ≤ 127 := by decide
  have ascii : ∀ c ∈ (List.ofFn bytes).flatMap (fun b => [hexDigit (b.val / 16), hexDigit (b.val % 16)]),
      c.toNat ≤ 127 := by
    intro c member
    simp only [List.mem_flatMap, List.mem_cons, List.not_mem_nil, or_false] at member
    obtain ⟨b, _, rfl | rfl⟩ := member
    · exact digits ⟨b.val / 16, by omega⟩
    · exact digits ⟨b.val % 16, by omega⟩
  have length : ((List.ofFn bytes).flatMap fun b =>
      [hexDigit (b.val / 16), hexDigit (b.val % 16)]).length = 64 := by
    simp
  unfold hexEncode
  constructor
  · rw [jsLength_ofList fun c member => Nat.lt_of_le_of_lt (ascii c member) (by decide), length]
  · rw [(utf8ByteSize_eq_length_iff _).mpr ascii, length]

/-! ## The comparison -/

/-- The comparison throws for a text of 64 characters that are not all ASCII. -/
theorem timingSafeEqualHex_throws_iff (bytes : Fin 32 → Fin 256) {signature : String}
    (readable : HeaderText signature) :
    timingSafeEqualHex (hexEncode bytes) (trimLower signature) = none ↔
      (jsTrim signature.toList).length = 64 ∧ ∃ c ∈ jsTrim signature.toList, 127 < c.toNat := by
  obtain ⟨length, size⟩ := hexEncode_sizes bytes
  have ascii := utf8ByteSize_trimLower_iff readable
  have someWide : (∃ c ∈ jsTrim signature.toList, 127 < c.toNat) ↔
      (trimLower signature).utf8ByteSize ≠ (jsTrim signature.toList).length := by
    rw [ne_eq, ascii]
    simp only [not_forall, not_le, exists_prop]
  unfold timingSafeEqualHex
  rw [length, size, jsLength_trimLower readable, someWide]
  split
  · rename_i other
    exact iff_of_false (Option.some_ne_none _) fun both => other both.1.symm
  · rename_i same
    split
    · rename_i different
      have same := not_not.mp same
      exact iff_of_true rfl ⟨same.symm, fun sizes => different (same.trans sizes.symm)⟩
    · rename_i sizes
      have same := not_not.mp same
      exact iff_of_false (Option.some_ne_none _) fun both => both.2 ((not_not.mp sizes).symm.trans same)

/-! ## Requests that get as far -/

variable {libraries : WebhookLibraries} {config : WebhookVerificationConfig} {nowTs : Int}
  {used : UsedNonces} {request : IncomingRequest}

/-- No check before that of the signature refuses the request. -/
structure ReachesSignature (config : WebhookVerificationConfig) (nowTs : Int) (used : UsedNonces)
    (request : IncomingRequest) (timestamp nonce signature : String) : Prop where
  stamped : header request.timestamp = some timestamp
  named : header request.nonce = some nonce
  signed : header request.signature = some signature
  fresh : ∃ ts, parseInt timestamp = some ts ∧ |nowTs - ts| ≤ config.maxSkew
  /-- The nonce has not been seen, or too long ago. -/
  unused : ∀ seenAt, used.lookup nonce = some seenAt → config.nonceTtl < nowTs - seenAt

def expectedSignature (libraries : WebhookLibraries) (config : WebhookVerificationConfig)
    (request : IncomingRequest) (timestamp nonce : String) : String :=
  hexEncode (libraries.hmacSha256 config.secret (timestamp ++ "." ++ nonce ++ "." ++ request.read.body))

def compared (nowTs : Int) (nonce : String) (cleaned : UsedNonces) :
    Option Bool → Except Refusal Unit × UsedNonces
  | none => (.error ⟨500, "Internal Server Error"⟩, cleaned)
  | some false => (.error ⟨401, "invalid webhook signature"⟩, cleaned)
  | some true => (.ok (), cleaned.insert nonce nowTs)

theorem header_getD (value : Option String) : header (some (value.getD "")) = header value := by
  cases value with
  | none => rfl
  | some text => rfl

theorem unused_iff (nonce : String) :
    ((cleanupExpiredNonces nowTs config.nonceTtl used).lookup nonce).isSome = false ↔
      ∀ seenAt, used.lookup nonce = some seenAt → config.nonceTtl < nowTs - seenAt := by
  rw [lookup_cleanup, Option.isSome_eq_false_iff, Option.isNone_iff_eq_none,
    Option.filter_eq_none_iff]
  simp only [decide_eq_true_eq, not_le]

/-- A request is refused before its signature is looked at, or comes to the comparison. -/
theorem verify_reaches (libraries : WebhookLibraries) (config : WebhookVerificationConfig)
    (nowTs : Int) (used : UsedNonces) (request : IncomingRequest) :
    (∃ timestamp nonce signature,
      ReachesSignature config nowTs used request timestamp nonce signature ∧
      verifySpatiadWebhook libraries config nowTs used request.read =
        compared nowTs nonce (cleanupExpiredNonces nowTs config.nonceTtl used)
          (timingSafeEqualHex (expectedSignature libraries config request timestamp nonce)
            (trimLower signature))) ∨
    (∀ timestamp nonce signature,
      ¬ ReachesSignature config nowTs used request timestamp nonce signature) ∧
      ∃ error used', verifySpatiadWebhook libraries config nowTs used request.read =
          (.error ⟨401, error⟩, used') ∧
        (used' = used ∨ used' = cleanupExpiredNonces nowTs config.nonceTtl used) := by
  simp only [verifySpatiadWebhook, IncomingRequest.read, header_getD]
  split
  · rename_i timestamp nonce signature stamped named signed
    split
    · rename_i unreadable
      refine .inr ⟨fun t n s reaches => ?_, _, _, rfl, .inl rfl⟩
      obtain rfl := Option.some.inj (stamped.symm.trans reaches.stamped)
      obtain ⟨ts, parsed, _⟩ := reaches.fresh
      cases unreadable.symm.trans parsed
    · rename_i ts parsed
      split
      · rename_i skewed
        refine .inr ⟨fun t n s reaches => ?_, _, _, rfl, .inl rfl⟩
        obtain rfl := Option.some.inj (stamped.symm.trans reaches.stamped)
        obtain ⟨ts', parsed', inSkew⟩ := reaches.fresh
        obtain rfl := Option.some.inj (parsed.symm.trans parsed')
        exact absurd inSkew (not_le.mpr skewed)
      · rename_i inSkew
        split
        · rename_i replayed
          refine .inr ⟨fun t n s reaches => ?_, _, _, rfl, .inr rfl⟩
          obtain rfl := Option.some.inj (named.symm.trans reaches.named)
          cases replayed.symm.trans ((unused_iff nonce).mpr reaches.unused)
        · rename_i unused
          have unused := (unused_iff nonce).mp (Bool.eq_false_iff.mpr unused)
          have reaches : ReachesSignature config nowTs used request timestamp nonce signature :=
            ⟨stamped, named, signed, ⟨ts, parsed, not_lt.mp inSkew⟩, unused⟩
          refine .inl ⟨timestamp, nonce, signature, reaches, ?_⟩
          split <;> rename_i outcome <;> rw [expectedSignature, IncomingRequest.read, outcome] <;> rfl
  · rename_i missing
    refine .inr ⟨fun t n s reaches => ?_, _, _, rfl, .inl rfl⟩
    exact missing t n s reaches.stamped reaches.named reaches.signed

/-! ## Answers -/

/-- `timingSafeEqual` is called with the buffers of these two texts. -/
def ComparesBuffers (libraries : WebhookLibraries) (config : WebhookVerificationConfig)
    (nowTs : Int) (used : UsedNonces) (request : IncomingRequest) (expected provided : String) :
    Prop :=
  ∃ timestamp nonce signature,
    ReachesSignature config nowTs used request timestamp nonce signature ∧
    expected = expectedSignature libraries config request timestamp nonce ∧
    provided = trimLower signature ∧ jsLength expected = jsLength provided

/-- The request is let pass or answered 401, nothing is thrown on the way, and a 401 leaves no
    nonce in the table that was not there. -/
structure HandledSafely (libraries : WebhookLibraries) (config : WebhookVerificationConfig)
    (nowTs : Int) (used : UsedNonces) (request : IncomingRequest) : Prop where
  answered : (verifySpatiadWebhook libraries config nowTs used request.read).1 = .ok () ∨
    ∃ error, (verifySpatiadWebhook libraries config nowTs used request.read).1 =
      .error ⟨401, error⟩
  sameSizes : ∀ expected provided,
    ComparesBuffers libraries config nowTs used request expected provided →
    expected.utf8ByteSize = provided.utf8ByteSize
  nothingAdded : ∀ error, (verifySpatiadWebhook libraries config nowTs used request.read).1 =
      .error ⟨401, error⟩ →
    ∀ nonce, used.lookup nonce = none →
      (verifySpatiadWebhook libraries config nowTs used request.read).2.lookup nonce = none

theorem refusal_adds_nothing {refusal : Refusal}
    (refused : (verifySpatiadWebhook libraries config nowTs used request.read).1 = .error refusal)
    {nonce : String} (unknown : used.lookup nonce = none) :
    (verifySpatiadWebhook libraries config nowTs used request.read).2.lookup nonce = none := by
  rcases verify_cases libraries config nowTs used request.read with
    ⟨used', passed, _⟩ | ⟨_, used', same, rfl | rfl⟩
  · rw [passed] at refused
    cases refused
  · rw [same]
    exact unknown
  · rw [same]
    exact lookup_cleanup_of_none _ _ _ _ unknown

theorem ReachesSignature.unique {t n s t' n' s' : String}
    (reaches : ReachesSignature config nowTs used request t n s)
    (again : ReachesSignature config nowTs used request t' n' s') : t = t' ∧ n = n' ∧ s = s' :=
  ⟨Option.some.inj (reaches.stamped.symm.trans again.stamped),
    Option.some.inj (reaches.named.symm.trans again.named),
    Option.some.inj (reaches.signed.symm.trans again.signed)⟩

theorem answered_iff :
    ((verifySpatiadWebhook libraries config nowTs used request.read).1 = .ok () ∨
      ∃ error, (verifySpatiadWebhook libraries config nowTs used request.read).1 =
        .error ⟨401, error⟩) ↔
    ∀ t n s, ReachesSignature config nowTs used request t n s →
      timingSafeEqualHex (expectedSignature libraries config request t n) (trimLower s) ≠ none := by
  cases verify_reaches libraries config nowTs used request with
  | inl compares =>
      obtain ⟨t, n, s, reaches, same⟩ := compares
      rw [same]
      constructor
      · intro answered t' n' s' reaches' thrown
        obtain ⟨rfl, rfl, rfl⟩ := reaches.unique reaches'
        rw [thrown] at answered
        rcases answered with passed | ⟨error, refused⟩
        · cases passed
        · cases refused
      · intro tame
        cases outcome : timingSafeEqualHex (expectedSignature libraries config request t n)
            (trimLower s) with
        | none => exact absurd outcome (tame t n s reaches)
        | some equal =>
            cases equal with
            | false => exact .inr ⟨_, rfl⟩
            | true => exact .inl rfl
  | inr refused =>
      obtain ⟨never, error, used', same, _⟩ := refused
      exact iff_of_true (.inr ⟨error, by rw [same]⟩) fun t n s reaches => absurd reaches (never t n s)

theorem ComparesBuffers.sameSize {expected provided : String}
    (compares : ComparesBuffers libraries config nowTs used request expected provided)
    (tame : ∀ t n s, ReachesSignature config nowTs used request t n s →
      timingSafeEqualHex (expectedSignature libraries config request t n) (trimLower s) ≠ none) :
    expected.utf8ByteSize = provided.utf8ByteSize := by
  obtain ⟨t, n, s, reaches, rfl, rfl, sameLength⟩ := compares
  by_contra different
  apply tame t n s reaches
  rw [timingSafeEqualHex, if_neg (not_not.mpr sameLength), if_pos different]

/-- A request is handled safely unless it gets as far as its signature, and that has 64
    characters, not all of them ASCII, after trimming. -/
theorem handled_safely_iff (libraries : WebhookLibraries) (config : WebhookVerificationConfig)
    (nowTs : Int) (used : UsedNonces) (request : IncomingRequest)
    (deliverable : request.Deliverable) :
    HandledSafely libraries config nowTs used request ↔
      ∀ timestamp nonce signature,
        ReachesSignature config nowTs used request timestamp nonce signature →
        ¬ ((jsTrim signature.toList).length = 64 ∧ ∃ c ∈ jsTrim signature.toList, 127 < c.toNat) := by
  have tame_iff : ∀ t n s, ReachesSignature config nowTs used request t n s →
      (timingSafeEqualHex (expectedSignature libraries config request t n) (trimLower s) ≠ none ↔
        ¬ ((jsTrim s.toList).length = 64 ∧ ∃ c ∈ jsTrim s.toList, 127 < c.toNat)) := by
    intro t n s reaches
    have readable := deliverable request.signature (by simp) _ (header_eq_some reaches.signed)
    exact not_congr (timingSafeEqualHex_throws_iff _ readable)
  constructor
  · intro handled t n s reaches
    exact (tame_iff t n s reaches).mp (answered_iff.mp handled.answered t n s reaches)
  · intro tame
    have tame := fun t n s reaches => (tame_iff t n s reaches).mpr (tame t n s reaches)
    exact ⟨answered_iff.mpr tame, fun _ _ compares => compares.sameSize tame,
      fun _ refused _ unknown => refusal_adds_nothing refused unknown⟩

def hostileRequest : IncomingRequest where
  timestamp := some "0"
  nonce := some "n1"
  signature := some (String.ofList (List.replicate 64 'é'))
  rawBody := some "body"
  bodyText := ""

theorem deliverable_repeated {c : Char} (plain : 1 ≤ c.toNat ∧ c.toNat ≤ 255) :
    ({ hostileRequest with signature := some (String.ofList (List.replicate 64 c)) } :
      IncomingRequest).Deliverable := by
  intro value member text given
  simp only [List.mem_cons, List.not_mem_nil, or_false] at member
  -- the clock and the nonce are digits and a letter, the signature repeats one character
  obtain rfl | rfl | rfl := member
  · cases given
    intro d digit
    have clock : ("0" : String).toList = ['0'] := rfl
    obtain rfl := List.mem_singleton.mp (clock ▸ digit)
    decide
  · cases given
    intro d inNonce
    have nonce : ("n1" : String).toList = ['n', '1'] := rfl
    rw [nonce, List.mem_cons, List.mem_singleton] at inNonce
    obtain rfl | rfl := inNonce <;> decide
  · cases given
    intro d repeated
    rw [String.toList_ofList] at repeated
    obtain rfl := List.eq_of_mem_replicate repeated
    exact plain

/-- A signature of 64 letters é makes the comparison throw. -/
theorem hostile_request_throws :
    ¬ ∀ (libraries : WebhookLibraries) (config : WebhookVerificationConfig) (nowTs : Int)
      (used : UsedNonces) (request : IncomingRequest),
      request.Deliverable → HandledSafely libraries config nowTs used request := by
  intro safe
  have handled := safe zeroDigests (defaultConfig "secret") 0 ∅ hostileRequest
    (deliverable_repeated (by decide))
  have thrown : (verifySpatiadWebhook zeroDigests (defaultConfig "secret") 0 ∅
      hostileRequest.read).1 = .error ⟨500, "Internal Server Error"⟩ := by decide +kernel
  rcases handled.answered with passed | ⟨error, refused⟩
  · cases thrown.symm.trans passed
  · cases thrown.symm.trans refused

/-- A signature of 64 wrong characters that are ASCII is compared and refused. -/
theorem wrong_signature_refused :
    HandledSafely zeroDigests (defaultConfig "secret") 0 ∅
      { hostileRequest with signature := some (String.ofList (List.replicate 64 'e')) } := by
  refine (handled_safely_iff zeroDigests (defaultConfig "secret") 0 ∅ _
    (deliverable_repeated (by decide))).mpr ?_
  rintro timestamp nonce signature reaches ⟨_, c, member, wide⟩
  obtain rfl := Option.some.inj (header_eq_some reaches.signed)
  obtain rfl := List.eq_of_mem_replicate (String.toList_ofList ▸ mem_jsTrim member)
  exact absurd wide (by decide)

end Spatiad
