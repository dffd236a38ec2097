import Spatiad.EventsEndpoint
import Spatiad.TimestampRoundTrip
import Spatiad.Foundation.FormUrlencoded

/-! # Event requests on the wire

Each SDK writes a request for events as a query of its own; the endpoint reads them
all with one extractor, of which only what it makes of a form is known.  What arrives is
what was asked for, but for the kinds of the Java client and the pluses of the Swift
client, on which every cursor depends.
-/

namespace Spatiad

open Foundation Foundation.FormUrlencoded

/-! ## Writers -/

/-- `URLSearchParams` -/
def urlSearchParams : Escaper := .leaving ['*', '-', '.', '_'] true

/-- `url.QueryEscape` -/
def goQueryEscape : Escaper := .leaving ['-', '_', '.', '~'] true

/-- `URLEncoder.encode` -/
def javaUrlEncoder : Escaper := .leaving ['.', '-', '*', '_'] true

/-- `URLComponents.queryItems`: all that RFC 3986 allows in a query, except `&`, `;` and `=`. -/
def urlQueryItems : Escaper :=
  .leaving ['-', '.', '_', '~', '!', '$', Char.ofNat 0x27, '(', ')', '*', '+', ',', ':', '@', '/',
    '?'] false

theorem writers_frame :
    urlSearchParams.Frames ∧ goQueryEscape.Frames ∧ javaUrlEncoder.Frames ∧
      urlQueryItems.Frames := by
  refine ⟨?_, ?_, ?_, ?_⟩ <;> exact Escaper.leaving_frames (by decide) _

/-- The query builders of `okhttp3` and `httpx`. -/
structure QueryBuilders where
  addQueryParameters : List (String × String) → Bytes
  httpxParams : List (String × String) → Bytes

/-- They percent-encode what they are given, the plus with it. -/
structure QueryBuilders.WriteForms (builders : QueryBuilders) : Prop where
  addQueryParameters : ∀ pairs, Form (builders.addQueryParameters pairs) (texts pairs)
  httpxParams : ∀ pairs, Form (builders.httpxParams pairs) (texts pairs)

/-! ## Requests -/

/-- What a caller may ask an SDK for; only the TypeScript client knows `before`. -/
structure JobEventsParams where
  limit : Option Int
  cursor : Option String
  before : Option String
  kinds : List String
  deriving DecidableEq, Repr

def param (name : String) (value : Option String) : List (String × String) :=
  (value.map fun text => (name, text)).toList

/-- What counts as given where an empty text is falsy. -/
def truthy (text : Option String) : Option String := text.filter (· != "")

def limitText (limit : Option Int) : Option String := limit.map toString

def joinKinds (kinds : List String) : Option String :=
  if kinds.isEmpty then none else some (",".intercalate kinds)

namespace TypeScript

/-- The query of `buildJobEventsUrl`, for a limit that `String` writes out in full: a safe
    integer. -/
def buildJobEventsUrl (request : JobEventsParams) : Except String Bytes :=
  if (truthy request.before).isSome && (truthy request.cursor).isSome then
    .error "use either 'before' or 'cursor', not both"
  else
    .ok (urlSearchParams.serialize (texts
      (param "limit" (limitText request.limit) ++ param "cursor" (truthy request.cursor) ++
        param "before" (truthy request.before) ++ param "kinds" (joinKinds request.kinds))))

end TypeScript

namespace Go

/-- The query of `GetJobEvents`; `Encode` sorts by name. -/
def getJobEvents (request : JobEventsParams) : Bytes :=
  goQueryEscape.serialize (texts
    (param "cursor" (truthy request.cursor) ++ param "kinds" (joinKinds request.kinds) ++
      param "limit" (limitText (request.limit.filter (0 < ·)))))

end Go

namespace Python

def eventsQueryParams (request : JobEventsParams) : List (String × String) :=
  param "limit" (limitText request.limit) ++ param "cursor" request.cursor ++
    param "kinds" (joinKinds request.kinds)

/-- The query of `get_job_events`. -/
def getJobEvents (builders : QueryBuilders) (request : JobEventsParams) : Bytes :=
  builders.httpxParams (eventsQueryParams request)

end Python

namespace Kotlin

def getJobEvents (builders : QueryBuilders) (request : JobEventsParams) : Bytes :=
  builders.addQueryParameters
    (param "limit" (limitText request.limit) ++ param "cursor" request.cursor ++
      param "kinds" (joinKinds request.kinds))

end Kotlin

namespace Java

def encode (value : String) : Bytes := javaUrlEncoder.escape (utf8 value)

/-- The query of `getJobEvents`: one `kinds` for each kind. -/
def getJobEvents (request : JobEventsParams) : Bytes :=
  [0x26].intercalate
    ((limitText request.limit).toList.map (fun limit => utf8 ("limit=" ++ limit)) ++
      request.cursor.toList.map (fun cursor => utf8 "cursor=" ++ encode cursor) ++
      request.kinds.map fun kind => utf8 "kinds=" ++ encode kind)

end Java

namespace Swift

def getJobEvents (request : JobEventsParams) : Bytes :=
  urlQueryItems.serialize (texts
    (param "limit" (limitText request.limit) ++ param "cursor" request.cursor ++
      param "kinds" (joinKinds request.kinds)))

end Swift

/-! ## The extractor -/

def queryFields : List String := ["limit", "before", "cursor", "kinds"]

def parseLimit : Option String → Option (Option Nat)
  | none => some none
  | some text => (parseU64 text.toList).map some

/-- What is known of `Query<JobEventsQuery>`: of a form of its own fields it takes each by
    its name, and refuses a limit that is no number and a field that is given twice. -/
structure ExtractsForms (extract : Bytes → Option JobEventsQuery) : Prop where
  fields : ∀ {query : Bytes} {pairs : List (String × String)}, Form query (texts pairs) →
    (∀ pair ∈ pairs, pair.1 ∈ queryFields) → (pairs.map Prod.fst).Nodup →
    extract query = (parseLimit (pairs.lookup "limit")).map fun limit =>
      ⟨limit, pairs.lookup "before", pairs.lookup "cursor", pairs.lookup "kinds"⟩
  duplicate : ∀ {query : Bytes} {pairs : List (String × String)}, Form query (texts pairs) →
    (∀ pair ∈ pairs, pair.1 ∈ queryFields) → ¬ (pairs.map Prod.fst).Nodup → extract query = none

/-! ## Limits -/

/-- The limit that is read: one that fits, or none. -/
def readLimit : Option Int → Option (Option Nat)
  | none => some none
  | some limit => if 0 ≤ limit ∧ limit < 2 ^ 64 then some (some limit.toNat) else none

theorem toString_negSucc (n : Nat) :
    (toString (Int.negSucc n)).toList = '-' :: Nat.toDigits 10 (n + 1) := by
  show ("-" ++ Nat.repr (n + 1)).toList = _
  rw [String.toList_append, Nat.toList_repr]
  rfl

theorem parseU64_toString (limit : Int) :
    parseU64 (toString limit).toList =
      if 0 ≤ limit ∧ limit < 2 ^ 64 then some limit.toNat else none := by
  cases limit with
  | ofNat n =>
      have text : (toString (Int.ofNat n)).toList = Nat.toDigits 10 n := Nat.toList_repr
      obtain ⟨d, rest, digits, isDigit⟩ := Numeral.head_toDigits n
      have unsigned : d ≠ '+' := by
        rintro rfl
        cases isDigit
      have whole := Numeral.whole_toDigits n
      rw [text]
      rw [digits] at whole ⊢
      simp [parseU64, unsigned, whole, Option.filter]
  | negSucc n =>
      have negative : ¬ (0 ≤ Int.negSucc n ∧ Int.negSucc n < 2 ^ 64) := fun both =>
        absurd both.1 (by omega)
      rw [toString_negSucc, if_neg negative]
      rfl

theorem parseLimit_limitText (limit : Option Int) : parseLimit (limitText limit) = readLimit limit := by
  cases limit with
  | none => rfl
  | some limit =>
      simp only [parseLimit, limitText, Option.map_some, parseU64_toString, readLimit]
      split <;> rfl

/-! ## What is taken in -/

def given (fields : List (String × Option String)) : List (String × String) :=
  fields.flatMap fun field => param field.1 field.2

theorem given_four (a b c d : String × Option String) :
    param a.1 a.2 ++ param b.1 b.2 ++ param c.1 c.2 ++ param d.1 d.2 = given [a, b, c, d] := by
  simp only [given, List.flatMap_cons, List.flatMap_nil, List.append_nil, List.append_assoc]

theorem given_names (fields : List (String × Option String)) :
    ((given fields).map Prod.fst).Sublist (fields.map Prod.fst) := by
  induction fields with
  | nil => exact .slnil
  | cons field rest ih =>
      obtain ⟨name, value⟩ := field
      cases value with
      | none => exact ih.cons name
      | some text => exact ih.cons_cons name

theorem given_lookup {fields : List (String × Option String)}
    (names : (fields.map Prod.fst).Nodup) :
    ∀ field ∈ fields, (given fields).lookup field.1 = field.2 := by
  induction fields with
  | nil => exact nofun
  | cons first rest ih =>
      obtain ⟨name, value⟩ := first
      obtain ⟨fresh, names⟩ := List.nodup_cons.mp names
      have absent : (given rest).lookup name = none := by
        rw [List.lookup_eq_none_iff]
        intro pair member
        rw [bne_iff_ne]
        rintro rfl
        exact fresh ((given_names rest).subset (List.mem_map_of_mem member))
      intro field member
      rcases List.mem_cons.mp member with rfl | later
      · cases value with
        | none => exact absent
        | some text => exact List.lookup_cons_self
      · have other : field.1 ≠ name := fun same => fresh (same ▸ List.mem_map.mpr ⟨field, later, rfl⟩)
        have found := ih names field later
        cases value with
        | none => exact found
        | some text =>
            have passed : (field.1 == name) = false := beq_false_of_ne other
            show List.lookup field.1 ((name, text) :: given rest) = field.2
            rw [List.lookup_cons, passed]
            exact found

section extract

variable {extract : Bytes → Option JobEventsQuery} (extracts : ExtractsForms extract)
include extracts

theorem extract_given {names : List String} (all : names.Perm queryFields) {query : Bytes}
    {pairs : List (String × String)} (form : Form query (texts pairs))
    {fields : List (String × Option String)} (sent : pairs = given fields)
    (named : fields.map Prod.fst = names) {limit : Option Int}
    {before cursor kinds : Option String}
    (values : ("limit", limitText limit) ∈ fields ∧ ("before", before) ∈ fields ∧
      ("cursor", cursor) ∈ fields ∧ ("kinds", kinds) ∈ fields) :
    extract query = (readLimit limit).map fun limit => ⟨limit, before, cursor, kinds⟩ := by
  subst sent named
  have names : (fields.map Prod.fst).Nodup := all.nodup_iff.mpr (by decide)
  have known : ∀ pair ∈ given fields, pair.1 ∈ queryFields := fun pair member =>
    all.subset ((given_names fields).subset (List.mem_map_of_mem member))
  have found := given_lookup names
  obtain ⟨limitIn, beforeIn, cursorIn, kindsIn⟩ := values
  rw [extracts.fields form known ((given_names fields).nodup names), found _ limitIn,
    found _ beforeIn, found _ cursorIn, found _ kindsIn, parseLimit_limitText]

end extract

theorem param_plusesLost {name : String} (same : plusesLost name = name) (value : Option String) :
    (param name value).map (fun pair => (plusesLost pair.1, plusesLost pair.2)) =
      param name (value.map plusesLost) := by
  cases value with
  | none => rfl
  | some text => simp [param, same]

theorem limit_chars {limit : Int} {c : Char} (member : c ∈ (toString limit).toList) :
    c = '-' ∨ c.isDigit = true := by
  cases limit with
  | ofNat n =>
      have text : (toString (Int.ofNat n)).toList = Nat.toDigits 10 n := Nat.toList_repr
      rw [text] at member
      exact .inr (List.all_eq_true.mp (Numeral.all_isDigit_toDigits n) c member)
  | negSucc n =>
      rw [toString_negSucc] at member
      rcases List.mem_cons.mp member with sign | digit
      · exact .inl sign
      · exact .inr (List.all_eq_true.mp (Numeral.all_isDigit_toDigits (n + 1)) c digit)

theorem plusesLost_limitText (limit : Option Int) :
    (limitText limit).map plusesLost = limitText limit := by
  cases limit with
  | none => rfl
  | some limit =>
      have same : (toString limit).toList.map (fun c => if c = '+' then ' ' else c) =
          (toString limit).toList := by
        conv_rhs => rw [← List.map_id (toString limit).toList]
        apply List.map_congr_left
        intro c member
        refine if_neg ?_
        rintro rfl
        rcases limit_chars member with sign | digit
        · cases sign
        · cases digit
      simp only [limitText, Option.map_some, plusesLost, same, String.ofList_toList]

/-! ### One `kinds` for each kind -/

theorem java_plain {c : Char} (plain : c = '-' ∨ c.isDigit = true) :
    ∀ b ∈ String.utf8EncodeChar c, b ≠ 0x20 ∧ javaUrlEncoder.plain b = true := by
  have range : c.val.toNat = 45 ∨ 48 ≤ c.val.toNat ∧ c.val.toNat ≤ 57 := by
    rcases plain with rfl | digit
    · exact .inl rfl
    · exact .inr (by simpa [Char.isDigit, UInt32.le_iff_toNat_le] using digit)
  have ascii : c.val.toNat ≤ 0x7F := by omega
  simp only [String.utf8EncodeChar, if_pos ascii, List.mem_singleton, forall_eq]
  generalize c.val.toNat = n at range
  rcases range with rfl | ⟨low, high⟩
  · exact ⟨by decide, by decide⟩
  · interval_cases n <;> exact ⟨by decide, by decide⟩

/-- A parameter written by hand, where its name and perhaps its value are left as they are. -/
theorem java_field {name : String} {value written : Bytes}
    (plainName : javaUrlEncoder.escape (utf8 name) = utf8 name)
    (same : javaUrlEncoder.escape value = written) :
    utf8 (name ++ "=") ++ written = javaUrlEncoder.field (utf8 name, value) := by
  have equals : utf8 "=" = [0x3D] := by decide
  rw [utf8_append, equals, Escaper.field, plainName, same, List.append_assoc]
  rfl

theorem java_serialized (request : JobEventsParams) :
    Java.getJobEvents request = javaUrlEncoder.serialize (texts
      (param "limit" (limitText request.limit) ++ param "cursor" request.cursor ++
        request.kinds.map fun kind => ("kinds", kind))) := by
  have limitName : javaUrlEncoder.escape (utf8 "limit") = utf8 "limit" := by decide
  have cursorName : javaUrlEncoder.escape (utf8 "cursor") = utf8 "cursor" := by decide
  have kindsName : javaUrlEncoder.escape (utf8 "kinds") = utf8 "kinds" := by decide
  have limitPart : (limitText request.limit).toList.map (fun limit => utf8 ("limit=" ++ limit)) =
      (texts (param "limit" (limitText request.limit))).map javaUrlEncoder.field := by
    cases request.limit with
    | none => rfl
    | some limit =>
        have unescaped : javaUrlEncoder.escape (utf8 (toString limit)) = utf8 (toString limit) := by
          apply Escaper.escape_plain
          intro b member
          obtain ⟨c, inText, inChar⟩ := List.mem_flatMap.mp member
          exact java_plain (limit_chars inText) b inChar
        have part := java_field limitName unescaped
        rw [← utf8_append] at part
        exact congrArg (fun part => [part]) part
  have cursorPart : request.cursor.toList.map (fun cursor => utf8 "cursor=" ++ Java.encode cursor) =
      (texts (param "cursor" request.cursor)).map javaUrlEncoder.field := by
    cases request.cursor with
    | none => rfl
    | some cursor => exact congrArg (fun part => [part]) (java_field cursorName rfl)
  have kindsPart : request.kinds.map (fun kind => utf8 "kinds=" ++ Java.encode kind) =
      (texts (request.kinds.map fun kind => ("kinds", kind))).map javaUrlEncoder.field := by
    rw [texts, List.map_map, List.map_map]
    apply List.map_congr_left
    intro kind _
    exact java_field kindsName rfl
  unfold Java.getJobEvents Escaper.serialize
  rw [limitPart, cursorPart, kindsPart]
  simp only [texts, List.map_append]

/-! ### Client by client -/

section arrives

variable {extract : Bytes → Option JobEventsQuery} (extracts : ExtractsForms extract)
  {builders : QueryBuilders} (writeForms : builders.WriteForms) (request : JobEventsParams)

include extracts

theorem typescript_arrives :
    (TypeScript.buildJobEventsUrl request).map extract =
      if (truthy request.before).isSome && (truthy request.cursor).isSome then
        .error "use either 'before' or 'cursor', not both"
      else .ok ((readLimit request.limit).map fun limit =>
        ⟨limit, truthy request.before, truthy request.cursor, joinKinds request.kinds⟩) := by
  obtain ⟨frames, _⟩ := writers_frame
  unfold TypeScript.buildJobEventsUrl
  split
  · rfl
  · have form := Escaper.texts_form_exact frames rfl (param "limit" (limitText request.limit) ++
      param "cursor" (truthy request.cursor) ++ param "before" (truthy request.before) ++
      param "kinds" (joinKinds request.kinds))
    have sent := given_four ("limit", limitText request.limit) ("cursor", truthy request.cursor)
      ("before", truthy request.before) ("kinds", joinKinds request.kinds)
    have names : ["limit", "cursor", "before", "kinds"].Perm queryFields := by decide
    exact congrArg Except.ok (extract_given extracts names form sent rfl (by simp))

theorem go_arrives :
    extract (Go.getJobEvents request) =
      (readLimit (request.limit.filter (0 < ·))).map fun limit =>
        ⟨limit, none, truthy request.cursor, joinKinds request.kinds⟩ := by
  obtain ⟨_, frames, _⟩ := writers_frame
  have form := Escaper.texts_form_exact frames rfl (param "cursor" (truthy request.cursor) ++
    param "kinds" (joinKinds request.kinds) ++
      param "limit" (limitText (request.limit.filter (0 < ·))))
  have sent := given_four ("cursor", truthy request.cursor) ("kinds", joinKinds request.kinds)
    ("limit", limitText (request.limit.filter (0 < ·))) ("before", none)
  have names : ["cursor", "kinds", "limit", "before"].Perm queryFields := by decide
  exact extract_given extracts names form (sent ▸ (List.append_nil _).symm) rfl (by simp)

theorem arrives_in_order {query : Bytes} {limit : Option Int} {cursor kinds : Option String}
    (form : Form query (texts
      (param "limit" (limitText limit) ++ param "cursor" cursor ++ param "kinds" kinds))) :
    extract query = (readLimit limit).map fun limit => ⟨limit, none, cursor, kinds⟩ := by
  have sent := given_four ("limit", limitText limit) ("cursor", cursor) ("kinds", kinds)
    ("before", none)
  have names : ["limit", "cursor", "kinds", "before"].Perm queryFields := by decide
  exact extract_given extracts names form (sent ▸ (List.append_nil _).symm) rfl (by simp)

theorem java_arrives :
    extract (Java.getJobEvents request) =
      (readLimit request.limit).bind fun limit =>
        if request.kinds.length ≤ 1 then some ⟨limit, none, request.cursor, request.kinds.head?⟩
        else none := by
  obtain ⟨_, _, frames, _⟩ := writers_frame
  have form := Escaper.texts_form_exact frames rfl
    (param "limit" (limitText request.limit) ++ param "cursor" request.cursor ++
      request.kinds.map fun kind => ("kinds", kind))
  rw [← java_serialized] at form
  by_cases one : request.kinds.length ≤ 1
  · have kinds : (request.kinds.map fun kind => ("kinds", kind)) =
        param "kinds" request.kinds.head? := by
      match kinds : request.kinds, one with
      | [], _ => rfl
      | [kind], _ => rfl
    rw [kinds] at form
    rw [arrives_in_order extracts form]
    simp only [if_pos one]
    cases readLimit request.limit <;> rfl
  · have known : ∀ pair ∈ param "limit" (limitText request.limit) ++ param "cursor" request.cursor ++
        request.kinds.map fun kind => ("kinds", kind), pair.1 ∈ queryFields := by
      intro pair member
      simp only [param, List.mem_append, Option.mem_toList, Option.map_eq_some_iff,
        List.mem_map] at member
      rcases member with (⟨_, _, rfl⟩ | ⟨_, _, rfl⟩) | ⟨_, _, rfl⟩
      · exact .head _
      · exact .tail _ (.tail _ (.head _))
      · exact .tail _ (.tail _ (.tail _ (.head _)))
    have twice : ¬ ((param "limit" (limitText request.limit) ++ param "cursor" request.cursor ++
        request.kinds.map fun kind => ("kinds", kind)).map Prod.fst).Nodup := by
      intro distinct
      rw [List.map_append, List.map_map] at distinct
      have kinds := (List.nodup_append.mp distinct).2.1
      match all : request.kinds, one with
      | _ :: _ :: _, _ => simp [all] at kinds
      | [_], one => exact one (le_refl 1)
      | [], one => exact one (Nat.zero_le 1)
    rw [extracts.duplicate form known twice]
    simp only [if_neg one]
    cases readLimit request.limit <;> rfl

include writeForms in
theorem kotlin_arrives :
    extract (Kotlin.getJobEvents builders request) =
      (readLimit request.limit).map fun limit =>
        ⟨limit, none, request.cursor, joinKinds request.kinds⟩ :=
  arrives_in_order extracts (writeForms.addQueryParameters _)

include writeForms in
theorem python_arrives :
    extract (Python.getJobEvents builders request) =
      (readLimit request.limit).map fun limit =>
        ⟨limit, none, request.cursor, joinKinds request.kinds⟩ :=
  arrives_in_order extracts (writeForms.httpxParams _)

theorem swift_arrives :
    extract (Swift.getJobEvents request) =
      (readLimit request.limit).map fun limit =>
        ⟨limit, none, request.cursor.map plusesLost, (joinKinds request.kinds).map plusesLost⟩ := by
  obtain ⟨_, _, _, frames⟩ := writers_frame
  have plain : urlQueryItems.plain 0x2B = true := by decide
  have limitName : plusesLost "limit" = "limit" := by decide
  have cursorName : plusesLost "cursor" = "cursor" := by decide
  have kindsName : plusesLost "kinds" = "kinds" := by decide
  have form := Escaper.texts_form frames
    (param "limit" (limitText request.limit) ++ param "cursor" request.cursor ++
      param "kinds" (joinKinds request.kinds))
  simp only [plain, if_true, List.map_append, param_plusesLost limitName,
    param_plusesLost cursorName, param_plusesLost kindsName, plusesLost_limitText] at form
  exact arrives_in_order extracts form

end arrives

/-- The events endpoint reads the query of every SDK.  What it reads is what was asked for:
    with the Go, Python and Kotlin clients always; with the TypeScript client for every limit
    that is a safe integer; with the Java client exactly for at most one kind; with the Swift
    client up to every plus, read as a space. -/
theorem events_queries_arrive (extract : Bytes → Option JobEventsQuery)
    (extracts : ExtractsForms extract) (builders : QueryBuilders)
    (writeForms : builders.WriteForms) (request : JobEventsParams) :
    ((∀ limit ∈ request.limit, limit.natAbs < 2 ^ 53) →
      (TypeScript.buildJobEventsUrl request).map extract =
        if (truthy request.before).isSome && (truthy request.cursor).isSome then
          .error "use either 'before' or 'cursor', not both"
        else .ok ((readLimit request.limit).map fun limit =>
          ⟨limit, truthy request.before, truthy request.cursor, joinKinds request.kinds⟩)) ∧
    extract (Go.getJobEvents request) =
      (readLimit (request.limit.filter (0 < ·))).map (fun limit =>
        ⟨limit, none, truthy request.cursor, joinKinds request.kinds⟩) ∧
    extract (Python.getJobEvents builders request) =
      (readLimit request.limit).map (fun limit =>
        ⟨limit, none, request.cursor, joinKinds request.kinds⟩) ∧
    extract (Kotlin.getJobEvents builders request) =
      (readLimit request.limit).map (fun limit =>
        ⟨limit, none, request.cursor, joinKinds request.kinds⟩) ∧
    extract (Java.getJobEvents request) =
      (readLimit request.limit).bind (fun limit =>
        if request.kinds.length ≤ 1 then some ⟨limit, none, request.cursor, request.kinds.head?⟩
        else none) ∧
    extract (Swift.getJobEvents request) =
      (readLimit request.limit).map (fun limit =>
        ⟨limit, none, request.cursor.map plusesLost, (joinKinds request.kinds).map plusesLost⟩) :=
  ⟨fun _ => typescript_arrives extracts request, go_arrives extracts request,
    python_arrives extracts writeForms request, kotlin_arrives extracts writeForms request,
    java_arrives extracts request, swift_arrives extracts request⟩

/-- One extractor of the assumed kind. -/
def formReader (query : Bytes) : Option JobEventsQuery :=
  let pairs := ((parse query).map fun pair => (decodeUtf8 pair.1, decodeUtf8 pair.2)).filter
    fun pair => queryFields.contains pair.1
  if (pairs.map Prod.fst).Nodup then
    (parseLimit (pairs.lookup "limit")).map fun limit =>
      ⟨limit, pairs.lookup "before", pairs.lookup "cursor", pairs.lookup "kinds"⟩
  else none

theorem formReader_extracts : ExtractsForms formReader := by
  have taken : ∀ {query : Bytes} {pairs : List (String × String)}, Form query (texts pairs) →
      (∀ pair ∈ pairs, pair.1 ∈ queryFields) →
      ((parse query).map fun pair => (decodeUtf8 pair.1, decodeUtf8 pair.2)).filter
        (fun pair => queryFields.contains pair.1) = pairs := by
    intro query pairs form known
    have decoded : (texts pairs).map (fun pair => (decodeUtf8 pair.1, decodeUtf8 pair.2)) = pairs := by
      simp [texts, Function.comp_def, decodeUtf8_utf8]
    rw [form.parse_eq, decoded, List.filter_eq_self]
    exact fun pair member => List.contains_iff_mem.mpr (known pair member)
  constructor
  case fields =>
    intro query pairs form known distinct
    simp only [formReader, taken form known, if_pos distinct]
  case duplicate =>
    intro query pairs form known twice
    simp only [formReader, taken form known, if_neg twice]

/-- Query builders of the assumed kind, both leaving what every URL may hold anywhere. -/
def unreservedBuilders : QueryBuilders :=
  let unreserved := Escaper.leaving ['-', '.', '_', '~'] false
  ⟨fun pairs => unreserved.serialize (texts pairs), fun pairs => unreserved.serialize (texts pairs)⟩

theorem unreservedBuilders_writeForms : unreservedBuilders.WriteForms := by
  have frames : (Escaper.leaving ['-', '.', '_', '~'] false).Frames :=
    Escaper.leaving_frames (by decide) _
  constructor <;> exact Escaper.texts_form_exact frames rfl

/-- Two kinds arrive joined, or not at all. -/
theorem two_kinds_arrive :
    let request : JobEventsParams := ⟨some 50, none, none, ["offer_created", "match_confirmed"]⟩
    (TypeScript.buildJobEventsUrl request).map formReader =
      .ok (some ⟨some 50, none, none, some "offer_created,match_confirmed"⟩) ∧
    formReader (Kotlin.getJobEvents unreservedBuilders request) =
      some ⟨some 50, none, none, some "offer_created,match_confirmed"⟩ ∧
    formReader (Java.getJobEvents request) = none := by
  intro request
  obtain ⟨typescript, _, _, kotlin, java, _⟩ := events_queries_arrive formReader
    formReader_extracts unreservedBuilders unreservedBuilders_writeForms request
  have safe : ∀ limit ∈ request.limit, limit.natAbs < 2 ^ 53 := by
    intro limit given
    cases given
    decide
  exact ⟨typescript safe, kotlin, java⟩

/-! ## Cursors -/

inductive Sdk where
  | typescript
  | go
  | python
  | kotlin
  | java
  | swift
  deriving DecidableEq, Repr

def Sdk.getJobEvents (builders : QueryBuilders) : Sdk → JobEventsParams → Except String Bytes
  | .typescript, request => TypeScript.buildJobEventsUrl request
  | .go, request => .ok (Go.getJobEvents request)
  | .python, request => .ok (Python.getJobEvents builders request)
  | .kotlin, request => .ok (Kotlin.getJobEvents builders request)
  | .java, request => .ok (Java.getJobEvents request)
  | .swift, request => .ok (Swift.getJobEvents request)

end Spatiad
