import Mathlib.Data.List.Basic
import Mathlib.Data.List.Forall2
import Mathlib.Tactic.IntervalCases

/-! # Form-urlencoded queries

Bytes of names and values, percent-encoded and joined by `&` and `=`.  Writers differ
in the bytes they leave plain, and readers in what they make of other texts; `Form` is
what they agree on.  A writer that leaves the plus plain writes a space.
-/

namespace Foundation.FormUrlencoded

abbrev Bytes := List UInt8

/-! ## Forms -/

def isAsciiAlphanumeric (b : UInt8) : Bool :=
  (0x30 ≤ b && b ≤ 0x39) || (0x41 ≤ b && b ≤ 0x5A) || (0x61 ≤ b && b ≤ 0x7A)

/-- The marks that a URL allows in its query, without `&`, `=` and the plus. -/
def queryMarks : List Char :=
  ['-', '.', '_', '~', '!', '$', Char.ofNat 0x27, '(', ')', '*', ',', ';', ':', '@', '/', '?']

def isQueryPlain (b : UInt8) : Bool :=
  isAsciiAlphanumeric b || queryMarks.any fun mark => mark.toNat == b.toNat

def hexValue (b : UInt8) : Option Nat :=
  if 0x30 ≤ b ∧ b ≤ 0x39 then some (b.toNat - 0x30)
  else if 0x41 ≤ b ∧ b ≤ 0x46 then some (b.toNat - 0x37)
  else if 0x61 ≤ b ∧ b ≤ 0x66 then some (b.toNat - 0x57)
  else none

/-- `Spells written text`: a plus is a space, a percent sign begins a byte of two digits. -/
inductive Spells : Bytes → Bytes → Prop where
  | nil : Spells [] []
  | plain {b : UInt8} {written text : Bytes} (isPlain : isQueryPlain b = true)
      (rest : Spells written text) : Spells (b :: written) (b :: text)
  | space {written text : Bytes} (rest : Spells written text) :
      Spells (0x2B :: written) (0x20 :: text)
  | percent {hi lo : UInt8} {high low : Nat} {written text : Bytes}
      (highDigit : hexValue hi = some high) (lowDigit : hexValue lo = some low)
      (rest : Spells written text) :
      Spells (0x25 :: hi :: lo :: written) (UInt8.ofNat (high * 16 + low) :: text)

def Field (written : Bytes) (pair : Bytes × Bytes) : Prop :=
  ∃ name value, written = name ++ 0x3D :: value ∧ Spells name pair.1 ∧ Spells value pair.2

/-- Names and values as `name=value&name=value`. -/
def Form (query : Bytes) (pairs : List (Bytes × Bytes)) : Prop :=
  ∃ fields, query = [0x26].intercalate fields ∧ List.Forall₂ Field fields pairs

theorem Spells.append {a b s t : Bytes} (first : Spells a s) (second : Spells b t) :
    Spells (a ++ b) (s ++ t) := by
  induction first with
  | nil => exact second
  | plain isPlain _ ih => exact .plain isPlain ih
  | space _ ih => exact .space ih
  | percent highDigit lowDigit _ ih => exact .percent highDigit lowDigit ih

/-! ## Writing -/

/-- Which bytes a writer leaves as they are, and whether a space becomes a plus. -/
structure Escaper where
  plain : UInt8 → Bool
  plusForSpace : Bool

/-- A writer that leaves letters, digits and the given marks. -/
def Escaper.leaving (marks : List Char) (plusForSpace : Bool) : Escaper where
  plain b := isAsciiAlphanumeric b || marks.any fun mark => mark.toNat == b.toNat
  plusForSpace := plusForSpace

def hexDigit (n : Nat) : UInt8 := UInt8.ofNat (if n < 10 then 0x30 + n else 0x37 + n)

theorem hexValue_hexDigit {n : Nat} (small : n < 16) : hexValue (hexDigit n) = some n := by
  interval_cases n <;> rfl

namespace Escaper

section writer

variable (esc : Escaper)

def escapeByte (b : UInt8) : Bytes :=
  if b = 0x20 ∧ esc.plusForSpace then [0x2B]
  else if esc.plain b then [b]
  else [0x25, hexDigit (b.toNat / 16), hexDigit (b.toNat % 16)]

def escape (text : Bytes) : Bytes := text.flatMap esc.escapeByte

def field (pair : Bytes × Bytes) : Bytes := esc.escape pair.1 ++ 0x3D :: esc.escape pair.2

def serialize (pairs : List (Bytes × Bytes)) : Bytes := [0x26].intercalate (pairs.map esc.field)

/-- The writer escapes whatever a query does not allow, and what would end a name, a value
    or an escape. -/
def Frames : Prop := ∀ b, esc.plain b = true → b = 0x2B ∨ isQueryPlain b = true

/-- What is read of a byte that was written. -/
def reads (b : UInt8) : UInt8 := if b = 0x2B ∧ esc.plain b then 0x20 else b

end writer

variable {esc : Escaper}

theorem leaving_frames {marks : List Char} (known : marks ⊆ '+' :: queryMarks)
    (plusForSpace : Bool) : (leaving marks plusForSpace).Frames := by
  intro b plain
  cases Bool.or_eq_true_iff.mp plain with
  | inl letter => exact .inr (Bool.or_eq_true_iff.mpr (.inl letter))
  | inr some_ =>
      obtain ⟨mark, member, same⟩ := List.any_eq_true.mp some_
      cases List.mem_cons.mp (known member) with
      | inl plus =>
          subst plus
          exact .inl (UInt8.toNat_inj.mp (beq_iff_eq.mp same).symm)
      | inr mark_ =>
          exact .inr (Bool.or_eq_true_iff.mpr (.inr (List.any_eq_true.mpr ⟨mark, mark_, same⟩)))

theorem reads_of_escaped (escaped : esc.plain 0x2B = false) (b : UInt8) : esc.reads b = b := by
  unfold reads
  split
  · rename_i both
    obtain ⟨rfl, plain⟩ := both
    rw [escaped] at plain
    cases plain
  · rfl

theorem escape_plain {text : Bytes} (plain : ∀ b ∈ text, b ≠ 0x20 ∧ esc.plain b = true) :
    esc.escape text = text := by
  have each : ∀ b ∈ text, esc.escapeByte b = [b] := by
    intro b member
    obtain ⟨noSpace, isPlain⟩ := plain b member
    simp [escapeByte, noSpace, isPlain]
  rw [escape, List.flatMap_congr each]
  exact List.flatMap_singleton' text

theorem escapeByte_spells (frames : esc.Frames) (b : UInt8) :
    Spells (esc.escapeByte b) [esc.reads b] := by
  unfold escapeByte
  split
  · rename_i space
    obtain ⟨rfl, _⟩ := space
    exact .space .nil
  · split
    · rename_i plain
      by_cases plus : b = 0x2B
      · subst plus
        have lost : esc.reads 0x2B = 0x20 := if_pos ⟨rfl, plain⟩
        rw [lost]
        exact .space .nil
      · have same : esc.reads b = b := if_neg fun both => plus both.1
        rw [same]
        exact .plain ((frames b plain).resolve_left plus) .nil
    · rename_i escaped
      have same : esc.reads b = b := if_neg fun both => escaped both.2
      have bound := b.toNat_lt
      have digits := Spells.percent (@hexValue_hexDigit (b.toNat / 16) (by omega))
        (@hexValue_hexDigit (b.toNat % 16) (by omega)) .nil
      rw [Nat.div_add_mod', UInt8.ofNat_toNat] at digits
      rwa [same]

theorem escape_spells (frames : esc.Frames) (text : Bytes) :
    Spells (esc.escape text) (text.map esc.reads) := by
  induction text with
  | nil => exact .nil
  | cons b text ih => exact (escapeByte_spells frames b).append ih

/-- A writer that frames writes a form of what it is given, up to the pluses it leaves
    plain. -/
theorem serialize_form (frames : esc.Frames) (pairs : List (Bytes × Bytes)) :
    Form (esc.serialize pairs)
      (pairs.map fun pair => (pair.1.map esc.reads, pair.2.map esc.reads)) := by
  refine ⟨pairs.map esc.field, rfl, ?_⟩
  rw [List.forall₂_map_left_iff, List.forall₂_map_right_iff, List.forall₂_same]
  exact fun pair _ => ⟨_, _, rfl, escape_spells frames pair.1, escape_spells frames pair.2⟩

end Escaper

/-! ## Reading -/

/-- A percent sign without two digits after it stands for itself. -/
def unescape : Bytes → Bytes
  | [] => []
  | [b] => [if b = 0x2B then 0x20 else b]
  | [b, c] => (if b = 0x2B then 0x20 else b) :: unescape [c]
  | b :: hi :: lo :: rest =>
      if b = 0x25 then
        match hexValue hi, hexValue lo with
        | some high, some low => UInt8.ofNat (high * 16 + low) :: unescape rest
        | _, _ => b :: unescape (hi :: lo :: rest)
      else (if b = 0x2B then 0x20 else b) :: unescape (hi :: lo :: rest)

/-- Empty parts are skipped; a part without `=` is a name with an empty value. -/
def parse (query : Bytes) : List (Bytes × Bytes) :=
  ((query.splitOn 0x26).filter fun part => !part.isEmpty).map fun part =>
    (unescape (part.takeWhile (· != 0x3D)), unescape ((part.dropWhile (· != 0x3D)).drop 1))

theorem unescape_cons {b : UInt8} (plain : b ≠ 0x25) (rest : Bytes) :
    unescape (b :: rest) = (if b = 0x2B then 0x20 else b) :: unescape rest := by
  match rest with
  | [] => rfl
  | [_] => rfl
  | _ :: _ :: _ => rw [unescape, if_neg plain]

theorem ne_of_isQueryPlain {b : UInt8} (isPlain : isQueryPlain b = true) :
    b ≠ 0x25 ∧ b ≠ 0x26 ∧ b ≠ 0x2B ∧ b ≠ 0x3D := by
  refine ⟨?_, ?_, ?_, ?_⟩ <;> exact fun same => absurd (same ▸ isPlain) (by decide)

theorem ne_of_hexValue {b : UInt8} {n : Nat} (digit : hexValue b = some n) :
    b ≠ 0x26 ∧ b ≠ 0x3D := by
  have ampersand : hexValue 0x26 = none := by decide
  have equals : hexValue 0x3D = none := by decide
  constructor
  · rintro rfl
    cases ampersand.symm.trans digit
  · rintro rfl
    cases equals.symm.trans digit

theorem Spells.unescape_eq {written text : Bytes} (spells : Spells written text) :
    unescape written = text := by
  induction spells with
  | nil => rfl
  | @plain b _ _ isPlain _ ih =>
      obtain ⟨noPercent, _, noPlus, _⟩ := ne_of_isQueryPlain isPlain
      rw [unescape_cons noPercent, if_neg noPlus, ih]
  | space _ ih => rw [unescape_cons (by decide), if_pos rfl, ih]
  | percent highDigit lowDigit _ ih => simp only [unescape, if_true, highDigit, lowDigit, ih]

theorem Spells.framed {written text : Bytes} (spells : Spells written text) :
    ∀ c ∈ written, c ≠ 0x26 ∧ c ≠ 0x3D := by
  induction spells with
  | nil => exact nofun
  | plain isPlain _ ih =>
      obtain ⟨_, noAmpersand, _, noEquals⟩ := ne_of_isQueryPlain isPlain
      exact List.forall_mem_cons.mpr ⟨⟨noAmpersand, noEquals⟩, ih⟩
  | space _ ih => exact List.forall_mem_cons.mpr ⟨by decide, ih⟩
  | percent highDigit lowDigit _ ih =>
      exact List.forall_mem_cons.mpr ⟨by decide, List.forall_mem_cons.mpr ⟨ne_of_hexValue highDigit,
        List.forall_mem_cons.mpr ⟨ne_of_hexValue lowDigit, ih⟩⟩⟩

theorem split_pair {name value : Bytes} (noEquals : ∀ c ∈ name, c ≠ 0x3D) :
    (name ++ 0x3D :: value).takeWhile (· != 0x3D) = name ∧
      ((name ++ 0x3D :: value).dropWhile (· != 0x3D)).drop 1 = value := by
  have all : ∀ c ∈ name, (c != 0x3D) = true := fun c member => by simpa using noEquals c member
  constructor
  · rw [List.takeWhile_append_of_pos all, List.takeWhile_cons_of_neg (by simp), List.append_nil]
  · rw [List.dropWhile_append_of_pos all, List.dropWhile_cons_of_neg (by simp)]
    rfl

theorem Field.framed {written : Bytes} {pair : Bytes × Bytes} (field : Field written pair) :
    0x26 ∉ written ∧ written.isEmpty = false := by
  obtain ⟨name, value, rfl, nameSpelt, valueSpelt⟩ := field
  refine ⟨fun member => ?_, by simp⟩
  rcases List.mem_append.mp member with inName | inRest
  · exact (nameSpelt.framed _ inName).1 rfl
  · rcases List.mem_cons.mp inRest with equals | inValue
    · cases equals
    · exact (valueSpelt.framed _ inValue).1 rfl

theorem Field.read {written : Bytes} {pair : Bytes × Bytes} (field : Field written pair) :
    (unescape (written.takeWhile (· != 0x3D)),
      unescape ((written.dropWhile (· != 0x3D)).drop 1)) = pair := by
  obtain ⟨name, value, rfl, nameSpelt, valueSpelt⟩ := field
  obtain ⟨before, after⟩ := @split_pair name value fun c member => (nameSpelt.framed c member).2
  rw [before, after, nameSpelt.unescape_eq, valueSpelt.unescape_eq]

theorem Form.parse_eq {query : Bytes} {pairs : List (Bytes × Bytes)} (form : Form query pairs) :
    parse query = pairs := by
  obtain ⟨fields, rfl, each⟩ := form
  by_cases none : fields = []
  · subst none
    cases each
    rfl
  · have framed : ∀ part ∈ fields, 0x26 ∉ part ∧ part.isEmpty = false := by
      intro part member
      obtain ⟨i, small, rfl⟩ := List.mem_iff_getElem.mp member
      have long := each.length_eq ▸ small
      exact (each.get small long).framed
    have split : ([0x26].intercalate fields).splitOn 0x26 = fields :=
      List.splitOn_intercalate 0x26 (fun part member => (framed part member).1) none
    have whole : ∀ part ∈ fields, (!part.isEmpty) = true := fun part member => by
      rw [(framed part member).2]
      rfl
    rw [parse, split, List.filter_eq_self.mpr whole]
    clear split framed whole none
    induction each with
    | nil => rfl
    | cons field _ ih => rw [List.map_cons, field.read, ih]

/-! ## Texts -/

def utf8 (text : String) : Bytes := text.toList.flatMap String.utf8EncodeChar

theorem utf8_append (a b : String) : utf8 (a ++ b) = utf8 a ++ utf8 b := by
  simp only [utf8, String.toList_append, List.flatMap_append]

/-- Whatever is not UTF-8 is one replacement character. -/
def decodeUtf8 (bytes : Bytes) : String := (String.fromUTF8? bytes.toByteArray).getD "\uFFFD"

theorem decodeUtf8_utf8 (text : String) : decodeUtf8 (utf8 text) = text := by
  have bytes : (utf8 text).toByteArray = text.toByteArray := by
    conv_rhs => rw [← @String.ofList_toList text, String.toByteArray_ofList]
    rfl
  rw [decodeUtf8, bytes, String.fromUTF8?, dif_pos text.isValidUTF8]
  rfl

def texts (pairs : List (String × String)) : List (Bytes × Bytes) :=
  pairs.map fun pair => (utf8 pair.1, utf8 pair.2)

/-- A text whose pluses were read as spaces. -/
def plusesLost (text : String) : String :=
  String.ofList (text.toList.map fun c => if c = '+' then ' ' else c)

theorem ofNat_ne_plus {n : Nat} (small : n < 0x80) (k : Nat) (high : 0x80 ≤ k) (fits : k + n < 256) :
    UInt8.ofNat (n + k) ≠ 0x2B := by
  intro same
  have value := congrArg UInt8.toNat same
  rw [UInt8.toNat_ofNat', Nat.mod_eq_of_lt (by omega)] at value
  have plus : (0x2B : UInt8).toNat = 0x2B := rfl
  omega

theorem plus_mem_utf8EncodeChar {c : Char} (member : 0x2B ∈ String.utf8EncodeChar c) : c = '+' := by
  simp only [String.utf8EncodeChar] at member
  split at member
  · rename_i ascii
    have value := congrArg UInt8.toNat (List.mem_singleton.mp member)
    rw [UInt8.toNat_ofNat', Nat.mod_eq_of_lt (by omega)] at value
    exact Char.toNat_inj.mp value.symm
  · exfalso
    split at member
    · simp only [List.mem_cons, List.not_mem_nil, or_false] at member
      rcases member with same | same <;>
        exact ofNat_ne_plus (by omega) _ (by omega) (by omega) same.symm
    · split at member
      · simp only [List.mem_cons, List.not_mem_nil, or_false] at member
        rcases member with same | same | same <;>
          exact ofNat_ne_plus (by omega) _ (by omega) (by omega) same.symm
      · simp only [List.mem_cons, List.not_mem_nil, or_false] at member
        rcases member with same | same | same | same <;>
          exact ofNat_ne_plus (by omega) _ (by omega) (by omega) same.symm

theorem reads_utf8 {esc : Escaper} (plain : esc.plain 0x2B = true) (text : String) :
    (utf8 text).map esc.reads = utf8 (plusesLost text) := by
  have each : ∀ c : Char, (String.utf8EncodeChar c).map esc.reads =
      String.utf8EncodeChar (if c = '+' then ' ' else c) := by
    intro c
    by_cases plus : c = '+'
    · subst plus
      simp only [if_true]
      have encoded : String.utf8EncodeChar '+' = [0x2B] := by decide
      rw [encoded]
      simp only [List.map_cons, List.map_nil, Escaper.reads, plain, and_self, if_true]
      decide
    · rw [if_neg plus]
      conv_rhs => rw [← List.map_id (String.utf8EncodeChar c)]
      apply List.map_congr_left
      intro b member
      refine if_neg fun both => plus (plus_mem_utf8EncodeChar ?_)
      rw [← both.1]
      exact member
  simp only [utf8, plusesLost, String.toList_ofList, List.map_flatMap, List.flatMap_map, each]

theorem Escaper.texts_form {esc : Escaper} (frames : esc.Frames) (pairs : List (String × String)) :
    Form (esc.serialize (texts pairs)) (texts (pairs.map fun pair =>
      if esc.plain 0x2B then (plusesLost pair.1, plusesLost pair.2) else pair)) := by
  have form := serialize_form frames (texts pairs)
  rw [texts, List.map_map] at form
  rw [texts, texts, List.map_map]
  refine (congrArg (Form _) (List.map_congr_left fun pair _ => ?_)).mp form
  by_cases plain : esc.plain 0x2B = true
  · simp only [Function.comp_apply, reads_utf8 plain, plain, if_true]
  · have same : esc.reads = id := funext (reads_of_escaped (Bool.not_eq_true _ ▸ plain))
    simp only [Function.comp_apply, same, List.map_id, plain]
    rfl

theorem Escaper.texts_form_exact {esc : Escaper} (frames : esc.Frames)
    (escaped : esc.plain 0x2B = false) (pairs : List (String × String)) :
    Form (esc.serialize (texts pairs)) (texts pairs) := by
  have form := texts_form frames pairs
  simpa only [escaped, Bool.false_eq_true, if_false, List.map_id'] using form

end Foundation.FormUrlencoded
