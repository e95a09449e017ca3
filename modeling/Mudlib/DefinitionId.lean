import Mudlib.Dict
import Mudlib.Text.Lowercase
/-!
The names of definitions: paths such as `/std/room`, in lower case, of segments that start with a
letter and go on with letters, digits and hyphens, 255 bytes at most.

`DefinitionId.ofPath?` lower-cases a path and checks it; the text of an id is its own normal form
(`ofPath?_text`).
-/
set_option autoImplicit false

namespace Mudlib

inductive PathError where
  | empty
  | missingLeadingSlash
  | tooLong
  | emptySegment
  | invalidSegment (segment : String)
  | segmentStartsWithNonLetter (segment : String)
  deriving DecidableEq, Repr

namespace PathError

def kind : PathError → String
  | .empty => "Empty"
  | .missingLeadingSlash => "MissingLeadingSlash"
  | .tooLong => "TooLong"
  | .emptySegment => "EmptySegment"
  | .invalidSegment _ => "InvalidSegment"
  | .segmentStartsWithNonLetter _ => "SegmentStartsWithNonLetter"

def message : PathError → String
  | .empty => "definition path cannot be empty"
  | .missingLeadingSlash => "definition path must start with '/'"
  | .tooLong => "definition path must be 255 characters or less"
  | .emptySegment => "definition path cannot contain empty segments (consecutive slashes)"
  | .invalidSegment segment =>
    "segment '" ++ segment ++
      "' contains invalid characters (allowed: lowercase letters, digits, hyphens)"
  | .segmentStartsWithNonLetter segment => "segment '" ++ segment ++ "' must start with a letter"

end PathError

namespace DefinitionPath

def isLetter (c : Char) : Bool := 'a' ≤ c && c ≤ 'z'

def isSegmentChar (c : Char) : Bool := isLetter c || ('0' ≤ c && c ≤ '9') || c == '-'

def isSegment : List Char → Bool
  | [] => false
  | c :: rest => isLetter c && rest.all isSegmentChar

def segmentFault? (segment : List Char) : Option PathError :=
  if isSegment segment then none
  else if (segment.head?.map isLetter).getD false then
    some (.invalidSegment (String.ofList segment))
  else some (.segmentStartsWithNonLetter (String.ofList segment))

def maxBytes : Nat := 255

/-- What is wrong with a lower-cased text as a path: the first fault in the order slash, length, empty
segments anywhere, segments from the left. -/
def fault? (text : String) : Option PathError :=
  match text.toList with
  | '/' :: rest =>
    if maxBytes < text.utf8ByteSize then some .tooLong
    else if (rest.splitOn '/').any List.isEmpty then some .emptySegment
    else (rest.splitOn '/').findSome? segmentFault?
  | _ => some .missingLeadingSlash

theorem segmentFault?_eq_none_iff {segment : List Char} :
    segmentFault? segment = none ↔ isSegment segment = true := by
  unfold segmentFault?
  split
  · simp_all
  · split <;> simp_all

theorem isPlain_of_isSegmentChar {c : Char} (h : isSegmentChar c = true) : Text.IsPlain c := by
  simp only [isSegmentChar, isLetter, Bool.or_eq_true, Bool.and_eq_true, decide_eq_true_eq,
    beq_iff_eq] at h
  rcases h with (⟨h1, h2⟩ | ⟨h1, h2⟩) | rfl
  · have h1' : 97 ≤ c.toNat := h1
    have h2' : c.toNat ≤ 122 := h2
    refine ⟨by omega, fun ⟨_, hz⟩ => ?_⟩
    have hz' : c.toNat ≤ 90 := hz
    omega
  · have h1' : 48 ≤ c.toNat := h1
    have h2' : c.toNat ≤ 57 := h2
    refine ⟨by omega, fun ⟨ha, _⟩ => ?_⟩
    have ha' : 65 ≤ c.toNat := ha
    omega
  · exact ⟨by decide, by decide⟩

theorem mem_intercalate {sep c : Char} {parts : List (List Char)}
    (h : c ∈ [sep].intercalate parts) : c = sep ∨ ∃ part ∈ parts, c ∈ part := by
  induction parts with
  | nil => simp [List.intercalate] at h
  | cons p ps ih =>
    cases ps with
    | nil => exact .inr ⟨p, List.mem_cons_self, by simpa [List.intercalate] using h⟩
    | cons q qs =>
      have h' : c ∈ p ∨ c = sep ∨ c ∈ [sep].intercalate (q :: qs) := by
        simpa [List.intercalate, List.intersperse] using h
      rcases h' with h' | h' | h'
      · exact .inr ⟨p, List.mem_cons_self, h'⟩
      · exact .inl h'
      · exact (ih h').imp_right fun ⟨part, hp, hc⟩ => ⟨part, List.mem_cons_of_mem _ hp, hc⟩

theorem fault?_eq_none_iff {text : String} :
    fault? text = none ↔ ∃ rest, text.toList = '/' :: rest ∧ text.utf8ByteSize ≤ maxBytes ∧
      ∀ segment ∈ rest.splitOn '/', isSegment segment = true := by
  unfold fault?
  split
  next rest heq =>
    constructor
    · intro h
      split at h
      · cases h
      next hlen =>
        split at h
        · cases h
        · refine ⟨rest, heq, by omega, fun segment hs => ?_⟩
          exact segmentFault?_eq_none_iff.mp (List.findSome?_eq_none_iff.mp h segment hs)
    · rintro ⟨rest', heq', hlen, hall⟩
      have hr : rest' = rest := by simpa [heq] using heq'.symm
      subst hr
      rw [if_neg (by omega), if_neg, List.findSome?_eq_none_iff]
      · exact fun segment hs => segmentFault?_eq_none_iff.mpr (hall segment hs)
      · simp only [List.any_eq_true, not_exists, not_and]
        intro segment hs hempty
        have := hall segment hs
        cases segment <;> simp_all [isSegment]
  next hne =>
    simp only [reduceCtorEq, false_iff]
    rintro ⟨rest, heq, -⟩
    exact hne rest heq

theorem isPlain_of_fault?_eq_none {text : String} (h : fault? text = none) :
    ∀ c ∈ text.toList, Text.IsPlain c := by
  obtain ⟨rest, heq, -, hall⟩ := fault?_eq_none_iff.mp h
  have hslash : Text.IsPlain '/' := ⟨by decide, by decide⟩
  intro c hc
  rw [heq] at hc
  rcases List.mem_cons.mp hc with rfl | hc
  · exact hslash
  · have hjoin : ['/'].intercalate (rest.splitOn '/') = rest := List.intercalate_splitOn '/'
    rw [← hjoin] at hc
    rcases mem_intercalate hc with rfl | ⟨segment, hs, hc⟩
    · exact hslash
    · have hseg := hall segment hs
      cases segment with
      | nil => simp at hc
      | cons d ds =>
        simp only [isSegment, Bool.and_eq_true, List.all_eq_true] at hseg
        rcases List.mem_cons.mp hc with rfl | hc
        · exact isPlain_of_isSegmentChar (by simp [isSegmentChar, hseg.1])
        · exact isPlain_of_isSegmentChar (hseg.2 c hc)

end DefinitionPath

structure DefinitionId where
  text : String
  valid : DefinitionPath.fault? text = none
  deriving DecidableEq

namespace DefinitionId

instance : Repr DefinitionId where
  reprPrec id n := reprPrec id.text n

theorem ext {a b : DefinitionId} (h : a.text = b.text) : a = b := by
  cases a; cases b; cases h; rfl

instance : LT DefinitionId where
  lt a b := a.text < b.text

instance : DecidableLT DefinitionId := fun a b => inferInstanceAs (Decidable (a.text < b.text))

instance : OrderedKey DefinitionId where
  irrefl a := String.lt_irrefl a.text
  trans := String.lt_trans
  connex hab hne := @OrderedKey.connex String _ _ _ _ hab fun h => hne (ext h)

def ofPath? (path : String) : Except PathError DefinitionId :=
  if path = "" then .error .empty
  else
    match h : DefinitionPath.fault? (Text.lowercase path) with
    | none => .ok ⟨Text.lowercase path, h⟩
    | some fault => .error fault

theorem ofPath?_text (id : DefinitionId) : ofPath? id.text = .ok id := by
  obtain ⟨text, valid⟩ := id
  have hl : Text.lowercase text = text :=
    Text.lowercase_of_plain (DefinitionPath.isPlain_of_fault?_eq_none valid)
  have hne : text ≠ "" := by
    rintro rfl
    exact absurd valid (by decide)
  simp only [ofPath?, if_neg hne]
  split
  next => congr 1; exact ext hl
  next fault h => rw [hl, valid] at h; cases h

def name (id : DefinitionId) : String :=
  String.ofList ((id.text.toList.splitOn '/').getLast?.getD [])

def sourceFile (id : DefinitionId) : String := String.ofList (id.text.toList.drop 1) ++ ".toml"

def segments (id : DefinitionId) : List String :=
  ((id.text.toList.drop 1).splitOn '/').map String.ofList

end DefinitionId

end Mudlib
