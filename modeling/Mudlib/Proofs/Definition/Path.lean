import Mudlib.Definition.Decode
import Mudlib.Proofs.FirstFailure
import Mudlib.Proofs.Value.Printer
/-!
The grammar of definition paths, and what is wrong with a text that is none.

A path is read as the segments between its slashes. In one that starts with a slash they are the only
way to write it as slashes with something after each (`parted_iff`), which is how the grammar has it.
-/
set_option autoImplicit false

namespace Mudlib

namespace DefinitionPath

def Letter (c : Char) : Prop := 'a' ≤ c ∧ c ≤ 'z'

def Follower (c : Char) : Prop := Letter c ∨ ('0' ≤ c ∧ c ≤ '9') ∨ c = '-'

def Segment (cs : List Char) : Prop := ∃ c rest, cs = c :: rest ∧ Letter c ∧ ∀ d ∈ rest, Follower d

def IsPath (cs : List Char) : Prop :=
  ∃ segments : List (List Char), segments ≠ [] ∧ cs = segments.flatMap ('/' :: ·) ∧
    ∀ segment ∈ segments, Segment segment

structure Parted (parts : List (List Char)) (cs : List Char) : Prop where
  joined : cs = parts.flatMap ('/' :: ·)
  cut : ∀ part ∈ parts, '/' ∉ part

inductive Blames : List Char → PathError → Prop
  | start {cs : List Char} : (∀ c rest, cs = c :: rest → ¬ Letter c) →
      Blames cs (.segmentStartsWithNonLetter (String.ofList cs))
  | content {c d : Char} {rest : List Char} : Letter c → d ∈ rest → ¬ Follower d →
      Blames (c :: rest) (.invalidSegment (String.ofList (c :: rest)))

/-- Why a text names no definition, in the order of the checks. -/
def refusals (path : String) : List (PathError → Prop) :=
  [fun e => path = "" ∧ e = .empty,
    fun e => (Text.lowercase path).toList.head? ≠ some '/' ∧ e = .missingLeadingSlash,
    fun e => 255 < (Text.lowercase path).utf8ByteSize ∧ e = .tooLong,
    fun e => (∃ parts, Parted parts (Text.lowercase path).toList ∧ [] ∈ parts) ∧ e = .emptySegment,
    fun e => ∃ before part after, Parted (before ++ part :: after) (Text.lowercase path).toList ∧
      (∀ earlier ∈ before, Segment earlier) ∧ Blames part e]

variable {parts : List (List Char)} {cs rest segment : List Char} {c : Char} {e : PathError}

theorem isLetter_iff : isLetter c = true ↔ Letter c := by
  simp [isLetter, Letter]

theorem isSegmentChar_iff : isSegmentChar c = true ↔ Follower c := by
  simp [isSegmentChar, isLetter_iff, Follower, or_assoc]

theorem isSegment_iff : isSegment cs = true ↔ Segment cs := by
  cases cs with
  | nil => simp [isSegment, Segment]
  | cons c rest => simp [isSegment, isLetter_iff, isSegmentChar_iff, Segment]

theorem segmentFault?_eq_some_iff : segmentFault? segment = some e ↔ Blames segment e := by
  constructor
  · intro h
    unfold segmentFault? at h
    split at h
    · cases h
    next hsegment =>
      rw [isSegment_iff] at hsegment
      split at h
      next hhead =>
        cases h
        cases segment with
        | nil => cases hhead
        | cons c rest =>
          have hc : Letter c := isLetter_iff.mp hhead
          have hrest : ¬ ∀ d ∈ rest, Follower d := fun hall => hsegment ⟨c, rest, rfl, hc, hall⟩
          simp only [not_forall] at hrest
          obtain ⟨d, hd, hbad⟩ := hrest
          exact .content hc hd hbad
      next hhead =>
        cases h
        refine .start ?_
        rintro c rest rfl hc
        exact hhead (isLetter_iff.mpr hc)
  · intro h
    have hsegment : isSegment segment = false := by
      rw [← Bool.not_eq_true, isSegment_iff]
      rintro ⟨c, rest, rfl, hc, hall⟩
      cases h with
      | start hnone => exact hnone c rest rfl hc
      | content _ hd hbad => exact hbad (hall _ hd)
    cases h with
    | start hnone =>
      cases segment with
      | nil => rfl
      | cons c rest =>
        have hc : isLetter c = false := by
          rw [← Bool.not_eq_true, isLetter_iff]
          exact hnone c rest rfl
        simp [segmentFault?, hsegment, hc]
    | content hc => simp [segmentFault?, hsegment, isLetter_iff.mpr hc]

theorem not_mem_of_mem_splitOn {cs part : List Char} (h : part ∈ cs.splitOn c) : c ∉ part := by
  induction cs generalizing part with
  | nil =>
    rw [List.splitOn_nil, List.mem_singleton] at h
    rw [h]
    exact List.not_mem_nil
  | cons d cs ih =>
    rw [List.splitOn_cons_eq_if_modifyHead] at h
    obtain ⟨p, ps, hps⟩ := List.exists_cons_of_ne_nil (List.splitOn_ne_nil c cs)
    rw [hps] at h ih
    obtain ⟨hp, hlater⟩ := List.forall_mem_cons.mp @ih
    split at h
    next heq =>
      obtain rfl | h := List.mem_cons.mp h
      · exact List.not_mem_nil
      · exact ih h
    next hne =>
      rw [beq_iff_eq] at hne
      obtain rfl | h := List.mem_cons.mp h
      · exact fun hmem => (List.mem_cons.mp hmem).elim (fun heq => hne heq.symm) hp
      · exact hlater _ h

theorem flatMap_slash {part : List Char} :
    (part :: parts).flatMap ('/' :: ·) = '/' :: ['/'].intercalate (part :: parts) := by
  induction parts generalizing part with
  | nil => simp [List.intercalate]
  | cons next parts ih => rw [List.flatMap_cons, ih, List.intercalate_cons_cons]; simp

theorem parted_iff : Parted parts ('/' :: rest) ↔ parts = rest.splitOn '/' := by
  constructor
  · rintro ⟨hjoined, hcut⟩
    cases parts with
    | nil => cases hjoined
    | cons part parts =>
      rw [flatMap_slash] at hjoined
      rw [(List.cons.inj hjoined).2, List.splitOn_intercalate '/' hcut (List.cons_ne_nil _ _)]
  · rintro rfl
    refine ⟨?_, fun part hpart => not_mem_of_mem_splitOn hpart⟩
    obtain ⟨part, parts, hparts⟩ := List.exists_cons_of_ne_nil (List.splitOn_ne_nil '/' rest)
    rw [hparts, flatMap_slash, ← hparts, List.intercalate_splitOn]

theorem slash_not_mem (h : Segment segment) : '/' ∉ segment := by
  obtain ⟨c, rest, rfl, hc, hrest⟩ := h
  have hslash : ¬ Follower '/' := by
    rw [← isSegmentChar_iff]
    decide
  intro hmem
  obtain rfl | hmem := List.mem_cons.mp hmem
  · exact hslash (.inl hc)
  · exact hslash (hrest _ hmem)

theorem isPath_iff : IsPath cs ↔
    ∃ rest, cs = '/' :: rest ∧ ∀ part ∈ rest.splitOn '/', Segment part := by
  constructor
  · rintro ⟨segments, hne, rfl, hall⟩
    obtain ⟨segment, segments, rfl⟩ := List.exists_cons_of_ne_nil hne
    have hparted : Parted (segment :: segments) ((segment :: segments).flatMap ('/' :: ·)) :=
      ⟨rfl, fun part hpart => slash_not_mem (hall part hpart)⟩
    rw [flatMap_slash] at hparted ⊢
    rw [parted_iff] at hparted
    exact ⟨_, rfl, fun part hpart => hall part (hparted ▸ hpart)⟩
  · rintro ⟨rest, rfl, hall⟩
    exact ⟨_, List.splitOn_ne_nil '/' rest, (parted_iff.mpr rfl).joined, hall⟩

theorem fault?_eq_none_iff_isPath {text : String} :
    fault? text = none ↔ text.utf8ByteSize ≤ 255 ∧ IsPath text.toList := by
  simp only [fault?_eq_none_iff, isPath_iff, isSegment_iff, maxBytes]
  constructor
  · rintro ⟨rest, heq, hlen, hall⟩
    exact ⟨hlen, rest, heq, hall⟩
  · rintro ⟨hlen, rest, heq, hall⟩
    exact ⟨rest, heq, hlen, hall⟩

theorem findSome?_eq_some_iff : (rest.splitOn '/').findSome? segmentFault? = some e ↔
    ∃ before part after, Parted (before ++ part :: after) ('/' :: rest) ∧
      (∀ earlier ∈ before, Segment earlier) ∧ Blames part e := by
  simp only [List.findSome?_eq_some_iff, parted_iff, segmentFault?_eq_some_iff,
    segmentFault?_eq_none_iff, isSegment_iff, eq_comm (b := rest.splitOn '/')]
  constructor
  · rintro ⟨before, part, after, heq, he, hbefore⟩
    exact ⟨before, part, after, heq, hbefore, he⟩
  · rintro ⟨before, part, after, heq, hbefore, he⟩
    exact ⟨before, part, after, heq, he, hbefore⟩

end DefinitionPath

namespace DefinitionId

open DefinitionPath

variable {path path' n : String} {id id' : DefinitionId}

theorem ofPath?_eq_ok_iff : ofPath? path = .ok id ↔
    fault? (Text.lowercase path) = none ∧ id.text = Text.lowercase path := by
  unfold ofPath?
  split
  next hempty =>
    subst hempty
    constructor
    · intro h
      cases h
    · rintro ⟨h, -⟩
      exact absurd h (by decide)
  next hne =>
    split
    next hvalid =>
      constructor
      · rintro ⟨⟩
        exact ⟨hvalid, rfl⟩
      · rintro ⟨-, htext⟩
        exact congrArg Except.ok (DefinitionId.ext htext.symm)
    next fault hfault =>
      rw [hfault]
      simp

theorem ofPath?_eq_error (hne : path ≠ "") {e : PathError}
    (h : fault? (Text.lowercase path) = some e) : ofPath? path = .error e := by
  unfold ofPath?
  rw [if_neg hne]
  split
  next hvalid =>
    rw [hvalid] at h
    cases h
  next fault hfault =>
    rw [hfault] at h
    cases h
    rfl

theorem answers_ofPath? (path : String) : Answers (refusals path) (ofPath? path) := by
  by_cases hempty : path = ""
  · subst hempty
    exact .head ⟨rfl, rfl⟩
  refine .tail (by simp [hempty]) ?_
  cases hfault : fault? (Text.lowercase path) with
  | none =>
    obtain ⟨rest, heq, hlen, hall⟩ := fault?_eq_none_iff.mp hfault
    have hok : ofPath? path = .ok ⟨Text.lowercase path, hfault⟩ :=
      ofPath?_eq_ok_iff.mpr ⟨hfault, rfl⟩
    rw [hok, heq]
    refine .granted _ ?_
    simp only [List.forall_mem_cons, not_and, not_exists, parted_iff]
    refine ⟨fun _ hslash => absurd rfl hslash, fun _ hlong => absurd hlen (Nat.not_le_of_lt hlong),
      ?_, ?_, List.forall_mem_nil _⟩
    · rintro _ ⟨parts, rfl, hnil⟩
      exact absurd (hall _ hnil) (by decide)
    · rintro _ before part after hparts - hblames
      have hgood := segmentFault?_eq_none_iff.mpr (hall part (by simp [← hparts]))
      rw [segmentFault?_eq_some_iff.mpr hblames] at hgood
      cases hgood
  | some e =>
    rw [ofPath?_eq_error hempty hfault]
    unfold fault? at hfault
    split at hfault
    next rest heq =>
      rw [heq]
      refine .tail (by simp) ?_
      split at hfault
      next hlong =>
        cases hfault
        exact .head ⟨hlong, rfl⟩
      next hshort =>
        refine .tail (fun _ hlong => hshort hlong.1) ?_
        have hnil : (∃ parts, Parted parts ('/' :: rest) ∧ [] ∈ parts) ↔
            (rest.splitOn '/').any List.isEmpty = true := by
          simp [parted_iff]
        rw [hnil]
        split at hfault
        next hany =>
          cases hfault
          exact .head ⟨hany, rfl⟩
        next hnone =>
          refine .tail (fun _ hany => hnone hany.1) (.head ?_)
          exact findSome?_eq_some_iff.mp hfault
    next hnone =>
      cases hfault
      refine .head ⟨fun hslash => ?_, rfl⟩
      obtain ⟨rest, heq⟩ := List.head?_eq_some_iff.mp hslash
      exact hnone rest heq

theorem parse?_compact (id : DefinitionId) :
    (Value.parse? (Value.str id.text).compact).bind ofValue? = some id := by
  rw [Value.parse?_compact_str, Option.bind_some, ofValue?]
  simp [Value.asString?, ofPath?_text, Except.toOption]

/-- **Paths are what their grammar says.** A text names a definition exactly when its lower-cased form
is a path of 255 bytes at most, and that form is the name; every other text is refused with the
first fault of a fixed order. A name names itself, and is read back from the text it is written as;
two texts name one definition exactly when they differ in case alone. -/
theorem ofPath?_grammar :
    (∀ path n, (∃ id, ofPath? path = .ok id ∧ id.text = n) ↔
      n = Text.lowercase path ∧ n.utf8ByteSize ≤ 255 ∧ IsPath n.toList) ∧
    (∀ path, Answers (refusals path) (ofPath? path)) ∧
    (∀ path id, ofPath? path = .ok id → ofPath? id.text = .ok id) ∧
    (∀ id, (Value.parse? (Value.str id.text).compact).bind ofValue? = some id) ∧
    ∀ path path' id id', ofPath? path = .ok id → ofPath? path' = .ok id' →
      (id = id' ↔ Text.lowercase path = Text.lowercase path') := by
  refine ⟨fun path n => ?_, answers_ofPath?, fun _ id _ => ofPath?_text id, parse?_compact, ?_⟩
  · simp only [ofPath?_eq_ok_iff]
    constructor
    · rintro ⟨id, ⟨hvalid, htext⟩, rfl⟩
      rw [htext]
      exact ⟨rfl, fault?_eq_none_iff_isPath.mp hvalid⟩
    · rintro ⟨rfl, hpath⟩
      have hvalid := fault?_eq_none_iff_isPath.mpr hpath
      exact ⟨⟨_, hvalid⟩, ⟨hvalid, rfl⟩, rfl⟩
  · intro path path' id id' h h'
    rw [← (ofPath?_eq_ok_iff.mp h).2, ← (ofPath?_eq_ok_iff.mp h').2]
    exact ⟨congrArg text, DefinitionId.ext⟩

example : (ofPath? "/Std/\u212Aitchen").map text = .ok "/std/kitchen" := by decide +kernel

end DefinitionId

end Mudlib
