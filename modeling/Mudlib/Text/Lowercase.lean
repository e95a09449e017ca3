import Mudlib.Text.CaseTable
import Mudlib.Text.Classes
/-!
Full Unicode lower-casing. It depends on context in one place: a capital sigma at the end of a word
becomes the final form. Letters, digits and marks that are lower-case ASCII already are kept
(`lowercase_of_plain`).
-/
set_option autoImplicit false

namespace Mudlib.Text

def isCased (c : Char) : Bool :=
  if c.toNat < 0x80 then c.isAlpha else inRanges CaseTable.casedRanges c

def isCaseIgnorable (c : Char) : Bool := inRanges CaseTable.ignorableRanges c

def lowerShift (c : Char) : Int :=
  let run := CaseTable.lowerRuns.find? fun r =>
    r.1 ≤ c.toNat && c.toNat ≤ r.2.1 && (c.toNat - r.1) % r.2.2.1 == 0
  match run with
  | some r => r.2.2.2
  | none => 0

def lowerChar (c : Char) : List Char :=
  if c.toNat < 0x80 then
    if 'A' ≤ c ∧ c ≤ 'Z' then [Char.ofNat (c.toNat + 32)] else [c]
  else if c = '\u0130' then ['i', '\u0307']
  else [Char.ofNat (c.toNat + lowerShift c).toNat]

def casedFirst (cs : List Char) : Bool :=
  match cs.dropWhile isCaseIgnorable with
  | c :: _ => isCased c
  | [] => false

/-- Lower-cases what follows, given the characters before it, nearest first. -/
def lowerAfter (before : List Char) : List Char → List Char
  | [] => []
  | c :: rest =>
    let here :=
      if c = '\u03A3' then
        if casedFirst before && !casedFirst rest then ['\u03C2'] else ['\u03C3']
      else lowerChar c
    here ++ lowerAfter (c :: before) rest

def lowercase (text : String) : String := String.ofList (lowerAfter [] text.toList)

def IsPlain (c : Char) : Prop := c.toNat < 0x80 ∧ ¬ ('A' ≤ c ∧ c ≤ 'Z')

theorem lowerAfter_of_plain {cs : List Char} (before : List Char) (h : ∀ c ∈ cs, IsPlain c) :
    lowerAfter before cs = cs := by
  induction cs generalizing before with
  | nil => rfl
  | cons c rest ih =>
    have hc : IsPlain c := h c List.mem_cons_self
    have hsigma : c ≠ '\u03A3' := by
      rintro rfl
      exact absurd hc.1 (by decide)
    simp [lowerAfter, hsigma, lowerChar, hc.1, hc.2,
      ih (c :: before) fun x hx => h x (List.mem_cons_of_mem _ hx)]

theorem lowercase_of_plain {text : String} (h : ∀ c ∈ text.toList, IsPlain c) :
    lowercase text = text := by
  rw [lowercase, lowerAfter_of_plain [] h, String.ofList_toList]

end Mudlib.Text
