import Mudlib.Dict
import Mudlib.Number.Binary64
set_option autoImplicit false

namespace Mudlib

inductive Value where
  | null
  | bool (b : Bool)
  /-- A whole number; documents hold those from `-2 ^ 63` up to `2 ^ 64 - 1`. -/
  | int (n : Int)
  | float (x : Binary64)
  | str (s : String)
  | list (items : List Value)
  | obj (members : List (String × Value))
  deriving Repr, Inhabited

namespace Value

def inWholeRange (n : Int) : Bool := -(Nat.pow 2 63 : Int) ≤ n && n < Nat.pow 2 64

def ofMembers (members : List (String × Value)) : Value :=
  .obj (members.foldl (fun acc m => Assoc.insert m.1 m.2 acc) [])

def ofDict (d : Dict String Value) : Value := .obj d.entries

def ofStrings (texts : List String) : Value := .list (texts.map .str)

def get? (key : String) : Value → Option Value
  | .obj members => Assoc.get? key members
  | _ => none

def getD (key : String) (v : Value) : Value := (v.get? key).getD .null

def asString? : Value → Option String
  | .str s => some s
  | _ => none

/-- The name of one of several cases: a text, or an object that holds nothing but null under the
name. -/
def asCase? : Value → Option String
  | .str name => some name
  | .obj [(name, .null)] => some name
  | _ => none

def asBool? : Value → Option Bool
  | .bool b => some b
  | _ => none

def asNat? : Value → Option Nat
  | .int (.ofNat n) => some n
  | _ => none

def asList? : Value → Option (List Value)
  | .list items => some items
  | _ => none

def asDict? : Value → Option (Dict String Value)
  | .obj members => some (Dict.ofList members)
  | _ => none

mutual

def agree (sameFloat : Binary64 → Binary64 → Bool) : Value → Value → Bool
  | .null, .null => true
  | .bool a, .bool b => a == b
  | .int a, .int b => a == b
  | .float a, .float b => sameFloat a b
  | .str a, .str b => a == b
  | .list xs, .list ys => agreeItems sameFloat xs ys
  | .obj xs, .obj ys => agreeMembers sameFloat xs ys
  | _, _ => false
termination_by structural v => v

def agreeItems (sameFloat : Binary64 → Binary64 → Bool) : List Value → List Value → Bool
  | [], [] => true
  | x :: xs, y :: ys => agree sameFloat x y && agreeItems sameFloat xs ys
  | _, _ => false
termination_by structural xs => xs

def agreeMembers (sameFloat : Binary64 → Binary64 → Bool) :
    List (String × Value) → List (String × Value) → Bool
  | [], [] => true
  | (k, x) :: xs, (l, y) :: ys => k == l && agree sameFloat x y && agreeMembers sameFloat xs ys
  | _, _ => false
termination_by structural xs => xs

end

/-- Equality as programs see it: numbers of the two kinds differ, the two float zeros do not. -/
def same (a b : Value) : Bool := agree Binary64.sameNumber a b

mutual

theorem agree_eq_iff (a b : Value) : agree (fun x y => decide (x = y)) a b = true ↔ a = b := by
  cases a with
  | list xs =>
    cases b with
    | list ys => simpa [agree] using agreeItems_eq_iff xs ys
    | _ => simp [agree]
  | obj xs =>
    cases b with
    | obj ys => simpa [agree] using agreeMembers_eq_iff xs ys
    | _ => simp [agree]
  | _ => cases b <;> simp [agree]
termination_by structural a

theorem agreeItems_eq_iff (xs ys : List Value) :
    agreeItems (fun x y => decide (x = y)) xs ys = true ↔ xs = ys := by
  cases xs with
  | nil => cases ys <;> simp [agreeItems]
  | cons x xs =>
    cases ys with
    | nil => simp [agreeItems]
    | cons y ys => simp [agreeItems, agree_eq_iff x y, agreeItems_eq_iff xs ys]
termination_by structural xs

theorem agreeMembers_eq_iff (xs ys : List (String × Value)) :
    agreeMembers (fun x y => decide (x = y)) xs ys = true ↔ xs = ys := by
  match xs, ys with
  | [], [] => simp [agreeMembers]
  | [], _ :: _ => simp [agreeMembers]
  | _ :: _, [] => simp [agreeMembers]
  | (k, x) :: xs, (l, y) :: ys =>
    simp [agreeMembers, agree_eq_iff x y, agreeMembers_eq_iff xs ys]
termination_by structural xs

end

instance : DecidableEq Value := fun a b => decidable_of_iff _ (agree_eq_iff a b)

end Value

end Mudlib
