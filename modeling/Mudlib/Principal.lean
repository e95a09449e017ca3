import Mudlib.Dict
import Mudlib.Value.Record
import Mudlib.Text.Lowercase
set_option autoImplicit false

namespace Mudlib

structure InstanceId where
  number : Nat
  deriving DecidableEq, Repr, Inhabited

namespace InstanceId

instance : LT InstanceId where
  lt a b := a.number < b.number

instance : DecidableLT InstanceId := fun a b => inferInstanceAs (Decidable (a.number < b.number))

def text (id : InstanceId) : String := "#" ++ toString id.number

def toValue (id : InstanceId) : Value := .int id.number

def ofValue? (v : Value) : Option InstanceId := v.asNat?.map InstanceId.mk

end InstanceId

inductive AccessLevel where
  | player
  | builder
  | wizard
  | admin
  | owner
  deriving DecidableEq, Repr

namespace AccessLevel

def all : List AccessLevel := [.player, .builder, .wizard, .admin, .owner]

def name : AccessLevel → String
  | .player => "player"
  | .builder => "builder"
  | .wizard => "wizard"
  | .admin => "admin"
  | .owner => "owner"

def rank : AccessLevel → Nat
  | .player => 0
  | .builder => 1
  | .wizard => 2
  | .admin => 3
  | .owner => 4

def initial : AccessLevel := .player

/-- From wizard on, accounts bypass ownership checks. -/
def isPrivileged (level : AccessLevel) : Bool := AccessLevel.wizard.rank ≤ level.rank

def below (level : AccessLevel) : List AccessLevel := all.filter fun l => l.rank < level.rank

def ofName? (name : String) : Option AccessLevel := all.find? fun l => l.name = name

def ofValue? (v : Value) : Option AccessLevel := v.asCase?.bind ofName?

def ofText? (text : String) : Option AccessLevel := ofName? (Text.lowercase text)

end AccessLevel

inductive Principal where
  | system
  | account (id : String) (level : AccessLevel)
  | object (id : InstanceId)
  deriving DecidableEq, Repr

namespace Principal

/-- Whether the two are one and the same; accounts are told apart by their ids alone. -/
def sameIdentity : Principal → Principal → Bool
  | .system, .system => true
  | .account a _, .account b _ => a == b
  | .object a, .object b => a == b
  | _, _ => false

theorem eq_of_sameIdentity_object {id : InstanceId} {p : Principal}
    (h : sameIdentity (.object id) p = true) : p = .object id := by
  cases p with
  | object other => rw [eq_of_beq h]
  | system => cases h
  | account _ _ => cases h

def text : Principal → String
  | .system => "system"
  | .account id _ => "account " ++ id
  | .object id => "object " ++ id.text

def toValue : Principal → Value
  | .system => .str "system"
  | .account id level =>
    .obj [("account", .obj [("id", .str id), ("level", .str level.name)])]
  | .object id => .obj [("object", id.toValue)]

def ofValue? : Value → Option Principal
  | .str "system" => some .system
  | .obj [("system", .null)] => some .system
  | .obj [("account", v)] => do
    let r ← Record.ofValue? ["id", "level"] v
    let id ← r.required "id" Value.asString?
    let level ← r.required "level" AccessLevel.ofValue?
    return .account id level
  | .obj [("object", v)] => (InstanceId.ofValue? v).map .object
  | _ => none

end Principal

end Mudlib
