import Mudlib.Table
import Mudlib.ResolveError
/-!
Linking: a definition and the tables of its direct ancestors make its table.

The ancestors' tables are merged from left to right, then the definition's own declarations come on
top. A field that arrives from two declaring definitions is a conflict, and so is a local field whose
name is inherited; the same field arriving twice from one definition is not. Methods never conflict:
each name keeps every contributing implementation, and a local one becomes the default. Qualified
calls are bound here, so a call that has no target fails the linking.
-/
set_option autoImplicit false

namespace Mudlib

/-- What an unqualified ancestor call does when several direct ancestors implement the method. -/
inductive AmbiguityPolicy where
  /-- Bind to the first of them in declaration order. -/
  | firstContributor
  | reject
  deriving DecidableEq, Repr

namespace AmbiguityPolicy

def all : List AmbiguityPolicy := [.firstContributor, .reject]

def name : AmbiguityPolicy → String
  | .firstContributor => "first-contributor"
  | .reject => "reject"

def ofName? (name : String) : Option AmbiguityPolicy := all.find? fun p => p.name = name

def ofValue? (v : Value) : Option AmbiguityPolicy := v.asCase?.bind ofName?

end AmbiguityPolicy

namespace Link

def addNew (ids : List DefinitionId) (id : DefinitionId) : List DefinitionId :=
  if id ∈ ids then ids else ids ++ [id]

def union (ids more : List DefinitionId) : List DefinitionId := more.foldl addNew ids

def lineageOf (parents : List Table) : List DefinitionId :=
  parents.foldl (fun acc p => union acc (p.id :: p.lineage)) []

def mergeField (definition : DefinitionId) (fields : Dict String FieldSlot)
    (inherited : String × FieldSlot) : Except ResolveError (Dict String FieldSlot) :=
  match fields.get? inherited.1 with
  | none => .ok (fields.insert inherited.1 inherited.2)
  | some first =>
    if first.owner = inherited.2.owner then .ok fields
    else .error (.fieldConflict definition inherited.1 first.owner inherited.2.owner)

/-- The fields of all parents; the first clash in order of parents, then of names, is reported. -/
def inheritedFields (definition : DefinitionId) (parents : List Table) :
    Except ResolveError (Dict String FieldSlot) :=
  parents.foldlM (fun fields p => p.fields.toList.foldlM (mergeField definition) fields) .empty

def addLocalField (definition : DefinitionId) (fields : Dict String FieldSlot)
    (local_ : String × FieldDecl) : Except ResolveError (Dict String FieldSlot) :=
  match fields.get? local_.1 with
  | some existing => .error (.shadowConflict definition local_.1 existing.owner)
  | none => .ok (fields.insert local_.1 ⟨definition, local_.2.type, local_.2.default⟩)

def addContribution (implementations : List Implementation) (m : Implementation) :
    List Implementation :=
  if implementations.any fun n => n.owner = m.owner then implementations
  else implementations ++ [m]

theorem length_le_addContribution (ms : List Implementation) (m : Implementation) :
    ms.length ≤ (addContribution ms m).length := by
  unfold addContribution
  split <;> simp

theorem length_le_foldl_addContribution (ms more : List Implementation) :
    ms.length ≤ (more.foldl addContribution ms).length := by
  induction more generalizing ms with
  | nil => exact Nat.le_refl _
  | cons m more ih => exact Nat.le_trans (length_le_addContribution ms m) (ih _)

/-- A slot joined by another parent's implementations of the same name; its default stays. -/
def joinSlot (slot incoming : MethodSlot) : MethodSlot where
  implementations := incoming.implementations.foldl addContribution slot.implementations
  default := slot.default
  inRange := Nat.lt_of_lt_of_le slot.inRange (length_le_foldl_addContribution _ _)

/-- The first parent's slot; the default is the first implementation with the default's owner. -/
def adoptSlot (incoming : MethodSlot) : MethodSlot :=
  let default :=
    (incoming.implementations.findIdx? fun m => m.owner = incoming.defaultImpl.owner).getD
      incoming.default
  if h : default < incoming.implementations.length then ⟨incoming.implementations, default, h⟩
  else incoming

def mergeMethod (methods : Dict String MethodSlot) (inherited : String × MethodSlot) :
    Dict String MethodSlot :=
  match methods.get? inherited.1 with
  | some slot => methods.insert inherited.1 (joinSlot slot inherited.2)
  | none => methods.insert inherited.1 (adoptSlot inherited.2)

def inheritedMethods (parents : List Table) : Dict String MethodSlot :=
  parents.foldl (fun methods p => p.methods.toList.foldl mergeMethod methods) .empty

def distinct (ms : List Implementation) : List Implementation :=
  ms.foldl (fun acc m => if acc.any fun n => n.same m then acc else acc ++ [m]) []

/-- Binds one qualified call: to the default implementation in a direct ancestor's table, the next
older one as seen from the calling body. Direct ancestors that share one implementation count as one
provider. -/
def resolveQualifiedCall (definition : DefinitionId) (call : QualifiedCall) (parents : List Table)
    (policy : AmbiguityPolicy) : Except ResolveError Implementation :=
  let noSuchMethod : ResolveError := .noSuchAncestorMethod definition call.method
  match call.ancestor with
  | some ancestor =>
    match parents.find? fun p => p.id = ancestor with
    | none => .error (.notAnAncestor definition ancestor)
    | some parent =>
      match parent.method? call.method with
      | some m => .ok m
      | none => .error noSuchMethod
  | none =>
    let providers := parents.filter fun p => p.hasMethod call.method
    match distinct (providers.filterMap fun p => p.method? call.method) with
    | [] => .error noSuchMethod
    | [m] => .ok m
    | m :: _ =>
      match policy with
      | .firstContributor => .ok m
      | .reject =>
        .error (.ambiguousAncestorCall definition call.method (providers.map Table.id))

def linkMethod (stamp : Nat) (definition : DefinitionId) (parents : List Table)
    (policy : AmbiguityPolicy) (m : String × MethodDecl) : Except ResolveError Implementation := do
  let calls ← m.2.calls.mapM fun call => do
    let target ← resolveQualifiedCall definition call parents policy
    return (call, target)
  return .mk stamp definition m.1 m.2.body calls

/-- Puts a local implementation behind the inherited ones and makes it the default. -/
def addLocalMethod (methods : Dict String MethodSlot) (m : Implementation) :
    Dict String MethodSlot :=
  let inherited := ((methods.get? m.name).map MethodSlot.implementations).getD []
  methods.insert m.name ⟨inherited ++ [m], inherited.length, by simp⟩

def depthOf (parents : List Table) : Nat :=
  parents.foldl (fun acc p => max acc (p.depth + 1)) 0

end Link

/-- Links a definition against the tables of its direct ancestors, given in declaration order. -/
def link (stamp : Nat) (d : Definition) (parents : List Table) (policy : AmbiguityPolicy) :
    Except ResolveError Table := do
  let inherited ← Link.inheritedFields d.id parents
  let fields ← d.fields.toList.foldlM (Link.addLocalField d.id) inherited
  let locals ← d.methods.toList.mapM (Link.linkMethod stamp d.id parents policy)
  return {
    stamp := stamp
    id := d.id
    ancestors := d.ancestors
    lineage := Link.lineageOf parents
    depth := Link.depthOf parents
    fields := fields
    methods := locals.foldl Link.addLocalMethod (Link.inheritedMethods parents)
    prototype := d.prototype
    auxiliaries := Link.union (parents.foldl (fun acc p => Link.union acc p.auxiliaries) [])
      d.auxiliaries
    fingerprint := d.fingerprint? }

end Mudlib
