import Mudlib.Table
import Mudlib.Principal
/-!
Instances, and the population of all instances ever created.

An instance keeps the table it was created with, whatever becomes of its definition. Instances are
numbered from one and never removed; a destroyed one stays as a tombstone.
-/
set_option autoImplicit false

namespace Mudlib

inductive LifecycleState where
  | live
  | pendingDestroy
  | destroyed
  deriving DecidableEq, Repr

namespace LifecycleState

def all : List LifecycleState := [.live, .pendingDestroy, .destroyed]

def name : LifecycleState → String
  | .live => "live"
  | .pendingDestroy => "pending_destroy"
  | .destroyed => "destroyed"

def text : LifecycleState → String
  | .live => "live"
  | .pendingDestroy => "pending destroy"
  | .destroyed => "destroyed"

def ofName? (name : String) : Option LifecycleState := all.find? fun s => s.name = name

def ofValue? (v : Value) : Option LifecycleState := v.asCase?.bind ofName?

end LifecycleState

structure Instance where
  table : Table
  /-- Who caused the creation. -/
  owner : Principal
  privileged : Bool
  state : LifecycleState
  fields : Dict String Value
  attachments : List InstanceId
  host : Option InstanceId

namespace Instance

def create (table : Table) (owner : Principal) (privileged : Bool) : Instance :=
  ⟨table, owner, privileged, .live, table.defaultFields, [], none⟩

def definition (i : Instance) : DefinitionId := i.table.id

def isPrototype (i : Instance) : Bool := i.table.prototype

def isDestroyed (i : Instance) : Bool := i.state = .destroyed

def isLive (i : Instance) : Bool := i.state = .live

/-- Drops fields and links; what is left is a tombstone. -/
def release (i : Instance) : Instance :=
  { i with fields := .empty, attachments := [], host := none, state := .destroyed }

def hostValue (i : Instance) : Value := i.host.elim .null InstanceId.toValue

def attachmentsValue (i : Instance) : Value := .list (i.attachments.map InstanceId.toValue)

def describe (id : InstanceId) (i : Instance) : Value :=
  .ofMembers [
    ("id", id.toValue),
    ("definition", .str i.definition.text),
    ("owner", i.owner.toValue),
    ("state", .str i.state.name),
    ("privileged", .bool i.privileged),
    ("prototype", .bool i.isPrototype),
    ("host", i.hostValue),
    ("attachments", i.attachmentsValue),
    ("fields", .ofDict i.fields)]

end Instance

/-- All instances; number `n` stands at place `n - 1`. -/
structure Population where
  members : Array Instance

namespace Population

def empty : Population := ⟨#[]⟩

def size (p : Population) : Nat := p.members.size

def nextId (p : Population) : InstanceId := ⟨p.members.size + 1⟩

def get? (p : Population) (id : InstanceId) : Option Instance :=
  match id.number with
  | 0 => none
  | n + 1 => p.members[n]?

def add (p : Population) (i : Instance) : Population := ⟨p.members.push i⟩

def update (p : Population) (id : InstanceId) (f : Instance → Instance) : Population :=
  match id.number with
  | 0 => p
  | n + 1 => ⟨p.members.modify n f⟩

def ids (p : Population) : List InstanceId := (List.range p.members.size).map fun n => ⟨n + 1⟩

def liveCount (p : Population) : Nat := p.members.toList.countP fun i => !i.isDestroyed

@[simp] theorem size_add (p : Population) (i : Instance) : (p.add i).size = p.size + 1 := by
  simp [size, add]

@[simp] theorem size_update (p : Population) (id : InstanceId) (f : Instance → Instance) :
    (p.update id f).size = p.size := by
  unfold update
  split <;> simp [size]

theorem get?_add (p : Population) (i : Instance) (id : InstanceId) :
    (p.add i).get? id = if id = p.nextId then some i else p.get? id := by
  obtain ⟨n⟩ := id
  cases n with
  | zero => simp [get?, nextId]
  | succ n => simp [get?, add, nextId, Array.getElem?_push]

theorem get?_update (p : Population) (id id' : InstanceId) (f : Instance → Instance) :
    (p.update id f).get? id' = if id' = id then (p.get? id').map f else p.get? id' := by
  obtain ⟨n⟩ := id
  obtain ⟨m⟩ := id'
  cases n with
  | zero => cases m <;> simp [get?, update]
  | succ n =>
    cases m with
    | zero => simp [get?]
    | succ m =>
      by_cases h : n = m
      · subst h; simp [get?, update, Array.getElem?_modify]
      · have h' : ¬ m = n := fun e => h e.symm
        simp [get?, update, Array.getElem?_modify, h, h']

theorem ext_get? {p q : Population} (h : ∀ id, p.get? id = q.get? id) : p = q := by
  obtain ⟨members⟩ := p
  obtain ⟨others⟩ := q
  rw [mk.injEq]
  exact Array.ext_getElem? fun n => h ⟨n + 1⟩

theorem get?_isSome_iff (p : Population) (id : InstanceId) :
    (p.get? id).isSome = true ↔ 0 < id.number ∧ id.number ≤ p.size := by
  obtain ⟨n⟩ := id
  cases n with
  | zero => simp [get?]
  | succ n =>
    have hget : (get? p ⟨n + 1⟩).isSome = true ↔ n < p.size := by simp [get?, size]
    rw [hget]
    exact ⟨fun h => ⟨Nat.succ_pos n, h⟩, fun h => h.2⟩

end Population

end Mudlib
