import Mudlib.Space.Basic
/-!
Composition: instances attached to a host, and operations forwarded to them.

A host and its attachments point at each other. Walks along these links are bounded by the number of
instances: one that comes to the bound has met an instance twice and would never end, and answers
none.
-/
set_option autoImplicit false

namespace Mudlib.Space

/-- A walk through more instances than this meets one of them twice. -/
def walkBound (s : Space) : Nat := s.population.size + 1

/-- The first answer of the attachments that is not about a missing method. -/
def firstAnswer (ask : InstanceId → Option (Except RuntimeError (InstanceId × Implementation)))
    (otherwise : RuntimeError) :
    List InstanceId → Option (Except RuntimeError (InstanceId × Implementation))
  | [] => some (.error otherwise)
  | id :: ids =>
    match ask id with
    | some (.error (.noSuchMethod ..)) => firstAnswer ask otherwise ids
    | answer => answer

/-- The instance and the implementation that answer a method: the instance's own table first, then
each attachment in order, which looks at its own attachments in the same way. -/
def dispatchWithin (s : Space) (method : String) :
    Nat → InstanceId → Option (Except RuntimeError (InstanceId × Implementation))
  | 0, _ => none
  | n + 1, id =>
    match s.invokable id with
    | .error e => some (.error e)
    | .ok i =>
      match i.table.method? method with
      | some m => some (.ok (id, m))
      | none => firstAnswer (dispatchWithin s method n) (.noSuchMethod id method) i.attachments

def dispatch (s : Space) (id : InstanceId) (method : String) :
    Option (Except RuntimeError (InstanceId × Implementation)) :=
  s.dispatchWithin method s.walkBound id

def respondsTo (s : Space) (id : InstanceId) (method : String) : Option Bool :=
  (s.dispatch id method).map Except.isOk

def hostedByWithin (s : Space) (target : InstanceId) : Nat → Option InstanceId → Option Bool
  | _, none => some false
  | 0, some _ => none
  | n + 1, some above => if above = target then some true else hostedByWithin s target n (s.host? above)

def hostedBy (s : Space) (id target : InstanceId) : Option Bool :=
  s.hostedByWithin target s.walkBound (s.host? id)

def linkAttachment (s : Space) (host auxiliary : InstanceId) : Space :=
  (s.update auxiliary fun i => { i with host := some host }).update host
    fun i => { i with attachments := i.attachments ++ [auxiliary] }

def unlinkAttachment (s : Space) (host auxiliary : InstanceId) : Space :=
  (s.update host fun i => { i with attachments := i.attachments.filter (· ≠ auxiliary) }).update
    auxiliary fun i => if i.host = some host then { i with host := none } else i

def checkAttach (s : Space) (host auxiliary : InstanceId) (caller : Principal) :
    Except RuntimeError Unit := do
  let h ← s.live host
  let a ← s.live auxiliary
  s.authorize caller .attach host h.owner
  s.authorize caller .attach auxiliary a.owner
  if host = auxiliary then throw (.attachmentCycle auxiliary host)
  if a.isPrototype then throw (.prototypeAttachment auxiliary)
  match a.host with
  | some current => throw (.alreadyAttached auxiliary current)
  | none => return

def attach (s : Space) (host auxiliary : InstanceId) (caller : Principal) :
    Option (Except RuntimeError Space) :=
  match s.checkAttach host auxiliary caller with
  | .error e => some (.error e)
  | .ok () =>
    (s.hostedBy host auxiliary).map fun cyclic =>
      if cyclic then .error (.attachmentCycle auxiliary host)
      else .ok (s.linkAttachment host auxiliary)

def detach (s : Space) (host auxiliary : InstanceId) (caller : Principal) :
    Except RuntimeError Space := do
  let h ← s.live host
  if auxiliary ∉ h.attachments then throw (.notAttached auxiliary host)
  let a ← s.invokable auxiliary
  s.authorize caller .attach host h.owner
  s.authorize caller .attach auxiliary a.owner
  return s.unlinkAttachment host auxiliary

def collectEach (visit : InstanceId → List InstanceId → Option (List InstanceId)) :
    List InstanceId → List InstanceId → Option (List InstanceId)
  | [], order => some order
  | id :: ids, order =>
    match visit id order with
    | none => none
    | some order => collectEach visit ids order

/-- Adds the live instances of an attachment tree that are not listed yet, attachments before their
host. -/
def collectWithin (s : Space) : Nat → InstanceId → List InstanceId → Option (List InstanceId)
  | 0, _, _ => none
  | n + 1, id, order =>
    match s.instance? id with
    | none => some order
    | some i =>
      if !i.isLive || id ∈ order then some order
      else (collectEach (collectWithin s n) i.attachments order).map (· ++ [id])

/-- The live instances attached to an instance and to those, deepest first, the instance itself last.
What is pending destruction belongs to another destruction and is left out. -/
def attachmentTree (s : Space) (id : InstanceId) : Option (List InstanceId) :=
  s.collectWithin s.walkBound id []

end Mudlib.Space
