import Mudlib.Registry.Basic
/-!
Resolution: the table of a definition, made from its source and the tables of its ancestors, which
are resolved first and kept.

The walk ends because it never goes more than `maxDepth` levels above the definition asked for. A
failure keeps the tables and sources that were found on the way.
-/
set_option autoImplicit false

namespace Mudlib.Registry

/-- The source of a definition: the stored one, or else the loader's, which is then stored. -/
def loadSource (r : Registry) (id : DefinitionId) : Except ResolveError Definition × Registry :=
  match r.source? id with
  | some d => (.ok d, r)
  | none =>
    match r.loader with
    | none => (.error (.unknownDefinition id), r)
    | some load =>
      match load id with
      | .error fault => (.error (.source id fault), r)
      | .ok none => (.error (.unknownDefinition id), r)
      | .ok (some d) =>
        if d.id = id then (.ok d, { r with sources := r.sources.insert id d })
        else (.error (.source id (.declares d.id)), r)

def resolveEach (resolveOne : DefinitionId → Registry → Except ResolveError Table × Registry) :
    List DefinitionId → Registry → Except ResolveError (List Table) × Registry
  | [], r => (.ok [], r)
  | id :: ids, r =>
    match resolveOne id r with
    | (.error e, r) => (.error e, r)
    | (.ok t, r) =>
      match resolveEach resolveOne ids r with
      | (.error e, r) => (.error e, r)
      | (.ok ts, r) => (.ok (t :: ts), r)

def linkAndKeep (d : Definition) (parents : List Table) (r : Registry) :
    Except ResolveError Table × Registry :=
  match link r.linked d parents r.policy with
  | .error e => (.error e, r)
  | .ok t =>
    let r := { r with linked := r.linked + 1 }
    if r.maxDepth < t.depth then (.error (.tooDeep d.id r.maxDepth), r)
    else (.ok t, { r with tables := r.tables.insert d.id t })

/-- Resolves a definition. `room` is how many more levels may be entered, `visiting` the descendants
that are being resolved, outermost first. -/
def resolveWithin :
    Nat → List DefinitionId → DefinitionId → Registry → Except ResolveError Table × Registry
  | room, visiting, id, r =>
    match r.cached? id with
    | some t => (.ok t, r)
    | none =>
      if id ∈ visiting then (.error (.inheritanceCycle (visiting ++ [id])), r)
      else
        match room with
        | 0 => (.error (.tooDeep (visiting.headD id) r.maxDepth), r)
        | room + 1 =>
          match r.loadSource id with
          | (.error e, r) => (.error e, r)
          | (.ok d, r) =>
            match resolveEach (resolveWithin room (visiting ++ [id])) d.ancestors r with
            | (.error e, r) => (.error e, r)
            | (.ok parents, r) => linkAndKeep d parents r
termination_by structural room => room

def get (r : Registry) (id : DefinitionId) : Except ResolveError Table × Registry :=
  resolveWithin (r.maxDepth + 1) [] id r

def getPath (r : Registry) (path : String) : Except ResolveError Table × Registry :=
  match DefinitionId.ofPath? path with
  | .ok id => r.get id
  | .error fault => (.error (.invalidPath fault), r)

/-- The cached table that a definition with this fingerprint would only make again. -/
def unchanged? (r : Registry) (d : Definition) : Option Table :=
  match d.fingerprint?, r.cached? d.id with
  | some f, some t => if t.fingerprint = some f then some t else none
  | _, _ => none

/-- Puts back the source that an id had before, or takes it away if it had none. -/
def restoreSource (r : Registry) (id : DefinitionId) : Option Definition → Registry
  | some d => { r with sources := r.sources.insert id d }
  | none => { r with sources := r.sources.erase id }

/-- Stores a source and resolves it. A declarative source that has not changed keeps its table, and
a source that cannot be resolved gives way to the one before it. -/
def compile (r : Registry) (d : Definition) : Except ResolveError Table × Registry :=
  match r.unchanged? d with
  | some t => (.ok t, r)
  | none =>
    match (r.register d).get d.id with
    | (.ok t, r') => (.ok t, r')
    | (.error e, r') => (.error e, r'.restoreSource d.id (r.source? d.id))

inductive Operation where
  | register (d : Definition)
  | compile (d : Definition)
  | get (id : DefinitionId)
  | invalidate (id : DefinitionId)
  | unload (id : DefinitionId)

def after (r : Registry) : Operation → Registry
  | .register d => r.register d
  | .compile d => (r.compile d).2
  | .get id => (r.get id).2
  | .invalidate id => r.invalidate id
  | .unload id => r.unload id

def afterAll (r : Registry) (operations : List Operation) : Registry := operations.foldl after r

end Mudlib.Registry
