import Mudlib.Link
set_option autoImplicit false

namespace Mudlib

/-- Supplies the source of a definition that the registry has none for; none if there is none.

It fails only with a fault in the source of the id that it is asked for, as the loader of a file tree
does (`Error.source` of that id); the other errors of a registry are not a loader's to report. -/
abbrev Loader := DefinitionId → Except SourceFault (Option Definition)

structure Registry where
  sources : Dict DefinitionId Definition
  tables : Dict DefinitionId Table
  loader : Option Loader
  policy : AmbiguityPolicy
  maxDepth : Nat
  /-- How many linkings were made; the stamp of the next. -/
  linked : Nat

namespace Registry

def empty (policy : AmbiguityPolicy) (maxDepth : Nat) (loader : Option Loader) : Registry :=
  ⟨.empty, .empty, loader, policy, maxDepth, 0⟩

def source? (r : Registry) (id : DefinitionId) : Option Definition := r.sources.get? id

def cached? (r : Registry) (id : DefinitionId) : Option Table := r.tables.get? id

def definitions (r : Registry) : List DefinitionId := r.sources.keys

def cachedIds (r : Registry) : List DefinitionId := r.tables.keys

def falls (id key : DefinitionId) (t : Table) : Bool := key = id || t.dependsOn id

def dependents (r : Registry) (id : DefinitionId) : List DefinitionId :=
  (r.tables.filter fun key t => falls id key t).keys

def invalidate (r : Registry) (id : DefinitionId) : Registry :=
  { r with tables := r.tables.filter fun key t => !falls id key t }

def register (r : Registry) (d : Definition) : Registry :=
  let r := r.invalidate d.id
  { r with sources := r.sources.insert d.id d }

def unload (r : Registry) (id : DefinitionId) : Registry :=
  let r := r.invalidate id
  { r with sources := r.sources.erase id }

theorem get?_tables_invalidate (r : Registry) (id key : DefinitionId) :
    (r.invalidate id).tables.get? key = (r.tables.get? key).filter fun t => !falls id key t := by
  simp only [invalidate, Dict.get?_filter]

theorem get?_sources_register (r : Registry) (d : Definition) (key : DefinitionId) :
    (r.register d).sources.get? key = if key = d.id then some d else r.sources.get? key := by
  simp only [register, invalidate, Dict.get?_insert]

theorem get?_sources_unload (r : Registry) (id key : DefinitionId) :
    (r.unload id).sources.get? key = if key = id then none else r.sources.get? key := by
  simp only [unload, invalidate, Dict.get?_erase]

end Registry

end Mudlib
