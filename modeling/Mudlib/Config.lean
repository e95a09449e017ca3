import Mudlib.Link
import Mudlib.Value.Record
set_option autoImplicit false

namespace Mudlib

structure Config where
  /-- The method run once on every new instance. -/
  initMethod : String
  /-- The method run on each instance of a destruction while it is pending. -/
  destroyHook : Option String
  /-- The path of a definition that is attached to every new instance. -/
  baseAuxiliary : Option String
  ambiguousCalls : AmbiguityPolicy
  /-- The longest ancestor chain allowed. -/
  maxInheritanceDepth : Nat
  /-- The directory that holds the sources of definitions. -/
  sourceRoot : Option String
  deriving DecidableEq, Repr

namespace Config

def standard : Config := ⟨"create", some "on_destroy", none, .firstContributor, 32, none⟩

def optionalText (text : Option String) : Value := text.elim .null .str

def toValue (c : Config) : Value :=
  .ofMembers [
    ("init_method", .str c.initMethod),
    ("destroy_hook", optionalText c.destroyHook),
    ("base_auxiliary", optionalText c.baseAuxiliary),
    ("ambiguous_calls", .str c.ambiguousCalls.name),
    ("max_inheritance_depth", .int c.maxInheritanceDepth),
    ("source_root", optionalText c.sourceRoot)]

def fieldNames : List String :=
  ["init_method", "destroy_hook", "base_auxiliary", "ambiguous_calls", "max_inheritance_depth",
    "source_root"]

def optionalTextOr (r : Record) (field : String) (default : Option String) :
    Option (Option String) :=
  match r.get? field with
  | none => some default
  | some .null => some none
  | some v => v.asString?.map some

/-- Reads settings; what is not given keeps its standard value, and nothing is converted. -/
def ofValue? (v : Value) : Option Config := do
  let r ← Record.ofValue? fieldNames v
  return {
    initMethod := ← r.withDefault "init_method" standard.initMethod Value.asString?
    destroyHook := ← optionalTextOr r "destroy_hook" standard.destroyHook
    baseAuxiliary := ← optionalTextOr r "base_auxiliary" standard.baseAuxiliary
    ambiguousCalls :=
      ← r.withDefault "ambiguous_calls" standard.ambiguousCalls AmbiguityPolicy.ofValue?
    maxInheritanceDepth :=
      ← r.withDefault "max_inheritance_depth" standard.maxInheritanceDepth Value.asNat?
    sourceRoot := ← optionalTextOr r "source_root" standard.sourceRoot }

end Config

end Mudlib
