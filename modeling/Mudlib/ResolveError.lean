import Mudlib.DefinitionId
set_option autoImplicit false

namespace Mudlib

inductive SourceFault where
  | unreadable
  /-- The loader handed out the source of another definition. -/
  | declares (other : DefinitionId)
  /-- The loader refused, in its own words. -/
  | reported (text : String)
  deriving DecidableEq, Repr

inductive ResolveError where
  | fieldConflict (definition : DefinitionId) (field : String) (first second : DefinitionId)
  | shadowConflict (definition : DefinitionId) (field : String) (ancestor : DefinitionId)
  | noSuchAncestorMethod (definition : DefinitionId) (method : String)
  | ambiguousAncestorCall (definition : DefinitionId) (method : String)
      (candidates : List DefinitionId)
  | notAnAncestor (definition ancestor : DefinitionId)
  | unknownDefinition (definition : DefinitionId)
  /-- The chain ends with the first definition met twice. -/
  | inheritanceCycle (chain : List DefinitionId)
  | tooDeep (definition : DefinitionId) (limit : Nat)
  | invalidPath (fault : PathError)
  | source (definition : DefinitionId) (fault : SourceFault)
  deriving DecidableEq, Repr

/-- An unreadable source is reported without the reader's complaint. -/
def SourceFault.message : SourceFault → String
  | .unreadable => ""
  | .declares other => " source declares " ++ other.text
  | .reported text => " " ++ text

namespace ResolveError

def kind : ResolveError → String
  | .fieldConflict .. => "FieldConflict"
  | .shadowConflict .. => "ShadowConflict"
  | .noSuchAncestorMethod .. => "NoSuchAncestorMethod"
  | .ambiguousAncestorCall .. => "AmbiguousAncestorCall"
  | .notAnAncestor .. => "NotAnAncestor"
  | .unknownDefinition _ => "UnknownDefinition"
  | .inheritanceCycle _ => "InheritanceCycle"
  | .tooDeep .. => "TooDeep"
  | .invalidPath _ => "InvalidPath"
  | .source .. => "Source"

def candidateList (ids : List DefinitionId) : String :=
  "[" ++ ", ".intercalate (ids.map fun id => "DefinitionId(\"" ++ id.text ++ "\")") ++ "]"

def message : ResolveError → String
  | .fieldConflict d field first second =>
    d.text ++ ": field '" ++ field ++ "' is declared by both " ++ first.text ++ " and " ++
      second.text
  | .shadowConflict d field ancestor =>
    d.text ++ ": field '" ++ field ++ "' shadows the one declared by " ++ ancestor.text
  | .noSuchAncestorMethod d method => d.text ++ ": no ancestor implements '" ++ method ++ "'"
  | .ambiguousAncestorCall d method candidates =>
    d.text ++ ": call to ::" ++ method ++ " is ambiguous between " ++ candidateList candidates
  | .notAnAncestor d ancestor => d.text ++ ": " ++ ancestor.text ++ " is not a direct ancestor"
  | .unknownDefinition d => "unknown definition " ++ d.text
  | .inheritanceCycle chain =>
    "inheritance cycle: " ++ " -> ".intercalate (chain.map DefinitionId.text)
  | .tooDeep d limit =>
    d.text ++ ": inheritance deeper than " ++ toString limit ++ " levels"
  | .invalidPath fault => "invalid definition path: " ++ fault.message
  | .source d fault => d.text ++ ": failed to load source:" ++ fault.message

end ResolveError

end Mudlib
