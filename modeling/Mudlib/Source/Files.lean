import Mudlib.FileTree
import Mudlib.Source.Document
import Mudlib.Registry.Basic
set_option autoImplicit false

namespace Mudlib.Source

def extension : List Char := ".toml".toList

def stem? (name : String) : Option String :=
  let cs := name.toList
  let cut := cs.length - extension.length
  if 0 < cut && cs.drop cut = extension then some (String.ofList (cs.take cut)) else none

def segments? : List String → Option (List String)
  | [] => none
  | [name] => (stem? name).map ([·])
  | name :: path => (segments? path).map (name :: ·)

def idOfFile? (path : List String) : Option DefinitionId :=
  (segments? path).bind fun segments =>
    (DefinitionId.ofPath? ("/" ++ "/".intercalate segments)).toOption

/-- The ids of all source files below a root, in order; none if the root is no directory. -/
def discover (root : FileTree) : Option (List DefinitionId) :=
  if root.isDir then
    some ((root.files.filterMap fun f => idOfFile? f.1).mergeSort fun a b => a.text ≤ b.text)
  else none

def file? (root : FileTree) (id : DefinitionId) : Option ByteArray :=
  (root.at? ((id.sourceFile.toList.splitOn '/').map String.ofList)).bind FileTree.content?

def load (root : FileTree) : Loader := fun id =>
  match file? root id with
  | none => .ok none
  | some bytes =>
    match String.fromUTF8? bytes with
    | none => .error .unreadable
    | some text => (parse id text).map some

end Mudlib.Source
