import Mudlib.Dict
set_option autoImplicit false

namespace Mudlib

inductive FileTree where
  | file (content : ByteArray)
  /-- The names of the entries are distinct. -/
  | dir (entries : List (String × FileTree))
  deriving Inhabited

namespace FileTree

def isDir : FileTree → Bool
  | .dir _ => true
  | .file _ => false

def content? : FileTree → Option ByteArray
  | .file content => some content
  | .dir _ => none

def child? (name : String) : FileTree → Option FileTree
  | .dir entries => Assoc.get? name entries
  | .file _ => none

def at? (tree : FileTree) : List String → Option FileTree
  | [] => some tree
  | name :: path => (tree.child? name).bind fun sub => sub.at? path

mutual

def files : FileTree → List (List String × ByteArray)
  | .file content => [([], content)]
  | .dir entries => filesOf entries

def filesOf : List (String × FileTree) → List (List String × ByteArray)
  | [] => []
  | (name, sub) :: rest => sub.files.map (fun f => (name :: f.1, f.2)) ++ filesOf rest

end

/-- Puts a tree in the place of another. A directory keeps the entries it has beside those of one
that is put in its place. -/
def laidOver : FileTree → FileTree → FileTree
  | .dir more, .dir entries => .dir (more.foldl (fun acc e => Assoc.insert e.1 e.2 acc) entries)
  | node, _ => node

def put (node : FileTree) : List String → FileTree → FileTree
  | [], tree => node.laidOver tree
  | name :: path, .dir entries =>
    .dir (Assoc.insert name (put node path ((Assoc.get? name entries).getD (.dir []))) entries)
  | name :: path, .file _ => .dir [(name, put node path (.dir []))]

/-- The parts of a relative name. Empty ones and dots stay in place and do not count, two dots take
back the part before them. -/
def partsOf (name : String) : List String :=
  ((name.toList.splitOn '/').map String.ofList).foldl (fun (parts : List String) (part : String) =>
    if part = "" || part = "." then parts
    else if part = ".." then parts.dropLast
    else parts ++ [part]) []

def ofNames (nodes : List (String × FileTree)) : FileTree :=
  nodes.foldl (fun tree n => put n.2 (partsOf n.1) tree) (.dir [])

/-- Follows the parts of a path. An empty part and a dot stay in a directory, two dots go back to
the one it was entered from, and stay at the top; none of them may follow a file. -/
def walk : List FileTree → FileTree → List String → Option FileTree
  | _, tree, [] => some tree
  | _, .file _, _ :: _ => none
  | above, .dir entries, part :: parts =>
    if part = "" || part = "." then walk above (.dir entries) parts
    else if part = ".." then
      match above with
      | [] => walk [] (.dir entries) parts
      | parent :: above => walk above parent parts
    else
      match Assoc.get? part entries with
      | none => none
      | some sub => walk (.dir entries :: above) sub parts

/-- What a path leads to. It starts at the top if it begins with a slash, and else in the directory
at this place; an empty path leads nowhere. -/
def locate? (top : FileTree) (place : List String) (path : String) : Option FileTree :=
  match path.toList with
  | [] => none
  | '/' :: cs => walk [] top ((cs.splitOn '/').map String.ofList)
  | cs => walk [] top (place ++ (cs.splitOn '/').map String.ofList)

end FileTree

end Mudlib
