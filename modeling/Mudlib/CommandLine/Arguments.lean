/-!
The arguments of the command line: two options, which may stand before or after the command, and a
command with its operands.

An option takes the next argument or what is attached to it. After two hyphens everything is an
operand. An option may be given once before the command and once after it; the later one counts.
-/
set_option autoImplicit false

namespace Mudlib.CommandLine

inductive Command where
  /-- Resolves definitions, or every source below the root if none is named. -/
  | check (ids : List String)
  /-- Creates an instance. -/
  | spawn (id : String)
  deriving DecidableEq, Repr

structure Arguments where
  config : Option String
  root : Option String
  command : Command
  deriving DecidableEq, Repr

inductive OptionName where
  | config
  | root
  deriving DecidableEq, Repr

namespace OptionName

def all : List OptionName := [.config, .root]

def long : OptionName → List Char
  | .config => "--config".toList
  | .root => "--root".toList

def short : OptionName → List Char
  | .config => "-c".toList
  | .root => "-r".toList

end OptionName

def after? (start cs : List Char) : Option (List Char) :=
  if start.isPrefixOf cs then some (cs.drop start.length) else none

def longValue? (name : OptionName) (arg : List Char) : Option (Option (List Char)) :=
  match after? name.long arg with
  | some [] => some none
  | some ('=' :: value) => some (some value)
  | _ => none

def shortValue? (name : OptionName) (arg : List Char) : Option (Option (List Char)) :=
  match after? name.short arg with
  | some [] => some none
  | some ('=' :: value) => some (some value)
  | some value => some (some value)
  | none => none

def option? (arg : String) : Option (OptionName × Option String) :=
  OptionName.all.findSome? fun name =>
    ((longValue? name arg.toList).or (shortValue? name arg.toList)).map fun value =>
      (name, value.map String.ofList)

def isOptionLike (arg : String) : Bool :=
  match arg.toList with
  | '-' :: _ :: _ => true
  | _ => false

structure Given where
  config : Option String
  root : Option String

namespace Given

def empty : Given := ⟨none, none⟩

def set? (g : Given) (name : OptionName) (value : String) : Option Given :=
  if value = "" then none
  else
    match name, g with
    | .config, ⟨none, root⟩ => some ⟨some value, root⟩
    | .root, ⟨config, none⟩ => some ⟨config, some value⟩
    | _, _ => none

end Given

inductive CommandName where
  | check
  | spawn
  deriving DecidableEq, Repr

structure Scan where
  before : Given
  inside : Given
  command : Option CommandName
  operands : List String
  /-- The option whose value comes next. -/
  awaiting : Option OptionName
  /-- Only operands are left. -/
  literal : Bool

namespace Scan

def start : Scan := ⟨.empty, .empty, none, [], none, false⟩

def give? (s : Scan) (name : OptionName) (value : String) : Option Scan :=
  match s.command with
  | none => (s.before.set? name value).map fun before => { s with before, awaiting := none }
  | some _ => (s.inside.set? name value).map fun inside => { s with inside, awaiting := none }

def word? (s : Scan) (arg : String) : Option Scan :=
  match s.command with
  | some _ => some { s with operands := s.operands ++ [arg] }
  | none =>
    if s.literal then none
    else if arg = "check" then some { s with command := some .check }
    else if arg = "spawn" then some { s with command := some .spawn }
    else none

def step? (s : Scan) (arg : String) : Option Scan :=
  match s.awaiting with
  | some name => if isOptionLike arg then none else s.give? name arg
  | none =>
    if s.literal then s.word? arg
    else if arg = "--" then some { s with literal := true }
    else
      match option? arg with
      | some (name, none) => some { s with awaiting := some name }
      | some (name, some value) => s.give? name value
      | none => if isOptionLike arg then none else s.word? arg

def command? (s : Scan) : Option Command :=
  match s.awaiting, s.command, s.operands with
  | none, some .check, ids => some (.check ids)
  | none, some .spawn, [id] => some (.spawn id)
  | _, _, _ => none

end Scan

def Arguments.ofWords? (words : List String) : Option Arguments := do
  let s ← words.foldlM Scan.step? Scan.start
  return ⟨s.inside.config.or s.before.config, s.inside.root.or s.before.root, ← s.command?⟩

example : Arguments.ofWords? ["-rlib", "check", "/a", "--root=other", "--", "-b"] =
    some ⟨none, some "other", .check ["/a", "-b"]⟩ := by decide

example : Arguments.ofWords? ["check", "-r"] = none := by decide

end Mudlib.CommandLine
