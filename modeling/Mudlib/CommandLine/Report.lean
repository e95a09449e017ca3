import Mudlib.CommandLine.Arguments
import Mudlib.Config.Environment
import Mudlib.Source.Files
import Mudlib.Space.Operations
import Mudlib.Table
set_option autoImplicit false

namespace Mudlib.CommandLine

structure Report where
  exitCode : Nat
  documents : List Value
  complaints : List String

namespace Report

def misuse : Report := ⟨2, [], []⟩

def failure (text : String) : Report := ⟨1, [], ["Error: " ++ text]⟩

def indented (text : String) : String :=
  String.ofList ("    ".toList ++
    text.toList.flatMap fun c => if c = '\n' then "\n    ".toList else [c])

/-- A failure to resolve; a bad path is named once more as the cause. -/
def unresolved (e : ResolveError) : Report :=
  match e with
  | .invalidPath fault =>
    ⟨1, [], ["Error: " ++ e.message, "", "Caused by:", indented fault.message]⟩
  | _ => failure e.message

def failed (e : RuntimeError) : Report :=
  match e.resolveCause? with
  | some cause => unresolved cause
  | none => failure e.message

end Report

structure Tally where
  registry : Registry
  documents : List Value
  complaints : List String

def Tally.step (t : Tally) (path : String) : Tally :=
  match t.registry.getPath path with
  | (.ok table, registry) => { t with registry, documents := t.documents ++ [table.summary] }
  | (.error e, registry) =>
    { t with registry, complaints := t.complaints ++ [path ++ ": " ++ e.message] }

def check (registry : Registry) (paths : List String) : Report :=
  let t := paths.foldl Tally.step ⟨registry, [], []⟩
  if t.complaints.isEmpty then ⟨0, t.documents, []⟩
  else
    ⟨1, t.documents, t.complaints ++
      ["Error: " ++ toString t.complaints.length ++ " of " ++ toString paths.length ++
        " definitions failed to resolve"]⟩

def depthLimit : Nat := 1000000

def spawn (registry : Registry) (config : Config) (path : String) : Report :=
  match Space.ofConfig? registry config with
  | .error e => .unresolved e
  | .ok s =>
    match s.instantiatePath depthLimit path .system with
    | none => .failure "methods call each other without end"
    | some (.error e, _) => .failed e
    | some (.ok id, s) => ⟨0, [((s.instance? id).elim .null fun i => .ofDict i.fields)], []⟩

def runCommand (root : FileTree) (config : Config) : Command → Report
  | .check ids =>
    let registry := registryOf root config
    if ids.isEmpty then check registry (((Source.discover root).getD []).map DefinitionId.text)
    else check registry ids
  | .spawn id => spawn (registryOf root config) config id
where
  registryOf (root : FileTree) (config : Config) : Registry :=
    .empty config.ambiguousCalls config.maxInheritanceDepth (some (Source.load root))

def settings? (locate : String → Option FileTree) (environment : List (String × String))
    (args : Arguments) : Option Config :=
  Config.load? ((args.config.bind locate).bind FileTree.content?) environment

/-- The root of the sources, which the arguments name before the settings do. -/
def rootPath? (args : Arguments) (config : Config) : Option String :=
  args.root.or config.sourceRoot

def run (locate : String → Option FileTree) (environment : List (String × String))
    (words : List String) : Report :=
  match Arguments.ofWords? words with
  | none => .misuse
  | some args =>
    match settings? locate environment args with
    | none => .failure "the settings cannot be read"
    | some config =>
      match rootPath? args config with
      | none => .failure "No source root: pass --root or set source_root"
      | some path =>
        match (locate path).filter FileTree.isDir with
        | none => .failure ("Source root not found: " ++ path)
        | some root => runCommand root config args.command

end Mudlib.CommandLine
