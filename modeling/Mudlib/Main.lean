import Mudlib.CommandLine.Report
import Mudlib.Value.Printer
set_option autoImplicit false

namespace Mudlib.CommandLine

def variableStart : String := "MUDOBJ_"

def readVariables : IO (List (String × String)) := do
  let names := Config.fieldNames.map String.toUpper ++ Config.fieldNames
  let found ← names.mapM fun name => do
    return (← IO.getEnv (variableStart ++ name)).map fun text => (name, text)
  return found.filterMap id

def maxDirectoryDepth : Nat := 64

def readTree : Nat → String → IO (Option FileTree)
  | 0, _ => return none
  | n + 1, path => do
    let place := System.mkFilePath [path]
    if ← place.isDir then
      let entries ← (← place.readDir).toList.mapM fun entry => do
        return (← readTree n entry.path.toString).map fun tree => (entry.fileName, tree)
      return some (.dir (entries.filterMap id))
    else if ← place.pathExists then return some (.file (← IO.FS.readBinFile place))
    else return none

def readPlaces (environment : List (String × String)) (words : List String) :
    IO (List (String × FileTree)) := do
  match Arguments.ofWords? words with
  | none => return []
  | some args =>
    let read := fun path : String => do
      return (← readTree maxDirectoryDepth path).map fun tree => (path, tree)
    let files := (← args.config.toList.mapM read).filterMap id
    let config := settings? (fun path => files.lookup path) environment args
    let roots := (config.bind (rootPath? args)).toList
    return files ++ (← roots.mapM read).filterMap id

end Mudlib.CommandLine

open Mudlib CommandLine in
def main (words : List String) : IO UInt32 := do
  let environment ← readVariables
  let places ← readPlaces environment words
  let report := run (fun path => places.lookup path) environment words
  for document in report.documents do
    IO.println document.pretty
  for line in report.complaints do
    IO.eprintln line
  return report.exitCode.toUInt32
