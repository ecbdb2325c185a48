import ScopedCommands.CommandLine.Run
import ScopedCommands.Time.Instant

namespace ScopedCommands.Main

open CommandLine

/-- Variables whose name or value is no text are left out. -/
def environment : IO (Dict String) := do
  let bytes ← IO.FS.readBinFile "/proc/self/environ"
  let entries := (bytes.toList.splitOn 0).filterMap fun part =>
    (String.fromUTF8? ⟨part.toArray⟩).bind Assignment.parse
  return .ofList (entries.map fun a => (a.name, a.value))

def nodeAt (path : String) : IO FileNode := do
  let place := (← IO.currentDir) / path
  if path = "" then return .missing
  else if ← place.isDir then
    return .directory ((← place.readDir).toList.map (·.fileName))
  else
    try
      let bytes ← IO.FS.readBinFile path
      return match String.fromUTF8? bytes with
        | some text => .text text
        | none => .binary
    catch _ => return .missing

def snapshot (paths : List String) : IO Files := do
  let mut nodes : Dict FileNode := .empty
  for path in paths do
    let node ← nodeAt path
    nodes := nodes.insert path node
    if let .directory names := node then
      for name in names do
        let child := Path.join path name
        nodes := nodes.insert child (← nodeAt child)
  let found := nodes
  return .ofNodes fun path => (found.get? path).getD .missing

def pathsOf : Request → List String
  | .resolve r => r.config :: r.templates.toList
  | .validate config templates => config :: templates.toList
  | .templates directory => [directory]
  | .version _ | .help => []

def automatic : IO (Dict String) := do
  let path := "/proc/self/stat"
  let stat ← IO.FS.readFile path
  let pid := (String.ofList (stat.toList.takeWhile Char.isDigit)).toNat?.getD 0
  let time := (← ((← IO.currentDir) / path).metadata).modified
  return Automatic.vars ⟨time.sec, time.nsec.toNat⟩ pid

end ScopedCommands.Main

open ScopedCommands in
def main (args : List String) : IO UInt32 := do
  let environment ← Main.environment
  match CommandLine.parse environment args with
  | none =>
    for line in CommandLine.helpLines do IO.eprintln line
    return CommandLine.ExitCode.badArguments.toUInt32
  | some request =>
    let files ← Main.snapshot (Main.pathsOf request)
    let outcome := CommandLine.perform ⟨environment, files, ← Main.automatic⟩ request
    let result := outcome.result
    IO.print result.output
    if let some error := result.error then IO.eprintln error
    return result.exit.toUInt32
