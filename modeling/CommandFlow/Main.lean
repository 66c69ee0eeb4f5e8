/-
The program: reads the files that are named, and writes what the command line answers.
-/
import CommandFlow.CommandLine
import CommandFlow.Uid

namespace CommandFlow.CommandLine

/-- The paths that a request reads. -/
def Request.paths : Request → List String
  | .inspect options => [options.feedPath, options.projectPath]
  | .validate options => [options.feedPath, options.projectPath]
  | .catalog path => [path]

/-- Reads a file. -/
def readFile (path : String) : IO (Except FileProblem String) := do
  try
    let bytes ← IO.FS.readBinFile path
    match String.fromUTF8? bytes with
    | some text => return .ok text
    | none => return .error .notText
  catch e =>
    match e with
    | .permissionDenied .. => return .error .denied
    | .inappropriateType _ 21 _ => return .error .isDirectory
    | .inappropriateType .. => return .error .notDirectory
    | .invalidArgument .. => return .error .nameTooLong
    | _ => return .error .notFound

/-- A source of uids that starts at random. -/
def randomUids : IO Saved.UidSource := do
  let range := 0x40000000
  let draw : IO Nat := IO.rand 0 (range - 1)
  let start := (((← draw) * range + (← draw)) * range + (← draw)) * range + (← draw)
  return fun path =>
    let place := path.foldl (fun n i => n * 0x100000000 + (i + 1)) 0
    Uid.ofBits (start * 4 + place)

end CommandFlow.CommandLine

open CommandFlow CommandFlow.CommandLine in
/-- Runs the program. -/
def main (args : List String) : IO UInt32 := do
  match request? args with
  | none =>
    IO.eprint usage
    return 2
  | some request =>
    let contents ← request.paths.mapM fun path => do return (path, ← readFile path)
    let files : Files := fun path => (contents.lookup path).getD (.error .notFound)
    let report := run files (← randomUids) request
    IO.print report.output
    IO.eprint report.errors
    return report.exitCode.toUInt32
