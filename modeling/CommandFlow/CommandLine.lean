/-
The command line: showing and checking project files.

`inspect` lists the commands and nodes of a project, `validate` the faults of its flows, and
`catalog` the node types of a feed.  What is written and how the program ends follow from the
arguments and the contents of files alone.
-/
import CommandFlow.Catalog.Feed
import CommandFlow.Directory
import CommandFlow.Flow.Violation
import CommandFlow.Saved.Loader

namespace CommandFlow.CommandLine

/-! ### Arguments -/

/-- Which project is looked at, and how it is loaded. -/
structure ProjectOptions where
  projectPath : String
  feedPath : String := "data/nodes.json"
  skipUnknown : Bool := false
  /-- Written as `OLD=NEW`. -/
  aliases : List String := []
deriving DecidableEq, Repr

/-- What is asked for. -/
inductive Request where
  | inspect (options : ProjectOptions)
  | validate (options : ProjectOptions)
  | catalog (feedPath : String)
deriving DecidableEq, Repr

/-- What one argument says. -/
inductive Word where
  | value (text : String)
  /-- All further arguments are values. -/
  | valuesOnly
  | verbose
  | skipUnknown
  /-- The path of the feed, if it does not stand in the next argument. -/
  | feed (path : Option String)
  /-- The text of an alias, if it does not stand in the next argument. -/
  | renamed (text : Option String)
deriving DecidableEq, Repr

/-- Whether an argument is a value: no hyphen at its start, or nothing but a hyphen. -/
def isValue (arg : String) : Bool :=
  arg = "-" || !arg.startsWith "-"

/-- What letters behind one hyphen say. Letters may be joined; those behind an `n` are the path of
the feed, with or without an equals sign between. -/
def Word.ofLetters? : List Char → Option Word
  | ['v'] => some .verbose
  | 'v' :: rest => Word.ofLetters? rest
  | ['n'] => some (.feed none)
  | 'n' :: '=' :: path => some (.feed (some (String.ofList path)))
  | 'n' :: path => some (.feed (some (String.ofList path)))
  | _ => none

/-- What an argument says. -/
def Word.ofArgument? (arg : String) : Option Word :=
  if isValue arg then some (.value arg)
  else
    match arg with
    | "--" => some .valuesOnly
    | "--verbose" => some .verbose
    | "--skip-unknown" => some .skipUnknown
    | "--nodes" => some (.feed none)
    | "--alias" => some (.renamed none)
    | _ =>
      match arg.dropPrefix? "--nodes=", arg.dropPrefix? "--alias=" with
      | some path, _ => some (.feed (some path.toString))
      | _, some text => some (.renamed (some text.toString))
      | _, _ => Word.ofLetters? (arg.toList.drop 1)

/-- Arguments that have been taken in. -/
structure Arguments where
  positional : List String := []
  feedPath : Option String := none
  skipUnknown : Bool := false
  aliases : List String := []
deriving DecidableEq, Repr

/-- Takes in the arguments in their order. -/
def takeArguments (taken : Arguments) : List String → Option Arguments
  | [] => some taken
  | arg :: rest =>
    match Word.ofArgument? arg, rest with
    | some (.value text), rest =>
      takeArguments { taken with positional := taken.positional ++ [text] } rest
    | some .valuesOnly, rest => some { taken with positional := taken.positional ++ rest }
    | some .verbose, rest => takeArguments taken rest
    | some .skipUnknown, rest => takeArguments { taken with skipUnknown := true } rest
    | some (.feed (some path)), rest => takeArguments { taken with feedPath := some path } rest
    | some (.feed none), path :: rest =>
      if isValue path then takeArguments { taken with feedPath := some path } rest else none
    | some (.renamed (some text)), rest =>
      takeArguments { taken with aliases := taken.aliases ++ [text] } rest
    | some (.renamed none), text :: rest =>
      if isValue text then takeArguments { taken with aliases := taken.aliases ++ [text] } rest
      else none
    | _, _ => none

/-- The request that arguments make: a word that says what to do, and what that needs. -/
def request? (args : List String) : Option Request :=
  match args.dropWhile fun arg => arg = "-v" || arg = "--verbose" with
  | [] => none
  | word :: rest => do
    let taken ← takeArguments {} rest
    let options (path : String) : ProjectOptions :=
      { projectPath := path
        feedPath := taken.feedPath.getD "data/nodes.json"
        skipUnknown := taken.skipUnknown
        aliases := taken.aliases }
    match word, taken.positional with
    | "inspect", [path] => some (.inspect (options path))
    | "validate", [path] => some (.validate (options path))
    | "catalog", [path] => if taken = { positional := [path] } then some (.catalog path) else none
    | _, _ => none

/-! ### Failures -/

/-- Why a request fails. -/
inductive Failure where
  | unreadableFeed (path : String) (problem : FileProblem)
  | invalidFeed (cause : CatalogError)
  | invalidAlias (text : String)
  | unreadableProject (path : String) (problem : FileProblem)
  | invalidProject (cause : Loader.FileError)
  | violations (count : Nat)

/-- The message of a failure. -/
def Failure.message : Failure → String
  | .unreadableFeed path problem => s!"Failed to read node feed '{path}': {problem.message}"
  | .invalidFeed cause => s!"Failed to load node feed: {cause.message}"
  | .invalidAlias text => s!"Alias '{text}' is not of the form OLD=NEW"
  | .unreadableProject path problem =>
    s!"Failed to read project file '{path}': {problem.message}"
  | .invalidProject cause => cause.message
  | .violations count => s!"{count} invariant violation(s) found"

/-- The catalog of the feed at a path. -/
def loadCatalog (files : Files) (path : String) : Except Failure Catalog := do
  let text ← (files path).mapError (.unreadableFeed path)
  (Catalog.ofFeed text).mapError .invalidFeed

/-- The two sides of an alias, divided at the first equals sign. -/
def splitAlias (text : String) : Except Failure (String × String) :=
  let cs := text.toList
  match cs.dropWhile (· ≠ '=') with
  | [] => .error (.invalidAlias text)
  | _ :: new => .ok (String.ofList (cs.takeWhile (· ≠ '=')), String.ofList new)

/-- The project that options name. The feed is read first, then the aliases, then the project. -/
def loadProject (files : Files) (fresh : Saved.UidSource) (options : ProjectOptions) :
    Except Failure Project := do
  let catalog ← loadCatalog files options.feedPath
  let aliases ← options.aliases.mapM splitAlias
  let loader : Loader := {
    catalog
    unknownTypes := if options.skipUnknown then .skip else .fallBack }
  let loader := aliases.foldl (fun l (old, new) => l.addAlias old new) loader
  let text ← (files options.projectPath).mapError (.unreadableProject options.projectPath)
  (loader.parseProject fresh text).mapError .invalidProject

/-! ### Output -/

/-- The kind of an option as it is shown. -/
def kindText : OptionKind → String
  | .string => "String"
  | .user => "User"
  | .channel => "Channel"

/-- The line of an option. -/
def optionLine (o : CommandOption) : String :=
  s!"  option {o.name}: {kindText o.kind}" ++ if o.required then ", required" else ""

/-- The line of a node. -/
def nodeLine (n : Node) : String :=
  let x := Position.coordinateText n.position.x
  let y := Position.coordinateText n.position.y
  s!"    {n.uid} [{n.typeId}] at ({x}, {y})"

/-- The lines of a command. -/
def commandLines (c : Command) : List String :=
  let nodes := c.flow.nodes.length
  let connections := c.flow.connections.length
  let pending := c.flow.pending.length
  ["", s!"/{c.name} ({c.uid})"]
    ++ (if c.description.isEmpty then [] else [s!"  {c.description}"])
    ++ c.options.map optionLine
    ++ [s!"  nodes: {nodes}  connections: {connections}  pending: {pending}"]
    ++ c.flow.nodes.map nodeLine

/-- The lines of a project. -/
def inspectLines (p : Project) : List String :=
  [s!"Project: {p.name}", s!"Commands: {p.commands.length}"] ++ p.commands.flatMap commandLines

/-- The lines on the faults of a command. -/
def validateLines (c : Command) : List String :=
  match c.flow.violations with
  | [] => [s!"/{c.name}: ok"]
  | faults =>
    s!"/{c.name}: {faults.length} violation(s)" :: faults.map fun v => s!"  - {v.message}"

/-- The text padded with blanks to a width. -/
def padded (width : Nat) (text : String) : String :=
  text ++ String.ofList (List.replicate (width - text.length) ' ')

/-- The line of a node type. -/
def nodeTypeLine (t : NodeType) : String :=
  let category := if t.category.isEmpty then "-" else t.category
  let id := padded 24 t.id
  let category := padded 12 category
  let inputs := ", ".intercalate t.inputs.keys
  let outputs := ", ".intercalate t.outputs.keys
  s!"  {id} {category} in: {inputs}  out: {outputs}"

/-- The lines of a catalog. -/
def catalogLines (c : Catalog) : List String :=
  s!"{c.size} node type(s)" :: c.entries.map nodeTypeLine

/-- What a run writes and how it ends. -/
structure Report where
  exitCode : Nat
  output : String
  errors : String
deriving DecidableEq, Repr

namespace Report

/-- A run that writes lines and ends well, or with a failure after them. -/
def ofLines (lines : List String) (failure : Option Failure) : Report where
  exitCode := if failure.isSome then 1 else 0
  output := String.join (lines.map (· ++ "\n"))
  errors :=
    match failure with
    | some f => s!"\nError: {f.message}\n"
    | none => ""

end Report

/-- Carries out a request. -/
def run (files : Files) (fresh : Saved.UidSource) : Request → Report
  | .inspect options =>
    match loadProject files fresh options with
    | .error failure => .ofLines [] (some failure)
    | .ok p => .ofLines (inspectLines p) none
  | .validate options =>
    match loadProject files fresh options with
    | .error failure => .ofLines [] (some failure)
    | .ok p =>
      let count := (p.commands.flatMap fun c => c.flow.violations).length
      .ofLines (p.commands.flatMap validateLines)
        (if count = 0 then none else some (.violations count))
  | .catalog path =>
    match loadCatalog files path with
    | .error failure => .ofLines [] (some failure)
    | .ok c => .ofLines (catalogLines c) none

/-- How the program is called. -/
def usage : String :=
  "Usage: commandflow inspect|validate PROJECT "
    ++ "[--nodes FILE] [--skip-unknown] [--alias OLD=NEW]...\n"
    ++ "       commandflow catalog FILE\n"

end CommandFlow.CommandLine
