/-
Loading saved projects.

Loading never fails on what is saved.  A node whose type is unknown takes the first type available
or is left out, as the loader is told, and an end of a connection at an unknown node is left open.
Old type ids can be given new names beforehand.
-/
import CommandFlow.Project
import CommandFlow.Saved.Reader

namespace CommandFlow

/-- What happens to nodes of an unknown type. -/
inductive UnknownTypes where
  /-- They take the first type available. -/
  | fallBack
  /-- They are left out. -/
  | skip
deriving DecidableEq, Repr, Inhabited

/-- How saved projects are loaded. -/
structure Loader where
  catalog : Catalog
  /-- New names of old type ids, the latest first. -/
  aliases : List (String × String) := []
  unknownTypes : UnknownTypes := .fallBack

/-- What became of the type id of a saved node. -/
inductive Resolution where
  | found (type : NodeType)
  /-- There is no type with this id, and another stands in. -/
  | replaced (typeId : String) (type : NodeType)
  /-- There is no type with this id, and none stands in. -/
  | missing (typeId : String)

/-- The type that a node takes. -/
def Resolution.type? : Resolution → Option NodeType
  | .found type => some type
  | .replaced _ type => some type
  | .missing _ => none

namespace Loader

/-- Gives an old type id a new name. -/
def addAlias (l : Loader) (old new : String) : Loader :=
  { l with aliases := (old, new) :: l.aliases }

/-- The type id that a saved one stands for. -/
def renamed (l : Loader) (typeId : String) : String :=
  (l.aliases.lookup typeId).getD typeId

/-- Looks up the type of a saved node in a flow. -/
def resolve (l : Loader) (f : Flow) (typeId : String) : Resolution :=
  let typeId := l.renamed typeId
  match f.resolve? typeId, l.unknownTypes, f.fallback? with
  | some type, _, _ => .found type
  | none, .fallBack, some type => .replaced typeId type
  | none, _, _ => .missing typeId

/-- Places a saved node. -/
def placeNode (l : Loader) (f : Flow) (n : Saved.Node) : Flow :=
  match (l.resolve f n.typeId).type? with
  | none => f
  | some type => (f.insertNode n.uid type n.position n.literals).2

/-- Places saved nodes. -/
def placeNodes (l : Loader) (f : Flow) (nodes : List Saved.Node) : Flow :=
  nodes.foldl l.placeNode f

/-- The port at which a saved end stands, if it is given in full and its node is there. Of nodes
with the same uid the last counts. -/
def endpoint? (f : Flow) (e : Saved.End) : Option Endpoint := do
  let uid ← e.uid
  let key ← e.key
  let node ← f.nodes.reverse.find? (·.uid = uid)
  return ⟨node.handle, key⟩

/-- A saved connection between the nodes of a flow. -/
def connectionIn (f : Flow) (c : Saved.Connection) : Connection :=
  ⟨c.shape, endpoint? f c.source, endpoint? f c.target⟩

/-- Fills a flow that has no nodes with what is saved. Connections are taken as they are. -/
def fill (l : Loader) (f : Flow) (saved : Saved.Flow) : Flow :=
  let f := l.placeNodes f saved.nodes
  { f with connections := f.connections ++ saved.connections.map (connectionIn f) }

/-- The flow that is saved, over the given node types of options. -/
def flow (l : Loader) (saved : Saved.Flow) (optionTypes : Catalog) : Flow :=
  l.fill { Flow.new l.catalog with optionTypes } saved

/-- Adds a saved option. -/
def placeOption (c : Command) (o : CommandOption) : Command :=
  match c.addOption o with
  | .ok (_, c') => c'
  | .error _ => c

/-- The command that is saved, with its options and an empty flow. -/
def commandOptions (l : Loader) (saved : Saved.Command) : Command :=
  saved.options.foldl placeOption
    (Command.new saved.name saved.description l.catalog saved.uid)

/-- The command that is saved. -/
def command (l : Loader) (saved : Saved.Command) : Command :=
  let c := l.commandOptions saved
  { c with flow := l.fill c.flow saved.flow }

/-- The project that is saved. -/
def project (l : Loader) (saved : Saved.Project) : Project :=
  { Project.new saved.name (some l.catalog) with commands := saved.commands.map l.command }

/-- Why a project file cannot be loaded. -/
structure FileError where
  cause : Saved.ReadError
deriving DecidableEq

/-- The message of an error. -/
def FileError.message (e : FileError) : String :=
  s!"Failed to parse project JSON: {e.cause.message}"

/-- Loads a project from the text of its file. -/
def parseProject (l : Loader) (fresh : Saved.UidSource) (text : String) :
    Except FileError Project :=
  match (Saved.Reader.ofText (Saved.project fresh) text).result with
  | .ok saved => .ok (l.project saved)
  | .error cause => .error ⟨cause⟩

end Loader

end CommandFlow
