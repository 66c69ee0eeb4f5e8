/-
Projects as they are saved.

What is saved names nodes by uid and node types by id.  It need not make sense: uids may repeat,
types may be unknown, and a connection may give only part of an end.
-/
import CommandFlow.Command.Option
import CommandFlow.Flow.Node

namespace CommandFlow.Saved

/-- A saved node. -/
structure Node where
  uid : String
  typeId : String
  position : Position
  literals : Literals
deriving BEq, Inhabited

/-- An end of a saved connection: the uid of a node and the key of a port, as far as given. -/
structure End where
  uid : Option String := none
  key : Option String := none
deriving DecidableEq, BEq, Repr, Inhabited

/-- A saved connection. -/
structure Connection where
  shape : PortShape
  source : End
  target : End
deriving DecidableEq, BEq, Repr, Inhabited

/-- A saved flow. -/
structure Flow where
  nodes : List Node := []
  connections : List Connection := []
deriving BEq, Inhabited

/-- A saved command. -/
structure Command where
  uid : String
  name : String
  description : String
  options : List CommandOption
  flow : Flow
deriving BEq, Inhabited

/-- A saved project. -/
structure Project where
  name : String := ""
  commands : List Command := []
deriving BEq, Inhabited

/-! ### Written form -/

/-- A text that may be absent, as JSON. -/
def optionalJson : Option String → Json
  | some s => .string s
  | none => .null

/-- A coordinate as JSON. -/
def coordinateJson (v : Binary64) : Json :=
  .number (.double v)

/-- A node as JSON. -/
def Node.toJson (n : Node) : Json :=
  .object [
    ("uid", .string n.uid),
    ("type", .string n.typeId),
    ("x", coordinateJson n.position.x),
    ("y", coordinateJson n.position.y),
    ("inputHardcoded", n.literals.toJson)]

/-- A connection as JSON. -/
def Connection.toJson (c : Connection) : Json :=
  .object [
    ("type", .ofInt c.shape.kind.code),
    ("structTags", tagsJson c.shape.tags),
    ("from", optionalJson c.source.uid),
    ("fromKey", optionalJson c.source.key),
    ("to", optionalJson c.target.uid),
    ("toKey", optionalJson c.target.key)]

/-- A flow as JSON. -/
def Flow.toJson (f : Flow) : Json :=
  .object [
    ("nodes", .array (f.nodes.map Node.toJson)),
    ("connections", .array (f.connections.map Connection.toJson))]

/-- A command as JSON. -/
def Command.toJson (c : Command) : Json :=
  .object [
    ("uid", .string c.uid),
    ("name", .string c.name),
    ("description", .string c.description),
    ("options", .array (c.options.map CommandOption.toJson)),
    ("flow", c.flow.toJson)]

/-- A project as JSON. -/
def Project.toJson (p : Project) : Json :=
  .object [
    ("metadata", .object [("name", .string p.name)]),
    ("content", .object [("commands", .array (p.commands.map Command.toJson))])]

end CommandFlow.Saved
