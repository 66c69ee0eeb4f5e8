/-
Connections between the ports of nodes.
-/
import CommandFlow.Flow.Node

namespace CommandFlow

/-- A port of a node in a flow. -/
structure Endpoint where
  node : Handle
  key : String
deriving DecidableEq, Repr, Inhabited

/-- An endpoint as messages show it. -/
def Endpoint.text (p : Endpoint) : String :=
  s!"{p.node.text}.{p.key}"

/-- Two ports to be connected: the output that drives and the input that is driven. -/
structure Link where
  source : Endpoint
  target : Endpoint
deriving DecidableEq, Repr, Inhabited

/-- A connection. One that was loaded may lack an end; it is then pending. -/
structure Connection where
  /-- What the source carried when the connection was last checked. -/
  shape : PortShape
  source : Option Endpoint
  target : Option Endpoint
deriving DecidableEq, Repr, Inhabited

namespace Connection

/-- Whether an end is missing. -/
def isPending (c : Connection) : Bool :=
  c.source.isNone || c.target.isNone

/-- The ports connected, if no end is missing. -/
def link? (c : Connection) : Option Link := do
  return ⟨← c.source, ← c.target⟩

/-- Whether the connection joins exactly the two ports. -/
def joins (c : Connection) (link : Link) : Bool :=
  c.source = some link.source && c.target = some link.target

/-- Whether the connection starts at the node. -/
def leaves (c : Connection) (h : Handle) : Bool :=
  c.source.any (·.node = h)

/-- Whether the connection ends at the node. -/
def enters (c : Connection) (h : Handle) : Bool :=
  c.target.any (·.node = h)

/-- Whether the node is at either end. -/
def touches (c : Connection) (h : Handle) : Bool :=
  c.leaves h || c.enters h

/-- The connection of two ports, carrying what the source declares. -/
def ofLink (link : Link) (shape : PortShape) : Connection :=
  ⟨shape, some link.source, some link.target⟩

end Connection

/-- Why two ports cannot be connected. -/
inductive Refusal where
  | nodeNotFound (node : Handle)
  | selfLoop (uid : String)
  | unknownOutput (typeId key : String)
  | unknownInput (typeId key : String)
  | incompatiblePorts (output input : PortKind)
  | missingTags (missing : List String)
deriving DecidableEq, Repr

/-- The message of a refusal. -/
def Refusal.message : Refusal → String
  | .nodeNotFound node => s!"Node {node.text} does not exist in this flow"
  | .selfLoop uid => s!"Cannot connect node '{uid}' to itself"
  | .unknownOutput typeId key => s!"Node type '{typeId}' has no output port '{key}'"
  | .unknownInput typeId key => s!"Node type '{typeId}' has no input port '{key}'"
  | .incompatiblePorts output input =>
    s!"Port types are incompatible: {output.title} output cannot drive a {input.title} input"
  | .missingTags missing =>
    "Structure output is missing required tags: " ++ ", ".intercalate missing

/-- Whether an output may drive an input, and if not, why. -/
def PortShape.check (output input : PortShape) : Except Refusal Unit :=
  if output.fits input then .ok ()
  else if output.kind = .record ∧ input.kind = .record then
    .error (.missingTags (output.missingTags input))
  else .error (.incompatiblePorts output.kind input.kind)

end CommandFlow
