/-
Making and undoing connections.

A link is checked before it becomes a connection.  An input has one source and a flow output one
target, so a new connection takes the place of those that stand in its way.  Connecting two ports
that are connected already takes their connection away.
-/
import CommandFlow.Flow.Basic

namespace CommandFlow

namespace Flow

/-- Checks a link against the flow. Gives what the source declares. -/
def validate (f : Flow) (link : Link) : Except Refusal PortShape := do
  let some source := f.node? link.source.node | .error (.nodeNotFound link.source.node)
  let some target := f.node? link.target.node | .error (.nodeNotFound link.target.node)
  if source.handle = target.handle then .error (.selfLoop source.uid)
  let some output := source.type.output? link.source.key
    | .error (.unknownOutput source.typeId link.source.key)
  let some input := target.type.input? link.target.key
    | .error (.unknownInput target.typeId link.target.key)
  output.shape.check input.shape
  return output.shape

/-- What became of a request to connect. -/
inductive Outcome where
  /-- A connection was made, and the given ones had to make way. -/
  | created (connection : Connection) (superseded : List Connection)
  /-- The ports were connected already, and the connection was taken away. -/
  | removed (connection : Connection)
deriving DecidableEq, Repr

/-- Whether a connection must make way for a new one along the link: it drives the same input, or
leaves the same flow output. -/
def standsInWay (link : Link) (shape : PortShape) (c : Connection) : Bool :=
  c.target = some link.target || (shape.isFlow && c.source = some link.source)

/-- Connects two ports, or takes their connection away if there is one. -/
def connect (f : Flow) (link : Link) : Except Refusal (Outcome × Flow) :=
  match f.connections.find? (·.joins link) with
  | some old =>
    .ok (.removed old, { f with connections := f.connections.eraseP (·.joins link) })
  | none => do
    let shape ← f.validate link
    let connection := Connection.ofLink link shape
    let superseded := f.connections.filter (standsInWay link shape)
    let kept := f.connections.filter (!standsInWay link shape ·)
    return (.created connection superseded, { f with connections := kept ++ [connection] })

end Flow

/-! ### Dragging -/

/-- A connection that is being drawn from one of its ports. -/
inductive Drag where
  | fromOutput (anchor : Endpoint)
  | fromInput (anchor : Endpoint)
deriving DecidableEq, Repr

namespace Drag

/-- The connection to show while it is drawn, if the port exists. -/
def preview? (d : Drag) (f : Flow) : Option Connection :=
  match d with
  | .fromOutput p => do
    let port ← (← f.node? p.node).type.output? p.key
    return ⟨port.shape, some p, none⟩
  | .fromInput p => do
    let port ← (← f.node? p.node).type.input? p.key
    return ⟨port.shape, none, some p⟩

/-- The link that dropping on a port asks for. -/
def complete (d : Drag) (target : Endpoint) : Link :=
  match d with
  | .fromOutput p => ⟨p, target⟩
  | .fromInput p => ⟨target, p⟩

end Drag

end CommandFlow
