/-
Flows: the nodes of one command and the connections between them.

Nodes stand in the order in which they were placed and connections in the order in which they were
made.  A flow knows two catalogs: the shared one, and its own with the node types that stand for
the options of its command.  A type id is looked up in the shared catalog first.
-/
import CommandFlow.Catalog.Basic
import CommandFlow.Flow.Connection
import CommandFlow.UpdateFirst

namespace CommandFlow

/-- The nodes and connections of one command. -/
structure Flow where
  nodes : List Node
  connections : List Connection
  /-- The shared catalog. -/
  catalog : Catalog
  /-- The node types of the command's options. -/
  optionTypes : Catalog
  /-- The number of the next handle. -/
  nextHandle : Nat

/-- Why a change of a node is refused. -/
inductive EditError where
  | nodeNotFound (node : Handle)
  | unknownInput (typeId key : String)
  | invalidPosition (position : Position)
deriving DecidableEq

/-- The message of an error. -/
def EditError.message : EditError → String
  | .nodeNotFound node => s!"Node {node.text} does not exist in this flow"
  | .unknownInput typeId key => s!"Node type '{typeId}' has no input port '{key}'"
  | .invalidPosition p =>
    let x := Position.coordinateText p.x
    let y := Position.coordinateText p.y
    s!"Position ({x}, {y}) is not a finite canvas coordinate"

namespace Flow

/-- A flow without nodes over a shared catalog. -/
def new (catalog : Catalog) : Flow :=
  ⟨[], [], catalog, ∅, 0⟩

instance : Inhabited Flow := ⟨new ∅⟩

/-! ### Look-up -/

/-- The node types that can be placed: the shared ones, then those of options. -/
def available (f : Flow) : List NodeType :=
  f.catalog.entries ++ f.optionTypes.entries

/-- The node type of an id. -/
def resolve? (f : Flow) (typeId : String) : Option NodeType :=
  (f.catalog.get? typeId).or (f.optionTypes.get? typeId)

/-- The node type that stands in for one that cannot be found. -/
def fallback? (f : Flow) : Option NodeType :=
  f.available.head?

/-- The node of a handle. -/
def node? (f : Flow) (h : Handle) : Option Node :=
  f.nodes.find? (·.handle = h)

/-- The first node with a uid. -/
def nodeByUid? (f : Flow) (uid : String) : Option Node :=
  f.nodes.find? (·.uid = uid)

/-- The nodes of a type. -/
def nodesOfType (f : Flow) (typeId : String) : List Node :=
  f.nodes.filter (·.typeId = typeId)

/-- The connections that end at a node. -/
def incoming (f : Flow) (h : Handle) : List Connection :=
  f.connections.filter (·.enters h)

/-- The connections that start at a node. -/
def outgoing (f : Flow) (h : Handle) : List Connection :=
  f.connections.filter (·.leaves h)

/-! ### Nodes -/

/-- Places a node behind all others. -/
def insertNode (f : Flow) (uid : String) (type : NodeType) (position : Position)
    (literals : Literals) : Handle × Flow :=
  let handle : Handle := ⟨f.nextHandle⟩
  (handle, { f with
    nodes := f.nodes ++ [⟨handle, uid, type, position, literals⟩]
    nextHandle := f.nextHandle + 1 })

/-- Places a new node of a type, with the type's default values. A coordinate that is not finite
becomes zero. -/
def addNode (f : Flow) (type : NodeType) (position : Position) (uid : String) : Handle × Flow :=
  f.insertNode uid type position.orOrigin type.defaults

/-- Places a new node of the type with the given id. -/
def addNodeById (f : Flow) (typeId : String) (position : Position) (uid : String) :
    Except CatalogError (Handle × Flow) :=
  match f.resolve? typeId with
  | none => .error (.notFound typeId)
  | some type => .ok (f.addNode type position uid)

/-- Changes the node of a handle. -/
def updateNode (f : Flow) (h : Handle) (change : Node → Node) : Flow :=
  { f with nodes := updateFirst (·.handle = h) change f.nodes }

/-- Moves a node. Coordinates must be finite. -/
def moveNode (f : Flow) (h : Handle) (position : Position) : Except EditError Flow :=
  if ¬position.isFinite then .error (.invalidPosition position)
  else
    match f.node? h with
    | none => .error (.nodeNotFound h)
    | some _ => .ok (f.updateNode h fun n => { n with position })

/-- Types a value into a declared input. Gives the value it had before. -/
def setLiteral (f : Flow) (h : Handle) (key : String) (value : Json) :
    Except EditError (Option Json × Flow) :=
  match f.node? h with
  | none => .error (.nodeNotFound h)
  | some node =>
    if (node.type.input? key).isNone then .error (.unknownInput node.typeId key)
    else
      .ok (node.literals.get? key,
        f.updateNode h fun n => { n with literals := n.literals.insert key value })

/-- Takes the value of an input away. Gives the value it had. -/
def clearLiteral (f : Flow) (h : Handle) (key : String) :
    Except EditError (Option Json × Flow) :=
  match f.node? h with
  | none => .error (.nodeNotFound h)
  | some node =>
    .ok (node.literals.get? key,
      f.updateNode h fun n => { n with literals := n.literals.erase key })

/-! ### Removal -/

/-- Removes the connections at a node. Gives them back. -/
def removeRelated (f : Flow) (h : Handle) : List Connection × Flow :=
  (f.connections.filter (·.touches h),
    { f with connections := f.connections.filter (!·.touches h) })

/-- What a removal of nodes took away, and what is left. -/
structure Removal where
  flow : Flow
  nodes : List Node
  connections : List Connection

/-- Removes nodes and the connections at them. Handles of no node are ignored. -/
def removeNodes (f : Flow) (handles : List Handle) : Removal :=
  let cut (c : Connection) : Bool := handles.any c.touches
  { flow := { f with
      nodes := f.nodes.filter (·.handle ∉ handles)
      connections := f.connections.filter (!cut ·) }
    nodes := f.nodes.filter (·.handle ∈ handles)
    connections := f.connections.filter cut }

/-! ### Sameness -/

/-- An end of a connection by the uid of its node; an end at no node has an empty uid. -/
def uidOf (f : Flow) (p : Endpoint) : String × String :=
  (((f.node? p.node).map (·.uid)).getD "", p.key)

/-- Flows are the same when their nodes and connections are, whatever the handles: the ends of
connections are compared by the uids of their nodes. -/
def same (f g : Flow) : Bool :=
  let view (f : Flow) (c : Connection) :
      PortShape × Option (String × String) × Option (String × String) :=
    (c.shape, c.source.map f.uidOf, c.target.map f.uidOf)
  f.nodes == g.nodes && f.connections.map (view f) == g.connections.map (view g)

instance : BEq Flow := ⟨same⟩

end Flow

end CommandFlow
