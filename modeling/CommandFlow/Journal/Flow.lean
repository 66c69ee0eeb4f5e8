/-
What changes of a flow report.
-/
import CommandFlow.Flow.Revalidate
import CommandFlow.Journal.Event

namespace CommandFlow.Flow

/-- What placing a new node reports. -/
def addNodeEvents (f : Flow) (type : NodeType) (position : Position) : List Event :=
  (if position.isFinite then [] else [.positionNotFinite position])
    ++ [.nodeAdded ⟨f.nextHandle⟩ type.id]

/-- What placing a new node by the id of its type reports. -/
def addNodeByIdEvents (f : Flow) (typeId : String) (position : Position) : List Event :=
  match f.resolve? typeId with
  | none => []
  | some type => f.addNodeEvents type position

/-- What a removal of nodes reports. -/
def Removal.event (r : Removal) : Event :=
  .nodesRemoved r.nodes.length r.connections.length

/-- What the outcome of connecting two ports reports. -/
def Outcome.event (link : Link) : Outcome → Event
  | .created connection superseded => .connectionCreated connection.shape.kind superseded.length
  | .removed _ => .connectionRemoved link

/-- What connecting two ports reports. -/
def connectEvents (f : Flow) (link : Link) : List Event :=
  match f.connect link with
  | .ok (outcome, _) => [outcome.event link]
  | .error _ => []

/-- What checking connections again reports. -/
def revalidateEvents (f : Flow) (selected : Connection → Bool) : List Event :=
  ((f.verdicts selected).filterMap Verdict.failure?).map fun (_, reason) =>
    .connectionDropped reason

/-- What looking up the type of a node again reports. -/
def reboundEvents (f : Flow) (n : Node) : List Event :=
  if f.optionTypes.contains n.typeId then []
  else
    match f.catalog.get? n.typeId, f.fallback? with
    | none, some fallback => [.nodeRebound n.uid n.typeId fallback.id]
    | _, _ => []

/-- What putting another shared catalog in place reports. -/
def rebindEvents (f : Flow) (catalog : Catalog) : List Event :=
  f.nodes.flatMap { f with catalog }.reboundEvents
    ++ (f.rebindNodes catalog).revalidateEvents fun _ => true

end CommandFlow.Flow
