/-
What is wrong with a flow.

Flows that were made by connecting ports are consistent.  Flows that were loaded need not be: the
report names every connection that would be refused, then every input that has several sources and
every flow output that has several targets, each once, where it is first met.
-/
import CommandFlow.Flow.Connect

namespace CommandFlow

/-- A fault of a flow. -/
inductive Violation where
  | invalidConnection (index : Nat) (reason : Refusal)
  | sharedInput (uid key : String)
  | flowFanOut (uid key : String)
deriving DecidableEq, Repr

/-- The text of a fault. -/
def Violation.message : Violation → String
  | .invalidConnection index reason => s!"connection {index} is invalid: {reason.message}"
  | .sharedInput uid key => s!"input '{key}' of node '{uid}' has several sources"
  | .flowFanOut uid key => s!"flow output '{key}' of node '{uid}' drives several nodes"

namespace Flow

/-- The uid of the node of a port, or its handle when there is no such node. -/
def uidFor (f : Flow) (p : Endpoint) : String :=
  match f.node? p.node with
  | some n => n.uid
  | none => p.node.text

/-- The connections with both ends that would be refused. -/
def invalidConnections (f : Flow) : List Violation :=
  f.connections.zipIdx.filterMap fun (c, index) =>
    match c.link?.map f.validate with
    | some (.error reason) => some (.invalidConnection index reason)
    | _ => none

/-- Whether several connections end at a port. -/
def isShared (f : Flow) (p : Endpoint) : Bool :=
  1 < f.connections.countP (·.target = some p)

/-- Whether several connections that carry control start at a port. -/
def fansOut (f : Flow) (p : Endpoint) : Bool :=
  1 < f.connections.countP fun c => c.shape.isFlow && c.source = some p

/-- The faults of the ports of a connection, where no connection before it has the same port. -/
def portFaults (f : Flow) (before : List Connection) (c : Connection) : List Violation :=
  let shared := c.target.filter fun p => f.isShared p && before.all (·.target ≠ some p)
  let fanOut := c.source.filter fun p => f.fansOut p && before.all (·.source ≠ some p)
  (shared.map fun p => .sharedInput (f.uidFor p) p.key).toList
    ++ (fanOut.map fun p => .flowFanOut (f.uidFor p) p.key).toList

/-- The faults of the ports of connections that follow others. -/
def portFaultsFrom (f : Flow) (before : List Connection) : List Connection → List Violation
  | [] => []
  | c :: rest => f.portFaults before c ++ f.portFaultsFrom (before ++ [c]) rest

/-- All faults of a flow. -/
def violations (f : Flow) : List Violation :=
  f.invalidConnections ++ f.portFaultsFrom [] f.connections

/-- Whether a flow has no faults. -/
def isConsistent (f : Flow) : Bool :=
  f.violations.isEmpty

/-- The positions of the connections that lack an end. -/
def pending (f : Flow) : List Nat :=
  f.connections.zipIdx.filterMap fun (c, index) => if c.isPending then some index else none

end Flow

end CommandFlow
