/-
Checking connections again after node types have changed.

A connection that no longer fits is dropped; one that does takes over what its source now declares.
An output may have become a flow output, which has one target: of several connections that leave it
the newest stays.
-/
import CommandFlow.Flow.Connect

namespace CommandFlow

namespace Flow

/-- Checks a connection again. Gives what its source declares, or nothing without a source. -/
def recheck (f : Flow) (c : Connection) : Except Refusal (Option PortShape) :=
  match c.source, c.target with
  | none, _ => .ok none
  | some source, some target => (f.validate ⟨source, target⟩).map some
  | some source, none => do
    let some node := f.node? source.node | .error (.nodeNotFound source.node)
    let some output := node.type.output? source.key
      | .error (.unknownOutput node.typeId source.key)
    return some output.shape

/-- What checking again says of a connection. -/
inductive Verdict where
  /-- It was not to be checked. -/
  | unselected (connection : Connection)
  /-- It fits, and carries what its source declares now. -/
  | passed (connection : Connection)
  | failed (connection : Connection) (reason : Refusal)
deriving DecidableEq, Repr

/-- The verdict on a connection. -/
def verdict (f : Flow) (selected : Connection → Bool) (c : Connection) : Verdict :=
  if !selected c then .unselected c
  else
    match f.recheck c with
    | .ok (some shape) => .passed { c with shape }
    | .ok none => .passed c
    | .error reason => .failed c reason

/-- The verdicts on all connections, in order. -/
def verdicts (f : Flow) (selected : Connection → Bool) : List Verdict :=
  f.connections.map (f.verdict selected)

namespace Verdict

/-- The connection, if it has a source, carries control and has passed. -/
def flowSource? : Verdict → Option Endpoint
  | .passed c => if c.shape.isFlow then c.source else none
  | _ => none

/-- The connection and the reason, if it failed. -/
def failure? : Verdict → Option (Connection × Refusal)
  | .failed c reason => some (c, reason)
  | _ => none

/-- Whether a newer connection that has passed leaves the same flow output. -/
def isOutdated (v : Verdict) (newer : List Verdict) : Bool :=
  v.flowSource?.isSome && newer.any (·.flowSource? = v.flowSource?)

/-- The connections that stay, in order. -/
def kept : List Verdict → List Connection
  | [] => []
  | v :: newer =>
    match v with
    | .unselected c => c :: kept newer
    | .passed c => if v.isOutdated newer then kept newer else c :: kept newer
    | .failed _ _ => kept newer

/-- The connections that passed and make way for a newer one, newest first. -/
def outdated : List Verdict → List Connection
  | [] => []
  | v :: newer =>
    match v with
    | .passed c => if v.isOutdated newer then outdated newer ++ [c] else outdated newer
    | _ => outdated newer

end Verdict

/-- Checks the selected connections again. Gives those that were dropped. -/
def revalidate (f : Flow) (selected : Connection → Bool) : List Connection × Flow :=
  let verdicts := f.verdicts selected
  ((verdicts.filterMap Verdict.failure?).map (·.1) ++ Verdict.outdated verdicts,
    { f with connections := Verdict.kept verdicts })

/-! ### A new shared catalog -/

/-- The type that a node has under the flow's catalogs: an option's node keeps its own, others are
looked up again, and one that is gone is replaced by the first available. -/
def reboundType (f : Flow) (n : Node) : NodeType :=
  if f.optionTypes.contains n.typeId then n.type
  else
    match f.catalog.get? n.typeId with
    | some type => type
    | none => f.fallback?.getD n.type

/-- The flow over another shared catalog, with the types of its nodes looked up again. -/
def rebindNodes (f : Flow) (catalog : Catalog) : Flow :=
  let f := { f with catalog }
  { f with nodes := f.nodes.map fun n => { n with type := f.reboundType n } }

/-- Puts another shared catalog in place and checks all connections again. Gives the connections
that were dropped. -/
def rebind (f : Flow) (catalog : Catalog) : List Connection × Flow :=
  (f.rebindNodes catalog).revalidate fun _ => true

/-- Gives every node of the type with the old id a new type. -/
def retarget (f : Flow) (oldId : String) (type : NodeType) : Flow :=
  { f with nodes := f.nodes.map fun n => if n.typeId = oldId then { n with type } else n }

end Flow

end CommandFlow
