/-
Nodes placed in a flow.
-/
import CommandFlow.NodeType

namespace CommandFlow

/-- Names a node within its flow. A flow never hands out the same handle twice. -/
structure Handle where
  number : Nat
deriving DecidableEq, Repr, Inhabited

/-- A handle as messages show it. -/
def Handle.text (h : Handle) : String :=
  s!"#{h.number}"

/-- A place on the canvas. -/
structure Position where
  x : Binary64
  y : Binary64
deriving DecidableEq, BEq, Inhabited

namespace Position

/-- Whether both coordinates are finite. -/
def isFinite (p : Position) : Bool :=
  p.x.isFinite && p.y.isFinite

/-- The position with zero for every coordinate that is not finite. -/
def orOrigin (p : Position) : Position :=
  let finite (v : Binary64) : Binary64 := if v.isFinite then v else .zero false
  ⟨finite p.x, finite p.y⟩

/-- Coordinates are shown without an exponent and, when whole, without a point. -/
def coordinateStyle : Binary64.Style where
  layout := { positional := fun _ => true, wholeEnd := [] }
  tie := .up

/-- The text of a coordinate. -/
def coordinateText (v : Binary64) : String :=
  String.ofList (v.text coordinateStyle)

end Position

/-- A node of a flow. -/
structure Node where
  handle : Handle
  /-- Names the node across saving and loading. -/
  uid : String
  type : NodeType
  position : Position
  /-- Values typed into inputs. -/
  literals : Literals
deriving Inhabited

namespace Node

/-- The id of the node's type. -/
def typeId (n : Node) : String :=
  n.type.id

/-- Nodes are the same when what is saved of them is the same. -/
instance : BEq Node where
  beq a b :=
    a.uid == b.uid && a.typeId == b.typeId && a.position == b.position && a.literals == b.literals

end Node

end CommandFlow
