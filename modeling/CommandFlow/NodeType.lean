/-
Node types: what a node of a kind is called, shows and connects to.
-/
import CommandFlow.Literals
import CommandFlow.Port.Table

namespace CommandFlow

/-- The key of the input through which control enters a node. -/
def flowInKey : String := "__flow_in__"

/-- The key of the output through which control leaves a node. -/
def flowOutKey : String := "__flow_out__"

/-- A type of nodes. -/
@[ext]
structure NodeType where
  id : String
  title : String
  description : String := ""
  category : String := ""
  /-- The colour of the title bar. -/
  color : String := "#e91e63"
  icon : String := ""
  inputs : PortTable := ∅
  outputs : PortTable := ∅
  /-- The values a new node of this type starts with. -/
  defaults : Literals := ∅
deriving Inhabited

namespace NodeType

/-- Adds an input. -/
def withInput (t : NodeType) (key name : String) (shape : PortShape) : NodeType :=
  { t with inputs := t.inputs.insert key ⟨shape, name⟩ }

/-- Adds an output. -/
def withOutput (t : NodeType) (key name : String) (shape : PortShape) : NodeType :=
  { t with outputs := t.outputs.insert key ⟨shape, name⟩ }

/-- Adds the input through which control enters. -/
def withFlowIn (t : NodeType) : NodeType :=
  t.withInput flowInKey "flow_in" ⟨.flow, []⟩

/-- Adds the output through which control leaves. -/
def withFlowOut (t : NodeType) : NodeType :=
  t.withOutput flowOutKey "flow_out" ⟨.flow, []⟩

/-- Adds a value that new nodes start with. -/
def withDefault (t : NodeType) (key : String) (value : Json) : NodeType :=
  { t with defaults := t.defaults.insert key value }

/-- The input of a key. -/
def input? (t : NodeType) (key : String) : Option Port :=
  t.inputs.get? key

/-- The output of a key. -/
def output? (t : NodeType) (key : String) : Option Port :=
  t.outputs.get? key

end NodeType

/-! ### Written form -/

/-- The tags of a port as JSON. -/
def tagsJson (tags : List String) : Json :=
  .array (tags.map .string)

/-- What a port carries, as JSON. -/
def PortShape.toJson (shape : PortShape) : Json :=
  .object [("type", .ofInt shape.kind.code), ("structTags", tagsJson shape.tags)]

/-- A port as JSON. -/
def Port.toJson (port : Port) : Json :=
  .object [("type", port.shape.toJson), ("name", .string port.name)]

/-- A table of ports as a JSON object. -/
def PortTable.toJson (table : PortTable) : Json :=
  .object (table.entries.map fun (key, port) => (key, port.toJson))

/-- A node type as JSON, in the form in which it is declared. -/
def NodeType.toJson (t : NodeType) : Json :=
  .object [
    ("id", .string t.id),
    ("title", .string t.title),
    ("description", .string t.description),
    ("category", .string t.category),
    ("color", .string t.color),
    ("icon", .string t.icon),
    ("inputs", t.inputs.toJson),
    ("outputs", t.outputs.toJson),
    ("defaultHardcoded", t.defaults.toJson)]

end CommandFlow
