/-
Ports: what a node takes in and gives out.

Every port has a kind.  A record port also has tags: an output offers its tags and an input
requires its own, so a record output can drive a record input only when it offers every tag that
the input requires.
-/

namespace CommandFlow

/-- The kind of what passes through a port. -/
inductive PortKind where
  /-- Control: which node runs next. -/
  | flow
  | number
  | text
  | boolean
  /-- A record of the chat platform, described further by tags. -/
  | record
  | any
deriving DecidableEq, Repr, Inhabited

namespace PortKind

/-- The number a kind is saved as. -/
def code : PortKind → Int
  | .flow => 0
  | .number => 1
  | .text => 2
  | .boolean => 3
  | .record => 4
  | .any => 5

/-- The kind of a saved number. A number that is not in use stands for `any`. -/
def ofCode : Int → PortKind
  | 0 => .flow
  | 1 => .number
  | 2 => .text
  | 3 => .boolean
  | 4 => .record
  | _ => .any

@[simp]
theorem ofCode_code (kind : PortKind) : ofCode kind.code = kind := by
  cases kind <;> rfl

/-- The kind of a name, in upper or lower case. A name that is not in use stands for `any`. -/
def ofName (name : String) : PortKind :=
  match name.toLower with
  | "flow" => .flow
  | "number" => .number
  | "text" => .text
  | "boolean" => .boolean
  | "bool" => .boolean
  | "struct" => .record
  | "structure" => .record
  | _ => .any

/-- The short name of a kind. -/
def label : PortKind → String
  | .flow => "flow"
  | .number => "number"
  | .text => "text"
  | .boolean => "boolean"
  | .record => "struct"
  | .any => "any"

/-- The name of a kind as error messages give it. -/
def title : PortKind → String
  | .flow => "Flow"
  | .number => "Number"
  | .text => "Text"
  | .boolean => "Boolean"
  | .record => "Structure"
  | .any => "Any"

/-- The colour a port of this kind is drawn in. -/
def color : PortKind → String
  | .flow => "#ffffff"
  | .number => "#2f904b"
  | .text => "#eeab2c"
  | .boolean => "#ee5339"
  | .record => "#427ade"
  | .any => "#8338f9"

end PortKind

/-- What a port carries: a kind, and the tags of a record. -/
structure PortShape where
  kind : PortKind
  tags : List String := []
deriving DecidableEq, Repr, Inhabited

namespace PortShape

/-- Whether the port passes control. -/
def isFlow (shape : PortShape) : Bool :=
  shape.kind = .flow

/-- The tags that a record input requires and a record output does not offer, in the input's
order. There are none between other kinds. -/
def missingTags (output input : PortShape) : List String :=
  if output.kind = .record ∧ input.kind = .record then
    input.tags.filter (· ∉ output.tags)
  else []

/-- Whether an output can drive an input. -/
def fits (output input : PortShape) : Bool :=
  output.kind = .any || input.kind = .any
    || (output.kind = input.kind && (missingTags output input).isEmpty)

end PortShape

/-- A declared port. -/
structure Port where
  shape : PortShape
  /-- The name shown beside the port. -/
  name : String
deriving DecidableEq, Repr, Inhabited

end CommandFlow
