/-
Options of commands: what a user gives along with a command.

Every option stands for a node type of its own, whose nodes give out the value of the option.
-/
import CommandFlow.NodeType

namespace CommandFlow

/-- What a user gives for an option. -/
inductive OptionKind where
  | string
  | user
  | channel
deriving DecidableEq, Repr, Inhabited

namespace OptionKind

/-- The number a kind is saved as. -/
def code : OptionKind → Int
  | .string => 0
  | .user => 1
  | .channel => 2

/-- The kind of a saved number, if it is in use. -/
def ofCode? : Int → Option OptionKind
  | 0 => some .string
  | 1 => some .user
  | 2 => some .channel
  | _ => none

/-- The kind of a saved number. A number that is not in use stands for a string. -/
def ofCode (code : Int) : OptionKind :=
  (ofCode? code).getD .string

/-- What the value of an option carries. -/
def shape : OptionKind → PortShape
  | .string => ⟨.text, []⟩
  | .user => ⟨.record, ["user", "user_resolvable"]⟩
  | .channel => ⟨.record, ["channel", "guild_channel", "text_channel"]⟩

end OptionKind

/-- An option of a command. -/
structure CommandOption where
  name : String
  description : String := ""
  kind : OptionKind := .string
  required : Bool := false
  choices : List String := []
deriving DecidableEq, Repr, Inhabited

namespace CommandOption

/-- The id of the node type that stands for the option of a name. -/
def typeIdOf (name : String) : String :=
  s!"__option_get_{name}__"

/-- The key of the output that gives out the value of an option. -/
def valueKey : String := "value"

/-- The id of the node type that stands for the option. -/
def typeId (o : CommandOption) : String :=
  typeIdOf o.name

/-- The node type that stands for the option. -/
def nodeType (o : CommandOption) : NodeType :=
  { id := o.typeId
    title := s!"Get option '{o.name}'"
    description := o.description
    category := "Options"
    color := "#427ade"
    outputs := PortTable.insert ∅ valueKey ⟨o.kind.shape, o.name⟩ }

/-- The option as JSON. -/
def toJson (o : CommandOption) : Json :=
  .object [
    ("name", .string o.name),
    ("description", .string o.description),
    ("type", .ofInt o.kind.code),
    ("required", .bool o.required),
    ("choices", .array (o.choices.map .string))]

end CommandOption

end CommandFlow
