/-
What is written for the parts of a project, and which of it always comes back.

Texts, kinds, options and connections are read as they were.  A coordinate is so exactly if its
double is read back.  Nodes and what is around them are therefore another matter; of these it is said
here only what is written for each of their fields.
-/
import CommandFlow.Proofs.Saved.Reading
import CommandFlow.Saved.Reader

namespace CommandFlow.Saved

open Json (Raw)
open Reading

section

variable (depth : Nat)

/-! ### Single values -/

theorem result_string (s : String) : (Reader.string depth (Raw.ofJson (.string s))).result = .ok s :=
  rfl

theorem result_optionalString (o : Option String) :
    (Reader.optionalString depth (Raw.ofJson (optionalJson o))).result = .ok o := by
  cases o with
  | none => rfl
  | some s => rfl

theorem result_boolean (b : Bool) : (Reader.boolean depth (Raw.ofJson (.bool b))).result = .ok b :=
  rfl

theorem result_code {n : Int} (h : 0 ≤ n ∧ n < 0x8000000000000000) :
    (Reader.code depth (Raw.ofJson (.ofInt n))).result = .ok n := by
  have hrange : -0x8000000000000000 ≤ n ∧ n < 0x10000000000000000 := by omega
  have hraw : Raw.ofJson (.ofInt n) = .number (Json.integerLiteral n) := by
    rw [Json.ofInt, Number.ofInt, dif_pos hrange]
    rfl
  rw [hraw]
  refine result_bind_eq_ok_iff.2 ⟨.int n hrange, by rw [Json.number?_integerLiteral hrange]; rfl, ?_⟩
  dsimp only
  rw [if_pos h.2]
  rfl

theorem result_strings (xs : List String) :
    (Reader.list (fun _ => Reader.string) (depth + 1)
      (Raw.ofJson (.array (xs.map .string)))).result = .ok xs :=
  Reader.result_list (fun _ s => result_string depth s) xs

/-- What a double is read as where a coordinate is expected. -/
theorem result_coordinate {x : Binary64} {l : Json.Literal} (h : Json.literal? (.double x) = some l) :
    (Reader.coordinate depth (Raw.ofJson (coordinateJson x))).result = .ok l.toBinary64 := by
  rw [coordinateJson, Raw.ofJson, h]
  exact result_bind_eq_ok_iff.2 ⟨.double l.toBinary64, by rw [Json.number?_of_double h]; rfl, rfl⟩

theorem succeeds_coordinate (x : Binary64) :
    (Reader.coordinate depth (Raw.ofJson (coordinateJson x))).Succeeds := by
  cases h : Json.literal? (.double x) with
  | none =>
      rw [coordinateJson, Raw.ofJson, h]
      exact succeeds_pure _
  | some l => exact ⟨_, result_coordinate depth h⟩

theorem result_coordinate_iff {x : Binary64} (hfinite : x.isFinite = true) :
    (Reader.coordinate depth (Raw.ofJson (coordinateJson x))).result = .ok x ↔ Json.ReadsBack x := by
  obtain ⟨l, hl⟩ := Json.exists_literal?_of_isFinite hfinite
  rw [result_coordinate depth hl, Json.readsBack_iff, hl, Option.map_some, Except.ok.injEq,
    Option.some.injEq]

/-! ### Options and connections -/

theorem result_optionKind (kind : OptionKind) :
    (optionKind depth (Raw.ofJson (.ofInt kind.code))).result = .ok kind := by
  have hcode := result_code depth (n := kind.code) (by cases kind <;> decide)
  refine result_bind_eq_ok_iff.2 ⟨kind.code, hcode, ?_⟩
  cases kind with
  | string => rfl
  | user => rfl
  | channel => rfl

theorem result_portKind (kind : PortKind) :
    (portKind depth (Raw.ofJson (.ofInt kind.code))).result = .ok kind := by
  have hcode := result_code depth (n := kind.code) (by cases kind <;> decide)
  exact result_bind_eq_ok_iff.2 ⟨kind.code, hcode, congrArg Except.ok kind.ofCode_code⟩

/-- What is written for a field of an option. -/
def optionField (o : CommandOption) : OptionField → Json
  | .name => .string o.name
  | .description => .string o.description
  | .kind => .ofInt o.kind.code
  | .required => .bool o.required
  | .choices => .array (o.choices.map .string)

/-- The values of the fields of an option. -/
def optionValue (o : CommandOption) : (field : OptionField) → field.Value
  | .name => o.name
  | .description => o.description
  | .kind => o.kind
  | .required => o.required
  | .choices => o.choices

theorem distinct_option : OptionField.schema.Distinct :=
  ⟨by decide, fun f => by cases f <;> rfl⟩

theorem result_commandOption (o : CommandOption) :
    (commandOption (depth + 2) (Raw.ofJson o.toJson)).result = .ok o := by
  have hjson : o.toJson = OptionField.schema.written (optionField o) := rfl
  rw [hjson]
  refine (Schema.result_record_iff distinct_option).2 ⟨optionValue o, ?_, rfl⟩
  intro f
  cases f with
  | name => exact result_string (depth + 1) _
  | description => exact result_string (depth + 1) _
  | kind => exact result_optionKind (depth + 1) _
  | required => exact result_boolean (depth + 1) _
  | choices => exact result_strings depth _

/-- What is written for a field of a connection. -/
def connectionField (c : Connection) : ConnectionField → Json
  | .kind => .ofInt c.shape.kind.code
  | .tags => tagsJson c.shape.tags
  | .sourceUid => optionalJson c.source.uid
  | .sourceKey => optionalJson c.source.key
  | .targetUid => optionalJson c.target.uid
  | .targetKey => optionalJson c.target.key

/-- The values of the fields of a connection. -/
def connectionValue (c : Connection) : (field : ConnectionField) → field.Value
  | .kind => c.shape.kind
  | .tags => c.shape.tags
  | .sourceUid => c.source.uid
  | .sourceKey => c.source.key
  | .targetUid => c.target.uid
  | .targetKey => c.target.key

theorem distinct_connection : ConnectionField.schema.Distinct :=
  ⟨by decide, fun f => by cases f <;> rfl⟩

theorem result_connection (c : Connection) :
    (connection (depth + 2) (Raw.ofJson c.toJson)).result = .ok c := by
  have hjson : c.toJson = ConnectionField.schema.written (connectionField c) := rfl
  rw [hjson]
  refine (Schema.result_record_iff distinct_connection).2 ⟨connectionValue c, ?_, rfl⟩
  intro f
  cases f with
  | kind => exact result_portKind (depth + 1) _
  | tags => exact result_strings depth _
  | sourceUid => exact result_optionalString (depth + 1) _
  | sourceKey => exact result_optionalString (depth + 1) _
  | targetUid => exact result_optionalString (depth + 1) _
  | targetKey => exact result_optionalString (depth + 1) _

/-! ### Nodes and what is around them -/

/-- What is written for a field of a node. -/
def nodeField (n : Node) : NodeField → Json
  | .uid => .string n.uid
  | .typeId => .string n.typeId
  | .x => coordinateJson n.position.x
  | .y => coordinateJson n.position.y
  | .literals => n.literals.toJson

/-- The values of the fields of a node. -/
def nodeValue (n : Node) : (field : NodeField) → field.Value
  | .uid => n.uid
  | .typeId => n.typeId
  | .x => n.position.x
  | .y => n.position.y
  | .literals => n.literals

theorem distinct_node : NodeField.schema.Distinct :=
  ⟨by decide, fun f => by cases f <;> rfl⟩

/-- What is written for a field of a flow. -/
def flowField (f : Flow) : FlowField → Json
  | .nodes => .array (f.nodes.map Node.toJson)
  | .connections => .array (f.connections.map Connection.toJson)

/-- The values of the fields of a flow. -/
def flowValue (f : Flow) : (field : FlowField) → field.Value
  | .nodes => f.nodes
  | .connections => f.connections

theorem distinct_flow : FlowField.schema.Distinct :=
  ⟨by decide, fun f => by cases f <;> rfl⟩

/-- What is written for a field of a command. -/
def commandField (c : Command) : CommandField → Json
  | .uid => .string c.uid
  | .name => .string c.name
  | .description => .string c.description
  | .options => .array (c.options.map CommandOption.toJson)
  | .flow => c.flow.toJson

/-- The values of the fields of a command. -/
def commandValue (c : Command) : (field : CommandField) → field.Value
  | .uid => c.uid
  | .name => c.name
  | .description => c.description
  | .options => c.options
  | .flow => c.flow

theorem distinct_command : CommandField.schema.Distinct :=
  ⟨by decide, fun f => by cases f <;> rfl⟩

theorem distinct_metadata : MetadataField.schema.Distinct :=
  ⟨by decide, fun .name => rfl⟩

theorem result_projectName (name : String) :
    (projectName (depth + 1) (Raw.ofJson (.object [("name", .string name)]))).result = .ok name := by
  have hjson : Json.object [("name", .string name)]
      = MetadataField.schema.written fun _ => .string name := rfl
  rw [hjson]
  exact (Schema.result_record_iff distinct_metadata).2
    ⟨fun _ => name, fun _ => result_string depth name, rfl⟩

theorem distinct_content : ContentField.schema.Distinct :=
  ⟨by decide, fun .commands => rfl⟩

/-- What is written for a field of a project. -/
def projectField (p : Project) : ProjectField → Json
  | .metadata => .object [("name", .string p.name)]
  | .content => .object [("commands", .array (p.commands.map Command.toJson))]

/-- The values of the fields of a project. -/
def projectValue (p : Project) : (field : ProjectField) → field.Value
  | .metadata => p.name
  | .content => p.commands

theorem distinct_project : ProjectField.schema.Distinct :=
  ⟨by decide, fun f => by cases f <;> rfl⟩

end

end CommandFlow.Saved
