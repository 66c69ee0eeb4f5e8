/-
Reading saved projects and their parts.

Commands and nodes that were written without a uid get one.  Which one is for the caller to say: a
source of uids gives one for every place in the text, named by the positions that lead to it.
-/
import CommandFlow.Saved.Basic
import CommandFlow.Saved.Record

namespace CommandFlow.Saved

open Json (Raw)

/-- Gives a uid for every place in a text. -/
abbrev UidSource := List Nat → String

namespace UidSource

/-- The uid of the place itself. -/
def here (source : UidSource) : String :=
  source []

/-- The source for the part at a position. -/
def within (source : UidSource) (position : Nat) : UidSource := fun path =>
  source (position :: path)

end UidSource

/-! ### Ports -/

/-- Reads the kind of a port. -/
def portKind : Reader PortKind := fun depth raw => do
  return .ofCode (← Reader.code depth raw)

/-- Reads tags. -/
def tags : Reader (List String) :=
  Reader.list fun _ => Reader.string

/-- The fields of what a port carries. -/
inductive ShapeField where
  | kind
  | tags
deriving DecidableEq

namespace ShapeField

/-- What a field holds. -/
abbrev Value : ShapeField → Type
  | .kind => PortKind
  | .tags => List String

/-- The fields in their declared order, with their names. -/
def schema : Schema ShapeField where
  label := "struct PortSpec"
  fields := [.kind, .tags]
  name
    | .kind => "type"
    | .tags => "structTags"

/-- Reads a field. -/
def read : (field : ShapeField) → Reader field.Value
  | .kind => portKind
  | .tags => Saved.tags

end ShapeField

/-- Reads what a port carries. -/
def portShape : Reader PortShape := fun depth raw => do
  let record ← ShapeField.schema.readRecord ShapeField.read depth raw
  return ⟨← record.require .kind, record.get .tags []⟩

/-! ### Options -/

/-- Reads the kind of an option, and notes its code if it is not in use. -/
def optionKind : Reader OptionKind := fun depth raw => do
  let code ← Reader.code depth raw
  match OptionKind.ofCode? code with
  | some kind => return kind
  | none =>
    .note code
    return .ofCode code

/-- The fields of an option. -/
inductive OptionField where
  | name
  | description
  | kind
  | required
  | choices
deriving DecidableEq

namespace OptionField

/-- What a field holds. -/
abbrev Value : OptionField → Type
  | .name => String
  | .description => String
  | .kind => OptionKind
  | .required => Bool
  | .choices => List String

/-- The fields in their declared order, with their names. -/
def schema : Schema OptionField where
  label := "struct CommandOption"
  fields := [.name, .description, .kind, .required, .choices]
  name
    | .name => "name"
    | .description => "description"
    | .kind => "type"
    | .required => "required"
    | .choices => "choices"

/-- Reads a field. -/
def read : (field : OptionField) → Reader field.Value
  | .name => Reader.string
  | .description => Reader.string
  | .kind => optionKind
  | .required => Reader.boolean
  | .choices => Reader.list fun _ => Reader.string

end OptionField

/-- Reads an option. -/
def commandOption : Reader CommandOption := fun depth raw => do
  let record ← OptionField.schema.readRecord OptionField.read depth raw
  return {
    name := ← record.require .name
    description := record.get .description ""
    kind := record.get .kind .string
    required := record.get .required false
    choices := record.get .choices [] }

/-! ### Nodes -/

/-- The fields of a node. -/
inductive NodeField where
  | uid
  | typeId
  | x
  | y
  | literals
deriving DecidableEq

namespace NodeField

/-- What a field holds. -/
abbrev Value : NodeField → Type
  | .uid => String
  | .typeId => String
  | .x => Binary64
  | .y => Binary64
  | .literals => Literals

/-- The fields in their declared order, with their names. -/
def schema : Schema NodeField where
  label := "struct NodeDocument"
  fields := [.uid, .typeId, .x, .y, .literals]
  name
    | .uid => "uid"
    | .typeId => "type"
    | .x => "x"
    | .y => "y"
    | .literals => "inputHardcoded"
  aliases
    | .typeId => ["typeId"]
    | _ => []

/-- Reads a field. -/
def read : (field : NodeField) → Reader field.Value
  | .uid => Reader.string
  | .typeId => Reader.string
  | .x => Reader.coordinate
  | .y => Reader.coordinate
  | .literals => Reader.literals

end NodeField

/-- Reads a node. -/
def node (fresh : UidSource) : Reader Node := fun depth raw => do
  let record ← NodeField.schema.readRecord NodeField.read depth raw
  return {
    uid := record.get .uid fresh.here
    typeId := ← record.require .typeId
    position := ⟨record.get .x (.zero false), record.get .y (.zero false)⟩
    literals := record.get .literals ∅ }

/-! ### Connections -/

/-- The fields of a connection. -/
inductive ConnectionField where
  | kind
  | tags
  | sourceUid
  | sourceKey
  | targetUid
  | targetKey
deriving DecidableEq

namespace ConnectionField

/-- What a field holds. -/
abbrev Value : ConnectionField → Type
  | .kind => PortKind
  | .tags => List String
  | _ => Option String

/-- The fields in their declared order, with their names. -/
def schema : Schema ConnectionField where
  label := "struct ConnectionDocument"
  fields := [.kind, .tags, .sourceUid, .sourceKey, .targetUid, .targetKey]
  name
    | .kind => "type"
    | .tags => "structTags"
    | .sourceUid => "from"
    | .sourceKey => "fromKey"
    | .targetUid => "to"
    | .targetKey => "toKey"
  aliases
    | .kind => ["portType"]
    | .sourceUid => ["fromUid"]
    | .targetUid => ["toUid"]
    | _ => []

/-- Reads a field. -/
def read : (field : ConnectionField) → Reader field.Value
  | .kind => portKind
  | .tags => Saved.tags
  | .sourceUid => Reader.optionalString
  | .sourceKey => Reader.optionalString
  | .targetUid => Reader.optionalString
  | .targetKey => Reader.optionalString

end ConnectionField

/-- Reads a connection. -/
def connection : Reader Connection := fun depth raw => do
  let record ← ConnectionField.schema.readRecord ConnectionField.read depth raw
  return {
    shape := ⟨record.get .kind .any, record.get .tags []⟩
    source := ⟨record.get .sourceUid none, record.get .sourceKey none⟩
    target := ⟨record.get .targetUid none, record.get .targetKey none⟩ }

/-! ### Flows -/

/-- The fields of a flow. -/
inductive FlowField where
  | nodes
  | connections
deriving DecidableEq

namespace FlowField

/-- What a field holds. -/
abbrev Value : FlowField → Type
  | .nodes => List Node
  | .connections => List Connection

/-- The fields in their declared order, with their names. -/
def schema : Schema FlowField where
  label := "struct FlowDocument"
  fields := [.nodes, .connections]
  name
    | .nodes => "nodes"
    | .connections => "connections"

/-- Reads a field. -/
def read (fresh : UidSource) : (field : FlowField) → Reader field.Value
  | .nodes => Reader.list fun i => node (fresh.within i)
  | .connections => Reader.list fun _ => connection

end FlowField

/-- Reads a flow. -/
def flow (fresh : UidSource) : Reader Flow := fun depth raw => do
  let record ← FlowField.schema.readRecord (FlowField.read fresh) depth raw
  return ⟨record.get .nodes [], record.get .connections []⟩

/-! ### Commands -/

/-- The fields of a command. -/
inductive CommandField where
  | uid
  | name
  | description
  | options
  | flow
deriving DecidableEq

namespace CommandField

/-- What a field holds. -/
abbrev Value : CommandField → Type
  | .uid => String
  | .name => String
  | .description => String
  | .options => List CommandOption
  | .flow => Flow

/-- The fields in their declared order, with their names. -/
def schema : Schema CommandField where
  label := "struct CommandDocument"
  fields := [.uid, .name, .description, .options, .flow]
  name
    | .uid => "uid"
    | .name => "name"
    | .description => "description"
    | .options => "options"
    | .flow => "flow"

/-- Reads a field. -/
def read (fresh : UidSource) : (field : CommandField) → Reader field.Value
  | .uid => Reader.string
  | .name => Reader.string
  | .description => Reader.string
  | .options => Reader.list fun _ => commandOption
  | .flow => Saved.flow fresh

end CommandField

/-- Reads a command. -/
def command (fresh : UidSource) : Reader Command := fun depth raw => do
  let record ← CommandField.schema.readRecord (CommandField.read fresh) depth raw
  return {
    uid := record.get .uid fresh.here
    name := ← record.require .name
    description := record.get .description ""
    options := record.get .options []
    flow := record.get .flow {} }

/-! ### Projects -/

/-- The one field of what describes a project. -/
inductive MetadataField where
  | name
deriving DecidableEq

/-- The field with its name. -/
def MetadataField.schema : Schema MetadataField where
  label := "struct ProjectMetadata"
  fields := [.name]
  name _ := "name"

/-- Reads the name of a project. -/
def projectName : Reader String := fun depth raw => do
  let record ← MetadataField.schema.readRecord (V := fun _ => String) (fun _ => Reader.string)
    depth raw
  return record.get .name ""

/-- The one field of what a project holds. -/
inductive ContentField where
  | commands
deriving DecidableEq

/-- The field with its name. -/
def ContentField.schema : Schema ContentField where
  label := "struct ProjectContent"
  fields := [.commands]
  name _ := "commands"

/-- Reads the commands of a project. -/
def projectCommands (fresh : UidSource) : Reader (List Command) := fun depth raw => do
  let record ← ContentField.schema.readRecord (V := fun _ => List Command)
    (fun _ => Reader.list fun i => command (fresh.within i)) depth raw
  return record.get .commands []

/-- The fields of a project. -/
inductive ProjectField where
  | metadata
  | content
deriving DecidableEq

namespace ProjectField

/-- What a field holds. -/
abbrev Value : ProjectField → Type
  | .metadata => String
  | .content => List Command

/-- The fields in their declared order, with their names. -/
def schema : Schema ProjectField where
  label := "struct ProjectDocument"
  fields := [.metadata, .content]
  name
    | .metadata => "metadata"
    | .content => "content"

/-- Reads a field. -/
def read (fresh : UidSource) : (field : ProjectField) → Reader field.Value
  | .metadata => projectName
  | .content => projectCommands fresh

end ProjectField

/-- Reads a project. -/
def project (fresh : UidSource) : Reader Project := fun depth raw => do
  let record ← ProjectField.schema.readRecord (ProjectField.read fresh) depth raw
  return ⟨record.get .metadata "", record.get .content []⟩

end CommandFlow.Saved
