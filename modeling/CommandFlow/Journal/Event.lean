/-
Events: what the library reports of its work.

An operation and what it reports are separate: the functions of the journal say what a call reports
without being part of it.
-/
import CommandFlow.Flow.Connection
import CommandFlow.Catalog.Basic

namespace CommandFlow

/-- How much an event matters. -/
inductive Level where
  | warning
  | debug
deriving DecidableEq, Repr

/-- Something worth reporting. -/
inductive Event where
  | malformedDeclaration (index : Nat)
  | malformedPort (typeId key : String)
  | declarationSkipped (error : CatalogError)
  | feedLoaded (nodeTypes : Nat)
  | positionNotFinite (position : Position)
  | nodeAdded (node : Handle) (typeId : String)
  | nodesRemoved (nodes connections : Nat)
  | connectionCreated (kind : PortKind) (superseded : Nat)
  | connectionRemoved (link : Link)
  | connectionDropped (reason : Refusal)
  | nodeRebound (uid typeId fallback : String)
  | unknownOptionKind (code : Int)
  | optionAdded (command name : String)
  | optionRemoved (command name : String) (nodes : Nat)
  | optionUpdated (command old new : String) (dropped : Nat)
  | optionRenamed (command name renamed : String)
  | optionSkipped (command : String) (message : String)
  | typeReplaced (typeId fallback : String)
  | typeMissing (typeId : String)
  | endLeftOpen (uid key : String)
  | commandAdded (command name : String)
  | commandDeleted (command : String)
  | catalogPublished (nodeTypes commands dropped : Nat)
  | projectLoaded (name : String) (commands : Nat)
deriving DecidableEq

/-- The value of a detail. -/
inductive Detail where
  | text (value : String)
  | count (value : Int)
deriving DecidableEq, Repr

namespace Event

/-- How much an event matters. -/
def level : Event → Level
  | .malformedDeclaration .. => .warning
  | .malformedPort .. => .warning
  | .declarationSkipped .. => .warning
  | .positionNotFinite .. => .warning
  | .connectionDropped .. => .warning
  | .nodeRebound .. => .warning
  | .unknownOptionKind .. => .warning
  | .optionRenamed .. => .warning
  | .optionSkipped .. => .warning
  | .typeReplaced .. => .warning
  | .typeMissing .. => .warning
  | .endLeftOpen .. => .warning
  | _ => .debug

/-- The text of an event. -/
def message : Event → String
  | .malformedDeclaration .. => "Skipping malformed node declaration"
  | .malformedPort .. => "Skipping malformed port declaration"
  | .declarationSkipped .. => "Skipping node declaration"
  | .feedLoaded .. => "Loaded node declaration feed"
  | .positionNotFinite .. => "Non-finite node position, using origin"
  | .nodeAdded .. => "Added node"
  | .nodesRemoved .. => "Removed nodes"
  | .connectionCreated .. => "Created connection"
  | .connectionRemoved .. => "Toggled connection off"
  | .connectionDropped .. => "Dropping connection that no longer fits its ports"
  | .nodeRebound .. => "Node type missing from published catalog, using fallback"
  | .unknownOptionKind .. => "Unknown option type, treating as string"
  | .optionAdded .. => "Added option"
  | .optionRemoved .. => "Removed option"
  | .optionUpdated .. => "Updated option"
  | .optionRenamed .. => "Renamed clashing option while decoding"
  | .optionSkipped .. => "Skipping option"
  | .typeReplaced .. => "Unknown node type, using fallback"
  | .typeMissing .. => "Unknown node type, skipping node"
  | .endLeftOpen .. => "Connection endpoint refers to an unknown node, leaving it pending"
  | .commandAdded .. => "Added command"
  | .commandDeleted .. => "Deleted command"
  | .catalogPublished .. => "Published node catalog"
  | .projectLoaded .. => "Decoded project"

/-- The details of an event, by name. -/
def details : Event → List (String × Detail)
  | .malformedDeclaration index => [("index", .count index)]
  | .malformedPort typeId key => [("type_id", .text typeId), ("port", .text key)]
  | .declarationSkipped error => [("error", .text error.message)]
  | .feedLoaded nodeTypes => [("node_types", .count nodeTypes)]
  | .positionNotFinite p =>
    [("x", .text (Position.coordinateText p.x)), ("y", .text (Position.coordinateText p.y))]
  | .nodeAdded node typeId => [("node", .text node.text), ("type_id", .text typeId)]
  | .nodesRemoved nodes connections =>
    [("nodes", .count nodes), ("connections", .count connections)]
  | .connectionCreated kind superseded =>
    [("port_type", .text kind.label), ("superseded", .count superseded)]
  | .connectionRemoved link => [("from", .text link.source.text), ("to", .text link.target.text)]
  | .connectionDropped reason => [("reason", .text reason.message)]
  | .nodeRebound uid typeId fallback =>
    [("node", .text uid), ("type_id", .text typeId), ("fallback", .text fallback)]
  | .unknownOptionKind code => [("code", .count code)]
  | .optionAdded command name => [("command", .text command), ("option", .text name)]
  | .optionRemoved command name nodes =>
    [("command", .text command), ("option", .text name), ("nodes", .count nodes)]
  | .optionUpdated command old new dropped =>
    [("command", .text command), ("from", .text old), ("to", .text new),
      ("dropped", .count dropped)]
  | .optionRenamed command name renamed =>
    [("command", .text command), ("option", .text name), ("renamed", .text renamed)]
  | .optionSkipped command message => [("command", .text command), ("error", .text message)]
  | .typeReplaced typeId fallback => [("type_id", .text typeId), ("fallback", .text fallback)]
  | .typeMissing typeId => [("type_id", .text typeId)]
  | .endLeftOpen uid key => [("uid", .text uid), ("key", .text key)]
  | .commandAdded command name => [("command", .text command), ("name", .text name)]
  | .commandDeleted command => [("command", .text command)]
  | .catalogPublished nodeTypes commands dropped =>
    [("node_types", .count nodeTypes), ("commands", .count commands), ("dropped", .count dropped)]
  | .projectLoaded name commands => [("project", .text name), ("commands", .count commands)]

end Event

end CommandFlow
