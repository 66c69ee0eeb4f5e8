/-
Feeds: JSON texts that declare node types.

A feed is an array of declarations.  It is not trusted: a declaration that is not an object with an
id is passed over, as is a port that is not an object, and whatever else is missing or of the wrong
form takes a default.  Only a text that is not a JSON array is an error.
-/
import CommandFlow.Catalog.Basic
import CommandFlow.Json.Raw

namespace CommandFlow

namespace Feed

/-- The declarations of a feed. -/
def parse (text : String) : Except CatalogError (List Json) :=
  match Json.parse? text with
  | none => .error .malformedFeed
  | some (.array entries) => .ok entries
  | some _ => .error .feedNotArray

/-- The tags that an array lists; whatever is not a string is passed over. -/
def tags : Option Json → List String
  | some (.array items) => items.filterMap Json.string?
  | _ => []

/-- The kind that a number or a name stands for. -/
def kind : Json → PortKind
  | .number (.int n _) => .ofCode n
  | .string s => .ofName s
  | _ => .any

/-- The kind of a port and the tags given with it. The kind stands alone or in an object together
with its tags. -/
def nestedShape : Option Json → PortShape
  | some (.object entries) =>
    ⟨((entries.lookup "type").map kind).getD .any, tags (entries.lookup "structTags")⟩
  | some json => ⟨kind json, []⟩
  | none => ⟨.any, []⟩

/-- The port that a declaration describes, if it is an object. -/
def port? (key : String) (json : Json) : Option Port :=
  match json with
  | .object entries =>
    let nested := nestedShape (entries.lookup "type")
    let outer := (entries.lookup "structTags").or (entries.lookup "struct_tags")
    let shape := if nested.tags.isEmpty then { nested with tags := tags outer } else nested
    some ⟨shape, ((entries.lookup "name").bind Json.string?).getD key⟩
  | _ => none

/-- The ports of one side. -/
def ports : Option Json → PortTable
  | some (.object entries) =>
    .ofList (entries.filterMap fun (key, json) => (port? key json).map (key, ·))
  | _ => ∅

/-- The keys of one side whose port is no object. -/
def malformedPorts : Option Json → List String
  | some (.object entries) =>
    entries.filterMap fun (key, json) => if (port? key json).isNone then some key else none
  | _ => []

/-- The values that new nodes start with. -/
def defaults : Option Json → Literals
  | some (.object entries) => .ofList entries
  | _ => ∅

end Feed

/-- The node type that a declaration describes. It needs an id; all else has a default. -/
def NodeType.ofJson? (json : Json) : Option NodeType := do
  let id ← (← json.get? "id").string?
  let text (key : String) (default : String) : String :=
    ((json.get? key).bind Json.string?).getD default
  return {
    id := id
    title := text "title" id
    description := text "description" ""
    category := text "category" ""
    color := text "color" "#e91e63"
    icon := text "icon" ""
    inputs := Feed.ports (json.get? "inputs")
    outputs := Feed.ports (json.get? "outputs")
    defaults := Feed.defaults (json.get? "defaultHardcoded") }

/-- The node types that declarations describe, in their order. -/
def Feed.nodeTypes (declarations : List Json) : List NodeType :=
  declarations.filterMap NodeType.ofJson?

/-- The catalog of a feed. Of declarations with the same id the first counts. -/
def Catalog.ofFeed (text : String) : Except CatalogError Catalog := do
  return (Feed.nodeTypes (← Feed.parse text)).foldl Catalog.insertNew ∅

end CommandFlow
