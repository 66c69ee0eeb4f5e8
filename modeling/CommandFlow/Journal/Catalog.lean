/-
What loading a catalog reports.
-/
import CommandFlow.Catalog.Feed
import CommandFlow.Journal.Event

namespace CommandFlow

/-- What reading one declaration reports. -/
def Feed.declarationEvents (json : Json) (index : Nat) : List Event :=
  match NodeType.ofJson? json with
  | none => [.malformedDeclaration index]
  | some t =>
    (Feed.malformedPorts (json.get? "inputs") ++ Feed.malformedPorts (json.get? "outputs")).map
      (.malformedPort t.id)

/-- What reading declarations reports. -/
def Feed.events (declarations : List Json) : List Event :=
  declarations.zipIdx.flatMap fun (json, index) => declarationEvents json index

/-- What registering node types one after the other reports: those whose id is taken. -/
def Catalog.clashEvents (c : Catalog) : List NodeType → List Event
  | [] => []
  | t :: rest =>
    match c.insert t with
    | .ok c' => c'.clashEvents rest
    | .error e => .declarationSkipped e :: c.clashEvents rest

/-- What loading a catalog from a feed reports. -/
def Catalog.ofFeedEvents (text : String) : List Event :=
  match Feed.parse text with
  | .error _ => []
  | .ok declarations =>
    let types := Feed.nodeTypes declarations
    Feed.events declarations ++ Catalog.clashEvents ∅ types
      ++ [.feedLoaded (types.foldl Catalog.insertNew ∅).size]

end CommandFlow
