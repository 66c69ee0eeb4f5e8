/-
What changes of commands and projects report.
-/
import CommandFlow.Journal.Flow
import CommandFlow.Project

namespace CommandFlow

/-- What reading the code of an option's kind reports. -/
def OptionKind.ofCodeEvents (code : Int) : List Event :=
  if (OptionKind.ofCode? code).isNone then [.unknownOptionKind code] else []

namespace Command

/-- What adding an option reports. -/
def addOptionEvents (c : Command) (o : CommandOption) : List Event :=
  match c.addOption o with
  | .ok (name, _) => [.optionAdded c.uid name]
  | .error _ => []

/-- What removing an option reports. -/
def removeOptionEvents (c : Command) (name : String) : List Event :=
  match c.removeOption name with
  | .ok r => [r.removal.event, .optionRemoved c.uid name r.removal.nodes.length]
  | .error _ => []

/-- What changing an option reports. -/
def updateOptionEvents (c : Command) (name : String) (o : CommandOption) : List Event :=
  match c.replaceType name o with
  | .ok (flow, handles) =>
    let selected := leavesAny handles
    flow.revalidateEvents selected
      ++ [.optionUpdated c.uid name o.name (flow.revalidate selected).1.length]
  | .error _ => []

end Command

namespace Project

/-- What adding a command reports. -/
def addCommandEvents (c : Command) : List Event :=
  [.commandAdded c.uid c.name]

/-- What removing a command reports. -/
def deleteCommandEvents (p : Project) (uid : String) : List Event :=
  match p.command? uid with
  | none => []
  | some _ => [.commandDeleted uid]

/-- What putting a shared catalog in place reports. -/
def publishEvents (p : Project) (catalog : Catalog) : List Event :=
  (p.commands.flatMap fun c => c.flow.rebindEvents catalog)
    ++ [.catalogPublished catalog.size p.commands.length (p.publish catalog).1.length]

/-- What placing a node in the edited flow reports. -/
def addNodeEvents (p : Project) (typeId : String) (position : Position) : List Event :=
  match p.editing? with
  | none => []
  | some c => c.flow.addNodeByIdEvents typeId position

/-- What removing nodes from the edited flow reports. -/
def removeNodesEvents (p : Project) (handles : List Handle) : List Event :=
  match p.editing? with
  | none => []
  | some c => [(c.flow.removeNodes handles).event]

end Project

end CommandFlow
