/-
What is saved of a project.
-/
import CommandFlow.Json.Printer
import CommandFlow.Project
import CommandFlow.Saved.Basic

namespace CommandFlow

/-- What is saved of an end of a connection. An end at no node is saved as absent. -/
def Flow.savedEnd (f : Flow) (p : Option Endpoint) : Saved.End :=
  match p with
  | none => {}
  | some p =>
    match f.node? p.node with
    | none => {}
    | some n => ⟨some n.uid, some p.key⟩

/-- What is saved of a node. -/
def Node.saved (n : Node) : Saved.Node :=
  ⟨n.uid, n.typeId, n.position, n.literals⟩

/-- What is saved of a connection. -/
def Flow.savedConnection (f : Flow) (c : Connection) : Saved.Connection :=
  ⟨c.shape, f.savedEnd c.source, f.savedEnd c.target⟩

/-- What is saved of a flow. -/
def Flow.saved (f : Flow) : Saved.Flow :=
  ⟨f.nodes.map Node.saved, f.connections.map f.savedConnection⟩

/-- What is saved of a command. -/
def Command.saved (c : Command) : Saved.Command :=
  ⟨c.uid, c.name, c.description, c.options, c.flow.saved⟩

/-- What is saved of a project. -/
def Project.saved (p : Project) : Saved.Project :=
  ⟨p.name, p.commands.map Command.saved⟩

/-- The text of the file that a project is saved to. -/
def Project.fileText (p : Project) : String :=
  p.saved.toJson.text .indented

end CommandFlow
