/-
Projects: the commands of a bot, and the one that is being edited.
-/
import CommandFlow.Command.Basic

namespace CommandFlow

/-- The commands of a bot. -/
structure Project where
  name : String
  commands : List Command
  /-- The uid of the command that is being edited. -/
  editing : Option String
  /-- The shared catalog, once there is one. -/
  catalog : Option Catalog
deriving Inhabited

/-- Why a request to a project is refused. -/
inductive ProjectError where
  | commandNotFound (uid : String)
  | noCommandEditing
  | catalog (cause : CatalogError)
deriving DecidableEq, Repr

/-- The message of an error. -/
def ProjectError.message : ProjectError → String
  | .commandNotFound uid => s!"Project has no command with uid '{uid}'"
  | .noCommandEditing => "No command is currently being edited"
  | .catalog cause => cause.message

namespace Project

/-- A project without commands. -/
def new (name : String) (catalog : Option Catalog) : Project :=
  ⟨name, [], none, catalog⟩

/-- The shared catalog, empty while there is none. -/
def snapshot (p : Project) : Catalog :=
  p.catalog.getD ∅

/-- The first command with a uid. -/
def command? (p : Project) (uid : String) : Option Command :=
  p.commands.find? (·.uid = uid)

/-- Whether the command with a uid is being edited. -/
def isEditing (p : Project) (uid : String) : Bool :=
  p.editing = some uid

/-- The command that is being edited. -/
def editing? (p : Project) : Option Command :=
  p.editing.bind p.command?

/-- The flow of the command that is being edited. -/
def currentFlow? (p : Project) : Option Flow :=
  p.editing?.map (·.flow)

/-- Changes the first command with a uid. -/
def updateCommand (p : Project) (uid : String) (change : Command → Command) : Project :=
  { p with commands := updateFirst (·.uid = uid) change p.commands }

/-- Exchanges the flows of the first commands with two uids. No operation of a project does this
or is built on it: it stands for a caller that has both flows at hand to change, and exchanges them
with one another. -/
def swapFlows (p : Project) (uid other : String) : Project :=
  match p.command? uid, p.command? other with
  | some c, some d =>
    (p.updateCommand uid ({ · with flow := d.flow })).updateCommand other
      ({ · with flow := c.flow })
  | _, _ => p

/-- Adds a command, which is then the one being edited. -/
def addCommand (p : Project) (c : Command) : Project :=
  { p with commands := p.commands ++ [c], editing := some c.uid }

/-- Adds a new command. -/
def createCommand (p : Project) (name description : String) (uid : String) : Project :=
  p.addCommand (Command.new name description p.snapshot uid)

/-- Removes the first command with a uid. Gives it back. -/
def deleteCommand (p : Project) (uid : String) : Except ProjectError (Command × Project) :=
  match p.command? uid with
  | none => .error (.commandNotFound uid)
  | some c =>
    .ok (c, { p with
      commands := p.commands.eraseP (·.uid = uid)
      editing := if p.isEditing uid then none else p.editing })

/-- Sets which command is being edited, if any. -/
def setEditing (p : Project) (uid : Option String) : Except ProjectError Project :=
  match uid with
  | none => .ok { p with editing := none }
  | some u =>
    match p.command? u with
    | none => .error (.commandNotFound u)
    | some _ => .ok { p with editing := some u }

/-- Puts a shared catalog in place for all commands. Gives the connections dropped. -/
def publish (p : Project) (catalog : Catalog) : List Connection × Project :=
  (p.commands.flatMap fun c => (c.flow.rebind catalog).1,
    { p with
      commands := p.commands.map fun c => { c with flow := (c.flow.rebind catalog).2 }
      catalog := some catalog })

/-- Places a new node in the flow of the command that is being edited. -/
def addNode (p : Project) (typeId : String) (position : Position) (uid : String) :
    Except ProjectError (Handle × Project) :=
  match p.editing? with
  | none => .error .noCommandEditing
  | some c =>
    match c.flow.addNodeById typeId position uid with
    | .error cause => .error (.catalog cause)
    | .ok (h, flow) => .ok (h, p.updateCommand c.uid fun c => { c with flow })

/-- Removes nodes from the flow of the command that is being edited. -/
def removeNodes (p : Project) (handles : List Handle) :
    Except ProjectError (Flow.Removal × Project) :=
  match p.editing? with
  | none => .error .noCommandEditing
  | some c =>
    let removal := c.flow.removeNodes handles
    .ok (removal, p.updateCommand c.uid fun c => { c with flow := removal.flow })

end Project

end CommandFlow
