/-
Commands, and how their options show in their flows.

The node types of a command's options stand in the flow's own catalog.  Adding, changing and
removing an option keeps that catalog, the nodes placed from it and their connections in step with
the list of options.
-/
import CommandFlow.Command.Option
import CommandFlow.Flow.Revalidate

namespace CommandFlow

/-- A command with its options and its flow. -/
structure Command where
  /-- Names the command across saving and loading. -/
  uid : String
  name : String
  description : String
  options : List CommandOption
  flow : Flow
deriving Inhabited

/-- Why a change of the options is refused. -/
inductive OptionError where
  | nameConflict (name typeId : String)
  | notFound (name : String)
  | catalog (cause : CatalogError)
deriving DecidableEq, Repr

/-- The message of an error. -/
def OptionError.message : OptionError → String
  | .nameConflict name typeId =>
    s!"Option name '{name}' conflicts with existing node type '{typeId}'"
  | .notFound name => s!"Command has no option named '{name}'"
  | .catalog cause => cause.message

namespace Command

/-- A new command over a shared catalog. -/
def new (name description : String) (catalog : Catalog) (uid : String) : Command :=
  ⟨uid, name, description, [], Flow.new catalog⟩

/-- The option of a name. -/
def option? (c : Command) (name : String) : Option CommandOption :=
  c.options.find? (·.name = name)

/-- Whether a type id is in use, by an option or in the shared catalog. -/
def isTaken (c : Command) (typeId : String) : Bool :=
  c.flow.optionTypes.contains typeId || c.flow.catalog.contains typeId

/-- The name under which an option can be added: its own if the type id of that is free, else the
name followed by the least number from one on that makes it free. There are only so many type ids
in use, so the number is at most one more than their count. -/
def freeName (c : Command) (name : String) : String :=
  let free (name : String) : Bool := !c.isTaken (CommandOption.typeIdOf name)
  if free name then name
  else
    let count := c.flow.optionTypes.size + c.flow.catalog.size
    let number := ((List.range' 1 count).find? fun k => free (name ++ toString k)).getD (count + 1)
    name ++ toString number

/-- Adds an option, under another name if its type id is in use. Gives the name used. -/
def addOption (c : Command) (o : CommandOption) : Except OptionError (String × Command) :=
  let o := { o with name := c.freeName o.name }
  match c.flow.optionTypes.insert o.nodeType with
  | .error cause => .error (.catalog cause)
  | .ok optionTypes =>
    .ok (o.name, { c with
      options := c.options ++ [o]
      flow := { c.flow with optionTypes } })

/-- What the removal of an option took away, and what is left. -/
structure OptionRemoval where
  command : Command
  option : CommandOption
  /-- What went with the nodes of the option. -/
  removal : Flow.Removal

/-- Removes an option, the nodes of its type and the connections at them. -/
def removeOption (c : Command) (name : String) : Except OptionError OptionRemoval :=
  match c.option? name with
  | none => .error (.notFound name)
  | some option =>
    let typeId := CommandOption.typeIdOf name
    match c.flow.optionTypes.erase typeId with
    | .error cause => .error (.catalog cause)
    | .ok (_, optionTypes) =>
      let flow := { c.flow with optionTypes }
      let removal := flow.removeNodes ((flow.nodesOfType typeId).map (·.handle))
      .ok {
        command := { c with
          options := c.options.eraseP (·.name = name)
          flow := removal.flow }
        option
        removal }

/-- Puts the node type of an option in the place of that of the option with the given name. Gives
the flow with its connections still unchecked, and the nodes whose type changed. -/
def replaceType (c : Command) (name : String) (o : CommandOption) :
    Except OptionError (Flow × List Handle) :=
  match c.option? name with
  | none => .error (.notFound name)
  | some _ =>
    let oldId := CommandOption.typeIdOf name
    if o.typeId ≠ oldId ∧ c.isTaken o.typeId then .error (.nameConflict o.name o.typeId)
    else
      match c.flow.optionTypes.replace oldId o.nodeType with
      | .error cause => .error (.catalog cause)
      | .ok optionTypes =>
        .ok ({ c.flow with optionTypes }.retarget oldId o.nodeType,
          (c.flow.nodesOfType oldId).map (·.handle))

/-- Whether a connection starts at one of the nodes. -/
def leavesAny (handles : List Handle) (c : Connection) : Bool :=
  c.source.any (·.node ∈ handles)

/-- Puts another option in the place of the one with the given name. Nodes of the old one become
nodes of the new one, and their connections are checked again. Gives the connections dropped. -/
def updateOption (c : Command) (name : String) (o : CommandOption) :
    Except OptionError (List Connection × Command) :=
  match c.replaceType name o with
  | .error e => .error e
  | .ok (flow, handles) =>
    let (dropped, flow) := flow.revalidate (leavesAny handles)
    .ok (dropped, { c with
      options := updateFirst (·.name = name) (fun _ => o) c.options
      flow })

end Command

end CommandFlow
