/-
What loading saved projects reports.
-/
import CommandFlow.Journal.Project
import CommandFlow.Saved.Loader

namespace CommandFlow

/-- What reading a text reports: the codes of options that are not in use. -/
def Saved.Reading.events {α : Type} (r : Saved.Reading α) : List Event :=
  r.unknownCodes.map .unknownOptionKind

/-- What looking up the type of a saved node reports. -/
def Resolution.events : Resolution → List Event
  | .found _ => []
  | .replaced typeId type => [.typeReplaced typeId type.id]
  | .missing typeId => [.typeMissing typeId]

namespace Loader

/-- What looking for the port of a saved end reports. -/
def endEvents (f : Flow) (e : Saved.End) : List Event :=
  match e.uid, e.key, endpoint? f e with
  | some uid, some key, none => [.endLeftOpen uid key]
  | _, _, _ => []

/-- What filling a flow reports. -/
def fillEvents (l : Loader) (f : Flow) (saved : Saved.Flow) : List Event :=
  let placed := l.placeNodes f saved.nodes
  (saved.nodes.flatMap fun n => (l.resolve f n.typeId).events)
    ++ saved.connections.flatMap fun c => endEvents placed c.source ++ endEvents placed c.target

/-- What loading a flow reports. -/
def flowEvents (l : Loader) (saved : Saved.Flow) (optionTypes : Catalog) : List Event :=
  l.fillEvents { Flow.new l.catalog with optionTypes } saved

/-- What adding a saved option reports. -/
def placeOptionEvents (c : Command) (o : CommandOption) : List Event :=
  match c.addOption o with
  | .ok (name, _) =>
    c.addOptionEvents o ++ if name = o.name then [] else [.optionRenamed c.uid o.name name]
  | .error e => [.optionSkipped c.uid e.message]

/-- What adding saved options reports. -/
def placeOptionsEvents (c : Command) : List CommandOption → List Event
  | [] => []
  | o :: rest => placeOptionEvents c o ++ placeOptionsEvents (placeOption c o) rest

/-- What loading a command reports. -/
def commandEvents (l : Loader) (saved : Saved.Command) : List Event :=
  placeOptionsEvents (Command.new saved.name saved.description l.catalog saved.uid) saved.options
    ++ l.fillEvents (l.commandOptions saved).flow saved.flow

/-- What loading a project reports. -/
def projectEvents (l : Loader) (saved : Saved.Project) : List Event :=
  saved.commands.flatMap l.commandEvents ++ [.projectLoaded saved.name saved.commands.length]

/-- What loading a project from the text of its file reports. -/
def parseProjectEvents (l : Loader) (fresh : Saved.UidSource) (text : String) : List Event :=
  let reading := Saved.Reader.ofText (Saved.project fresh) text
  reading.events ++
    match reading.result with
    | .ok saved => l.projectEvents saved
    | .error _ => []

end Loader

end CommandFlow
