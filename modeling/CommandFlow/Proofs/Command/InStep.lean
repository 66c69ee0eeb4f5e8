/-
Options and their node types, from the start of a command on.

A command is new or loaded.  A new one has no options.  Loading adds the saved options one by one,
as a user would, and then fills the flow without touching the node types of options.  So these
follow the options from the start, and every edit keeps them in step.
-/
import CommandFlow.Proofs.Command.Settled
import CommandFlow.Proofs.Saved.Placement

namespace CommandFlow

namespace Loader

/-! ### Options are loaded by adding them -/

theorem placeOption_eq_apply (c : Command) (o : CommandOption) :
    placeOption c o = c.apply (.addOption o) := by
  show placeOption c o = orUnchanged c (·.2) (c.addOption o)
  unfold placeOption
  cases c.addOption o with
  | error _ => rfl
  | ok _ => rfl

/-- What every added option keeps holds of the command with the saved options. -/
theorem commandOptions_induction {motive : Command → Prop} (l : Loader) (saved : Saved.Command)
    (hnew : motive (Command.new saved.name saved.description l.catalog saved.uid))
    (hadd : ∀ c o, motive c → motive (c.apply (.addOption o))) :
    motive (l.commandOptions saved) := by
  unfold commandOptions
  refine List.foldlRecOn saved.options placeOption hnew ?_
  intro c hc o _
  rw [placeOption_eq_apply]
  exact hadd c o hc

/-- Before it is filled, the flow of a command is empty. -/
theorem flow_commandOptions (l : Loader) (saved : Saved.Command) :
    (l.commandOptions saved).flow =
      { Flow.new l.catalog with optionTypes := (l.commandOptions saved).flow.optionTypes } := by
  refine l.commandOptions_induction saved
    (motive := fun c => c.flow = { Flow.new l.catalog with optionTypes := c.flow.optionTypes })
    rfl ?_
  intro c o hflow
  have heffect := Command.effect_apply c (.addOption o)
  generalize c.apply (.addOption o) = c' at heffect ⊢
  cases heffect with
  | refused => exact hflow
  | optionAdded _ _ =>
      dsimp only
      rw [hflow]

/-- The flow of a loaded command is loaded over the node types of its options. -/
theorem flow_command (l : Loader) (saved : Saved.Command) :
    (l.command saved).flow = l.flow saved.flow (l.commandOptions saved).flow.optionTypes := by
  show l.fill (l.commandOptions saved).flow saved.flow = _
  rw [flow_commandOptions]
  rfl

theorem optionTypes_command (l : Loader) (saved : Saved.Command) :
    (l.command saved).flow.optionTypes = (l.commandOptions saved).flow.optionTypes :=
  (l.placeNodes_frame saved.flow.nodes _).2.1

theorem inStep_commandOptions (l : Loader) (saved : Saved.Command) :
    (l.commandOptions saved).InStep :=
  l.commandOptions_induction saved rfl fun c o h => h.effect (Command.effect_apply c (.addOption o))

/-- A loaded command has its options and their node types in step. -/
theorem inStep_command (l : Loader) (saved : Saved.Command) : (l.command saved).InStep := by
  unfold Command.InStep
  rw [optionTypes_command]
  exact l.inStep_commandOptions saved

end Loader

namespace Command

/-- What edits of a command start from. -/
inductive Start where
  | new (name description : String) (catalog : Catalog) (uid : String)
  | loaded (loader : Loader) (saved : Saved.Command)

/-- The command before any edit. -/
def Start.command : Start → Command
  | .new name description catalog uid => Command.new name description catalog uid
  | .loaded loader saved => loader.command saved

theorem Start.inStep : ∀ start : Start, start.command.InStep
  | .new _ _ _ _ => rfl
  | .loaded loader saved => loader.inStep_command saved

theorem inStep_of_edits (start : Start) (edits : List Edit) :
    (edits.foldl apply start.command).InStep :=
  List.foldlRecOn edits apply start.inStep fun c h e _ => h.effect (effect_apply c e)

/--
**The node types of options are those of the options, in order, and no two options share a name.**
This holds of every command that was new or loaded, whatever was saved and over whatever catalog, after
any edits of its options and its flow.
-/
theorem option_types_follow_options (start : Start) (edits : List Edit) :
    let c := edits.foldl apply start.command
    c.flow.optionTypes.entries = c.options.map CommandOption.nodeType ∧
      (c.options.map (·.name)).Nodup := by
  intro c
  have h : c.InStep := inStep_of_edits start edits
  exact ⟨h, List.pairwise_map.2 h.names⟩

end Command

end CommandFlow
