/-
Which saved projects can be opened again.

Saving has no limit on how deep values nest, but reading does.  Around a value typed into an input
stand eight levels of the file: the project, its content, the list of commands, a command, its flow,
the list of nodes, a node, and its values by key.  So the text of a project is read if and only if
no such value nests deeper than what is left; nothing else in a project can make its text unreadable.
-/
import CommandFlow.Proofs.Edit
import CommandFlow.Proofs.Saved.Written
import CommandFlow.Saved.Loader
import CommandFlow.Saved.Snapshot

namespace CommandFlow.Saved

open Json (Raw)
open Reading

section

variable (depth : Nat)

/-! ### Nodes, flows and commands -/

/-- Whether the values typed into a node nest no deeper than given. -/
def Node.NestsWithin (depth : Nat) (n : Node) : Prop :=
  ∀ entry ∈ n.literals.entries, entry.2.depth ≤ depth

theorem succeeds_node_iff (fresh : UidSource) (n : Node) :
    (node fresh (depth + 2) (Raw.ofJson n.toJson)).Succeeds ↔ n.NestsWithin depth := by
  have hjson : n.toJson = NodeField.schema.written (nodeField n) := rfl
  have hliterals := Reader.succeeds_literals_iff depth n.literals
  rw [hjson]
  refine (Schema.succeeds_record_iff distinct_node fun _ _ => ⟨_, rfl⟩).trans
    ⟨fun h => hliterals.1 (h .literals), fun h f => ?_⟩
  cases f with
  | uid => exact ⟨_, result_string (depth + 1) _⟩
  | typeId => exact ⟨_, result_string (depth + 1) _⟩
  | x => exact succeeds_coordinate (depth + 1) _
  | y => exact succeeds_coordinate (depth + 1) _
  | literals => exact hliterals.2 h

theorem succeeds_flow_iff (fresh : UidSource) (f : Flow) :
    (flow fresh (depth + 4) (Raw.ofJson f.toJson)).Succeeds
      ↔ ∀ n ∈ f.nodes, n.NestsWithin depth := by
  have hjson : f.toJson = FlowField.schema.written (flowField f) := rfl
  have hnodes := Reader.succeeds_list_iff
    (fun i n => succeeds_node_iff depth (fresh.within i) n) f.nodes
  rw [hjson]
  refine (Schema.succeeds_record_iff distinct_flow fun _ _ => ⟨_, rfl⟩).trans
    ⟨fun h => hnodes.1 (h .nodes), fun h field => ?_⟩
  cases field with
  | nodes => exact hnodes.2 h
  | connections => exact ⟨_, Reader.result_list (fun _ c => result_connection depth c) _⟩

theorem succeeds_command_iff (fresh : UidSource) (c : Command) :
    (command fresh (depth + 5) (Raw.ofJson c.toJson)).Succeeds
      ↔ ∀ n ∈ c.flow.nodes, n.NestsWithin depth := by
  have hjson : c.toJson = CommandField.schema.written (commandField c) := rfl
  have hflow := succeeds_flow_iff depth fresh c.flow
  rw [hjson]
  refine (Schema.succeeds_record_iff distinct_command fun _ _ => ⟨_, rfl⟩).trans
    ⟨fun h => hflow.1 (h .flow), fun h f => ?_⟩
  cases f with
  | uid => exact ⟨_, result_string (depth + 4) _⟩
  | name => exact ⟨_, result_string (depth + 4) _⟩
  | description => exact ⟨_, result_string (depth + 4) _⟩
  | options => exact ⟨_, Reader.result_list (fun _ o => result_commandOption (depth + 1) o) _⟩
  | flow => exact hflow.2 h

/-! ### Projects -/

theorem succeeds_projectCommands_iff (fresh : UidSource) (commands : List Command) :
    (projectCommands fresh (depth + 7)
        (Raw.ofJson (.object [("commands", .array (commands.map Command.toJson))]))).Succeeds
      ↔ ∀ c ∈ commands, ∀ n ∈ c.flow.nodes, n.NestsWithin depth := by
  have hjson : Json.object [("commands", .array (commands.map Command.toJson))]
      = ContentField.schema.written fun _ => .array (commands.map Command.toJson) := rfl
  have hcommands := Reader.succeeds_list_iff
    (fun i c => succeeds_command_iff depth (fresh.within i) c) commands
  rw [hjson]
  exact (Schema.succeeds_record_iff distinct_content fun _ _ => ⟨_, rfl⟩).trans
    ⟨fun h => hcommands.1 (h .commands), fun h _ => hcommands.2 h⟩

theorem succeeds_project_iff (fresh : UidSource) (p : Project) :
    (project fresh (depth + 8) (Raw.ofJson p.toJson)).Succeeds
      ↔ ∀ c ∈ p.commands, ∀ n ∈ c.flow.nodes, n.NestsWithin depth := by
  have hjson : p.toJson = ProjectField.schema.written (projectField p) := rfl
  have hcontent := succeeds_projectCommands_iff depth fresh p.commands
  rw [hjson]
  refine (Schema.succeeds_record_iff distinct_project fun _ _ => ⟨_, rfl⟩).trans
    ⟨fun h => hcontent.1 (h .content), fun h f => ?_⟩
  cases f with
  | metadata => exact ⟨_, result_projectName (depth + 6) p.name⟩
  | content => exact hcontent.2 h

end

/-- The text of a saved project is read if and only if none of its values nests too deep. -/
theorem succeeds_ofText_iff (fresh : UidSource) (form : Json.Form) (p : Project) :
    (Reader.ofText (project fresh) (p.toJson.text form)).Succeeds
      ↔ ∀ c ∈ p.commands, ∀ n ∈ c.flow.nodes, n.NestsWithin (Json.maxDepth - 8) := by
  rw [Succeeds, Reader.result_ofText_text]
  exact succeeds_project_iff (Json.maxDepth - 8) fresh p

end CommandFlow.Saved

namespace CommandFlow.Loader

/-- A project file is opened as what its text is read as. -/
theorem parseProject_eq_ok_iff {l : Loader} {fresh : Saved.UidSource} {text : String}
    {p : Project} :
    l.parseProject fresh text = .ok p ↔
      ∃ saved, (Saved.Reader.ofText (Saved.project fresh) text).result = .ok saved ∧
        l.project saved = p := by
  unfold parseProject
  cases (Saved.Reader.ofText (Saved.project fresh) text).result with
  | error cause => simp
  | ok saved => simp

/-- A project file is opened if and only if its text is read. -/
theorem exists_parseProject_iff {l : Loader} {fresh : Saved.UidSource} {text : String} :
    (∃ q, l.parseProject fresh text = .ok q)
      ↔ (Saved.Reader.ofText (Saved.project fresh) text).Succeeds := by
  simp only [parseProject_eq_ok_iff, Saved.Reading.Succeeds]
  constructor
  · rintro ⟨_, saved, hread, -⟩
    exact ⟨saved, hread⟩
  · rintro ⟨saved, hread⟩
    exact ⟨_, saved, hread, rfl⟩

/-- **A saved project is opened again if and only if no value typed into an input nests deeper than
119 arrays and objects.** There is room for 127, and eight stand around such a value. -/
theorem saved_file_opens_iff (l : Loader) (fresh : Saved.UidSource) (p : Project) :
    (∃ q, l.parseProject fresh p.fileText = .ok q)
      ↔ ∀ c ∈ p.commands, ∀ n ∈ c.flow.nodes, ∀ entry ∈ n.literals.entries,
          entry.2.depth ≤ 119 := by
  rw [exists_parseProject_iff, Project.fileText, Saved.succeeds_ofText_iff]
  -- What is saved has the commands, nodes and values of the project.
  constructor
  · intro h c hc n hn
    exact h c.saved (List.mem_map_of_mem hc) n.saved (List.mem_map_of_mem hn)
  · intro h c' hc' n' hn'
    obtain ⟨c, hc, rfl⟩ := List.mem_map.1 hc'
    obtain ⟨n, hn, rfl⟩ := List.mem_map.1 hn'
    exact h c hc n hn

/-- A value of 120 arrays is read from its own text, but a project that it is typed into is not
opened again. -/
theorem deeply_nested_value_does_not_reopen :
    let deep : Json := Nat.repeat (fun json => .array [json]) 120 (.bool true)
    let say : NodeType :=
      { id := "say", title := "Say", inputs := .ofList [("text", ⟨⟨.any, []⟩, "text"⟩)] }
    let edits : List Project.Edit := [
      .createCommand "ping" "" "c",
      .addNode "say" ⟨.zero false, .zero false⟩ "a",
      .command "c" (.flow (.setLiteral ⟨0⟩ "text" deep))]
    let catalog := Catalog.ofNodup [say] (by decide)
    let p := edits.foldl Project.apply (Project.new "bot" (some catalog))
    (Json.parse? (deep.text .compact)).isSome = true ∧
      ∀ fresh, ¬∃ q, ({ catalog } : Loader).parseProject fresh p.fileText = .ok q := by
  intro deep say edits catalog p
  refine ⟨(Json.isSome_parse?_text .compact deep).2 (by decide +kernel), ?_⟩
  intro fresh h
  rw [exists_parseProject_iff, Project.fileText, Saved.succeeds_ofText_iff] at h
  have hnests : ∀ c ∈ p.saved.commands, ∀ n ∈ c.flow.nodes, ∀ entry ∈ n.literals.entries,
      entry.2.depth ≤ 119 := h
  exact absurd hnests (by decide +kernel)

end CommandFlow.Loader
