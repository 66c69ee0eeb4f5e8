/-
Coordinates are finite, and are written as numbers.

A coordinate comes into a flow in four ways, and each treats one that is not finite differently.
Placing a node puts zero in its place, moving a node is refused, and a file has none: a number in
it is finite, and null stands for zero.  Everything else leaves the coordinates of nodes alone, so
whatever is done to a flow they stay finite.

This matters when the flow is saved, since a coordinate that is not finite would be written as
null.  `writtenCoordinates` looks up in the tree of a file what it gives for the nodes of a command.
-/
import CommandFlow.Proofs.Flow.Handles
import CommandFlow.Proofs.Project.Origin
import CommandFlow.Proofs.Saved.Rereading

namespace CommandFlow

theorem Position.isFinite_orOrigin (q : Position) : q.orOrigin.isFinite = true := by
  have hfinite : ∀ v : Binary64, (if v.isFinite then v else .zero false).isFinite = true := by
    intro v
    by_cases hv : v.isFinite = true
    · rw [if_pos hv]
      exact hv
    · rw [if_neg hv]
      rfl
  exact Bool.and_eq_true_iff.2 ⟨hfinite q.x, hfinite q.y⟩

namespace Flow

/-! ### What one step keeps -/

/-- The positions of the nodes, in order. -/
def positions (f : Flow) : List Position :=
  f.nodes.map (·.position)

/-- Whether all nodes are at finite coordinates. -/
def OnCanvas (f : Flow) : Prop :=
  ∀ q ∈ f.positions, q.isFinite = true

theorem OnCanvas.of_subset {f g : Flow} (h : f.OnCanvas) (hsub : g.positions ⊆ f.positions) :
    g.OnCanvas :=
  fun q hq => h q (hsub hq)

theorem OnCanvas.of_eq {f g : Flow} (h : f.OnCanvas) (heq : g.positions = f.positions) :
    g.OnCanvas :=
  h.of_subset (heq ▸ List.Subset.refl _)

/-- A node is placed at finite coordinates, whichever are asked for. -/
theorem OnCanvas.addNode {f : Flow} (h : f.OnCanvas) (type : NodeType) (position : Position)
    (uid : String) : (f.addNode type position uid).2.OnCanvas := by
  have hpositions :
      (f.addNode type position uid).2.positions = f.positions ++ [position.orOrigin] :=
    List.map_append
  intro q hq
  rw [hpositions] at hq
  rcases List.mem_append.1 hq with hold | hnew
  · exact h q hold
  · rw [List.mem_singleton.1 hnew]
    exact position.isFinite_orOrigin

theorem OnCanvas.move {f : Flow} (h : f.OnCanvas) (k : Handle) {position : Position}
    (hfinite : position.isFinite = true) :
    (f.updateNode k fun n => { n with position }).OnCanvas := by
  intro q hq
  obtain ⟨n, hn, rfl⟩ := List.mem_map.1 hq
  rcases mem_or_of_mem_updateFirst hn with hold | ⟨m, -, rfl⟩
  · exact h n.position (List.mem_map_of_mem hold)
  · exact hfinite

theorem positions_removeNodes_subset (f : Flow) (nodes : List Handle) :
    (f.removeNodes nodes).flow.positions ⊆ f.positions :=
  List.map_subset _ (List.filter_subset_self _)

theorem OnCanvas.effect {f g : Flow} {e : Edit} (h : f.OnCanvas) (he : f.Effect e g) :
    g.OnCanvas := by
  cases he with
  | added type position uid => exact h.addNode type position uid
  | addedById position uid _ => exact h.addNode _ position uid
  | moved _ hfinite => exact h.move _ hfinite
  | literalSet _ _ _ => exact h.of_eq (map_updateFirst fun _ => rfl)
  | literalCleared _ _ => exact h.of_eq (map_updateFirst fun _ => rfl)
  | removed nodes => exact h.of_subset (f.positions_removeNodes_subset nodes)
  | rebound catalog => exact h.of_eq List.map_map
  | _ => exact h

theorem OnCanvas.operate {f : Flow} (h : f.OnCanvas) (op : Operation) :
    (f.operate op).OnCanvas := by
  have heffect := Command.effect_apply { op.holder with flow := f } op.edit
  unfold Flow.operate
  generalize Command.apply { op.holder with flow := f } op.edit = c' at heffect ⊢
  obtain ⟨holder, edit⟩ := op
  cases heffect with
  | refused => exact h
  | optionAdded _ _ => exact h
  | optionRemoved _ _ => exact h.of_subset (positions_removeNodes_subset _ _)
  | optionUpdated _ _ _ => exact h.of_eq (map_nodes_retarget (fun _ _ => rfl) _ _ _)
  | flowEdited hflow => exact h.effect hflow

end Flow

namespace Loader

/-! ### Loaded flows -/

/-- Loaded nodes are where saved nodes are. -/
theorem onCanvas_command (l : Loader) {saved : Saved.Command}
    (h : ∀ n ∈ saved.flow.nodes, n.position.isFinite = true) : (l.command saved).flow.OnCanvas := by
  intro q hq
  obtain ⟨m, hm, rfl⟩ := List.mem_map.1 hq
  obtain ⟨n, hn, t, -, hcontent⟩ :=
    exists_saved_of_mem_placeNodes (l.commandOptions_flow saved).2.1 hm
  have hposition : m.position = n.position := congrArg (·.2.2.1) hcontent
  exact hposition ▸ h n hn

/-- Whatever a file says, the nodes that are loaded from it are at finite coordinates. -/
theorem onCanvas_of_parseProject {l : Loader} {fresh : Saved.UidSource} {text : String}
    {p : Project} (hopen : l.parseProject fresh text = .ok p) {c : Command} (hc : c ∈ p.commands) :
    c.flow.OnCanvas := by
  obtain ⟨saved, hread, rfl⟩ := parseProject_eq_ok_iff.1 hopen
  obtain ⟨raw, hraw⟩ := Saved.Reader.exists_of_ofText hread
  obtain ⟨d, hd, rfl⟩ := List.mem_map.1 hc
  have hreadable : saved.Readable (Json.maxDepth - 8) := Saved.readable_of_project hraw
  refine l.onCanvas_command fun n hn => ?_
  exact Bool.and_eq_true_iff.2 ⟨(hreadable d hd n hn).x, (hreadable d hd n hn).y⟩

end Loader

namespace Flow

/-! ### Whole runs -/

/-- The flows that can come about: new or opened from a file, and changed by any operation, on
their own or with the project that holds them. -/
inductive Reached : Flow → Prop
  | new (catalog : Catalog) : Reached (Flow.new catalog)
  | opened {l : Loader} {fresh : Saved.UidSource} {text : String} {p : Project}
      (hopen : l.parseProject fresh text = .ok p) {c : Command} (hc : c ∈ p.commands) :
      Reached c.flow
  | operated {f : Flow} (h : Reached f) (op : Operation) : Reached (f.operate op)
  /-- A command that is added to a project has a flow that came about likewise. -/
  | inProject {p : Project} (h : ∀ c ∈ p.commands, Reached c.flow) (e : Project.Edit)
      (hadded : ∀ c, e = .addCommand c → Reached c.flow) {d : Command}
      (hd : d ∈ (p.apply e).commands) : Reached d.flow

theorem Reached.onCanvas {f : Flow} (h : f.Reached) : f.OnCanvas := by
  induction h with
  | new catalog =>
      intro q hq
      exact absurd hq List.not_mem_nil
  | opened hopen hc => exact Loader.onCanvas_of_parseProject hopen hc
  | operated _ op ih => exact ih.operate op
  | @inProject p _ e _ _ hd ih ihadded =>
      have horigin := Project.origin_of_mem hd
      generalize (p.apply e).catalog = catalog at horigin
      cases horigin with
      | kept _ hc => exact ih _ hc
      | created _ _ _ =>
          intro q hq
          exact absurd hq List.not_mem_nil
      | added => exact ihadded _ rfl
      | edited uid ce hc => exact (ih _ hc).operate ⟨_, ce⟩
      | nodePlaced typeId position uid hc =>
          exact (ih _ hc).operate ⟨_, .flow (.addNodeById typeId position uid)⟩
      | nodesRemoved nodes hc => exact (ih _ hc).operate ⟨_, .flow (.removeNodes nodes)⟩
      | rebound catalog hc => exact (ih _ hc).operate ⟨_, .flow (.rebind catalog)⟩

theorem Reached.edits {c : Command} (h : c.flow.Reached) (edits : List Command.Edit) :
    (edits.foldl Command.apply c).flow.Reached := by
  rw [← foldl_operationsOf]
  exact List.foldlRecOn (operationsOf c edits) operate h fun _ hg op _ => hg.operated op

end Flow

/-! ### Files -/

namespace Json.Raw

/-- The part of an object under a key. -/
def part? (key : String) : Raw → Option Raw
  | .object entries => entries.lookup (some key)
  | _ => none

/-- The items of an array. -/
def items : Raw → List Raw
  | .array items => items
  | _ => []

theorem part?_ofJson (key : String) (entries : List (String × Json)) :
    (ofJson (.object entries)).part? key = (entries.lookup key).map ofJson := by
  show (ofEntries entries).lookup (some key) = _
  induction entries with
  | nil => rfl
  | cons entry rest ih =>
      obtain ⟨other, value⟩ := entry
      by_cases hkey : key = other
      · simp [ofEntries, hkey]
      · have hne : (key == other) = false := by simpa using hkey
        simp [ofEntries, List.lookup_cons, hne, ih]

theorem items_ofJson (json : List Json) : (ofJson (.array json)).items = json.map ofJson :=
  ofItems_eq json

end Json.Raw

namespace Saved

open Json (Raw)

/-- What a file gives for the coordinates of the nodes of the command at a place, in order. -/
def writtenCoordinates (file : Raw) (place : Nat) : List (Option Raw × Option Raw) :=
  let nodes := do
    let commands ← (← file.part? "content").part? "commands"
    (← (← commands.items[place]?).part? "flow").part? "nodes"
  (nodes.map Raw.items).getD [] |>.map fun node => (node.part? "x", node.part? "y")

/-- Whether a part of a file is there and is a number that stands for a double. -/
def Spells (part : Option Raw) (x : Binary64) : Prop :=
  ∃ l, part = some (.number l) ∧ Json.literal? (.double x) = some l

theorem spells_coordinateJson {x : Binary64} (h : x.isFinite = true) :
    Spells (some (Raw.ofJson (coordinateJson x))) x := by
  obtain ⟨l, hl⟩ := Json.exists_literal?_of_isFinite h
  refine ⟨l, ?_, hl⟩
  rw [coordinateJson, Raw.ofJson, hl]
  rfl

theorem writtenCoordinates_ofJson {p : Project} {place : Nat} {c : Command}
    (hc : p.commands[place]? = some c) :
    writtenCoordinates (Raw.ofJson p.toJson) place = c.flow.nodes.map fun n =>
      (some (Raw.ofJson (coordinateJson n.position.x)),
        some (Raw.ofJson (coordinateJson n.position.y))) := by
  simp [writtenCoordinates, Project.toJson, Command.toJson, Flow.toJson, Node.toJson,
    Raw.part?_ofJson, Raw.items_ofJson, List.lookup_cons, hc]

end Saved

namespace Flow

open Json (Raw)
open Saved (Spells writtenCoordinates)

/--
**Coordinates are finite whatever is done, and are written as numbers.**  Take any flow that was
new or opened from a file, whatever its text, and was then changed by any operations, with any
coordinates asked for.  Its nodes are at finite coordinates.  In the file of a project that holds
it, whatever else the project holds, both coordinates of each of its nodes are there as numbers,
the ones that stand for them; none is null.
-/
theorem coordinates_stay_finite {f : Flow} (h : f.Reached) :
    (∀ n ∈ f.nodes, n.position.x.isFinite = true ∧ n.position.y.isFinite = true) ∧
      ∀ (p : Project) (place : Nat) (c : Command), p.commands[place]? = some c → c.flow = f →
        (Raw.ofText p.fileText).wellFormed = true ∧
          List.Forall₂ (fun n part => Spells part.1 n.position.x ∧ Spells part.2 n.position.y)
            f.nodes (writtenCoordinates (Raw.ofText p.fileText).tree place) := by
  have hfinite : ∀ n ∈ f.nodes, n.position.x.isFinite = true ∧ n.position.y.isFinite = true := by
    intro n hn
    exact Bool.and_eq_true_iff.1 (h.onCanvas n.position (List.mem_map_of_mem hn))
  refine ⟨hfinite, ?_⟩
  rintro p place c hc rfl
  have hsaved : p.saved.commands[place]? = some c.saved := by
    rw [Project.saved, List.getElem?_map, hc]
    rfl
  rw [Project.fileText, Raw.ofText_text]
  refine ⟨rfl, ?_⟩
  rw [Saved.writtenCoordinates_ofJson hsaved, Command.saved, Flow.saved, List.map_map,
    List.forall₂_map_right_iff, List.forall₂_same]
  intro n hn
  exact ⟨Saved.spells_coordinateJson (hfinite n hn).1, Saved.spells_coordinateJson (hfinite n hn).2⟩

/-- A file gives null for a coordinate, a node is placed at coordinates that are not finite, and
moves to such are asked for: the nodes stay where they can be written. -/
theorem coordinates_of_opened_file_stay_finite :
    let tenth : Binary64 := .ofDecimal false ⟨1, -1⟩
    let say : NodeType := { id := "say", title := "Say" }
    let l : Loader := { catalog := Catalog.ofNodup [say] (by decide) }
    let node : Json := .object [("uid", .string "a"), ("type", .string "say"), ("x", .null),
      ("y", .number (.double tenth))]
    let command : Json := .object [("uid", .string "c"), ("name", .string "ping"),
      ("flow", .object [("nodes", .array [node])])]
    let text := (Json.object [("content", .object [("commands", .array [command])])]).text .compact
    let edits : List Command.Edit := [
      .flow (.addNodeById "say" ⟨.nan, .infinite true⟩ "b"),
      .flow (.moveNode ⟨0⟩ ⟨.infinite false, tenth⟩),
      .flow (.moveNode ⟨1⟩ ⟨tenth, .nan⟩)]
    ∃ p c, l.parseProject (fun _ => "u") text = .ok p ∧ p.commands = [c] ∧
      let edited := edits.foldl Command.apply c
      let f := edited.flow
      let q : Project := { p with commands := [edited] }
      f.Reached ∧ f.positions = [⟨.zero false, tenth⟩, ⟨.zero false, .zero false⟩] ∧
        (∀ n ∈ f.nodes, n.position.x.isFinite = true ∧ n.position.y.isFinite = true) ∧
        List.Forall₂ (fun n part => Spells part.1 n.position.x ∧ Spells part.2 n.position.y)
          f.nodes (writtenCoordinates (Raw.ofText q.fileText).tree 0) := by
  intro tenth say l node command text edits
  let expected : List Position := [⟨.zero false, tenth⟩, ⟨.zero false, .zero false⟩]
  have hok : ∀ x : Except Loader.FileError Project,
      x.toOption.map (·.commands.map fun c => (edits.foldl Command.apply c).flow.positions) =
        some [expected] →
      ∃ p c, x = .ok p ∧ p.commands = [c] ∧
        (edits.foldl Command.apply c).flow.positions = expected := by
    intro x hx
    cases x with
    | error e => exact absurd hx (by simp [Except.toOption])
    | ok p =>
        obtain ⟨c, hc, hpositions⟩ := List.map_eq_singleton_iff.1 (Option.some.inj hx)
        exact ⟨p, c, rfl, hc, hpositions⟩
  obtain ⟨p, c, hopen, hc, hpositions⟩ := hok (l.parseProject (fun _ => "u") text) (by
    unfold Loader.parseProject
    rw [Saved.Reader.result_ofText_text]
    decide +kernel)
  have hreached : (edits.foldl Command.apply c).flow.Reached :=
    (Reached.opened hopen (by rw [hc]; exact List.mem_singleton_self c)).edits edits
  obtain ⟨hfinite, hwritten⟩ := coordinates_stay_finite hreached
  exact ⟨p, c, hopen, hc, hreached, hpositions, hfinite,
    (hwritten { p with commands := [edits.foldl Command.apply c] } 0 _ rfl rfl).2⟩

end Flow

end CommandFlow
