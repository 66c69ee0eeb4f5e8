/-
Loading what was saved.

Handles are not saved: a connection names the nodes at its ends by uid, and loading hands out handles
anew.  Where uids tell nodes apart and every type id can be looked up, the flow that is loaded has the
same nodes in the same order and the same connections between them.
-/
import CommandFlow.Proofs.Project.Orderly
import CommandFlow.Proofs.Saved.Placement
import CommandFlow.Saved.Snapshot

namespace CommandFlow

/-! ### Flows that differ in their handles only -/

namespace Flow

/-- Whether two ports have the same key and stand on nodes at the same place. -/
def SamePort (f g : Flow) (p q : Endpoint) : Prop :=
  p.key = q.key ∧ ∃ (i : Nat) (m n : Node), f.node? p.node = some m ∧ f.nodes[i]? = some m ∧
    g.node? q.node = some n ∧ g.nodes[i]? = some n

/-- Whether two connections carry the same and join the ports at the same places. -/
structure SameConnection (f g : Flow) (c d : Connection) : Prop where
  shape : c.shape = d.shape
  source : Option.Rel (SamePort f g) c.source d.source
  target : Option.Rel (SamePort f g) c.target d.target

/-- Whether two flows have the same nodes, up to their handles, and the same connections between
the nodes at the same places. -/
structure Alike (f g : Flow) : Prop where
  /-- The nodes have the same uids, type ids, positions and values. -/
  nodes : f.nodes.map Node.saved = g.nodes.map Node.saved
  connections : List.Forall₂ (SameConnection f g) f.connections g.connections

/-- In a wired flow every end of a connection stands at a node. -/
theorem Wired.exists_node {f : Flow} (h : f.Wired) (hnumbered : f.Numbered) {c : Connection}
    (hc : c ∈ f.connections) {p : Endpoint} (hp : c.source = some p ∨ c.target = some p) :
    ∃ n, f.node? p.node = some n := by
  obtain ⟨n, hn, hhandle⟩ := (h.fits c hc).exists_node (touches_of_end hp)
  exact ⟨n, hnumbered.node?_eq_some_iff.2 ⟨hn, hhandle⟩⟩

end Flow

/-- What is saved of a node, from what it is apart from its handle. -/
def Saved.Node.ofContent (content : String × NodeType × Position × Literals) : Saved.Node :=
  ⟨content.1, content.2.1.id, content.2.2.1, content.2.2.2⟩

theorem map_saved (nodes : List Node) :
    nodes.map Node.saved = (nodes.map Node.content).map Saved.Node.ofContent := by
  rw [List.map_map]
  rfl

namespace Loader

/-! ### Nodes -/

/-- Placing saved nodes whose types can be looked up adds them all, in order. -/
theorem saved_placeNodes {l : Loader} {saved : List Saved.Node} {f : Flow}
    (hall : ∀ n ∈ saved, l.renamed n.typeId = n.typeId ∧ ∃ t, f.resolve? n.typeId = some t) :
    (l.placeNodes f saved).nodes.map Node.saved = f.nodes.map Node.saved ++ saved := by
  rw [map_saved, map_saved, content_placeNodes, List.map_append, List.map_filterMap]
  congr 1
  nth_rewrite 2 [← List.filterMap_some (l := saved)]
  refine List.filterMap_congr fun n hn => ?_
  obtain ⟨hrename, t, ht⟩ := hall n hn
  have hfound : l.resolve f n.typeId = .found t := resolve_eq_found (by rw [hrename]; exact ht)
  have hid : t.id = n.typeId := Flow.id_of_resolve? ht
  simp [hfound, Resolution.type?, Saved.Node.ofContent, hid]

/-! ### Connections -/

/-- Where uids differ, the last node with a uid is the only one. -/
theorem find?_reverse_of_nodup {nodes : List Node} (h : (nodes.map (·.uid)).Nodup) {n : Node}
    (hn : n ∈ nodes) : nodes.reverse.find? (·.uid = n.uid) = some n := by
  refine find?_eq_some_of_unique (List.mem_reverse.2 hn) (by simp) fun m hm huid => ?_
  exact List.inj_on_of_nodup_map h (List.mem_reverse.1 hm) hn (by simpa using huid)

/-- An end is loaded at the node in the place where it was. -/
theorem samePort_endpoint? {f g : Flow} (hnumbered : g.Numbered)
    (hnodes : f.nodes.map Node.saved = g.nodes.map Node.saved) (huids : f.uids.Nodup)
    {p : Endpoint} {n : Node} (hn : f.node? p.node = some n) :
    ∃ q, endpoint? g (f.savedEnd (some p)) = some q ∧ f.SamePort g p q := by
  obtain ⟨i, hi, hget⟩ := List.mem_iff_getElem.1 (List.mem_of_find?_eq_some hn)
  have hlength : f.nodes.length = g.nodes.length := by simpa using congrArg List.length hnodes
  have hi' : i < g.nodes.length := hlength ▸ hi
  -- The node in the same place has the same uid, and no other node has it.
  have hsaved : f.nodes[i].saved = g.nodes[i].saved := by
    have := congrArg (·[i]?) hnodes
    simpa [hi, hi'] using this
  have huid : g.nodes[i].uid = n.uid := by
    rw [← hget]
    exact (congrArg Saved.Node.uid hsaved).symm
  have hguids : (g.nodes.map (·.uid)).Nodup := by
    have hsame : f.uids = g.nodes.map (·.uid) := by
      have := congrArg (List.map Saved.Node.uid) hnodes
      simpa [Flow.uids, Function.comp_def, Node.saved] using this
    rw [← hsame]
    exact huids
  have hfind : g.nodes.reverse.find? (·.uid = n.uid) = some g.nodes[i] := by
    rw [← huid]
    exact find?_reverse_of_nodup hguids (List.getElem_mem hi')
  refine ⟨⟨g.nodes[i].handle, p.key⟩, ?_, rfl, i, n, g.nodes[i], hn, ?_, ?_, ?_⟩
  · simp [endpoint?, Flow.savedEnd, hn, hfind]
  · simp [hi, hget]
  · exact hnumbered.node?_eq_some_iff.2 ⟨List.getElem_mem hi', rfl⟩
  · simp [hi']

theorem samePort_end {f g : Flow} (hnumbered : g.Numbered)
    (hnodes : f.nodes.map Node.saved = g.nodes.map Node.saved) (huids : f.uids.Nodup)
    {p : Option Endpoint} (hp : ∀ q, p = some q → ∃ n, f.node? q.node = some n) :
    Option.Rel (f.SamePort g) p (endpoint? g (f.savedEnd p)) := by
  cases p with
  | none => exact .none
  | some p =>
      obtain ⟨n, hn⟩ := hp p rfl
      obtain ⟨q, hq, hsame⟩ := samePort_endpoint? hnumbered hnodes huids hn
      rw [hq]
      exact .some hsame

/-- Loading a saved flow whose types are all found gives every node, in order, and every connection,
with its ends looked up among these nodes. -/
theorem fill_saved_spec {l : Loader} {f g : Flow} (hempty : g.nodes = [])
    (hnone : g.connections = []) (hnumbered : g.Numbered)
    (hresolve : ∀ n ∈ f.nodes, l.renamed n.typeId = n.typeId ∧ ∃ t, g.resolve? n.typeId = some t) :
    (l.fill g f.saved).Numbered ∧
      (l.fill g f.saved).nodes.map Node.saved = f.nodes.map Node.saved ∧
      (l.fill g f.saved).connections
        = f.connections.map fun c => connectionIn (l.fill g f.saved) (f.savedConnection c) := by
  have hall : ∀ n ∈ f.saved.nodes,
      l.renamed n.typeId = n.typeId ∧ ∃ t, g.resolve? n.typeId = some t := by
    intro n hn
    obtain ⟨m, hm, rfl⟩ := List.mem_map.1 hn
    exact hresolve m hm
  have hnodes := saved_placeNodes hall
  rw [hempty, List.map_nil, List.nil_append] at hnodes
  have hconnections := (l.placeNodes_frame f.saved.nodes g).2.2.trans hnone
  have hplaced := l.numbered_placeNodes f.saved.nodes hnumbered
  refine ⟨hplaced.of_sublist (List.Sublist.refl _) rfl, hnodes, ?_⟩
  show (l.placeNodes g f.saved.nodes).connections
    ++ (f.connections.map f.savedConnection).map (connectionIn (l.placeNodes g f.saved.nodes)) = _
  rw [hconnections, List.nil_append, List.map_map]
  rfl

/--
Loading a saved flow into one without nodes gives the flow back up to its handles, if uids tell its
nodes apart, every end stands at a node, and every type id is found.
-/
theorem alike_fill {l : Loader} {f g : Flow} (hempty : g.nodes = []) (hnone : g.connections = [])
    (hnumbered : g.Numbered)
    (hresolve : ∀ n ∈ f.nodes, l.renamed n.typeId = n.typeId ∧ ∃ t, g.resolve? n.typeId = some t)
    (huids : f.uids.Nodup)
    (hends : ∀ c ∈ f.connections, ∀ p, c.source = some p ∨ c.target = some p →
      ∃ n, f.node? p.node = some n) :
    f.Alike (l.fill g f.saved) := by
  obtain ⟨hfilled, hnodes, hconnections⟩ := fill_saved_spec hempty hnone hnumbered hresolve
  refine ⟨hnodes.symm, ?_⟩
  rw [hconnections, List.forall₂_map_right_iff, List.forall₂_same]
  intro c hc
  exact ⟨rfl, samePort_end hfilled hnodes.symm huids fun q hq => hends c hc q (Or.inl hq),
    samePort_end hfilled hnodes.symm huids fun q hq => hends c hc q (Or.inr hq)⟩

/-! ### Options -/

/-- Adding saved options whose type ids are free and differ adds them all, as they are. -/
theorem foldl_placeOption : ∀ {options : List CommandOption} {c : Command},
    (Catalog.idsOf (c.flow.optionTypes.entries ++ options.map CommandOption.nodeType)).Nodup →
    (∀ o ∈ options, c.flow.catalog.contains o.typeId = false) →
    ∃ optionTypes,
      optionTypes.entries = c.flow.optionTypes.entries ++ options.map CommandOption.nodeType ∧
      options.foldl placeOption c =
        { c with options := c.options ++ options, flow := { c.flow with optionTypes } } := by
  intro options
  induction options with
  | nil =>
      intro c _ _
      exact ⟨c.flow.optionTypes, (List.append_nil _).symm, by simp⟩
  | cons o rest ih =>
      intro c hnodup hcatalog
      -- The type id differs from those before, and from those of the shared catalog.
      have hfresh : c.flow.optionTypes.contains o.typeId = false := by
        rw [← Bool.not_eq_true, Catalog.contains_iff]
        intro hmem
        rw [Catalog.idsOf, List.map_append, List.nodup_append] at hnodup
        exact hnodup.2.2 _ hmem _ List.mem_cons_self rfl
      have hfree : c.isTaken o.typeId = false :=
        Bool.or_eq_false_iff.2 ⟨hfresh, hcatalog o List.mem_cons_self⟩
      obtain ⟨optionTypes, hadd, hentries⟩ := Command.addOption_of_free hfree
      have hplace : placeOption c o =
          { c with options := c.options ++ [o], flow := { c.flow with optionTypes } } := by
        unfold placeOption
        rw [hadd]
      have hstep : (o :: rest).foldl placeOption c = rest.foldl placeOption (placeOption c o) := rfl
      have hsplit : optionTypes.entries ++ rest.map CommandOption.nodeType =
          c.flow.optionTypes.entries ++ (o :: rest).map CommandOption.nodeType := by
        rw [hentries, List.append_assoc]
        rfl
      rw [hstep, hplace]
      obtain ⟨types, htypes, hfold⟩ :=
        ih (c := { c with options := c.options ++ [o], flow := { c.flow with optionTypes } })
          (by rw [hsplit]; exact hnodup) fun o' ho' => hcatalog o' (List.mem_cons_of_mem o ho')
      refine ⟨types, htypes.trans hsplit, ?_⟩
      rw [hfold]
      simp

/-- The options of a command and their node types are loaded as they were. -/
theorem commandOptions_saved {l : Loader} {c : Command} (hstep : c.InStep)
    (hapart : ∀ id, c.flow.optionTypes.contains id = true → l.catalog.contains id = false) :
    l.commandOptions c.saved =
      { Command.new c.name c.description l.catalog c.uid with
        options := c.options
        flow := { Flow.new l.catalog with optionTypes := c.flow.optionTypes } } := by
  have hnodup : (Catalog.idsOf ([] ++ c.options.map CommandOption.nodeType)).Nodup := by
    rw [List.nil_append, ← hstep]
    exact c.flow.optionTypes.nodup
  have hcatalog : ∀ o ∈ c.options, l.catalog.contains o.typeId = false := by
    intro o ho
    refine hapart _ ((Catalog.contains_iff _ _).2 ?_)
    rw [Catalog.ids, hstep, Catalog.idsOf, List.map_map]
    exact List.mem_map_of_mem ho
  obtain ⟨optionTypes, hentries, hfold⟩ :=
    foldl_placeOption (c := Command.new c.name c.description l.catalog c.uid) hnodup hcatalog
  have hsame : optionTypes = c.flow.optionTypes := by
    refine Catalog.ext ?_
    rw [hentries, hstep]
    rfl
  rw [← hsame]
  exact hfold

/-! ### Commands and projects -/

/-- Whether two commands are the same up to the handles in their flows. -/
structure SameCommand (c d : Command) : Prop where
  uid : c.uid = d.uid
  name : c.name = d.name
  description : c.description = d.description
  options : c.options = d.options
  flow : c.flow.Alike d.flow

theorem sameCommand_command {c : Command} (h : c.Orderly) (huids : c.flow.uids.Nodup) :
    SameCommand c (({ catalog := c.flow.catalog } : Loader).command c.saved) := by
  have hoptions := commandOptions_saved (l := { catalog := c.flow.catalog }) h.inStep h.settled.apart
  unfold command
  rw [hoptions]
  refine ⟨rfl, rfl, rfl, rfl, ?_⟩
  refine alike_fill rfl rfl ((Flow.numbered_new c.flow.catalog).of_sublist (List.Sublist.refl _) rfl)
    ?_ huids ?_
  · intro n hn
    exact ⟨rfl, n.type, h.settled.resolved n hn⟩
  · intro d hd p hp
    exact h.wired.exists_node h.numbered hd hp

/--
**Loading a saved project gives it back.**  Start from a project over any catalog and edit it as users
do: create and delete commands, edit options, place nodes by type id under fresh uids, edit, connect
and remove nodes, publish catalogs that list no type id of an option.  What is loaded with the
project's catalog from what is saved has the same name and the same commands in order, with the same
options; their flows have the same nodes in order and the same connections between the nodes at the
same places.
-/
theorem loading_restores_saved_project (name : String) (catalog : Catalog)
    (edits : List Project.Edit)
    (h : Allowed Project.apply (fun p e => p.permits e = true) (Project.new name (some catalog))
      edits) :
    let p := edits.foldl Project.apply (Project.new name (some catalog))
    let loaded := ({ catalog := p.snapshot } : Loader).project p.saved
    loaded.name = p.name ∧ List.Forall₂ SameCommand p.commands loaded.commands := by
  intro p loaded
  have horderly : p.Orderly := Project.orderly_of_edits h
  refine ⟨rfl, ?_⟩
  show List.Forall₂ SameCommand p.commands
    ((p.commands.map Command.saved).map ({ catalog := p.snapshot } : Loader).command)
  rw [List.map_map, List.forall₂_map_right_iff, List.forall₂_same]
  intro c hc
  rw [← horderly.catalogs c hc]
  exact sameCommand_command (horderly.commands c hc) (horderly.uids c hc)

/-- A command with two options of one name, a node of the second connected to another, and a new
catalog, saved and loaded. -/
theorem loading_restores_connected_option :
    let text : Port := ⟨⟨.text, []⟩, "text"⟩
    let say : NodeType := { id := "say", title := "Say", inputs := .ofList [("text", text)] }
    let origin : Position := ⟨.zero false, .zero false⟩
    let edits : List Project.Edit := [
      .createCommand "ping" "" "c",
      .command "c" (.addOption { name := "x" }),
      .command "c" (.addOption { name := "x" }),
      .addNode (CommandOption.typeIdOf "x1") origin "a",
      .addNode "say" origin "b",
      .command "c" (.flow (.setLiteral ⟨1⟩ "text" (.string "hello"))),
      .command "c" (.flow (.connect ⟨⟨⟨0⟩, "value"⟩, ⟨⟨1⟩, "text"⟩⟩)),
      .publish (Catalog.ofNodup [{ say with title := "Speak" }] (by decide))]
    let start := Project.new "bot" (some (Catalog.ofNodup [say] (by decide)))
    let p := edits.foldl Project.apply start
    let loaded := ({ catalog := p.snapshot } : Loader).project p.saved
    Allowed Project.apply (fun p e => p.permits e = true) start edits ∧
      (p.commands.map fun c => c.flow.connections.length) = [1] ∧
      loaded.name = p.name ∧ List.Forall₂ SameCommand p.commands loaded.commands := by
  intro text say origin edits start p loaded
  have hallowed : Allowed Project.apply (fun p e => p.permits e = true) start edits := by
    decide +kernel
  have hconnected : (p.commands.map fun c => c.flow.connections.length) = [1] := by
    decide +kernel
  exact ⟨hallowed, hconnected, loading_restores_saved_project "bot" _ edits hallowed⟩

end Loader

end CommandFlow
