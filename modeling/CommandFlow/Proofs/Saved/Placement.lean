/-
Placing saved nodes.

Loading goes through the saved nodes in order.  A node whose type id stands for a type, or for which
another type stands in, is placed behind the others, and any other is left out.  The catalogs stay as
they are, so what becomes of a node does not depend on the nodes before it: `content_placeNodes` says
at once which nodes are placed.
-/
import CommandFlow.Proofs.Flow.Numbered
import CommandFlow.Saved.Loader

namespace CommandFlow

/-- What a node is, apart from its handle. -/
def Node.content (n : Node) : String × NodeType × Position × Literals :=
  (n.uid, n.type, n.position, n.literals)

namespace Loader

/-- A type id that can be looked up is. -/
theorem resolve_eq_found {l : Loader} {f : Flow} {typeId : String} {t : NodeType}
    (h : f.resolve? (l.renamed typeId) = some t) : l.resolve f typeId = .found t := by
  unfold resolve
  simp only [h]

/-- Placing nodes leaves the two catalogs and the connections alone. -/
theorem placeNodes_frame (l : Loader) (nodes : List Saved.Node) (f : Flow) :
    (l.placeNodes f nodes).catalog = f.catalog ∧
      (l.placeNodes f nodes).optionTypes = f.optionTypes ∧
      (l.placeNodes f nodes).connections = f.connections := by
  induction nodes generalizing f with
  | nil => exact ⟨rfl, rfl, rfl⟩
  | cons n rest ih =>
      obtain ⟨hcatalog, hoptions, hconnections⟩ := ih (l.placeNode f n)
      have hstep : (l.placeNode f n).catalog = f.catalog ∧
          (l.placeNode f n).optionTypes = f.optionTypes ∧
          (l.placeNode f n).connections = f.connections := by
        unfold placeNode
        split
        · exact ⟨rfl, rfl, rfl⟩
        · exact ⟨rfl, rfl, rfl⟩
      exact ⟨hcatalog.trans hstep.1, hoptions.trans hstep.2.1, hconnections.trans hstep.2.2⟩

/-- The connections of a loaded flow are those that were saved, between the nodes that are there. -/
theorem connections_flow (l : Loader) (saved : Saved.Flow) (optionTypes : Catalog) :
    (l.flow saved optionTypes).connections =
      saved.connections.map (connectionIn (l.flow saved optionTypes)) := by
  have hframe := (l.placeNodes_frame saved.nodes { Flow.new l.catalog with optionTypes }).2.2
  unfold flow fill
  dsimp only
  rw [hframe]
  rfl

/-- Whatever was saved, handles name the nodes that are placed. -/
theorem numbered_placeNodes (l : Loader) (saved : List Saved.Node) {f : Flow} (h : f.Numbered) :
    (l.placeNodes f saved).Numbered := by
  refine List.foldlRecOn saved l.placeNode h ?_
  intro g hg n _
  unfold placeNode
  split
  · exact hg
  · exact hg.insertNode _ _ _ _

theorem numbered_flow (l : Loader) (saved : Saved.Flow) (optionTypes : Catalog) :
    (l.flow saved optionTypes).Numbered := by
  have hempty : Flow.Numbered { Flow.new l.catalog with optionTypes } :=
    (Flow.numbered_new l.catalog).of_sublist (List.Sublist.refl _) rfl
  exact (l.numbered_placeNodes saved.nodes hempty).of_sublist (List.Sublist.refl _) rfl

/-- The nodes that are placed are the saved ones that take a type, in order. -/
theorem content_placeNodes (l : Loader) (saved : List Saved.Node) (f : Flow) :
    (l.placeNodes f saved).nodes.map Node.content = f.nodes.map Node.content ++
      saved.filterMap fun n => (l.resolve f n.typeId).type?.map fun t =>
        (n.uid, t, n.position, n.literals) := by
  induction saved generalizing f with
  | nil => exact (List.append_nil _).symm
  | cons n rest ih =>
      show (l.placeNodes (l.placeNode f n) rest).nodes.map Node.content = _
      cases htype : (l.resolve f n.typeId).type? with
      | none =>
          have hplace : l.placeNode f n = f := by
            unfold placeNode
            rw [htype]
          rw [hplace, ih, List.filterMap_cons_none (by rw [htype]; rfl)]
      | some t =>
          have hplace : l.placeNode f n = (f.insertNode n.uid t n.position n.literals).2 := by
            unfold placeNode
            rw [htype]
          have hnodes : (l.placeNode f n).nodes.map Node.content =
              f.nodes.map Node.content ++ [(n.uid, t, n.position, n.literals)] := by
            rw [hplace, Flow.insertNode, List.map_append]
            rfl
          -- The catalogs stay the same, so the other nodes take the same types.
          have hresolve : ∀ id, l.resolve (l.placeNode f n) id = l.resolve f id := by
            intro id
            rw [hplace]
            rfl
          rw [ih, hnodes, List.filterMap_cons_some (by rw [htype]; rfl), List.append_assoc]
          simp only [hresolve, List.singleton_append]

/-- What becomes of a type id is told by the catalogs. -/
theorem resolve_congr {l : Loader} {f g : Flow} (hcatalog : g.catalog = f.catalog)
    (hoptions : g.optionTypes = f.optionTypes) (typeId : String) :
    l.resolve g typeId = l.resolve f typeId := by
  simp only [resolve, Flow.resolve?, Flow.fallback?, Flow.available, hcatalog, hoptions]

/-- The nodes of a loaded flow are the saved ones that take a type in it, in order. -/
theorem content_flow (l : Loader) (saved : Saved.Flow) (optionTypes : Catalog) :
    (l.flow saved optionTypes).nodes.map Node.content = saved.nodes.filterMap fun n =>
      (l.resolve (l.flow saved optionTypes) n.typeId).type?.map fun t =>
        (n.uid, t, n.position, n.literals) := by
  obtain ⟨hcatalog, hoptions, -⟩ :=
    l.placeNodes_frame saved.nodes { Flow.new l.catalog with optionTypes }
  have hresolve : ∀ id, l.resolve (l.flow saved optionTypes) id =
      l.resolve { Flow.new l.catalog with optionTypes } id := resolve_congr hcatalog hoptions
  simp only [hresolve]
  exact l.content_placeNodes saved.nodes { Flow.new l.catalog with optionTypes }

/-- Where there were none, every node that is placed was saved. -/
theorem exists_saved_of_mem_placeNodes {l : Loader} {saved : List Saved.Node} {f : Flow}
    (hempty : f.nodes = []) {m : Node} (hm : m ∈ (l.placeNodes f saved).nodes) :
    ∃ n ∈ saved, ∃ t, (l.resolve f n.typeId).type? = some t ∧
      m.content = (n.uid, t, n.position, n.literals) := by
  have hcontent : m.content ∈ (l.placeNodes f saved).nodes.map Node.content :=
    List.mem_map_of_mem hm
  rw [content_placeNodes, hempty] at hcontent
  obtain ⟨n, hn, hplaced⟩ := List.mem_filterMap.1 hcontent
  obtain ⟨t, ht, heq⟩ := Option.map_eq_some_iff.1 hplaced
  exact ⟨n, hn, t, ht, heq.symm⟩

end Loader

end CommandFlow
