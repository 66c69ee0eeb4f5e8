/-
Loading makes what is saved normal, once.

What is saved need not make sense, and loading mends it: clashing options take other names, nodes of
unknown types take another type or are left out, and an end that leads nowhere is left open.  What a
loaded project is saved as needs no mending.  Its options keep clear of each other and of the shared
catalog, the types of its nodes are listed, and its ends stand at nodes or are absent.  So loading it
once more gives nothing new to save.
-/
import CommandFlow.Proofs.Command.Shadowing
import CommandFlow.Proofs.Saved.Reload

namespace CommandFlow

namespace Flow

/-- A type that can be placed is found under its id, or hidden by one that is. -/
theorem exists_resolve?_of_mem_available {f : Flow} {t : NodeType} (h : t ∈ f.available) :
    ∃ u, f.resolve? t.id = some u := by
  rcases List.mem_append.1 h with hshared | hoption
  · exact ⟨t, resolve?_eq_some_iff.2 (Or.inl (Catalog.get?_eq_some_iff.2 ⟨hshared, rfl⟩))⟩
  · cases hget : f.catalog.get? t.id with
    | some u => exact ⟨u, resolve?_eq_some_iff.2 (Or.inl hget)⟩
    | none =>
        refine ⟨t, resolve?_eq_some_iff.2 (Or.inr ⟨Catalog.get?_eq_none_iff.1 hget, ?_⟩)⟩
        exact Catalog.get?_eq_some_iff.2 ⟨hoption, rfl⟩

theorem mem_available_of_resolve? {f : Flow} {id : String} {t : NodeType}
    (h : f.resolve? id = some t) : t ∈ f.available := by
  rcases resolve?_eq_some_iff.1 h with h | ⟨-, h⟩
  · exact List.mem_append_left _ (Catalog.get?_eq_some_iff.1 h).1
  · exact List.mem_append_right _ (Catalog.get?_eq_some_iff.1 h).1

end Flow

namespace Loader

/-! ### Saving what was loaded -/

/-- An end at a node is saved as it was, since some node has the same uid. -/
theorem savedEnd_endpoint? {f g : Flow} (hnumbered : g.Numbered)
    (hnodes : g.nodes.map Node.saved = f.nodes.map Node.saved) (p : Option Endpoint) :
    g.savedEnd (endpoint? g (f.savedEnd p)) = f.savedEnd p := by
  cases p with
  | none => rfl
  | some p =>
      cases hn : f.node? p.node with
      | none => simp [Flow.savedEnd, hn, endpoint?]
      | some n =>
          have huid : n.uid ∈ g.nodes.map (·.uid) := by
            have huids := congrArg (List.map Saved.Node.uid) hnodes
            simp only [List.map_map, Function.comp_def, Node.saved] at huids
            rw [huids]
            exact List.mem_map_of_mem (List.mem_of_find?_eq_some hn)
          obtain ⟨m, hm, hmuid⟩ := List.mem_map.1 huid
          have hsome : (g.nodes.reverse.find? (·.uid = n.uid)).isSome = true := by
            rw [List.find?_isSome]
            exact ⟨m, List.mem_reverse.2 hm, by simpa using hmuid⟩
          obtain ⟨last, hlast⟩ := Option.isSome_iff_exists.1 hsome
          have hlastuid : last.uid = n.uid := by simpa using List.find?_some hlast
          have hmem : last ∈ g.nodes := List.mem_reverse.1 (List.mem_of_find?_eq_some hlast)
          have hnode : g.node? last.handle = some last :=
            hnumbered.node?_eq_some_iff.2 ⟨hmem, rfl⟩
          simp [Flow.savedEnd, hn, endpoint?, hlast, hnode, hlastuid]

/-- A saved flow whose types are all found is saved again as it was, whatever its uids and ends. -/
theorem saved_fill {l : Loader} {f g : Flow} (hempty : g.nodes = []) (hnone : g.connections = [])
    (hnumbered : g.Numbered)
    (hresolve : ∀ n ∈ f.nodes, l.renamed n.typeId = n.typeId ∧ ∃ t, g.resolve? n.typeId = some t) :
    (l.fill g f.saved).saved = f.saved := by
  obtain ⟨hfilled, hnodes, hconnections⟩ := fill_saved_spec hempty hnone hnumbered hresolve
  have hends := savedEnd_endpoint? hfilled hnodes
  unfold Flow.saved at *
  rw [hnodes, hconnections, List.map_map]
  congr 1
  refine List.map_congr_left fun c _ => ?_
  simp only [Function.comp, Flow.savedConnection, connectionIn, hends]

/-- A command is saved again as it was if its options have ids of their own and the types of its
nodes are all found. -/
theorem saved_command {l : Loader} {c : Command} (hstep : c.InStep)
    (hcatalog : c.flow.catalog = l.catalog) (hapart : c.flow.Apart)
    (hnodes : ∀ n ∈ c.flow.nodes, l.renamed n.typeId = n.typeId ∧ n.type ∈ c.flow.available) :
    (l.command c.saved).saved = c.saved := by
  rw [Flow.Apart, hcatalog] at hapart
  unfold command
  rw [commandOptions_saved hstep hapart]
  unfold Command.saved
  congr 1
  refine saved_fill rfl rfl ((Flow.numbered_new l.catalog).of_sublist (List.Sublist.refl _) rfl) ?_
  intro n hn
  obtain ⟨hrename, hmem⟩ := hnodes n hn
  refine ⟨hrename, ?_⟩
  obtain ⟨t, ht⟩ := Flow.exists_resolve?_of_mem_available hmem
  rw [← Flow.resolve?_congr (f := c.flow)
    (g := { Flow.new l.catalog with optionTypes := c.flow.optionTypes }) hcatalog.symm rfl] at ht
  exact ⟨t, ht⟩

/-! ### What loading gives -/

/-- A saved node takes a type that can be placed. -/
theorem mem_available_of_resolve {l : Loader} {f : Flow} {id : String} {t : NodeType}
    (h : (l.resolve f id).type? = some t) : t ∈ f.available := by
  unfold resolve at h
  dsimp only at h
  split at h
  · rename_i type hresolve
    obtain rfl := Option.some.inj h
    exact Flow.mem_available_of_resolve? hresolve
  · rename_i type hfallback
    obtain rfl := Option.some.inj h
    exact List.mem_of_head? hfallback
  · exact absurd h (by simp [Resolution.type?])

/-- Before its flow is filled a command has no nodes, is bound to the loader's catalog, and keeps
the ids of its options clear of it. -/
theorem commandOptions_flow (l : Loader) (saved : Saved.Command) :
    (l.commandOptions saved).flow.catalog = l.catalog ∧
      (l.commandOptions saved).flow.nodes = [] ∧ (l.commandOptions saved).flow.Apart := by
  refine l.commandOptions_induction saved
    (motive := fun c => c.flow.catalog = l.catalog ∧ c.flow.nodes = [] ∧ c.flow.Apart)
    ⟨rfl, rfl, Flow.apart_new l.catalog⟩ ?_
  rintro c o ⟨hcatalog, hnodes, hapart⟩
  have heffect := Command.effect_apply c (.addOption o)
  have hkept := Command.apart_effect hapart rfl heffect
  generalize c.apply (.addOption o) = c' at heffect hkept ⊢
  cases heffect with
  | refused => exact ⟨hcatalog, hnodes, hkept⟩
  | optionAdded _ _ => exact ⟨hcatalog, hnodes, hkept⟩

/-- A loaded command is bound to the loader's catalog, its options have ids of their own, and the
types of its nodes are listed. -/
theorem command_flow (l : Loader) (saved : Saved.Command) :
    (l.command saved).flow.catalog = l.catalog ∧ (l.command saved).flow.Apart ∧
      ∀ n ∈ (l.command saved).flow.nodes, n.type ∈ (l.command saved).flow.available := by
  obtain ⟨hcatalog, hnodes, hapart⟩ := l.commandOptions_flow saved
  obtain ⟨hframe, hoptions, -⟩ := l.placeNodes_frame saved.flow.nodes (l.commandOptions saved).flow
  refine ⟨hframe.trans hcatalog, ?_, ?_⟩
  · intro id hid
    have hown : (l.commandOptions saved).flow.optionTypes.contains id = true := hoptions ▸ hid
    exact hframe ▸ hapart id hown
  · intro m hm
    obtain ⟨n, -, t, ht, hcontent⟩ := exists_saved_of_mem_placeNodes hnodes hm
    have havailable : (l.command saved).flow.available = (l.commandOptions saved).flow.available :=
      congrArg₂ (fun shared own : Catalog => shared.entries ++ own.entries) hframe hoptions
    have htype : m.type = t := congrArg (·.2.1) hcontent
    rw [havailable, htype]
    exact mem_available_of_resolve ht

/-! ### Loading again -/

/-- An id that has no new name stands for itself. -/
theorem renamed_of_forall {l : Loader} {id : String} (h : ∀ entry ∈ l.aliases, entry.1 ≠ id) :
    l.renamed id = id := by
  have hnone : l.aliases.lookup id = none := by
    rw [List.lookup_eq_none_iff]
    intro entry hentry
    simpa using (h entry hentry).symm
  simp [renamed, hnone]

/-- A listed id keeps its name if no new name is given to one. -/
theorem renamed_of_mem_available {l : Loader} {f : Flow} (hcatalog : f.catalog = l.catalog)
    (haliases : ∀ entry ∈ l.aliases,
      l.catalog.contains entry.1 = false ∧ f.optionTypes.contains entry.1 = false)
    {t : NodeType} (ht : t ∈ f.available) : l.renamed t.id = t.id := by
  refine renamed_of_forall ?_
  rintro entry hentry heq
  obtain ⟨hshared, hoption⟩ := haliases entry hentry
  rw [heq] at hshared hoption
  rcases List.mem_append.1 ht with hmem | hmem
  · rw [hcatalog] at hmem
    exact absurd ((Catalog.contains_iff _ _).2 (List.mem_map_of_mem hmem)) (by simp [hshared])
  · exact absurd ((Catalog.contains_iff _ _).2 (List.mem_map_of_mem hmem)) (by simp [hoption])

/--
**What is loaded is saved in a form that loading leaves alone.**  Whatever is saved, over whatever
catalog, and whatever becomes of unknown types: saving the loaded project, loading that and saving
again gives the same, if new names are given only to type ids that neither the catalog nor an option
of the loaded project has.
-/
theorem loading_again_saves_the_same (l : Loader) (saved : Saved.Project)
    (haliases : ∀ entry ∈ l.aliases, l.catalog.contains entry.1 = false ∧
      ∀ c ∈ (l.project saved).commands, c.flow.optionTypes.contains entry.1 = false) :
    (l.project (l.project saved).saved).saved = (l.project saved).saved := by
  have hcommands : ∀ c ∈ (l.project saved).commands, (l.command c.saved).saved = c.saved := by
    intro c hc
    obtain ⟨d, hd, rfl⟩ := List.mem_map.1 hc
    obtain ⟨hcatalog, hapart, htypes⟩ := l.command_flow d
    refine saved_command (l.inStep_command d) hcatalog hapart ?_
    intro n hn
    refine ⟨renamed_of_mem_available hcatalog ?_ (htypes n hn), htypes n hn⟩
    intro entry hentry
    exact ⟨(haliases entry hentry).1, (haliases entry hentry).2 _ hc⟩
  show Saved.Project.mk saved.name
    ((((l.project saved).commands.map Command.saved).map l.command).map Command.saved) = _
  rw [List.map_map, List.map_map]
  exact congrArg (Saved.Project.mk saved.name) (List.map_congr_left hcommands)

/-- Two options of one name, an old type id, an unknown one under the same uid, a node of the second
option, and ends that are given in part or lead nowhere: all is mended once. -/
theorem loading_again_saves_the_mended :
    let say : NodeType := { id := "say", title := "Say" }
    let l : Loader :=
      { catalog := Catalog.ofNodup [say] (by decide), aliases := [("tell", "say")] }
    let origin : Position := ⟨.zero false, .zero false⟩
    let node (uid typeId : String) : Saved.Node := ⟨uid, typeId, origin, ∅⟩
    let text : PortShape := ⟨.text, []⟩
    let saved : Saved.Project := ⟨"bot", [⟨"c", "ping", "", [{ name := "x" }, { name := "x" }],
      { nodes := [node "a" "tell", node "a" "gone", node "b" (CommandOption.typeIdOf "x1")],
        connections := [⟨text, ⟨some "b", some "value"⟩, ⟨some "a", none⟩⟩,
          ⟨text, ⟨some "z", some "value"⟩, ⟨some "a", some "text"⟩⟩] }⟩]⟩
    let p := l.project saved
    (∀ entry ∈ l.aliases, l.catalog.contains entry.1 = false ∧
        ∀ c ∈ p.commands, c.flow.optionTypes.contains entry.1 = false) ∧
      (p.saved.commands.map fun c => c.options.map (·.name)) = [["x", "x1"]] ∧
      (p.saved.commands.map fun c => c.flow.nodes.map (·.typeId)) =
        [["say", "say", CommandOption.typeIdOf "x1"]] ∧
      (p.saved.commands.map fun c => c.flow.connections) =
        [[⟨text, ⟨some "b", some "value"⟩, ⟨none, none⟩⟩,
          ⟨text, ⟨none, none⟩, ⟨some "a", some "text"⟩⟩]] ∧
      (l.project p.saved).saved = p.saved := by
  intro say l origin node text saved p
  have haliases : ∀ entry ∈ l.aliases, l.catalog.contains entry.1 = false ∧
      ∀ c ∈ p.commands, c.flow.optionTypes.contains entry.1 = false := by
    decide +kernel
  refine ⟨haliases, by decide +kernel, by decide +kernel, by decide +kernel, ?_⟩
  exact loading_again_saves_the_same l saved haliases

end Loader

end CommandFlow
