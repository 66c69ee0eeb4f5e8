/-
Options, their node types and their nodes in step.

The flow of a command lists the node types of its options, in the order of the options.  Edits of
options change both lists at the same place, since no two options share a name.  While the shared
catalog lists none of these types, the nodes of an option are of its own type, which has no inputs;
then no update of an option strands a connection, and no node keeps a type that is gone.
-/
import CommandFlow.Proofs.Command.FreeName
import CommandFlow.Proofs.Command.Stranding
import CommandFlow.Proofs.Flow.Settled
import CommandFlow.Proofs.UpdateFirst

namespace CommandFlow

theorem Flow.Effect.optionTypes_eq {f g : Flow} {e : Flow.Edit} (he : f.Effect e g) :
    g.optionTypes = f.optionTypes := by
  cases he <;> rfl

namespace Command

/-! ### Options and their types -/

/-- The node types of options are those of the command's options, in order. -/
def InStep (c : Command) : Prop :=
  c.flow.optionTypes.entries = c.options.map CommandOption.nodeType

theorem InStep.ids {c : Command} (h : c.InStep) :
    c.flow.optionTypes.ids = c.options.map CommandOption.typeId := by
  rw [Catalog.ids, h, Catalog.idsOf, List.map_map]
  rfl

/-- No two options share a name. -/
theorem InStep.names {c : Command} (h : c.InStep) :
    c.options.Pairwise fun o o' => o.name ≠ o'.name := by
  have hnodup : c.flow.optionTypes.ids.Nodup := c.flow.optionTypes.nodup
  rw [h.ids, List.Nodup, List.pairwise_map] at hnodup
  refine hnodup.imp ?_
  intro o o' hne heq
  refine hne ?_
  show CommandOption.typeIdOf o.name = CommandOption.typeIdOf o'.name
  rw [heq]

theorem typeId_eq_iff {o : CommandOption} {name : String} :
    o.nodeType.id = CommandOption.typeIdOf name ↔ o.name = name :=
  ⟨CommandOption.typeIdOf_injective, fun h => congrArg CommandOption.typeIdOf h⟩

theorem mem_of_option? {c : Command} {name : String} {o : CommandOption}
    (h : c.option? name = some o) : o ∈ c.options ∧ o.name = name :=
  ⟨List.mem_of_find?_eq_some h, by simpa using List.find?_some h⟩

/-- An option is found under its name. -/
theorem InStep.option?_name {c : Command} (h : c.InStep) {o : CommandOption} (ho : o ∈ c.options) :
    c.option? o.name = some o := by
  have hnodup : (c.options.map (·.name)).Nodup := List.pairwise_map.2 h.names
  refine find?_eq_some_of_unique ho (by simp) fun o' ho' hname => ?_
  exact List.inj_on_of_nodup_map hnodup ho' ho (by simpa using hname)

/-- The type of an option is found under its id. -/
theorem InStep.get?_typeId {c : Command} (h : c.InStep) {o : CommandOption} (ho : o ∈ c.options) :
    c.flow.optionTypes.get? o.typeId = some o.nodeType := by
  refine Catalog.get?_eq_some_iff.2 ⟨?_, rfl⟩
  rw [h]
  exact List.mem_map_of_mem ho

/-- The type ids of options are listed for the names of options, and for no others. -/
theorem InStep.contains_iff {c : Command} (h : c.InStep) {name : String} :
    c.flow.optionTypes.contains (CommandOption.typeIdOf name) = true ↔
      ∃ o ∈ c.options, o.name = name := by
  rw [Catalog.contains_iff, h.ids, List.mem_map]
  exact exists_congr fun o => and_congr_right fun _ => typeId_eq_iff

theorem InStep.isTaken_eq_false_iff {c : Command} (h : c.InStep) {name : String} :
    c.isTaken (CommandOption.typeIdOf name) = false ↔
      c.flow.catalog.contains (CommandOption.typeIdOf name) = false ∧
        ∀ o ∈ c.options, o.name ≠ name := by
  rw [isTaken, Bool.or_eq_false_iff, and_comm, ← Bool.not_eq_true (c.flow.optionTypes.contains _),
    h.contains_iff]
  simp

/-- At most one option has a name. -/
theorem InStep.pairwise_name {c : Command} (h : c.InStep) (name : String) :
    c.options.Pairwise fun o o' =>
      decide (o.name = name) = true → decide (o'.name = name) = false := by
  refine h.names.imp ?_
  intro o o' hne ho
  have ho : o.name = name := by simpa using ho
  simpa [← ho, eq_comm] using hne

theorem InStep.effect {c c' : Command} {e : Edit} (h : c.InStep) (he : c.Effect e c') :
    c'.InStep := by
  have htest := h.pairwise_name
  unfold InStep at h ⊢
  cases he with
  | refused => exact h
  | optionAdded _ hinsert =>
      rw [(Catalog.insert_eq_ok_iff.1 hinsert).2, h, List.map_append]
      rfl
  | @optionRemoved name _ _ optionTypes _ herase =>
      show optionTypes.entries = _
      rw [(Catalog.erase_eq_ok_iff.1 herase).2, h, eraseP_eq_filter (htest name), List.filter_map]
      congr 1
      refine List.filter_congr fun o _ => ?_
      simp [typeId_eq_iff]
  | @optionUpdated name _ o optionTypes _ _ hreplace =>
      show optionTypes.entries = _
      rw [(Catalog.replace_eq_ok_iff.1 hreplace).2.2, h, updateFirst_eq_map (htest name),
        List.map_map, List.map_map]
      refine List.map_congr_left fun o' _ => ?_
      by_cases ho : o'.name = name
      · simp [typeId_eq_iff, ho]
      · simp [typeId_eq_iff, ho]
  | flowEdited hflow =>
      rw [hflow.optionTypes_eq]
      exact h

/-! ### Ids of options and of shared types -/

/-- The id of a type that is found is in use. -/
theorem isTaken_of_resolve? {c : Command} {id : String} {t : NodeType}
    (h : c.flow.resolve? id = some t) : c.isTaken id = true := by
  rw [isTaken, Bool.or_eq_true]
  rcases Flow.resolve?_eq_some_iff.1 h with hshared | ⟨-, hoption⟩
  · exact Or.inr (Catalog.contains_iff_exists.2 ⟨t, hshared⟩)
  · exact Or.inl (Catalog.contains_iff_exists.2 ⟨t, hoption⟩)

theorem InStep.isTaken_typeId {c : Command} (h : c.InStep) {o : CommandOption}
    (ho : o ∈ c.options) : c.isTaken o.typeId = true := by
  rw [isTaken, Bool.or_eq_true]
  exact Or.inl (Catalog.contains_iff_exists.2 ⟨_, h.get?_typeId ho⟩)

/-- An option that is added has an id that was free. -/
theorem isTaken_added {c : Command} {o o' : CommandOption}
    (hname : o' = { o with name := c.freeName o.name }) : c.isTaken o'.typeId = false := by
  rw [hname]
  exact isTaken_freeName c o.name

theorem apart_optionAdded {c : Command} (h : c.flow.Apart) {o : CommandOption}
    {optionTypes : Catalog} (hfree : c.isTaken o.typeId = false)
    (hinsert : c.flow.optionTypes.insert o.nodeType = .ok optionTypes) :
    Flow.Apart { c.flow with optionTypes } := by
  intro id hid
  rw [Catalog.contains_iff, Catalog.ids, (Catalog.insert_eq_ok_iff.1 hinsert).2, Catalog.idsOf,
    List.map_append, List.mem_append] at hid
  rcases hid with hid | hid
  · exact h id ((Catalog.contains_iff _ id).2 hid)
  · rw [List.mem_singleton.1 hid]
    exact (Bool.or_eq_false_iff.1 hfree).2

theorem apart_optionRemoved {c : Command} (h : c.flow.Apart) {name : String} {type : NodeType}
    {optionTypes : Catalog}
    (herase : c.flow.optionTypes.erase (CommandOption.typeIdOf name) = .ok (type, optionTypes)) :
    Flow.Apart { c.flow with optionTypes } := by
  intro id hid
  refine h id ?_
  have hid : optionTypes.contains id = true := hid
  rw [Catalog.contains_iff, Catalog.ids, (Catalog.erase_eq_ok_iff.1 herase).2] at hid
  rw [Catalog.contains_iff]
  exact (List.filter_sublist.map _).subset hid

/-- The id of an option that takes the place of another is that of the other, or was free. -/
theorem not_shared_of_updated {c : Command} (h : c.flow.Apart) {name : String} {o : CommandOption}
    (hold : c.flow.optionTypes.contains (CommandOption.typeIdOf name) = true)
    (hfree : o.typeId = CommandOption.typeIdOf name ∨ c.isTaken o.typeId = false) :
    c.flow.catalog.contains o.typeId = false := by
  rcases hfree with hid | hfree
  · rw [hid]
    exact h _ hold
  · exact (Bool.or_eq_false_iff.1 hfree).2

theorem apart_optionUpdated {c : Command} (h : c.flow.Apart) {name : String} {o : CommandOption}
    {optionTypes : Catalog}
    (hfree : o.typeId = CommandOption.typeIdOf name ∨ c.isTaken o.typeId = false)
    (hreplace : c.flow.optionTypes.replace (CommandOption.typeIdOf name) o.nodeType
      = .ok optionTypes) :
    Flow.Apart { c.flow with optionTypes } := by
  obtain ⟨hold, -, hentries⟩ := Catalog.replace_eq_ok_iff.1 hreplace
  intro id hid
  rw [Catalog.contains_iff, Catalog.ids] at hid
  obtain ⟨t, ht, rfl⟩ := List.mem_map.1 hid
  have ht : t ∈ optionTypes.entries := ht
  rw [hentries] at ht
  obtain ⟨u, hu, rfl⟩ := List.mem_map.1 ht
  split
  · exact not_shared_of_updated h hold hfree
  · exact h _ ((Catalog.contains_iff _ _).2 (List.mem_map_of_mem hu))

/-! ### Types of nodes -/

/-- Whether an edit leaves the types of nodes to the catalogs. -/
def permits (c : Command) : Edit → Bool
  | .flow e => c.flow.permits e
  | _ => true

theorem settled_optionAdded {c : Command} (h : c.flow.Settled) {o : CommandOption}
    {optionTypes : Catalog} (hfree : c.isTaken o.typeId = false)
    (hinsert : c.flow.optionTypes.insert o.nodeType = .ok optionTypes) :
    Flow.Settled { c.flow with optionTypes } := by
  refine ⟨apart_optionAdded h.apart hfree hinsert, ?_⟩
  intro n hn
  refine Flow.resolve?_of_optionTypes (h.resolved n hn) rfl ?_
  intro hget
  obtain ⟨hmem, hid⟩ := Catalog.get?_eq_some_iff.1 hget
  refine Catalog.get?_eq_some_iff.2 ⟨?_, hid⟩
  rw [(Catalog.insert_eq_ok_iff.1 hinsert).2]
  exact List.mem_append_left _ hmem

theorem settled_optionRemoved {c : Command} (h : c.flow.Settled) {name : String} {type : NodeType}
    {optionTypes : Catalog}
    (herase : c.flow.optionTypes.erase (CommandOption.typeIdOf name) = .ok (type, optionTypes)) :
    ({ c.flow with optionTypes }.removeNodes (c.optionHandles name)).flow.Settled := by
  refine ⟨apart_optionRemoved h.apart herase, ?_⟩
  intro n hn
  obtain ⟨hn, hleft⟩ := List.mem_filter.1 hn
  -- A node that is left has another type, which is still there.
  have hne : n.typeId ≠ CommandOption.typeIdOf name := by
    intro hid
    have hmem : n.handle ∈ c.optionHandles name :=
      List.mem_map_of_mem (List.mem_filter.2 ⟨hn, by simp [hid]⟩)
    simp [hmem] at hleft
  refine Flow.resolve?_of_optionTypes (h.resolved n hn) rfl ?_
  intro hget
  obtain ⟨hmem, hid⟩ := Catalog.get?_eq_some_iff.1 hget
  refine Catalog.get?_eq_some_iff.2 ⟨?_, hid⟩
  show n.type ∈ optionTypes.entries
  rw [(Catalog.erase_eq_ok_iff.1 herase).2]
  exact List.mem_filter.2 ⟨hmem, decide_eq_true hne⟩

theorem settled_optionUpdated {c : Command} (h : c.flow.Settled) {name : String}
    {o : CommandOption} {optionTypes : Catalog}
    (hfree : o.typeId = CommandOption.typeIdOf name ∨ c.isTaken o.typeId = false)
    (hreplace : c.flow.optionTypes.replace (CommandOption.typeIdOf name) o.nodeType
      = .ok optionTypes) :
    (c.flowWithOption name o optionTypes).Settled := by
  obtain ⟨hold, -, hentries⟩ := Catalog.replace_eq_ok_iff.1 hreplace
  refine ⟨apart_optionUpdated h.apart hfree hreplace, ?_⟩
  intro n hn
  obtain ⟨m, hm, rfl⟩ := List.mem_map.1 hn
  by_cases hid : m.typeId = CommandOption.typeIdOf name
  · rw [if_pos hid]
    have hnew := not_shared_of_updated h.apart hold hfree
    refine Flow.resolve?_eq_some_iff.2 (Or.inr ⟨hnew, ?_⟩)
    obtain ⟨t, ht⟩ := Catalog.contains_iff_exists.1 hold
    obtain ⟨hmem, htid⟩ := Catalog.get?_eq_some_iff.1 ht
    refine Catalog.get?_eq_some_iff.2 ⟨?_, rfl⟩
    show o.nodeType ∈ optionTypes.entries
    rw [hentries]
    exact List.mem_map.2 ⟨t, hmem, if_pos htid⟩
  · rw [if_neg hid]
    refine Flow.resolve?_of_optionTypes (h.resolved m hm) rfl ?_
    intro hget
    obtain ⟨hmem, htid⟩ := Catalog.get?_eq_some_iff.1 hget
    refine Catalog.get?_eq_some_iff.2 ⟨?_, htid⟩
    show m.type ∈ optionTypes.entries
    rw [hentries]
    exact List.mem_map.2 ⟨m.type, hmem, if_neg hid⟩

theorem settled_effect {c c' : Command} {e : Edit} (h : c.flow.Settled)
    (hpermits : c.permits e = true) (he : c.Effect e c') : c'.flow.Settled := by
  cases he with
  | refused => exact h
  | optionAdded hname hinsert => exact settled_optionAdded h (isTaken_added hname) hinsert
  | optionRemoved _ herase => exact settled_optionRemoved h herase
  | optionUpdated _ hfree hreplace =>
      have hsettled := settled_optionUpdated h hfree hreplace
      exact hsettled.revalidate _
  | flowEdited hflow => exact h.effect hpermits hflow

/-! ### Nothing is stranded -/

/-- A node that has the id of an option is of the option's own type. -/
theorem type_of_typeId {c : Command} (hstep : c.InStep) (hsettled : c.flow.Settled)
    {o : CommandOption} (ho : o ∈ c.options) {n : Node} (hn : n ∈ c.flow.nodes)
    (hid : n.typeId = o.typeId) : n.type = o.nodeType := by
  have hown : c.flow.optionTypes.get? n.typeId = some o.nodeType := by
    rw [hid]
    exact hstep.get?_typeId ho
  have hlisted := Catalog.contains_iff_exists.2 ⟨_, hown⟩
  exact Option.some.inj ((hsettled.get?_of_contains hn hlisted).symm.trans hown)

theorem typeAt?_of_isOfType {c : Command} (hstep : c.InStep) (hsettled : c.flow.Settled)
    {o : CommandOption} (ho : o ∈ c.options) {k : Handle}
    (hk : c.flow.isOfType o.typeId k = true) : c.flow.typeAt? k = some o.nodeType := by
  obtain ⟨t, ht, hid⟩ := (Option.any_eq_true _ _).1 hk
  obtain ⟨n, hn, rfl⟩ := Option.map_eq_some_iff.1 ht
  have hid : n.typeId = o.typeId := of_decide_eq_true hid
  rw [ht, type_of_typeId hstep hsettled ho (List.mem_of_find?_eq_some hn) hid]

/-- The nodes of an option have its own type, and so no inputs. -/
theorem required?_of_standsFor {c : Command} (hstep : c.InStep) (hsettled : c.flow.Settled)
    {o : CommandOption} (ho : o ∈ c.options) {p : Endpoint}
    (hp : c.flow.isOfType o.typeId p.node = true) : c.flow.required? p = none := by
  simp [Flow.required?, typeAt?_of_isOfType hstep hsettled ho hp, CommandOption.input?_nodeType]

theorem strands_eq_false {c : Command} (hstep : c.InStep) (hsettled : c.flow.Settled)
    (hwired : c.flow.Wired) (e : Edit) : c.strands e = false := by
  by_contra hstrands
  cases e with
  | updateOption name o =>
      have hstrands : c.strands (.updateOption name o) = true := by simpa using hstrands
      obtain ⟨hok, hsome⟩ := Bool.and_eq_true_iff.1 hstrands
      cases hupdate : c.updateOption name o with
      | error _ => simp [hupdate, Except.isOk, Except.toBool] at hok
      | ok r =>
          obtain ⟨old, -, hoption, -⟩ := updateOption_eq_ok_iff.1 hupdate
          obtain ⟨hold, rfl⟩ := mem_of_option? hoption
          obtain ⟨d, hd, hstranded⟩ := List.any_eq_true.1 hsome
          obtain ⟨link, hlink, hvalid⟩ := hwired.fits d hd
          obtain ⟨-, -, required, hrequired, -⟩ := Flow.validate_eq_ok_iff.1 hvalid
          have htarget := (Bool.and_eq_true_iff.1 hstranded).1
          rw [hlink] at htarget
          have hnone := required?_of_standsFor hstep hsettled hold htarget
          exact absurd (hnone.symm.trans hrequired) (by simp)
  | addOption _ => simp [strands] at hstrands
  | removeOption _ => simp [strands] at hstrands
  | flow _ => simp [strands] at hstrands

/-! ### The invariant -/

/-- What holds of a command whose edits leave the types of nodes to the catalogs. -/
structure Orderly (c : Command) : Prop where
  /-- The types of options follow the options. -/
  inStep : c.InStep
  /-- The types of nodes are those that are looked up. -/
  settled : c.flow.Settled
  /-- The connections fit. -/
  wired : c.flow.Wired
  /-- Handles name nodes. -/
  numbered : c.flow.Numbered

theorem orderly_new (name description : String) (catalog : Catalog) (uid : String) :
    (new name description catalog uid).Orderly where
  inStep := rfl
  settled := Flow.settled_new catalog
  wired := Flow.wired_new catalog
  numbered := Flow.numbered_new catalog

theorem Orderly.apply {c : Command} (h : c.Orderly) {e : Edit} (hpermits : c.permits e = true) :
    (c.apply e).Orderly := by
  have he := effect_apply c e
  have hstrands := strands_eq_false h.inStep h.settled h.wired e
  exact ⟨h.inStep.effect he, settled_effect h.settled hpermits he,
    wired_effect h.wired h.numbered hstrands he, numbered_effect h.numbered he⟩

/-- A run of permitted edits leads to an orderly command. -/
theorem orderly_of_edits {name description uid : String} {catalog : Catalog} {edits : List Edit}
    (h : Allowed apply (fun c e => c.permits e = true) (new name description catalog uid) edits) :
    (edits.foldl apply (new name description catalog uid)).Orderly :=
  h.foldl (fun _ _ horderly hpermits => horderly.apply hpermits)
    (orderly_new name description catalog uid)

/-- What is found under an id is a shared type or the type of an option. -/
theorem InStep.listed_of_resolve? {c : Command} (h : c.InStep) {id : String} {t : NodeType}
    (ht : c.flow.resolve? id = some t) :
    t ∈ c.flow.catalog.entries ∨ ∃ o ∈ c.options, t = o.nodeType := by
  rcases Flow.resolve?_eq_some_iff.1 ht with hshared | ⟨-, hoption⟩
  · exact Or.inl (Catalog.get?_eq_some_iff.1 hshared).1
  · have hmem := (Catalog.get?_eq_some_iff.1 hoption).1
    rw [h] at hmem
    obtain ⟨o, ho, rfl⟩ := List.mem_map.1 hmem
    exact Or.inr ⟨o, ho, rfl⟩

/--
**No node keeps a type that is gone or has changed.**  Start from a new command over any catalog,
edit its options and its flow, place nodes by id, and bind it to other catalogs that are not empty
and list none of the ids that its options have at that moment.  Then the type of every node is the
one that is found under its id, and so one that the shared catalog lists or that of an option as it
is now.
-/
theorem nodes_have_current_types (name description uid : String) (catalog : Catalog)
    (edits : List Edit)
    (h : Allowed apply (fun c e => c.permits e = true) (new name description catalog uid) edits) :
    let c := edits.foldl apply (new name description catalog uid)
    ∀ n ∈ c.flow.nodes, c.flow.resolve? n.typeId = some n.type ∧
      (n.type ∈ c.flow.catalog.entries ∨ ∃ o ∈ c.options, n.type = o.nodeType) := by
  intro c n hn
  have horderly : c.Orderly := orderly_of_edits h
  have hresolved := horderly.settled.resolved n hn
  exact ⟨hresolved, horderly.inStep.listed_of_resolve? hresolved⟩

/-- An option is renamed and takes another kind, another option is removed, and a new catalog
changes one type and lists the other no more: each node that is left follows. -/
theorem nodes_follow_changed_types :
    let say : NodeType := { id := "say", title := "Say" }
    let note : NodeType := { id := "note", title := "Note" }
    let origin : Position := ⟨.zero false, .zero false⟩
    let edits : List Edit := [
      .addOption { name := "x" },
      .addOption { name := "y" },
      .flow (.addNodeById (CommandOption.typeIdOf "x") origin "a"),
      .flow (.addNodeById "say" origin "b"),
      .flow (.addNodeById "note" origin "d"),
      .flow (.addNodeById (CommandOption.typeIdOf "y") origin "e"),
      .updateOption "x" { name := "z", kind := .user },
      .removeOption "y",
      .flow (.rebind (Catalog.ofNodup [{ say with title := "Speak" }] (by decide)))]
    let start := new "ping" "" (Catalog.ofNodup [say, note] (by decide)) "c"
    let c := edits.foldl apply start
    Allowed apply (fun c e => c.permits e = true) start edits ∧
      c.flow.nodes.map (·.type.title) = ["Get option 'z'", "Speak", "Speak"] ∧
      ∀ n ∈ c.flow.nodes, c.flow.resolve? n.typeId = some n.type ∧
        (n.type ∈ c.flow.catalog.entries ∨ ∃ o ∈ c.options, n.type = o.nodeType) := by
  intro say note origin edits start c
  have hallowed : Allowed apply (fun c e => c.permits e = true) start edits := by
    decide +kernel
  have htitles : c.flow.nodes.map (·.type.title) = ["Get option 'z'", "Speak", "Speak"] := by
    decide +kernel
  exact ⟨hallowed, htitles, nodes_have_current_types "ping" "" "c" _ edits hallowed⟩

end Command

end CommandFlow
