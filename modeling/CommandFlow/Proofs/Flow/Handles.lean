/-
A handle is never handed out twice.

A flow is new or loaded, and is then changed by edits of the command that holds it: edits of the
flow itself, and edits of options, which remove nodes or give them other types.  A flow can also
pass from one command to another, so an operation names its holder.

Whatever the operation, it does one of two things to handles (`Renumbered`): it keeps some of them
in order, or it adds the next one behind all others.  So the counter only grows, and a handle below
it that is not in use stays out of use for good.  Connections end at nodes that are there, since
nodes take their connections with them.
-/
import CommandFlow.Proofs.Saved.Faultless

namespace CommandFlow

namespace Flow

/-! ### Operations on a flow -/

/-- What operations on a flow start from. -/
inductive Start where
  | new (catalog : Catalog)
  | loaded (loader : Loader) (saved : Saved.Flow) (optionTypes : Catalog)
  /-- The flow of a command that was loaded. -/
  | ofCommand (loader : Loader) (saved : Saved.Command)

/-- The flow before any operation. -/
def Start.flow : Start → Flow
  | .new catalog => Flow.new catalog
  | .loaded loader saved optionTypes => loader.flow saved optionTypes
  | .ofCommand loader saved => (loader.command saved).flow

/-- An operation on a flow: an edit of the command that holds it. -/
structure Operation where
  /-- The command, whatever its own flow. -/
  holder : Command
  edit : Command.Edit

/-- The flow after an operation. -/
def operate (f : Flow) (op : Operation) : Flow :=
  ({ op.holder with flow := f }.apply op.edit).flow

/-- Whether an edit places a node. -/
def places (f : Flow) : Command.Edit → Bool
  | .flow (.addNode _ _ _) => true
  | .flow (.addNodeById typeId _ _) => (f.resolve? typeId).isSome
  | _ => false

/-- How many nodes are placed by operations, one after another. -/
def placements : Flow → List Operation → Nat
  | _, [] => 0
  | f, op :: rest => (if f.places op.edit then 1 else 0) + placements (f.operate op) rest

/-- The operations that a run of edits of a command amounts to. -/
def operationsOf : Command → List Command.Edit → List Operation
  | _, [] => []
  | c, e :: rest => ⟨c, e⟩ :: operationsOf (c.apply e) rest

theorem foldl_operationsOf : ∀ (edits : List Command.Edit) (c : Command),
    (operationsOf c edits).foldl operate c.flow = (edits.foldl Command.apply c).flow := by
  intro edits
  induction edits with
  | nil => intro c; rfl
  | cons e rest ih => intro c; exact ih (c.apply e)

/-! ### What becomes of handles -/

/-- What an edit can do to handles: keep some of them, or add the next one. -/
inductive Renumbered (f : Flow) (e : Command.Edit) (g : Flow) : Prop
  | kept (hhandles : g.handles.Sublist f.handles) (hnext : g.nextHandle = f.nextHandle)
  | added (hplaces : f.places e = true) (hhandles : g.handles = f.handles ++ [⟨f.nextHandle⟩])
      (hnext : g.nextHandle = f.nextHandle + 1)

theorem Renumbered.of_handles_eq {f g : Flow} {e : Command.Edit} (hhandles : g.handles = f.handles)
    (hnext : g.nextHandle = f.nextHandle) : f.Renumbered e g :=
  .kept (hhandles ▸ List.Sublist.refl _) hnext

theorem handles_updateNode {f : Flow} {k : Handle} {change : Node → Node}
    (hhandle : ∀ n, (change n).handle = n.handle) : (f.updateNode k change).handles = f.handles :=
  map_updateFirst hhandle

theorem Effect.renumbered {f g : Flow} {e : Edit} (he : f.Effect e g) :
    f.Renumbered (.flow e) g := by
  cases he with
  | refused => exact .of_handles_eq rfl rfl
  | added type position uid => exact .added rfl List.map_append rfl
  | addedById position uid hresolve =>
      exact .added (by simp [places, hresolve]) List.map_append rfl
  | moved _ _ => exact .of_handles_eq (handles_updateNode fun _ => rfl) rfl
  | literalSet _ _ _ => exact .of_handles_eq (handles_updateNode fun _ => rfl) rfl
  | literalCleared _ _ => exact .of_handles_eq (handles_updateNode fun _ => rfl) rfl
  | cut _ => exact .of_handles_eq rfl rfl
  | removed _ => exact .kept (List.filter_sublist.map _) rfl
  | disconnected _ => exact .of_handles_eq rfl rfl
  | connected _ _ => exact .of_handles_eq rfl rfl
  | revalidated _ => exact .of_handles_eq rfl rfl
  | rebound catalog => exact .of_handles_eq (handles_rebind f catalog) rfl

theorem renumbered_operate (f : Flow) (op : Operation) :
    f.Renumbered op.edit (f.operate op) := by
  have heffect := Command.effect_apply { op.holder with flow := f } op.edit
  unfold operate
  generalize Command.apply { op.holder with flow := f } op.edit = c' at heffect ⊢
  obtain ⟨holder, edit⟩ := op
  cases heffect with
  | refused => exact .of_handles_eq rfl rfl
  | optionAdded _ _ => exact .of_handles_eq rfl rfl
  | optionRemoved _ _ => exact .kept (List.filter_sublist.map _) rfl
  | optionUpdated _ _ _ => exact .of_handles_eq (handles_retarget _ _ _) rfl
  | flowEdited hflow => exact hflow.renumbered

/-! ### What one step keeps -/

/-- Whether a handle was handed out and its node is gone. -/
def Retired (f : Flow) (h : Handle) : Prop :=
  h.number < f.nextHandle ∧ h ∉ f.handles

theorem Renumbered.retired {f g : Flow} {e : Command.Edit} (h : f.Renumbered e g) {k : Handle}
    (hk : f.Retired k) : g.Retired k := by
  obtain ⟨hlt, hgone⟩ := hk
  cases h with
  | kept hhandles hnext =>
      exact ⟨hnext ▸ hlt, fun hmem => hgone (hhandles.subset hmem)⟩
  | added _ hhandles hnext =>
      refine ⟨by omega, ?_⟩
      rw [hhandles, List.mem_append, List.mem_singleton]
      rintro (hmem | rfl)
      · exact hgone hmem
      · -- The handle that is added was not handed out before.
        exact Nat.lt_irrefl _ hlt

theorem Renumbered.nextHandle_le {f g : Flow} {e : Command.Edit} (h : f.Renumbered e g) :
    f.nextHandle ≤ g.nextHandle ∧
      g.nextHandle ≤ f.nextHandle + (if f.places e then 1 else 0) := by
  cases h with
  | kept _ hnext => omega
  | added hplaces _ hnext => rw [if_pos hplaces]; omega

/-! ### Ends of connections -/

/-- Connections stay anchored when they get no other ends and the nodes at these stay. -/
theorem Anchored.of_ends {f g : Flow} (h : f.Anchored)
    (hends : ∀ d ∈ g.connections, ∃ c ∈ f.connections, ∀ k, d.touches k = true →
      c.touches k = true ∧ (k ∈ f.handles → k ∈ g.handles)) : g.Anchored := by
  intro d hd k hk
  obtain ⟨c, hc, hsame⟩ := hends d hd
  obtain ⟨hck, hstays⟩ := hsame k hk
  exact hstays (h c hc k hck)

/-- Taking connections away keeps the others anchored, if no handle goes. -/
theorem Anchored.of_subset {f g : Flow} (h : f.Anchored)
    (hconnections : g.connections ⊆ f.connections) (hhandles : g.handles = f.handles) :
    g.Anchored :=
  h.of_ends fun d hd => ⟨d, hconnections hd, fun _ hk => ⟨hk, fun hmem => hhandles ▸ hmem⟩⟩

theorem Anchored.insertNode {f : Flow} (h : f.Anchored) (uid : String) (type : NodeType)
    (position : Position) (literals : Literals) :
    (f.insertNode uid type position literals).2.Anchored := by
  have happend : (f.insertNode uid type position literals).2.handles =
      f.handles ++ [⟨f.nextHandle⟩] := List.map_append
  refine h.of_ends fun d hd => ⟨d, hd, fun k hk => ⟨hk, fun hmem => ?_⟩⟩
  rw [happend]
  exact List.mem_append_left _ hmem

theorem touches_congr {c d : Connection} (hsource : d.source = c.source)
    (htarget : d.target = c.target) (k : Handle) : d.touches k = c.touches k := by
  simp only [Connection.touches, Connection.leaves, Connection.enters, hsource, htarget]

theorem Anchored.revalidate {f : Flow} (h : f.Anchored) (selected : Connection → Bool) :
    (f.revalidate selected).2.Anchored := by
  refine h.of_ends ?_
  intro d hd
  obtain ⟨v, hv, hvd⟩ := Verdict.exists_of_mem_kept hd
  obtain ⟨c, hc, rfl⟩ := List.mem_map.1 hv
  obtain ⟨hsource, htarget⟩ := ends_of_verdict hvd
  refine ⟨c, hc, fun k hk => ⟨?_, fun hmem => hmem⟩⟩
  rw [← touches_congr hsource htarget]
  exact hk

theorem Anchored.rebind {f : Flow} (h : f.Anchored) (catalog : Catalog) :
    (f.rebind catalog).2.Anchored := by
  have hrebound : (f.rebindNodes catalog).Anchored :=
    h.of_subset (List.Subset.refl _) (handles_rebind f catalog)
  exact hrebound.revalidate _

/-- Nodes take the connections at them along. -/
theorem Anchored.removeNodes {f : Flow} (h : f.Anchored) (handles : List Handle) :
    (f.removeNodes handles).flow.Anchored := by
  refine h.of_ends ?_
  intro d hd
  obtain ⟨hd, huncut⟩ := List.mem_filter.1 hd
  refine ⟨d, hd, fun k hk => ⟨hk, fun hmem => ?_⟩⟩
  obtain ⟨n, hn, rfl⟩ := List.mem_map.1 hmem
  refine List.mem_map_of_mem (List.mem_filter.2 ⟨hn, ?_⟩)
  have hnot : n.handle ∉ handles := by
    intro hcut
    have huncut : ¬ handles.any d.touches = true := by simpa using huncut
    exact huncut (List.any_eq_true.2 ⟨n.handle, hcut, hk⟩)
  simpa using hnot

theorem mem_handles_of_typeAt? {f : Flow} {k : Handle} {t : NodeType} (h : f.typeAt? k = some t) :
    k ∈ f.handles := by
  obtain ⟨n, hn, -⟩ := Option.map_eq_some_iff.1 h
  rw [← handle_of_node? hn]
  exact List.mem_map_of_mem (List.mem_of_find?_eq_some hn)

theorem Anchored.connect {f : Flow} (h : f.Anchored) {link : Link} {shape : PortShape}
    (hvalid : f.validate link = .ok shape) :
    Anchored { f with connections := f.connections.filter (!standsInWay link shape ·)
      ++ [.ofLink link shape] } := by
  intro c hc k hk
  rcases List.mem_append.1 hc with hc | hc
  · exact h c (List.mem_of_mem_filter hc) k hk
  · rw [List.mem_singleton.1 hc, touches_ofLink] at hk
    obtain ⟨s, t, hs, ht⟩ := exists_typeAt?_of_validate hvalid
    rcases hk with rfl | rfl
    · exact mem_handles_of_typeAt? hs
    · exact mem_handles_of_typeAt? ht

theorem Anchored.effect {f g : Flow} {e : Edit} (h : f.Anchored) (he : f.Effect e g) :
    g.Anchored := by
  cases he with
  | refused => exact h
  | added type position uid => exact h.insertNode _ _ _ _
  | addedById position uid _ => exact h.insertNode _ _ _ _
  | moved _ _ => exact h.of_subset (List.Subset.refl _) (handles_updateNode fun _ => rfl)
  | literalSet _ _ _ => exact h.of_subset (List.Subset.refl _) (handles_updateNode fun _ => rfl)
  | literalCleared _ _ => exact h.of_subset (List.Subset.refl _) (handles_updateNode fun _ => rfl)
  | cut _ => exact h.of_subset (List.filter_subset_self _) rfl
  | removed nodes => exact h.removeNodes nodes
  | disconnected _ => exact h.of_subset List.eraseP_subset rfl
  | connected _ hvalid => exact h.connect hvalid
  | revalidated selected => exact h.revalidate selected
  | rebound catalog => exact h.rebind catalog

theorem anchored_operate {f : Flow} (h : f.Anchored) (op : Operation) :
    (f.operate op).Anchored := by
  have heffect := Command.effect_apply { op.holder with flow := f } op.edit
  unfold operate
  generalize Command.apply { op.holder with flow := f } op.edit = c' at heffect ⊢
  obtain ⟨holder, edit⟩ := op
  cases heffect with
  | refused => exact h
  | optionAdded _ _ => exact h.of_subset (List.Subset.refl _) rfl
  | @optionRemoved name _ _ optionTypes _ _ =>
      have hkept : Anchored { f with optionTypes } := h.of_subset (List.Subset.refl _) rfl
      exact hkept.removeNodes _
  | @optionUpdated name _ o optionTypes _ _ _ =>
      have hkept : Anchored
          ({ f with optionTypes }.retarget (CommandOption.typeIdOf name) o.nodeType) :=
        h.of_subset (List.Subset.refl _) (handles_retarget _ _ _)
      exact hkept.revalidate _
  | flowEdited hflow => exact h.effect hflow

end Flow

namespace Loader

/-! ### Loaded flows -/

theorem placeNodes_numbers (l : Loader) (saved : List Saved.Node) {f : Flow}
    (h : f.nextHandle = f.nodes.length) :
    (l.placeNodes f saved).nextHandle = (l.placeNodes f saved).nodes.length := by
  refine List.foldlRecOn saved l.placeNode
    (motive := fun g : Flow => g.nextHandle = g.nodes.length) h ?_
  intro g hg n _
  unfold placeNode
  split
  · exact hg
  · show g.nextHandle + 1 = (g.nodes ++ [_]).length
    rw [List.length_append, hg]
    rfl

theorem mem_handles_of_endpoint? {f : Flow} {e : Saved.End} {p : Endpoint}
    (h : endpoint? f e = some p) : p.node ∈ f.handles := by
  unfold endpoint? at h
  simp only [Option.bind_eq_bind, Option.bind_eq_some_iff, Option.pure_def, Option.some.injEq] at h
  obtain ⟨uid, -, key, -, n, hn, rfl⟩ := h
  exact List.mem_map_of_mem (List.mem_reverse.1 (List.mem_of_find?_eq_some hn))

/-- A loaded flow has numbered its nodes from zero on, and its connections end at them. -/
theorem flow_spec (l : Loader) (saved : Saved.Flow) (optionTypes : Catalog) :
    (l.flow saved optionTypes).Numbered ∧ (l.flow saved optionTypes).Anchored ∧
      (l.flow saved optionTypes).nextHandle = (l.flow saved optionTypes).nodes.length := by
  have hnumbers :=
    l.placeNodes_numbers saved.nodes (f := { Flow.new l.catalog with optionTypes }) rfl
  refine ⟨l.numbered_flow saved optionTypes, ?_, hnumbers⟩
  refine Flow.anchored_iff.2 fun c hc => ?_
  rw [connections_flow] at hc
  obtain ⟨d, -, rfl⟩ := List.mem_map.1 hc
  exact ⟨fun p hp => mem_handles_of_endpoint? hp, fun p hp => mem_handles_of_endpoint? hp⟩

end Loader

namespace Flow

/-! ### Runs -/

/-- The nodes of a start are numbered from zero on, and its connections end at them. -/
theorem Start.spec (start : Start) : start.flow.Numbered ∧ start.flow.Anchored ∧
    start.flow.nextHandle = start.flow.nodes.length := by
  cases start with
  | new catalog => exact ⟨numbered_new catalog, fun _ hc => absurd hc List.not_mem_nil, rfl⟩
  | loaded loader saved optionTypes => exact loader.flow_spec saved optionTypes
  | ofCommand loader saved =>
      rw [Start.flow, Loader.flow_command]
      exact loader.flow_spec saved.flow _

theorem Numbered.run {f : Flow} (h : f.Numbered) (ops : List Operation) :
    (ops.foldl operate f).Numbered :=
  List.foldlRecOn ops operate h fun g hg op _ =>
    Command.numbered_effect hg (Command.effect_apply { op.holder with flow := g } op.edit)

theorem Anchored.run {f : Flow} (h : f.Anchored) (ops : List Operation) :
    (ops.foldl operate f).Anchored :=
  List.foldlRecOn ops operate h fun _ hg op _ => anchored_operate hg op

theorem Retired.run {f : Flow} {k : Handle} (h : f.Retired k) (ops : List Operation) :
    (ops.foldl operate f).Retired k :=
  List.foldlRecOn ops operate h fun g hg op _ => (renumbered_operate g op).retired hg

/-- The counter grows with each placement, and with nothing else. -/
theorem nextHandle_run : ∀ (ops : List Operation) (f : Flow),
    f.nextHandle ≤ (ops.foldl operate f).nextHandle ∧
      (ops.foldl operate f).nextHandle ≤ f.nextHandle + f.placements ops := by
  intro ops
  induction ops with
  | nil => intro f; exact ⟨Nat.le_refl _, Nat.le_refl _⟩
  | cons op rest ih =>
      intro f
      have hstep := (renumbered_operate f op).nextHandle_le
      have hrest := ih (f.operate op)
      rw [List.foldl_cons, placements]
      omega

/--
**A handle names one node for good.**  Start from a new flow or from one that was loaded, whatever
was saved, and edit it and the options of the command that holds it, with fewer than 2^32 nodes
placed in all.  Then the handles of its nodes ascend and lie below the next one, which 32 bits can
hold; every end of a connection is at a node; and a handle that stood for a node at some time and
for none later stands for none ever after.
-/
theorem handles_are_never_reused (start : Start) (ops : List Operation)
    (hfew : start.flow.nodes.length + start.flow.placements ops < UInt32.size) :
    let f := ops.foldl operate start.flow
    (f.nodes.Pairwise fun m n => m.handle.number < n.handle.number) ∧
      (∀ n ∈ f.nodes, n.handle.number < f.nextHandle) ∧ f.nextHandle < UInt32.size ∧
      (∀ c ∈ f.connections, ∀ p, c.source = some p ∨ c.target = some p →
        ∃ n, f.node? p.node = some n) ∧
      ∀ (k : Handle) (past between rest : List Operation), past ++ between ++ rest = ops →
        (∃ n, (past.foldl operate start.flow).node? k = some n) →
        ((past ++ between).foldl operate start.flow).node? k = none →
        f.node? k = none := by
  intro f
  obtain ⟨hnumbered, hanchored, hcount⟩ := start.spec
  have hf : f.Numbered := hnumbered.run ops
  have hascending := hf.ascending
  rw [handles, List.pairwise_map] at hascending
  refine ⟨hascending, ?_, ?_, ?_, ?_⟩
  · intro n hn
    exact hf.below n.handle (List.mem_map_of_mem hn)
  · have hle := (nextHandle_run ops start.flow).2
    rw [hcount] at hle
    exact Nat.lt_of_le_of_lt hle hfew
  · intro c hc p hp
    have hmem := (hanchored.run ops) c hc p.node (touches_of_end hp)
    exact Option.ne_none_iff_exists'.1 fun hnone => node?_eq_none_iff.1 hnone hmem
  · rintro k past between rest rfl ⟨n, hn⟩ hgone
    -- The handle lies below the counter from the first of the two moments on.
    have hbelow := (hnumbered.run past).below k (by
      rw [← handle_of_node? hn]
      exact List.mem_map_of_mem (List.mem_of_find?_eq_some hn))
    have hretired : ((past ++ between).foldl operate start.flow).Retired k := by
      refine ⟨?_, node?_eq_none_iff.1 hgone⟩
      rw [List.foldl_append]
      exact Nat.lt_of_lt_of_le hbelow (nextHandle_run between _).1
    have hlast := hretired.run rest
    rw [← List.foldl_append] at hlast
    exact node?_eq_none_iff.2 hlast.2

/-- A loaded command with a node of an option that is connected to another: the option is removed
and its node with it, a node is placed, removed and placed again, and each has its own handle. -/
theorem removed_option_keeps_its_handle :
    let text : Port := ⟨⟨.text, []⟩, "text"⟩
    let say : NodeType := { id := "say", title := "Say", inputs := .ofList [("text", text)] }
    let origin : Position := ⟨.zero false, .zero false⟩
    let loader : Loader := { catalog := Catalog.ofNodup [say] (by decide) }
    let saved : Saved.Command := ⟨"c", "ping", "", [{ name := "x" }],
      { nodes := [⟨"a", "say", origin, ∅⟩, ⟨"b", CommandOption.typeIdOf "x", origin, ∅⟩],
        connections := [⟨⟨.text, []⟩, ⟨some "b", some "value"⟩, ⟨some "a", some "text"⟩⟩] }⟩
    let edits : List Command.Edit := [
      .removeOption "x",
      .flow (.addNodeById "say" origin "d"),
      .flow (.removeNodes [⟨2⟩]),
      .flow (.addNodeById "gone" origin "e"),
      .flow (.addNodeById "say" origin "e")]
    let start := Start.ofCommand loader saved
    let removal := operationsOf (loader.command saved) [.removeOption "x"]
    let ops := operationsOf (loader.command saved) edits
    let f := (edits.foldl Command.apply (loader.command saved)).flow
    start.flow.nodes.length + start.flow.placements ops = 4 ∧
      f.handles = [⟨0⟩, ⟨3⟩] ∧ f.nextHandle = 4 ∧
      (∃ n, start.flow.node? ⟨1⟩ = some n) ∧ (removal.foldl operate start.flow).node? ⟨1⟩ = none ∧
      f.node? ⟨1⟩ = none := by
  intro text say origin loader saved edits start removal ops f
  have hcount : start.flow.nodes.length + start.flow.placements ops = 4 := by decide +kernel
  have hbefore : (start.flow.node? ⟨1⟩).isSome = true := by decide +kernel
  have hnode := Option.isSome_iff_exists.1 hbefore
  have hgone : (removal.foldl operate start.flow).node? ⟨1⟩ = none :=
    node?_eq_none_iff.2 (by decide +kernel)
  have hrun : ops.foldl operate start.flow = f := foldl_operationsOf edits (loader.command saved)
  refine ⟨hcount, by decide +kernel, by decide +kernel, hnode, hgone, ?_⟩
  rw [← hrun]
  exact (handles_are_never_reused start ops (by rw [hcount]; decide)).2.2.2.2 ⟨1⟩ [] removal
    (ops.drop 1) rfl hnode hgone

end Flow

end CommandFlow
