/-
Handles name nodes.

A flow hands out handles by counting up, so the handles of its nodes ascend and lie below the next
one.  A handle therefore stands for one node, and asking for the node of a handle gives every node
back.
-/
import CommandFlow.Proofs.Flow.Effect
import CommandFlow.Proofs.Flow.Wiring
import CommandFlow.Proofs.UpdateFirst
import Mathlib.Data.List.Nodup

namespace CommandFlow

namespace Flow

/-- The handles of the nodes, in order. -/
def handles (f : Flow) : List Handle :=
  f.nodes.map (·.handle)

/-- The handles of the nodes ascend, and the next one lies above them all. -/
structure Numbered (f : Flow) : Prop where
  /-- Of two nodes the one placed later has the greater handle. -/
  ascending : f.handles.Pairwise fun h k => h.number < k.number
  /-- The next handle is not in use. -/
  below : ∀ h ∈ f.handles, h.number < f.nextHandle

theorem node?_eq_none_iff {f : Flow} {k : Handle} : f.node? k = none ↔ k ∉ f.handles := by
  simp [node?, handles]

theorem mem_handles_iff {f : Flow} {k : Handle} : k ∈ f.handles ↔ ∃ n, f.node? k = some n := by
  rw [← Option.ne_none_iff_exists', Ne, node?_eq_none_iff, not_not]

/-- Every end of a connection is at a node. -/
def Anchored (f : Flow) : Prop :=
  ∀ c ∈ f.connections, ∀ k, c.touches k = true → k ∈ f.handles

theorem anchored_iff {f : Flow} : f.Anchored ↔ ∀ c ∈ f.connections,
    (∀ p ∈ c.source, p.node ∈ f.handles) ∧ ∀ p ∈ c.target, p.node ∈ f.handles := by
  refine forall₂_congr fun c _ => ⟨fun h => ⟨?_, ?_⟩, ?_⟩
  · exact fun p hp => h p.node (touches_of_end (Or.inl hp))
  · exact fun p hp => h p.node (touches_of_end (Or.inr hp))
  · rintro ⟨hsource, htarget⟩ k hk
    rcases Bool.or_eq_true_iff.1 hk with hk | hk
    · obtain ⟨p, hp, hnode⟩ := (Option.any_eq_true _ _).1 hk
      exact of_decide_eq_true hnode ▸ hsource p hp
    · obtain ⟨p, hp, hnode⟩ := (Option.any_eq_true _ _).1 hk
      exact of_decide_eq_true hnode ▸ htarget p hp

instance (f : Flow) : Decidable f.Anchored :=
  decidable_of_iff _ anchored_iff.symm

theorem Wired.anchored {f : Flow} (h : f.Wired) : f.Anchored := by
  intro c hc k hk
  obtain ⟨n, hn, rfl⟩ := (h.fits c hc).exists_node hk
  exact List.mem_map_of_mem hn

/-! ### A handle stands for one node -/

theorem Numbered.nodup {f : Flow} (h : f.Numbered) : f.handles.Nodup :=
  h.ascending.imp fun hlt heq => by rw [heq] at hlt; exact Nat.lt_irrefl _ hlt

theorem Numbered.node?_eq_some_iff {f : Flow} (h : f.Numbered) {k : Handle} {n : Node} :
    f.node? k = some n ↔ n ∈ f.nodes ∧ n.handle = k := by
  constructor
  · intro hn
    exact ⟨List.mem_of_find?_eq_some hn, handle_of_node? hn⟩
  · rintro ⟨hmem, rfl⟩
    refine find?_eq_some_of_unique hmem (by simp) fun m hm hhandle => ?_
    exact List.inj_on_of_nodup_map h.nodup hm hmem (by simpa using hhandle)

/-- Whether the node of a handle has the type with an id. -/
def isOfType (f : Flow) (typeId : String) (h : Handle) : Bool :=
  (f.typeAt? h).any (·.id = typeId)

theorem Numbered.mem_nodesOfType_iff {f : Flow} (h : f.Numbered) {typeId : String} {k : Handle} :
    k ∈ (f.nodesOfType typeId).map (·.handle) ↔ f.isOfType typeId k = true := by
  simp only [nodesOfType, isOfType, typeAt?, List.mem_map, List.mem_filter, Option.any_map,
    Option.any_eq_true, h.node?_eq_some_iff]
  constructor
  · rintro ⟨n, ⟨hn, hid⟩, hk⟩
    exact ⟨n, ⟨hn, hk⟩, hid⟩
  · rintro ⟨n, ⟨hn, hk⟩, hid⟩
    exact ⟨n, ⟨hn, hid⟩, hk⟩

/-! ### Edits keep handles in order -/

theorem numbered_new (catalog : Catalog) : (new catalog).Numbered where
  ascending := .nil
  below _ hh := absurd hh List.not_mem_nil

/-- Taking nodes away, or changing them without touching their handles, keeps handles in order. -/
theorem Numbered.of_sublist {f g : Flow} (h : f.Numbered) (hsub : g.handles.Sublist f.handles)
    (hnext : g.nextHandle = f.nextHandle) : g.Numbered where
  ascending := h.ascending.sublist hsub
  below k hk := by rw [hnext]; exact h.below k (hsub.subset hk)

theorem Numbered.insertNode {f : Flow} (h : f.Numbered) (uid : String) (type : NodeType)
    (position : Position) (literals : Literals) :
    (f.insertNode uid type position literals).2.Numbered := by
  have happend : (f.insertNode uid type position literals).2.handles =
      f.handles ++ [⟨f.nextHandle⟩] := List.map_append
  constructor
  · rw [happend, List.pairwise_append]
    refine ⟨h.ascending, List.pairwise_singleton _ _, ?_⟩
    intro k hk k' hk'
    rw [List.mem_singleton.1 hk']
    exact h.below k hk
  · intro k hk
    show k.number < f.nextHandle + 1
    rw [happend, List.mem_append, List.mem_singleton] at hk
    rcases hk with hk | rfl
    · exact Nat.lt_succ_of_lt (h.below k hk)
    · exact Nat.lt_succ_self _

theorem handles_rebind (f : Flow) (catalog : Catalog) :
    (f.rebind catalog).2.handles = f.handles :=
  List.map_map

/-- Giving nodes another type leaves all else of them alone. -/
theorem map_nodes_retarget {β : Type} {view : Node → β}
    (hview : ∀ (n : Node) (type : NodeType), view { n with type } = view n) (f : Flow)
    (oldId : String) (type : NodeType) :
    (f.retarget oldId type).nodes.map view = f.nodes.map view := by
  rw [retarget, List.map_map]
  refine List.map_congr_left fun n _ => ?_
  by_cases hid : n.typeId = oldId
  · simp [hid, hview]
  · simp [hid]

theorem handles_retarget (f : Flow) (oldId : String) (type : NodeType) :
    (f.retarget oldId type).handles = f.handles :=
  map_nodes_retarget (fun _ _ => rfl) f oldId type

theorem Numbered.updateNode {f : Flow} (h : f.Numbered) {k : Handle} {change : Node → Node}
    (hhandle : ∀ n, (change n).handle = n.handle) : (f.updateNode k change).Numbered :=
  h.of_sublist (by rw [handles, Flow.updateNode, map_updateFirst hhandle]; rfl) rfl

theorem Numbered.removeNodes {f : Flow} (h : f.Numbered) (handles : List Handle) :
    (f.removeNodes handles).flow.Numbered :=
  h.of_sublist (List.filter_sublist.map _) rfl

theorem Numbered.rebind {f : Flow} (h : f.Numbered) (catalog : Catalog) :
    (f.rebind catalog).2.Numbered :=
  h.of_sublist (by rw [handles_rebind]) rfl

theorem Numbered.retarget {f : Flow} (h : f.Numbered) (oldId : String) (type : NodeType) :
    (f.retarget oldId type).Numbered :=
  h.of_sublist (by rw [handles_retarget]) rfl

theorem Numbered.effect {f g : Flow} {e : Edit} (h : f.Numbered) (he : f.Effect e g) :
    g.Numbered := by
  cases he with
  | refused => exact h
  | added type position uid => exact h.insertNode _ _ _ _
  | addedById position uid _ => exact h.insertNode _ _ _ _
  | moved _ _ => exact h.updateNode fun _ => rfl
  | literalSet _ _ _ => exact h.updateNode fun _ => rfl
  | literalCleared _ _ => exact h.updateNode fun _ => rfl
  | cut k => exact h.of_sublist (List.Sublist.refl _) rfl
  | removed nodes => exact h.removeNodes nodes
  | disconnected _ => exact h.of_sublist (List.Sublist.refl _) rfl
  | connected _ _ => exact h.of_sublist (List.Sublist.refl _) rfl
  | revalidated selected => exact h.of_sublist (List.Sublist.refl _) rfl
  | rebound catalog => exact h.rebind catalog

end Flow

end CommandFlow
