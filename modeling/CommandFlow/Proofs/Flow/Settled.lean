/-
Nodes whose types are the ones that can be looked up.

A flow is settled when no id is listed both by the shared catalog and by that of the options, and
when the type of every node is the one found under its id.  Nodes placed by id are of such types.  A
new shared catalog gives every node its type again, or another that it lists, unless it lists an id
of an option or nothing at all.
-/
import CommandFlow.Proofs.Catalog
import CommandFlow.Proofs.Flow.Effect
import CommandFlow.Proofs.UpdateFirst

namespace CommandFlow

namespace Flow

/-- An id of an option is not listed by the shared catalog. -/
def Apart (f : Flow) : Prop :=
  ∀ id, f.optionTypes.contains id = true → f.catalog.contains id = false

/-- The two catalogs list different ids, and every node has the type that its id stands for. -/
structure Settled (f : Flow) : Prop where
  apart : f.Apart
  /-- The type of a node is the one found under its id. -/
  resolved : ∀ n ∈ f.nodes, f.resolve? n.typeId = some n.type

/-! ### Look-up -/

theorem resolve?_eq_some_iff {f : Flow} {id : String} {t : NodeType} :
    f.resolve? id = some t ↔ f.catalog.get? id = some t ∨
      f.catalog.contains id = false ∧ f.optionTypes.get? id = some t := by
  unfold resolve?
  rw [Option.or_eq_some_iff, Catalog.get?_eq_none_iff]

theorem id_of_resolve? {f : Flow} {id : String} {t : NodeType} (h : f.resolve? id = some t) :
    t.id = id := by
  rcases resolve?_eq_some_iff.1 h with h | ⟨-, h⟩
  · exact Catalog.id_of_get? h
  · exact Catalog.id_of_get? h

/-- A type that was found is found as long as the shared catalog stays and its option does. -/
theorem resolve?_of_optionTypes {f g : Flow} {id : String} {t : NodeType}
    (h : f.resolve? id = some t) (hcatalog : g.catalog = f.catalog)
    (hoption : f.optionTypes.get? id = some t → g.optionTypes.get? id = some t) :
    g.resolve? id = some t := by
  rw [resolve?_eq_some_iff, hcatalog]
  exact (resolve?_eq_some_iff.1 h).imp_right fun ⟨hnot, ht⟩ => ⟨hnot, hoption ht⟩

theorem resolve?_congr {f g : Flow} (hcatalog : g.catalog = f.catalog)
    (hoptions : g.optionTypes = f.optionTypes) (id : String) : g.resolve? id = f.resolve? id := by
  rw [resolve?, resolve?, hcatalog, hoptions]

/-! ### Edits -/

/-- Whether an edit leaves the types of nodes to the catalogs: it places nodes by id, and a new
shared catalog is not empty and lists no id of an option. -/
def permits (f : Flow) : Edit → Bool
  | .addNode _ _ _ => false
  | .rebind catalog => !catalog.isEmpty && f.optionTypes.ids.all (!catalog.contains ·)
  | _ => true

theorem apart_new (catalog : Catalog) : (new catalog).Apart := by
  intro id h
  rw [Catalog.contains_iff] at h
  exact absurd h List.not_mem_nil

theorem settled_new (catalog : Catalog) : (new catalog).Settled where
  apart := apart_new catalog
  resolved _ hn := absurd hn List.not_mem_nil

/-- A flow stays settled while its catalogs stay and it gets no nodes of other types. -/
theorem Settled.of_types {f g : Flow} (h : f.Settled) (hcatalog : g.catalog = f.catalog)
    (hoptions : g.optionTypes = f.optionTypes)
    (hnodes : ∀ n ∈ g.nodes, ∃ m ∈ f.nodes, n.type = m.type) : g.Settled where
  apart := by rw [Apart, hcatalog, hoptions]; exact h.apart
  resolved n hn := by
    obtain ⟨m, hm, htype⟩ := hnodes n hn
    rw [resolve?_congr hcatalog hoptions, Node.typeId, htype]
    exact h.resolved m hm

theorem Settled.revalidate {f : Flow} (h : f.Settled) (selected : Connection → Bool) :
    (f.revalidate selected).2.Settled :=
  h.of_types rfl rfl fun n hn => ⟨n, hn, rfl⟩

theorem Settled.updateNode {f : Flow} (h : f.Settled) {k : Handle} {change : Node → Node}
    (htype : ∀ n, (change n).type = n.type) : (f.updateNode k change).Settled := by
  refine h.of_types rfl rfl ?_
  intro n hn
  rcases mem_or_of_mem_updateFirst hn with hm | ⟨m, hm, rfl⟩
  · exact ⟨n, hm, rfl⟩
  · exact ⟨m, List.mem_of_find?_eq_some hm, htype m⟩

theorem Settled.addNode {f : Flow} (h : f.Settled) {typeId : String} {type : NodeType}
    (hresolve : f.resolve? typeId = some type) (position : Position) (uid : String) :
    (f.addNode type position uid).2.Settled where
  apart := h.apart
  resolved n hn := by
    show f.resolve? n.typeId = some n.type
    rcases List.mem_append.1 hn with hn | hn
    · exact h.resolved n hn
    · obtain rfl := List.mem_singleton.1 hn
      show f.resolve? type.id = some type
      rw [id_of_resolve? hresolve]
      exact hresolve

theorem exists_fallback? {f : Flow} (hne : f.catalog.isEmpty = false) :
    ∃ t ∈ f.catalog.entries, f.fallback? = some t := by
  cases hentries : f.catalog.entries with
  | nil => simp [Catalog.isEmpty, hentries] at hne
  | cons first rest => exact ⟨first, List.mem_cons_self, by simp [fallback?, available, hentries]⟩

/-- A node of an option keeps its type, any other takes one that the new catalog lists. -/
theorem resolve?_reboundType {f : Flow} (hne : f.catalog.isEmpty = false) (hapart : f.Apart)
    {n : Node}
    (hn : f.optionTypes.contains n.typeId = true → f.optionTypes.get? n.typeId = some n.type) :
    f.resolve? (f.reboundType n).id = some (f.reboundType n) := by
  unfold reboundType
  split
  case isTrue hoption => exact resolve?_eq_some_iff.2 (Or.inr ⟨hapart _ hoption, hn hoption⟩)
  case isFalse =>
    split
    case h_1 type htype =>
      rw [Catalog.id_of_get? htype]
      exact resolve?_eq_some_iff.2 (Or.inl htype)
    case h_2 =>
      -- The type is not listed, so the node takes the first one that is.
      obtain ⟨first, hmem, hfirst⟩ := exists_fallback? hne
      rw [hfirst]
      exact resolve?_eq_some_iff.2 (Or.inl (Catalog.get?_eq_some_iff.2 ⟨hmem, rfl⟩))

theorem apart_of_permits_rebind {f : Flow} {catalog : Catalog}
    (h : f.permits (.rebind catalog) = true) :
    catalog.isEmpty = false ∧ Apart { f with catalog } := by
  obtain ⟨hne, hall⟩ : catalog.isEmpty = false ∧ ∀ id ∈ f.optionTypes.ids,
      catalog.contains id = false := by simpa [permits] using h
  exact ⟨hne, fun id hid => hall id ((Catalog.contains_iff _ id).1 hid)⟩

/-- A node whose id an option has is of the option's type. -/
theorem Settled.get?_of_contains {f : Flow} (h : f.Settled) {n : Node} (hn : n ∈ f.nodes)
    (hoption : f.optionTypes.contains n.typeId = true) :
    f.optionTypes.get? n.typeId = some n.type := by
  rcases resolve?_eq_some_iff.1 (h.resolved n hn) with hshared | ⟨-, hget⟩
  · have hnot := Catalog.get?_eq_none_iff.2 (h.apart _ hoption)
    exact absurd (hnot.symm.trans hshared) (by simp)
  · exact hget

theorem Settled.rebind {f : Flow} (h : f.Settled) {catalog : Catalog}
    (hpermits : f.permits (.rebind catalog) = true) : (f.rebind catalog).2.Settled := by
  obtain ⟨hne, hapart⟩ := apart_of_permits_rebind hpermits
  refine ⟨hapart, ?_⟩
  intro n hn
  obtain ⟨m, hm, rfl⟩ := List.mem_map.1 hn
  exact resolve?_reboundType (f := { f with catalog }) hne hapart (h.get?_of_contains hm)

theorem Settled.effect {f g : Flow} {e : Edit} (h : f.Settled) (hpermits : f.permits e = true)
    (he : f.Effect e g) : g.Settled := by
  cases he with
  | refused => exact h
  | added _ _ _ => exact absurd hpermits (by simp [permits])
  | addedById position uid hresolve => exact h.addNode hresolve position uid
  | moved _ _ => exact h.updateNode fun _ => rfl
  | literalSet _ _ _ => exact h.updateNode fun _ => rfl
  | literalCleared _ _ => exact h.updateNode fun _ => rfl
  | cut _ => exact h.of_types rfl rfl fun n hn => ⟨n, hn, rfl⟩
  | removed _ => exact h.of_types rfl rfl fun n hn => ⟨n, List.mem_of_mem_filter hn, rfl⟩
  | disconnected _ => exact h.of_types rfl rfl fun n hn => ⟨n, hn, rfl⟩
  | connected _ _ => exact h.of_types rfl rfl fun n hn => ⟨n, hn, rfl⟩
  | revalidated selected => exact h.revalidate selected
  | rebound catalog => exact h.rebind hpermits

end Flow

end CommandFlow
