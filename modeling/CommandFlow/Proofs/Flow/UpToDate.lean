/-
Publishing a catalog a second time changes nothing.

`UpToDate` says what a flow looks like once a catalog is in place: its nodes have types that the
catalog or the options know, and its connections pass, carry what their sources declare and share no
flow output.  Whatever flow a catalog is published to, the outcome is up to date, and publishing
leaves a flow that is up to date as it is.

A node takes its type from its id, and the new type may have another id: the first type available
stands in for one that is gone.  The second time it is looked up under that id, in the options first
although it may have come from the catalog.  It is found either way (`knows_reboundType`).
-/
import CommandFlow.Proofs.Catalog
import CommandFlow.Proofs.Flow.Rechecking

namespace CommandFlow

namespace Flow

/-! ### Types of nodes -/

/-- Whether a type needs no other in its place: its id is that of an option, or the shared catalog
lists it, or no type is available at all. -/
def Knows (f : Flow) (type : NodeType) : Prop :=
  f.optionTypes.contains type.id = true ∨ f.catalog.get? type.id = some type ∨ f.available = []

theorem knows_of_mem_available {f : Flow} {type : NodeType} (h : type ∈ f.available) :
    f.Knows type := by
  rcases List.mem_append.1 h with hshared | hoption
  · exact Or.inr (Or.inl (Catalog.get?_eq_some_iff.2 ⟨hshared, rfl⟩))
  · exact Or.inl (Catalog.contains_iff_exists.2 ⟨type, Catalog.get?_eq_some_iff.2 ⟨hoption, rfl⟩⟩)

/-- The type that a node takes needs no other in its place. -/
theorem knows_reboundType (f : Flow) (n : Node) : f.Knows (f.reboundType n) := by
  unfold reboundType
  split
  case isTrue hoption => exact Or.inl hoption
  case isFalse =>
    split
    case h_1 type htype =>
      exact Or.inr (Or.inl (by rw [Catalog.id_of_get? htype]; exact htype))
    case h_2 =>
      cases hfallback : f.fallback? with
      | none => exact Or.inr (Or.inr (List.head?_eq_none_iff.1 hfallback))
      | some type => exact knows_of_mem_available (List.mem_of_mem_head? hfallback)

theorem reboundType_of_knows {f : Flow} {n : Node} (h : f.Knows n.type) :
    f.reboundType n = n.type := by
  unfold reboundType
  by_cases hoption : f.optionTypes.contains n.typeId = true
  · rw [if_pos hoption]
  · rw [if_neg hoption]
    rcases h with hknown | hlisted | hempty
    · exact absurd hknown hoption
    · rw [show f.catalog.get? n.typeId = some n.type from hlisted]
    · have hnone : f.catalog.get? n.typeId = none := by
        rw [Catalog.get?_eq_find?, (List.append_eq_nil_iff.1 hempty).1]
        rfl
      rw [hnone, fallback?, hempty]
      rfl

/-! ### Connections that were checked -/

/-- Whether connections pass, carry what their sources declare, and share no flow output. -/
structure Checked (f : Flow) (connections : List Connection) : Prop where
  passes : ∀ c ∈ connections, f.passes c = true
  /-- A connection carries what its source declares now. -/
  carries : ∀ c ∈ connections, ∀ p, c.source = some p → f.offered? p = some c.shape
  /-- No two connections start at the same flow output. -/
  sources : connections.Pairwise fun c d =>
    c.source.any f.isFlowOutput = true → c.source ≠ d.source

theorem Checked.tail {f : Flow} {c : Connection} {rest : List Connection}
    (h : f.Checked (c :: rest)) : f.Checked rest where
  passes d hd := h.passes d (List.mem_cons_of_mem c hd)
  carries d hd := h.carries d (List.mem_cons_of_mem c hd)
  sources := h.sources.tail

theorem Checked.rechecked_eq {f : Flow} {connections : List Connection} (h : f.Checked connections)
    {c : Connection} (hc : c ∈ connections) : f.rechecked (fun _ => true) c = c := by
  rw [rechecked, if_pos (by simp [h.passes c hc]), refreshed]
  cases hsource : c.source with
  | none => rw [Option.bind_none, Option.getD_none, ← hsource]
  | some p =>
      rw [Option.bind_some, h.carries c hc p hsource, Option.getD_some, ← hsource]

/-- Checking again drops none of them and changes none. The induction is on the connections from the
oldest on. -/
theorem Checked.kept_and_dropped {f : Flow} : ∀ {connections : List Connection},
    f.Checked connections →
      Verdict.kept (connections.map (f.verdict fun _ => true)) = connections ∧
        Verdict.dropped (connections.map (f.verdict fun _ => true)) = [] := by
  intro connections
  induction connections with
  | nil => intro _; exact ⟨rfl, rfl⟩
  | cons c rest ih =>
      intro h
      obtain ⟨hkept, hdropped⟩ := ih h.tail
      have hpass : f.passes c = true := h.passes c List.mem_cons_self
      rcases stays_or_drops f (fun _ => true) c rest with
        ⟨-, hkept', hdropped'⟩ | ⟨⟨-, hfail | ⟨hsome, hflow, d, hd, -, hsource, -⟩⟩, -⟩
      · rw [List.map_cons, hkept', hdropped', hkept, hdropped, h.rechecked_eq List.mem_cons_self]
        exact ⟨rfl, rfl⟩
      · exact absurd hpass (by simp [hfail])
      · -- A newer one would leave the same flow output.
        obtain ⟨p, hp⟩ := Option.isSome_iff_exists.1 hsome
        refine absurd hsource.symm ((List.pairwise_cons.1 h.sources).1 d hd ?_)
        rw [hp, Option.any_some, isFlowOutput_of_offered? (offered?_of_passes hpass hp)]
        exact hflow

theorem checked_revalidate (f : Flow) : f.Checked (f.revalidate fun _ => true).2.connections where
  passes d hd := by
    obtain ⟨v, hv, hvd⟩ := Verdict.exists_of_mem_kept hd
    obtain ⟨c, -, rfl⟩ := List.mem_map.1 hv
    obtain ⟨hpass, rfl⟩ := refreshed_of_verdict rfl hvd
    -- What a connection carries plays no part in its check.
    exact hpass
  carries d hd := (checked_of_mem_revalidate hd).1
  sources := by
    refine (pairwise_revalidate f).imp_of_mem ?_
    intro c d hc hd hne hflow heq
    obtain ⟨p, hp, hpflow⟩ := (Option.any_eq_true _ _).1 hflow
    have hshape : ∀ e : Connection, f.offered? p = some e.shape → e.shape.isFlow = true := by
      intro e he
      rw [← isFlowOutput_of_offered? he]
      exact hpflow
    exact hne (hshape c ((checked_of_mem_revalidate hc).1 p hp))
      (hshape d ((checked_of_mem_revalidate hd).1 p (heq ▸ hp))) (by simp [hp]) heq

/-! ### Publishing -/

/-- Whether a flow is as publishing a catalog leaves it. -/
structure UpToDate (f : Flow) (catalog : Catalog) : Prop where
  published : f.catalog = catalog
  known : ∀ n ∈ f.nodes, f.Knows n.type
  checked : f.Checked f.connections

theorem upToDate_rebind (f : Flow) (catalog : Catalog) :
    (f.rebind catalog).2.UpToDate catalog where
  published := rfl
  known n hn := by
    obtain ⟨m, -, rfl⟩ := List.mem_map.1 hn
    exact knows_reboundType { f with catalog } m
  checked :=
    have h := checked_revalidate (f.rebindNodes catalog)
    ⟨h.passes, h.carries, h.sources⟩

theorem rebindNodes_of_known {f : Flow} (h : ∀ n ∈ f.nodes, f.Knows n.type) :
    f.rebindNodes f.catalog = f := by
  have hself : ∀ n ∈ f.nodes, { n with type := f.reboundType n } = n := by
    intro n hn
    rw [reboundType_of_knows (h n hn)]
  have hnodes : (f.nodes.map fun n => { n with type := f.reboundType n }) = f.nodes := by
    rw [List.map_congr_left hself, List.map_id']
  exact congrArg (fun nodes => { f with nodes }) hnodes

theorem UpToDate.rebind {f : Flow} {catalog : Catalog} (h : f.UpToDate catalog) :
    f.rebind catalog = ([], f) := by
  obtain ⟨rfl, hknown, hchecked⟩ := h
  obtain ⟨hkept, hdropped⟩ := hchecked.kept_and_dropped
  rw [Flow.rebind, rebindNodes_of_known hknown]
  show (Verdict.dropped (f.verdicts fun _ => true),
    { f with connections := Verdict.kept (f.verdicts fun _ => true) }) = ([], f)
  rw [verdicts, hkept, hdropped]

/--
**Publishing a catalog twice is publishing it once.**  Whatever the flow and whatever the catalog,
the second time no connection is dropped and the flow stays as the first time left it, its nodes
with their types and its connections included.  The flows that publishing leaves as they are, are
those over the catalog whose nodes have types that are known and whose connections pass, carry what
their sources declare and share no flow output.
-/
theorem publishing_again_changes_nothing (f : Flow) (catalog : Catalog) :
    let g := (f.rebind catalog).2
    g.rebind catalog = ([], g) ∧ (f.rebind catalog = ([], f) ↔ f.UpToDate catalog) := by
  intro g
  refine ⟨(upToDate_rebind f catalog).rebind, ?_, UpToDate.rebind⟩
  intro hsame
  have hupToDate := upToDate_rebind f catalog
  rw [hsame] at hupToDate
  exact hupToDate

end Flow

end CommandFlow
