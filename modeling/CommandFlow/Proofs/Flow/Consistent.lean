/-
Edited flows have no faults.

A wired flow has nothing to report.  Every edit keeps a flow wired, so a flow that was made by edits
alone is consistent whatever they were, and in whatever order.
-/
import CommandFlow.Proofs.Flow.Effect
import CommandFlow.Proofs.Flow.Report
import CommandFlow.Proofs.Flow.Rewiring

namespace CommandFlow

namespace Flow

/-! ### A wired flow has no faults -/

theorem countP_le_one_of_pairwise {α : Type} {test : α → Bool} {l : List α}
    (h : l.Pairwise fun a b => test a = true → test b = false) : l.countP test ≤ 1 := by
  induction l with
  | nil => simp
  | cons a rest ih =>
      obtain ⟨hhead, hrest⟩ := List.pairwise_cons.1 h
      by_cases ha : test a = true
      · have hzero : rest.countP test = 0 := by
          rw [List.countP_eq_zero]
          intro b hb
          simp [hhead b hb ha]
        have hone : (a :: rest).countP test = 1 := by rw [List.countP_cons_of_pos ha, hzero]
        exact Nat.le_of_eq hone
      · rw [List.countP_cons_of_neg ha]
        exact ih hrest

/-- A report without faults means that every connection with both ends is accepted. -/
theorem validate_of_violations_eq_nil {f : Flow} (h : f.violations = []) {c : Connection}
    {link : Link} (hc : c ∈ f.connections) (hlink : c.link? = some link) :
    ∃ shape, f.validate link = .ok shape :=
  (violations_eq_nil_iff.1 h).1 c hc link hlink

theorem Wired.isShared {f : Flow} (h : f.Wired) (p : Endpoint) : f.isShared p = false := by
  have hle : f.connections.countP (·.target = some p) ≤ 1 := by
    refine countP_le_one_of_pairwise (h.targets.imp ?_)
    intro c d hne hc
    have hc : c.target = some p := by simpa using hc
    simpa [hc, eq_comm] using hne
  simp [Flow.isShared, Nat.not_lt.2 hle]

/-- No output fans out where no two connections that carry control start at one port. -/
theorem fansOut_eq_false_of_pairwise {f : Flow} (h : f.connections.Pairwise fun c d =>
    c.shape.isFlow = true → d.shape.isFlow = true → c.source.isSome = true → c.source ≠ d.source)
    (p : Endpoint) : f.fansOut p = false := by
  have hle : f.connections.countP (fun c => c.shape.isFlow && c.source = some p) ≤ 1 := by
    refine countP_le_one_of_pairwise (h.imp ?_)
    intro c d hne hc
    obtain ⟨hflow, hsource⟩ : c.shape.isFlow = true ∧ c.source = some p := by simpa using hc
    by_cases hd : d.shape.isFlow = true
    · have := hne hflow hd (by simp [hsource])
      simpa [hd, hsource, eq_comm] using this
    · simp [hd]
  simp [fansOut, Nat.not_lt.2 hle]

theorem Wired.fansOut {f : Flow} (h : f.Wired) (p : Endpoint) : f.fansOut p = false :=
  fansOut_eq_false_of_pairwise (h.sources.imp fun hne hc hd _ => hne hc hd) p

theorem Wired.violations_eq_nil {f : Flow} (h : f.Wired) : f.violations = [] := by
  refine violations_eq_nil_iff.2 ⟨?_, h.isShared, h.fansOut⟩
  intro c hc link hlink
  exact ⟨c.shape, (h.fits c hc).validate (Connection.link?_eq_some_iff.1 hlink)⟩

/-! ### Edits keep a flow wired -/

theorem Wired.effect {f g : Flow} {e : Edit} (h : f.Wired) (he : f.Effect e g) : g.Wired := by
  cases he with
  | refused => exact h
  | added type position uid => exact h.addNode type position uid
  | addedById position uid _ => exact h.addNode _ position uid
  | moved _ _ => exact h.updateNode (fun _ => rfl) fun _ => rfl
  | literalSet _ _ _ => exact h.updateNode (fun _ => rfl) fun _ => rfl
  | literalCleared _ _ => exact h.updateNode (fun _ => rfl) fun _ => rfl
  | cut k => exact h.removeRelated k
  | removed nodes => exact h.removeNodes nodes
  | disconnected _ => exact h.disconnect _
  | connected _ hvalid => exact h.connect hvalid
  | revalidated selected => exact h.revalidate selected
  | rebound catalog => exact h.rebind catalog

theorem Wired.apply {f : Flow} (h : f.Wired) (e : Edit) : (f.apply e).Wired :=
  h.effect (effect_apply f e)

theorem wired_of_edits (catalog : Catalog) (edits : List Edit) :
    (edits.foldl apply (new catalog)).Wired :=
  List.foldlRecOn edits apply (wired_new catalog) fun _ h e _ => h.apply e

/--
**A flow that was made by edits alone is consistent.**  Whatever the edits were: there is nothing
to report, no connection lacks an end, every end is at a node of the flow, no two connections share
their target, no two from a flow output share their source, and every connection would be accepted
as it is and carries what its source declares now.
-/
theorem edited_flow_is_consistent (catalog : Catalog) (edits : List Edit) :
    let f := edits.foldl apply (new catalog)
    f.violations = [] ∧
      (∀ c ∈ f.connections, c.isPending = false) ∧
      (∀ c ∈ f.connections, ∀ p, c.source = some p ∨ c.target = some p →
        ∃ n ∈ f.nodes, n.handle = p.node) ∧
      (f.connections.Pairwise fun c d => c.target ≠ d.target) ∧
      (f.connections.Pairwise fun c d =>
        c.source.any f.isFlowOutput = true → c.source ≠ d.source) ∧
      ∀ c ∈ f.connections, ∃ link, c.link? = some link ∧ f.validate link = .ok c.shape ∧
        f.offered? link.source = some c.shape := by
  intro f
  have h : f.Wired := wired_of_edits catalog edits
  refine ⟨h.violations_eq_nil, ?_, ?_, h.targets, h.flowOutputs, ?_⟩
  · intro c hc
    obtain ⟨link, hlink, -⟩ := h.fits c hc
    rw [hlink]
    rfl
  · intro c hc p hp
    refine (h.fits c hc).exists_node ?_
    rcases hp with hp | hp
    · simp [Connection.touches, Connection.leaves, hp]
    · simp [Connection.touches, Connection.enters, hp]
  · intro c hc
    obtain ⟨link, hlink, hvalid⟩ := h.fits c hc
    refine ⟨link, ?_, hvalid, (validate_eq_ok_iff.1 hvalid).2.1⟩
    rw [hlink]
    rfl

end Flow

end CommandFlow
