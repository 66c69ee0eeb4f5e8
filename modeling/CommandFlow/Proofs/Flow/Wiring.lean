/-
What every connection of an edited flow satisfies.

`Wired` is the invariant that edits maintain: every connection has both ends, its ports may be
connected, it carries what its source declares now, no two connections end at the same input, and
no two that carry control start at the same output.

A link is checked through the types of its two nodes alone, so most edits only have to say which
nodes keep their type (`typeAt?`).  `validate_eq_ok_iff` is the one place where the check is opened.
-/
import CommandFlow.Flow.Revalidate
import CommandFlow.Proofs.Port.Fitting
import Mathlib.Data.List.Basic

namespace CommandFlow

theorem Connection.joins_iff {c : Connection} {link : Link} :
    c.joins link = true ↔ c = .ofLink link c.shape := by
  obtain ⟨shape, source, target⟩ := c
  simp [joins, ofLink]

theorem Connection.link?_eq_some_iff {c : Connection} {link : Link} :
    c.link? = some link ↔ c = .ofLink link c.shape := by
  obtain ⟨shape, source, target⟩ := c
  obtain ⟨p, q⟩ := link
  cases source with
  | none => simp [link?, ofLink]
  | some p' => cases target <;> simp [link?, ofLink]

namespace Flow

/-! ### What a link is checked against -/

/-- The type of the node of a handle. -/
def typeAt? (f : Flow) (h : Handle) : Option NodeType :=
  (f.node? h).map (·.type)

/-- What the output at a port declares now. -/
def offered? (f : Flow) (p : Endpoint) : Option PortShape :=
  ((f.typeAt? p.node).bind (·.output? p.key)).map (·.shape)

/-- What the input at a port declares now. -/
def required? (f : Flow) (p : Endpoint) : Option PortShape :=
  ((f.typeAt? p.node).bind (·.input? p.key)).map (·.shape)

/-- Whether a port is an output that carries control. -/
def isFlowOutput (f : Flow) (p : Endpoint) : Bool :=
  (f.offered? p).any (·.isFlow)

theorem isFlowOutput_of_offered? {f : Flow} {p : Endpoint} {shape : PortShape}
    (h : f.offered? p = some shape) : f.isFlowOutput p = shape.isFlow := by
  rw [isFlowOutput, h, Option.any_some]

theorem handle_of_node? {f : Flow} {h : Handle} {n : Node} (hn : f.node? h = some n) :
    n.handle = h := by
  simpa using List.find?_some hn

/-- A link passes when its nodes differ and the output at its source fits the input at its
target. What it gives is what the output declares. -/
theorem validate_eq_ok_iff {f : Flow} {link : Link} {shape : PortShape} :
    f.validate link = .ok shape ↔
      link.source.node ≠ link.target.node ∧ f.offered? link.source = some shape ∧
        ∃ required, f.required? link.target = some required ∧ shape.fits required = true := by
  unfold validate offered? required? typeAt?
  cases hs : f.node? link.source.node with
  | none => simp
  | some source =>
      cases ht : f.node? link.target.node with
      | none => simp
      | some target =>
          rw [← handle_of_node? hs, ← handle_of_node? ht]
          by_cases hself : source.handle = target.handle
          · simp [hself, bind, Except.bind]
          cases ho : source.type.output? link.source.key with
          | none => simp [hself, ho]
          | some output =>
              cases hi : target.type.input? link.target.key with
              | none => simp [hself, ho, hi]
              | some input =>
                  have hcheck : output.shape.check input.shape = .ok () ↔ _ :=
                    PortShape.check_eq_ok_iff
                  cases hc : output.shape.check input.shape with
                  | error _ => simp [hself, ho, hi, hc]; grind
                  | ok _ => simp [hself, ho, hi, hc]; grind

/-! ### Connections that fit -/

/-- Whether a connection joins two ports that may be connected and carries what its source declares
now. -/
def Fits (f : Flow) (c : Connection) : Prop :=
  ∃ link, c = .ofLink link c.shape ∧ f.validate link = .ok c.shape

theorem Fits.offered? {f : Flow} {c : Connection} {p : Endpoint} (h : f.Fits c)
    (hp : c.source = some p) : f.offered? p = some c.shape := by
  obtain ⟨link, hlink, hvalid⟩ := h
  rw [hlink] at hp
  obtain rfl : link.source = p := Option.some.inj hp
  exact (validate_eq_ok_iff.1 hvalid).2.1

theorem Fits.validate {f : Flow} {c : Connection} {link : Link} (h : f.Fits c)
    (hlink : c = .ofLink link c.shape) : f.validate link = .ok c.shape := by
  obtain ⟨link', hlink', hvalid⟩ := h
  have hsame : some link' = some link := congrArg Connection.link? (hlink'.symm.trans hlink)
  exact Option.some.inj hsame ▸ hvalid

theorem exists_typeAt?_of_validate {f : Flow} {link : Link} {shape : PortShape}
    (h : f.validate link = .ok shape) :
    ∃ s t, f.typeAt? link.source.node = some s ∧ f.typeAt? link.target.node = some t := by
  obtain ⟨-, hoffered, required, hrequired, -⟩ := validate_eq_ok_iff.1 h
  unfold Flow.offered? at hoffered
  unfold required? at hrequired
  cases hs : f.typeAt? link.source.node with
  | none => simp [hs] at hoffered
  | some s =>
      cases ht : f.typeAt? link.target.node with
      | none => simp [ht] at hrequired
      | some t => exact ⟨s, t, rfl, rfl⟩

theorem touches_ofLink {link : Link} {shape : PortShape} {k : Handle} :
    (Connection.ofLink link shape).touches k = true ↔
      link.source.node = k ∨ link.target.node = k := by
  simp [Connection.touches, Connection.leaves, Connection.enters, Connection.ofLink]

theorem touches_of_end {c : Connection} {p : Endpoint} (h : c.source = some p ∨ c.target = some p) :
    c.touches p.node = true := by
  rcases h with h | h
  · simp [Connection.touches, Connection.leaves, h]
  · simp [Connection.touches, Connection.enters, h]

/-- The nodes at the ends of a connection that fits are there. -/
theorem Fits.exists_node {f : Flow} {c : Connection} {k : Handle} (h : f.Fits c)
    (hk : c.touches k = true) : ∃ n ∈ f.nodes, n.handle = k := by
  obtain ⟨link, hlink, hvalid⟩ := h
  obtain ⟨s, t, hs, ht⟩ := exists_typeAt?_of_validate hvalid
  rw [hlink, touches_ofLink] at hk
  have hsome : ∃ type, f.typeAt? k = some type := by
    rcases hk with rfl | rfl
    · exact ⟨s, hs⟩
    · exact ⟨t, ht⟩
  obtain ⟨type, htype⟩ := hsome
  obtain ⟨n, hn, -⟩ := Option.map_eq_some_iff.1 htype
  exact ⟨n, List.mem_of_find?_eq_some hn, handle_of_node? hn⟩

/-- A connection fits as long as the nodes at its ends keep their types. -/
theorem Fits.of_typeAt? {f g : Flow} {c : Connection} (h : f.Fits c)
    (htypes : ∀ k t, c.touches k = true → f.typeAt? k = some t → g.typeAt? k = some t) :
    g.Fits c := by
  obtain ⟨link, hlink, hvalid⟩ := h
  obtain ⟨s, t, hs, ht⟩ := exists_typeAt?_of_validate hvalid
  have hs' : g.typeAt? link.source.node = some s :=
    htypes _ s (by rw [hlink, touches_ofLink]; exact Or.inl rfl) hs
  have ht' : g.typeAt? link.target.node = some t :=
    htypes _ t (by rw [hlink, touches_ofLink]; exact Or.inr rfl) ht
  refine ⟨link, hlink, ?_⟩
  rw [validate_eq_ok_iff, Flow.offered?, required?] at hvalid ⊢
  rw [hs, ht] at hvalid
  rw [hs', ht']
  exact hvalid

/-! ### The invariant -/

/-- Every connection fits, an input has one source and a flow output one target. -/
structure Wired (f : Flow) : Prop where
  /-- Connections join ports that may be connected and carry what their sources declare. -/
  fits : ∀ c ∈ f.connections, f.Fits c
  /-- No two connections end at the same port. -/
  targets : f.connections.Pairwise fun c d => c.target ≠ d.target
  /-- No two connections that carry control start at the same port. -/
  sources : f.connections.Pairwise fun c d =>
    c.shape.isFlow = true → d.shape.isFlow = true → c.source ≠ d.source

theorem wired_new (catalog : Catalog) : (new catalog).Wired where
  fits _ hc := absurd hc List.not_mem_nil
  targets := .nil
  sources := .nil

/-- Taking connections away keeps a flow wired, if those that are left still fit. -/
theorem Wired.of_sublist {f g : Flow} (h : f.Wired) (hsub : g.connections.Sublist f.connections)
    (hfits : ∀ c ∈ g.connections, f.Fits c → g.Fits c) : g.Wired where
  fits c hc := hfits c hc (h.fits c (hsub.subset hc))
  targets := h.targets.sublist hsub
  sources := h.sources.sublist hsub

/-- No two connections share a flow output, whatever the other one carries. -/
theorem Wired.flowOutputs {f : Flow} (h : f.Wired) : f.connections.Pairwise fun c d =>
    c.source.any f.isFlowOutput = true → c.source ≠ d.source := by
  refine h.sources.imp_of_mem ?_
  intro c d hc hd hne hflow heq
  -- The two have one source and carry what it declares, so both carry control.
  obtain ⟨p, hp, hpflow⟩ := (Option.any_eq_true _ _).1 hflow
  have hcflow := isFlowOutput_of_offered? ((h.fits c hc).offered? hp)
  have hdflow := isFlowOutput_of_offered? ((h.fits d hd).offered? (heq ▸ hp))
  exact hne (hcflow.symm.trans hpflow) (hdflow.symm.trans hpflow) heq

/-! ### Nodes -/

theorem typeAt?_insertNode {f : Flow} {uid : String} {type : NodeType} {position : Position}
    {literals : Literals} {k : Handle} {t : NodeType} (h : f.typeAt? k = some t) :
    (f.insertNode uid type position literals).2.typeAt? k = some t := by
  obtain ⟨n, hn, rfl⟩ := Option.map_eq_some_iff.1 h
  unfold typeAt? node? insertNode
  unfold node? at hn
  simp [List.find?_append, hn]

theorem Wired.insertNode {f : Flow} (h : f.Wired) (uid : String) (type : NodeType)
    (position : Position) (literals : Literals) :
    (f.insertNode uid type position literals).2.Wired :=
  h.of_sublist (List.Sublist.refl _) fun _ _ hc =>
    hc.of_typeAt? fun _ _ _ ht => typeAt?_insertNode ht

theorem Wired.addNode {f : Flow} (h : f.Wired) (type : NodeType) (position : Position)
    (uid : String) : (f.addNode type position uid).2.Wired :=
  h.insertNode _ _ _ _

/-- A change of one node that leaves its handle and its type alone leaves all types alone. -/
theorem typeAt?_updateNode {f : Flow} {k : Handle} {change : Node → Node}
    (hhandle : ∀ n, (change n).handle = n.handle) (htype : ∀ n, (change n).type = n.type)
    (k' : Handle) : (f.updateNode k change).typeAt? k' = f.typeAt? k' := by
  unfold typeAt? node? updateNode
  dsimp only
  induction f.nodes with
  | nil => rfl
  | cons n rest ih =>
      rw [updateFirst]
      split
      · rw [List.find?_cons, List.find?_cons, hhandle]
        split
        · simp [htype]
        · rfl
      · rw [List.find?_cons, List.find?_cons]
        split
        · rfl
        · exact ih

theorem Wired.updateNode {f : Flow} (h : f.Wired) {k : Handle} {change : Node → Node}
    (hhandle : ∀ n, (change n).handle = n.handle) (htype : ∀ n, (change n).type = n.type) :
    (f.updateNode k change).Wired :=
  h.of_sublist (List.Sublist.refl _) fun _ _ hc =>
    hc.of_typeAt? fun k' _ _ ht => by rw [typeAt?_updateNode hhandle htype k']; exact ht

/-! ### Removal -/

theorem Wired.removeRelated {f : Flow} (h : f.Wired) (k : Handle) : (f.removeRelated k).2.Wired :=
  h.of_sublist List.filter_sublist fun _ _ hc => hc.of_typeAt? fun _ _ _ ht => ht

theorem typeAt?_removeNodes {f : Flow} {handles : List Handle} {k : Handle} (hk : k ∉ handles) :
    (f.removeNodes handles).flow.typeAt? k = f.typeAt? k := by
  unfold typeAt? node? removeNodes
  dsimp only
  rw [List.find?_filter]
  congr 2
  funext n
  by_cases hn : n.handle = k
  · simp [hn, hk]
  · simp [hn]

theorem Wired.removeNodes {f : Flow} (h : f.Wired) (handles : List Handle) :
    (f.removeNodes handles).flow.Wired := by
  refine h.of_sublist List.filter_sublist fun c hc hfits => hfits.of_typeAt? ?_
  intro k t hk ht
  -- A connection that is left touches no removed node.
  have hnot : k ∉ handles := by
    intro hmem
    have huncut : ¬ handles.any c.touches = true := by
      simpa [Flow.removeNodes] using (List.mem_filter.1 hc).2
    exact huncut (List.any_eq_true.2 ⟨k, hmem, hk⟩)
  rw [typeAt?_removeNodes hnot]
  exact ht

/-! ### Connecting -/

theorem Wired.disconnect {f : Flow} (h : f.Wired) (link : Link) :
    Wired { f with connections := f.connections.eraseP (·.joins link) } :=
  h.of_sublist List.eraseP_sublist fun _ _ hc => hc.of_typeAt? fun _ _ _ ht => ht

theorem Wired.connect {f : Flow} (h : f.Wired) {link : Link} {shape : PortShape}
    (hvalid : f.validate link = .ok shape) :
    Wired { f with connections := f.connections.filter (!standsInWay link shape ·)
      ++ [.ofLink link shape] } := by
  -- What stays shares neither the input nor, for a flow output, the output.
  have hkept : ∀ c ∈ f.connections.filter (!standsInWay link shape ·),
      c.target ≠ some link.target ∧ (shape.isFlow = true → c.source ≠ some link.source) := by
    intro c hc
    have hnot : c.target ≠ some link.target ∧
        (shape.isFlow = false ∨ c.source ≠ some link.source) := by
      simpa [standsInWay] using (List.mem_filter.1 hc).2
    exact ⟨hnot.1, fun hflow => hnot.2.resolve_left (by simp [hflow])⟩
  have hsub : (f.connections.filter (!standsInWay link shape ·)).Sublist f.connections :=
    List.filter_sublist
  refine ⟨?_, ?_, ?_⟩
  · intro c hc
    rcases List.mem_append.1 hc with hc | hc
    · exact (h.fits c (hsub.subset hc)).of_typeAt? fun _ _ _ ht => ht
    · rw [List.mem_singleton.1 hc]
      exact ⟨link, rfl, hvalid⟩
  · refine List.pairwise_append.2 ⟨h.targets.sublist hsub, List.pairwise_singleton _ _, ?_⟩
    intro c hc d hd
    rw [List.mem_singleton.1 hd]
    exact (hkept c hc).1
  · refine List.pairwise_append.2 ⟨h.sources.sublist hsub, List.pairwise_singleton _ _, ?_⟩
    intro c hc d hd _ hflow
    rw [List.mem_singleton.1 hd] at hflow ⊢
    exact (hkept c hc).2 hflow

end Flow

end CommandFlow
