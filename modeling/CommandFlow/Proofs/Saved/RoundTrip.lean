/-
Saving a flow and loading it again.

This asks nothing of the flow but that what is saved can be told apart and found again: uids that
differ, ends that stand at nodes or are open, types that are listed.  Connections need not fit and
handles may be any.  The flow that is loaded is the same as the one that was saved, in the sense in
which flows are the same: by what their nodes hold and by the uids at the ends of connections.

What is undefined equals nothing, not even itself.  So a flow is the same as itself only if its
coordinates are numbers, and the numbers in its values are too, which those of a JSON value are.
-/
import CommandFlow.Proofs.Json.Rereading
import CommandFlow.Proofs.Saved.Normal

namespace CommandFlow

/-! ### Being the same as oneself -/

theorem beq_self_of_forall {α : Type} [BEq α] {l : List α} (h : ∀ a ∈ l, (a == a) = true) :
    (l == l) = true := by
  induction l with
  | nil => rfl
  | cons a rest ih =>
      obtain ⟨ha, hrest⟩ := List.forall_mem_cons.1 h
      rw [List.cons_beq_cons, ha, ih hrest, Bool.and_self]

/-- A finite number equals itself. -/
theorem Binary64.beq_self_of_isFinite {x : Binary64} (h : x.isFinite = true) :
    (x == x) = true := by
  cases x with
  | nan => exact absurd h (by decide)
  | infinite negative => exact absurd h (by simp [isFinite])
  | finite negative mantissa exponent canonical =>
      show (mantissa == mantissa && (mantissa == 0 || (negative == negative &&
        exponent == exponent))) = true
      simp

theorem Position.beq_self_of_isFinite {p : Position} (h : p.isFinite = true) :
    (p == p) = true := by
  obtain ⟨hx, hy⟩ := Bool.and_eq_true_iff.1 h
  show (p.x == p.x && p.y == p.y) = true
  rw [Binary64.beq_self_of_isFinite hx, Binary64.beq_self_of_isFinite hy, Bool.and_self]

namespace Json

theorem sameItems_self {items : List Json} (h : ∀ item ∈ items, same item item = true) :
    sameItems items items = true := by
  induction items with
  | nil => rfl
  | cons item rest ih =>
      obtain ⟨hitem, hrest⟩ := List.forall_mem_cons.1 h
      rw [sameItems, hitem, ih hrest, Bool.and_self]

/-- Entries are the same as others under whose keys the same values are found. -/
theorem sameEntries_of_lookup {entries others : List (String × Json)}
    (h : ∀ entry ∈ entries, ∃ value, others.lookup entry.1 = some value ∧
      same entry.2 value = true) : sameEntries entries others = true := by
  induction entries with
  | nil => rfl
  | cons entry rest ih =>
      obtain ⟨⟨value, hfound, hsame⟩, hrest⟩ := List.forall_mem_cons.1 h
      rw [sameEntries, hfound, ih hrest, Bool.and_true]
      exact hsame

/-- A value with finite numbers and keys that differ is the same as itself. -/
theorem Readable.same_self {d : Nat} {json : Json} (h : Readable d json) :
    (json == json) = true := by
  show same json json = true
  induction h with
  | null d => rfl
  | bool d b => simp [same]
  | int d n h =>
      show (n == n) = true
      exact beq_self_eq_true n
  | double d hfinite => exact Binary64.beq_self_of_isFinite hfinite
  | string d s => simp [same]
  | array _ ih => exact sameItems_self ih
  | @object d entries hkeys _ ih =>
      have hentries : sameEntries entries entries = true := sameEntries_of_lookup fun entry hentry =>
        ⟨entry.2, Entries.lookup_of_mem hkeys hentry, ih entry hentry⟩
      rw [same, hentries, beq_self_eq_true, Bool.and_self]

end Json

/-! ### Nodes -/

namespace Node

/-- A node is the same as others by what is saved of it. -/
theorem beq_of_saved {m n : Node} (h : m.saved = n.saved) : (m == n) = (n == n) := by
  have huid : m.uid = n.uid := congrArg Saved.Node.uid h
  have hid : m.typeId = n.typeId := congrArg Saved.Node.typeId h
  have hposition : m.position = n.position := congrArg Saved.Node.position h
  have hliterals : m.literals = n.literals := congrArg Saved.Node.literals h
  show (m.uid == n.uid && m.typeId == n.typeId && m.position == n.position &&
    m.literals == n.literals) = _
  rw [huid, hid, hposition, hliterals]
  rfl

theorem beq_of_map_saved {ms ns : List Node} (h : ms.map Node.saved = ns.map Node.saved) :
    (ms == ns) = (ns == ns) := by
  induction ns generalizing ms with
  | nil =>
      rw [List.map_eq_nil_iff.1 h]
  | cons n rest ih =>
      obtain ⟨m, ms, rfl, hm, hrest⟩ := List.map_eq_cons_iff.1 h
      rw [List.cons_beq_cons, List.cons_beq_cons, beq_of_saved hm, ih hrest]

/-- A node at a place on the canvas, with JSON values, is the same as itself. -/
theorem beq_self {n : Node} (hposition : n.position.isFinite = true)
    (hvalues : ∀ entry ∈ n.literals.entries, ∃ d, Json.Readable d entry.2) :
    (n == n) = true := by
  have hliterals : (n.literals.entries == n.literals.entries) = true := by
    refine beq_self_of_forall fun entry hentry => ?_
    obtain ⟨d, hvalue⟩ := hvalues entry hentry
    show (entry.1 == entry.1 && entry.2 == entry.2) = true
    rw [beq_self_eq_true, hvalue.same_self, Bool.and_self]
  show (n.uid == n.uid && n.typeId == n.typeId && n.position == n.position &&
    n.literals.entries == n.literals.entries) = true
  rw [beq_self_eq_true, beq_self_eq_true, Position.beq_self_of_isFinite hposition, hliterals]
  rfl

end Node

/-! ### Flows -/

namespace Flow

variable {f g : Flow}

/-- Ports at the same place have the same uid. -/
theorem SamePort.uidOf_eq (hnodes : f.nodes.map Node.saved = g.nodes.map Node.saved)
    {p q : Endpoint} (h : f.SamePort g p q) : g.uidOf q = f.uidOf p := by
  obtain ⟨hkey, i, m, n, hm, hmi, hn, hni⟩ := h
  have hsaved : m.saved = n.saved := by
    have hi := congrArg (·[i]?) hnodes
    simpa [hmi, hni] using hi
  have huid : m.uid = n.uid := congrArg Saved.Node.uid hsaved
  rw [uidOf, uidOf, hm, hn, Option.map_some, Option.map_some, huid, hkey]

theorem map_uidOf (hnodes : f.nodes.map Node.saved = g.nodes.map Node.saved)
    {p q : Option Endpoint} (h : Option.Rel (f.SamePort g) p q) :
    q.map g.uidOf = p.map f.uidOf := by
  cases h with
  | none => rfl
  | some h => rw [Option.map_some, Option.map_some, h.uidOf_eq hnodes]

/-- What differs from a flow in its handles only is the same as the flow if the flow itself is. -/
theorem Alike.beq_eq (h : f.Alike g) : (g == f) = (f == f) := by
  have hnodes : (g.nodes == f.nodes) = (f.nodes == f.nodes) := Node.beq_of_map_saved h.nodes.symm
  have hconnections :
      (f.connections.map fun c => (c.shape, c.source.map f.uidOf, c.target.map f.uidOf)) =
        g.connections.map fun c => (c.shape, c.source.map g.uidOf, c.target.map g.uidOf) := by
    rw [← List.forall₂_eq_eq_eq, List.forall₂_map_left_iff, List.forall₂_map_right_iff]
    refine h.connections.imp fun c d hcd => ?_
    rw [hcd.shape, map_uidOf h.nodes hcd.source, map_uidOf h.nodes hcd.target]
  show g.same f = f.same f
  unfold same
  dsimp only
  rw [hnodes, hconnections]

/-- A flow of nodes that are the same as themselves is so too. -/
theorem beq_self (h : ∀ n ∈ f.nodes, (n == n) = true) : (f == f) = true := by
  show f.same f = true
  unfold same
  dsimp only
  rw [beq_self_of_forall h, beq_self_eq_true, Bool.and_self]

end Flow

namespace Loader

/--
**A flow comes back from being saved as it was.**  Take any flow, whether its connections fit or not
and whether their ends are open or not.  Let the uids of its nodes differ, their coordinates be finite
and the values typed into them be JSON values, with finite numbers and with keys that differ.  Let each
end of a connection that is not open stand at a node, and each type id be found in the flow.  Then
loading what is saved of the flow, over the same catalog and the same types of options, gives a flow
that is the same.  Each end of a connection stands on the node at the place where it stood, and what
is saved of the loaded flow is what was saved.
-/
theorem saved_flow_comes_back (f : Flow) (huids : f.uids.Nodup)
    (hpositions : ∀ n ∈ f.nodes, n.position.isFinite = true)
    (hvalues : ∀ n ∈ f.nodes, ∀ entry ∈ n.literals.entries, ∃ d, Json.Readable d entry.2)
    (hends : ∀ c ∈ f.connections, ∀ p, c.source = some p ∨ c.target = some p →
      ∃ n, f.node? p.node = some n)
    (htypes : ∀ n ∈ f.nodes, ∃ t, f.resolve? n.typeId = some t) :
    let g := ({ catalog := f.catalog } : Loader).flow f.saved f.optionTypes
    (g == f) = true ∧ List.Forall₂ (f.SameConnection g) f.connections g.connections ∧
      g.saved = f.saved := by
  intro g
  have hnumbered : Flow.Numbered { Flow.new f.catalog with optionTypes := f.optionTypes } :=
    (Flow.numbered_new f.catalog).of_sublist (List.Sublist.refl _) rfl
  have hresolve : ∀ n ∈ f.nodes, ({ catalog := f.catalog } : Loader).renamed n.typeId = n.typeId ∧
      ∃ t, Flow.resolve? { Flow.new f.catalog with optionTypes := f.optionTypes } n.typeId = some t :=
    fun n hn => ⟨rfl, htypes n hn⟩
  have halike : f.Alike g := alike_fill rfl rfl hnumbered hresolve huids hends
  refine ⟨?_, halike.connections, saved_fill rfl rfl hnumbered hresolve⟩
  rw [halike.beq_eq]
  exact Flow.beq_self fun n hn => Node.beq_self (hpositions n hn) (hvalues n hn)

/-- Handles that do not ascend, a node whose type is out of date, a connection with an open end and
one that joins no ports: all of it comes back, on handles that are counted anew. -/
theorem unsound_flow_comes_back :
    let text : PortShape := OptionKind.shape .string
    let x : CommandOption := { name := "x" }
    let greet : NodeType := { id := "greet", title := "Greet" }
    let origin : Position := ⟨.zero true, .zero false⟩
    let connections (a b : Nat) : List Connection :=
      [⟨text, some ⟨⟨b⟩, CommandOption.valueKey⟩, none⟩, .ofLink ⟨⟨⟨a⟩, "out"⟩, ⟨⟨b⟩, "in"⟩⟩ text]
    let f : Flow :=
      { nodes := [
          ⟨⟨7⟩, "a", { greet with title := "Hello" }, origin,
            Literals.insert ∅ "who" (.array [.null, .string "you"])⟩,
          ⟨⟨3⟩, "b", x.nodeType, origin, ∅⟩]
        connections := connections 7 3
        catalog := Catalog.ofNodup [greet] (by decide)
        optionTypes := Catalog.ofNodup [x.nodeType] (by simp [Catalog.idsOf])
        nextHandle := 5 }
    let g := ({ catalog := f.catalog } : Loader).flow f.saved f.optionTypes
    f.isConsistent = false ∧ f.pending = [0] ∧ g.connections = connections 0 1 ∧
      (g == f) = true ∧ List.Forall₂ (f.SameConnection g) f.connections g.connections ∧
      g.saved = f.saved := by
  intro text x greet origin connections f g
  refine ⟨by decide +kernel, by decide +kernel, by decide +kernel,
    saved_flow_comes_back f (by decide +kernel) (by decide +kernel) ?_ ?_ ?_⟩
  · refine List.forall_mem_cons.2 ⟨List.forall_mem_singleton.2 ⟨1, .array ?_⟩,
      List.forall_mem_singleton.2 fun entry hentry => absurd hentry List.not_mem_nil⟩
    exact List.forall_mem_cons.2 ⟨.null 0, List.forall_mem_singleton.2 (.string 0 "you")⟩
  · refine List.forall_mem_cons.2 ⟨?_, List.forall_mem_singleton.2 ?_⟩
    · rintro p (hp | hp)
      · cases hp
        exact ⟨_, rfl⟩
      · cases hp
    · rintro p (hp | hp)
      · cases hp
        exact ⟨_, rfl⟩
      · cases hp
        exact ⟨_, rfl⟩
  · have hfound : ∀ n ∈ f.nodes, (f.resolve? n.typeId).isSome = true := by decide +kernel
    exact fun n hn => Option.isSome_iff_exists.1 (hfound n hn)

end Loader

end CommandFlow
