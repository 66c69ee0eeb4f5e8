/-
Values and the inputs they are typed into.

A value can only be typed into an input that the type of its node declares, and a new node starts
with values that its type gives it.  If types give values to their own inputs only, every value
stands at a declared input when it is new.  The node's type may change afterwards: a new shared
catalog gives the node another type, and leaves its values as they are, also those whose inputs the
new type lacks.

This is the only way in which a value comes to stand at no input.  `Spares` says of an edit whether
it leaves an input for every value.
-/
import CommandFlow.Proofs.Flow.Settled

namespace CommandFlow

/-- Whether a type has an input for each of some values. -/
def NodeType.Accepts (t : NodeType) (values : Literals) : Prop :=
  ∀ key ∈ Entries.keys values.entries, (t.input? key).isSome = true

instance (t : NodeType) (values : Literals) : Decidable (t.Accepts values) :=
  inferInstanceAs (Decidable (∀ key ∈ Entries.keys values.entries, (t.input? key).isSome = true))

/-- The type that a catalog has for a node of a type: the one with the same id, else the first one.
A catalog without types has none, and the node keeps its own. -/
def Catalog.successor (catalog : Catalog) (t : NodeType) : NodeType :=
  ((catalog.get? t.id).or catalog.first?).getD t

namespace NodeType

variable {t : NodeType} {values : Literals}

theorem Accepts.insert (h : t.Accepts values) {key : String}
    (hkey : (t.input? key).isSome = true) (value : Json) : t.Accepts (values.insert key value) := by
  intro k hk
  rcases Entries.mem_keys_insert hk with hk | rfl
  · exact h k hk
  · exact hkey

theorem Accepts.erase (h : t.Accepts values) (key : String) : t.Accepts (values.erase key) := by
  intro k hk
  have hsub : (values.erase key).entries.Sublist values.entries := List.filter_sublist
  exact h k ((hsub.map _).subset hk)

end NodeType

namespace Flow

variable {f g : Flow} {e : Edit}

/-- Every value of a node is at an input that the node's type declares. -/
def ValuesDeclared (f : Flow) : Prop :=
  ∀ n ∈ f.nodes, n.type.Accepts n.literals

instance (f : Flow) : Decidable f.ValuesDeclared :=
  inferInstanceAs (Decidable (∀ n ∈ f.nodes, n.type.Accepts n.literals))

/-! ### Edits -/

/-- The types that an edit brings in. -/
def Edit.types : Edit → List NodeType
  | .addNode type _ _ => [type]
  | .rebind catalog => catalog.entries
  | _ => []

/-- The shared catalog that an edit brings in. -/
def Edit.catalog? : Edit → Option Catalog
  | .rebind catalog => some catalog
  | _ => none

/-- Whether an edit leaves an input for every value: the type that a new shared catalog has for a
node has one for each of the node's values. -/
def Spares (f : Flow) (e : Edit) : Prop :=
  ∀ catalog ∈ e.catalog?, ∀ n ∈ f.nodes, (catalog.successor n.type).Accepts n.literals

instance (f : Flow) (e : Edit) : Decidable (f.Spares e) :=
  inferInstanceAs (Decidable (∀ catalog ∈ e.catalog?, ∀ n ∈ f.nodes,
    (catalog.successor n.type).Accepts n.literals))

/-! ### A new shared catalog -/

theorem reboundType_eq_successor (h : f.optionTypes = ∅) (n : Node) :
    f.reboundType n = f.catalog.successor n.type := by
  have hnone : f.optionTypes.contains n.typeId = false := by
    rw [h, ← Bool.not_eq_true, Catalog.contains_iff]
    exact List.not_mem_nil
  have hfallback : f.fallback? = f.catalog.first? := by
    rw [fallback?, available, h]
    exact congrArg List.head? (List.append_nil _)
  unfold reboundType
  rw [hnone, hfallback, Catalog.successor, Node.typeId]
  cases f.catalog.get? n.type.id with
  | none => rfl
  | some t => rfl

/-- A new shared catalog gives nodes other types and leaves all else of them alone. -/
theorem nodes_rebind (h : f.optionTypes = ∅) (catalog : Catalog) :
    (f.rebind catalog).2.nodes =
      f.nodes.map fun n => { n with type := catalog.successor n.type } := by
  refine List.map_congr_left fun n _ => ?_
  have htype : Flow.reboundType { f with catalog } n = catalog.successor n.type :=
    reboundType_eq_successor (f := { f with catalog }) h n
  rw [htype]

theorem valuesDeclared_rebind_iff (h : f.optionTypes = ∅) (catalog : Catalog) :
    (f.rebind catalog).2.ValuesDeclared ↔ f.Spares (.rebind catalog) := by
  rw [ValuesDeclared, nodes_rebind h, List.forall_mem_map]
  simp [Spares, Edit.catalog?]

/-! ### What edits keep -/

/-- Every value is at a declared input, the types that can be placed give values to their own inputs
only, and none of them stands for an option. -/
structure Declared (f : Flow) : Prop where
  values : f.ValuesDeclared
  /-- A new node starts with values that its type has inputs for. -/
  defaults : ∀ t ∈ f.catalog.entries, t.Accepts t.defaults
  noOptions : f.optionTypes = ∅

theorem declared_new {catalog : Catalog} (h : ∀ t ∈ catalog.entries, t.Accepts t.defaults) :
    (new catalog).Declared where
  values _ hn := absurd hn List.not_mem_nil
  defaults := h
  noOptions := rfl

/-- Edits that leave the catalogs alone only have to say what becomes of nodes. -/
theorem Declared.of_nodes (h : f.Declared) (hcatalog : g.catalog = f.catalog)
    (hoptions : g.optionTypes = f.optionTypes) (hvalues : g.ValuesDeclared) : g.Declared where
  values := hvalues
  defaults := hcatalog ▸ h.defaults
  noOptions := hoptions.trans h.noOptions

theorem Declared.addNode (h : f.Declared) {type : NodeType} (htype : type.Accepts type.defaults)
    (position : Position) (uid : String) : (f.addNode type position uid).2.Declared := by
  refine h.of_nodes rfl rfl fun n hn => ?_
  rcases List.mem_append.1 hn with hn | hn
  · exact h.values n hn
  · rw [List.mem_singleton.1 hn]
    exact htype

theorem Declared.updateNode (h : f.Declared) {k : Handle} {change : Node → Node}
    (hchange : ∀ n, f.node? k = some n → (change n).type.Accepts (change n).literals) :
    (f.updateNode k change).Declared := by
  refine h.of_nodes rfl rfl fun n hn => ?_
  rcases mem_or_of_mem_updateFirst hn with hn | ⟨m, hm, rfl⟩
  · exact h.values n hn
  · exact hchange m hm

theorem Declared.accepts (h : f.Declared) {k : Handle} {n : Node} (hn : f.node? k = some n) :
    n.type.Accepts n.literals :=
  h.values n (List.mem_of_find?_eq_some hn)

/-- A type that is found has inputs for its default values. -/
theorem Declared.accepts_of_resolve? (h : f.Declared) {typeId : String} {type : NodeType}
    (hresolve : f.resolve? typeId = some type) : type.Accepts type.defaults := by
  rcases resolve?_eq_some_iff.1 hresolve with hshared | ⟨-, hoption⟩
  · exact h.defaults type (Catalog.get?_eq_some_iff.1 hshared).1
  · rw [h.noOptions] at hoption
    exact absurd (Catalog.get?_eq_some_iff.1 hoption).1 List.not_mem_nil

theorem Declared.rebind (h : f.Declared) {catalog : Catalog}
    (hdefaults : ∀ t ∈ catalog.entries, t.Accepts t.defaults)
    (hspares : f.Spares (.rebind catalog)) : (f.rebind catalog).2.Declared where
  values := (valuesDeclared_rebind_iff h.noOptions catalog).2 hspares
  defaults := hdefaults
  noOptions := h.noOptions

theorem Declared.effect (h : f.Declared) (htypes : ∀ t ∈ e.types, t.Accepts t.defaults)
    (hspares : f.Spares e) (he : f.Effect e g) : g.Declared := by
  cases he with
  | refused => exact h
  | added type position uid => exact h.addNode (htypes type List.mem_cons_self) position uid
  | addedById position uid hresolve => exact h.addNode (h.accepts_of_resolve? hresolve) position uid
  | moved _ _ =>
      refine h.updateNode fun n hn => ?_
      show n.type.Accepts n.literals
      exact h.accepts hn
  | @literalSet k n key value hnode hinput =>
      refine h.updateNode fun m hm => ?_
      -- The node that gets the value is the one whose type was asked for the input.
      obtain rfl : n = m := Option.some.inj (hnode.symm.trans hm)
      exact (h.accepts hnode).insert hinput value
  | literalCleared key _ => exact h.updateNode fun n hn => (h.accepts hn).erase key
  | cut _ => exact h.of_nodes rfl rfl h.values
  | removed _ => exact h.of_nodes rfl rfl fun n hn => h.values n (List.mem_of_mem_filter hn)
  | disconnected _ => exact h.of_nodes rfl rfl h.values
  | connected _ _ => exact h.of_nodes rfl rfl h.values
  | revalidated _ => exact h.of_nodes rfl rfl h.values
  | rebound catalog => exact h.rebind htypes hspares

/-- An edit that leaves no input for a value brings in a shared catalog, and the value stays. -/
theorem not_valuesDeclared_of_not_spares (h : f.optionTypes = ∅) (hnot : ¬f.Spares e) :
    ¬(f.apply e).ValuesDeclared := by
  cases e with
  | rebind catalog => exact fun hvalues => hnot ((valuesDeclared_rebind_iff h catalog).1 hvalues)
  | _ => exact absurd (fun _ hcatalog => absurd hcatalog (by simp [Edit.catalog?])) hnot

/-- Edits of a flow leave the types of options alone. -/
theorem optionTypes_effect (he : f.Effect e g) : g.optionTypes = f.optionTypes := by
  cases he <;> rfl

theorem optionTypes_of_edits (catalog : Catalog) (edits : List Edit) :
    (edits.foldl apply (new catalog)).optionTypes = ∅ := by
  refine List.foldlRecOn edits apply (motive := fun f : Flow => f.optionTypes = ∅) rfl ?_
  intro f h e _
  exact (optionTypes_effect (effect_apply f e)).trans h

/--
**Values stay at declared inputs exactly as long as no new type lacks the input of a value.**  Let
all types that are used, those of the shared catalogs and those placed directly, give default values
to their own inputs only.  Then, by any edits of a new flow, every value of every node is at an input
that the node's type declares after each edit if and only if no edit brings in a shared catalog that
has, for a node with a value, a type without the input.  The type is the one with the id of the
node's type, or the first one if there is none, or the node's own if the catalog is empty.  A new
shared catalog changes nothing of a node but its type: values stay, also where the input is gone.
-/
theorem values_are_declared_throughout_iff_inputs_stay (catalog : Catalog) (edits : List Edit)
    (hcatalog : ∀ t ∈ catalog.entries, t.Accepts t.defaults)
    (hedits : ∀ e ∈ edits, ∀ t ∈ e.types, t.Accepts t.defaults) :
    ((∀ done, done <+: edits → (done.foldl apply (new catalog)).ValuesDeclared) ↔
        Allowed apply Spares (new catalog) edits) ∧
      ∀ published : Catalog, ((edits.foldl apply (new catalog)).rebind published).2.nodes =
        (edits.foldl apply (new catalog)).nodes.map fun n =>
          { n with type := published.successor n.type } := by
  refine ⟨?_, fun published => nodes_rebind (optionTypes_of_edits catalog edits) published⟩
  refine Allowed.iff_throughout_of_forall (I := Declared) (G := ValuesDeclared)
    (P := fun e => ∀ t ∈ e.types, t.Accepts t.defaults) (fun f h => h.values) ?_ ?_ hedits
    (declared_new hcatalog)
  · intro f e htypes h hspares
    exact h.effect htypes hspares (effect_apply f e)
  · intro f e _ h hnot
    exact not_valuesDeclared_of_not_spares h.noOptions hnot

/-- A type with a default value is published anew with one more input, and another type is gone.
The value of the first stays at its input, and that of the second is taken away before its node
becomes one of the first type. -/
theorem values_are_declared_where_types_grow :
    let any : PortShape := ⟨.any, []⟩
    let reply : NodeType := NodeType.withDefault
      (NodeType.withInput { id := "reply", title := "Reply" } "text" "text" any) "text" (.string "")
    let wait : NodeType := NodeType.withInput { id := "wait", title := "Wait" } "time" "time" any
    let catalog := Catalog.ofNodup [reply, wait] (by decide)
    let published := Catalog.ofNodup [reply.withInput "hidden" "hidden" any] (by decide)
    let origin : Position := ⟨.zero false, .zero false⟩
    let edits : List Edit := [.addNodeById "reply" origin "a", .addNodeById "wait" origin "b",
      .setLiteral ⟨0⟩ "text" (.string "hi"), .setLiteral ⟨1⟩ "time" .null, .clearLiteral ⟨1⟩ "time",
      .rebind published, .setLiteral ⟨1⟩ "hidden" (.bool true)]
    let f := edits.foldl apply (new catalog)
    (∀ t ∈ catalog.entries, t.Accepts t.defaults) ∧
      (∀ e ∈ edits, ∀ t ∈ e.types, t.Accepts t.defaults) ∧
      f.nodes.map (fun n => (n.typeId, Entries.keys n.literals.entries))
        = [("reply", ["text"]), ("reply", ["hidden"])] ∧
      ∀ done, done <+: edits → (done.foldl apply (new catalog)).ValuesDeclared := by
  intro any reply wait catalog published origin edits f
  have hcatalog : ∀ t ∈ catalog.entries, t.Accepts t.defaults := by decide +kernel
  have hedits : ∀ e ∈ edits, ∀ t ∈ e.types, t.Accepts t.defaults := by decide +kernel
  refine ⟨hcatalog, hedits, by decide +kernel, ?_⟩
  exact (values_are_declared_throughout_iff_inputs_stay catalog edits hcatalog hedits).1.2
    (by decide +kernel)

/-- A type is published anew without the input that a value was typed into: the value stays, at an
input that the node's type does not declare. -/
theorem value_outlives_its_input :
    let reply : NodeType :=
      NodeType.withInput { id := "reply", title := "Reply" } "text" "text" ⟨.text, []⟩
    let bare : NodeType := { id := "reply", title := "Reply" }
    let catalog := Catalog.ofNodup [reply] (by decide)
    let published := Catalog.ofNodup [bare] (by decide)
    let edits : List Edit := [.addNodeById "reply" ⟨.zero false, .zero false⟩ "a",
      .setLiteral ⟨0⟩ "text" (.string "hi"), .rebind published]
    let f := edits.foldl apply (new catalog)
    (∀ t ∈ catalog.entries, t.Accepts t.defaults) ∧
      (∀ e ∈ edits, ∀ t ∈ e.types, t.Accepts t.defaults) ∧
      ¬∀ n ∈ f.nodes, ∀ key ∈ Entries.keys n.literals.entries,
        (n.type.input? key).isSome = true := by
  intro reply bare catalog published edits f
  exact ⟨by decide +kernel, by decide +kernel, by decide +kernel⟩

end Flow

end CommandFlow
