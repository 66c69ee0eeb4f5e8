/-
Removing nodes.

The nodes to be removed are named by a list of handles, and what counts is which handles it names:
not their order, not how often it names one, and not whether a node has it.  The connections at the
nodes go with them.  They can be taken away node by node, whatever node comes first.  A connection
between two of the nodes goes with the first of them and is no longer there for the other, so it is
counted once.
-/
import CommandFlow.Journal.Flow
import CommandFlow.Proofs.Edit
import Mathlib.Data.List.Basic

namespace CommandFlow

/-- Whether a connection has no end at one of the nodes. -/
def Connection.avoids (c : Connection) (handles : List Handle) : Bool :=
  c.source.all (·.node ∉ handles) && c.target.all (·.node ∉ handles)

theorem Connection.any_touches (c : Connection) (handles : List Handle) :
    handles.any c.touches = !c.avoids handles := by
  obtain ⟨shape, source, target⟩ := c
  rw [Bool.eq_iff_iff, List.any_eq_true]
  cases source with
  | none => cases target <;> simp [touches, leaves, enters, avoids]
  | some p =>
      cases target with
      | none => simp [touches, leaves, enters, avoids]
      | some q =>
          simp only [touches, leaves, enters, avoids, Option.any_some, Option.all_some,
            Bool.or_eq_true, decide_eq_true_iff, Bool.not_and, decide_not, Bool.not_not]
          constructor
          · rintro ⟨h, hh, rfl | rfl⟩
            · exact Or.inl hh
            · exact Or.inr hh
          · rintro (hp | hq)
            · exact ⟨p.node, hp, Or.inl rfl⟩
            · exact ⟨q.node, hq, Or.inr rfl⟩

namespace Flow

variable {f : Flow} {handles order : List Handle}

/-- What a removal takes away and leaves, by the ends of connections. -/
theorem removeNodes_eq (f : Flow) (handles : List Handle) : f.removeNodes handles =
    { flow := { f with
        nodes := f.nodes.filter (·.handle ∉ handles)
        connections := f.connections.filter (·.avoids handles) }
      nodes := f.nodes.filter (·.handle ∈ handles)
      connections := f.connections.filter (!·.avoids handles) } := by
  simp only [removeNodes, Connection.any_touches, Bool.not_not]

/-! ### Node by node -/

/-- Takes the connections at nodes away, one node after another, and counts them. -/
def cutInTurn (f : Flow) : List Handle → Nat × Flow
  | [] => (0, f)
  | h :: rest =>
    let cut := f.removeRelated h
    let later := cut.2.cutInTurn rest
    (cut.1.length + later.1, later.2)

/-- Removes nodes with the connections at them, taking these away in the order of the list. Gives
what is left, the nodes removed and the number of connections that went with them. -/
def removeInTurn (f : Flow) (order : List Handle) : Flow × List Node × Nat :=
  let cut := f.cutInTurn order
  ({ cut.2 with nodes := cut.2.nodes.filter (·.handle ∉ order) },
    cut.2.nodes.filter (·.handle ∈ order), cut.1)

/-- What meets one of two tests is what meets the first, and of the others what meets the second. -/
theorem length_filter_or {α : Type} (p q : α → Bool) (l : List α) :
    (l.filter fun a => p a || q a).length =
      (l.filter p).length + ((l.filter (!p ·)).filter q).length := by
  rw [List.length_eq_length_filter_add p, List.filter_filter, List.filter_filter,
    List.filter_filter]
  congr 2
  · exact List.filter_congr fun a _ => by cases p a <;> simp
  · exact List.filter_congr fun a _ => by cases p a <;> simp

theorem cutInTurn_eq (order : List Handle) : ∀ f : Flow, f.cutInTurn order =
    ((f.connections.filter fun c => order.any c.touches).length,
      { f with connections := f.connections.filter fun c => !order.any c.touches }) := by
  induction order with
  | nil =>
      intro f
      simp only [cutInTurn, List.any_nil, Bool.not_false, List.filter_true, List.filter_false,
        List.length_nil]
  | cons h rest ih =>
      intro f
      have hleft : (f.connections.filter (!·.touches h)).filter (fun c => !rest.any c.touches) =
          f.connections.filter fun c => !(h :: rest).any c.touches := by
        rw [List.filter_filter]
        refine List.filter_congr fun c _ => ?_
        rw [List.any_cons, Bool.not_or, Bool.and_comm]
      rw [cutInTurn, removeRelated, ih, ← hleft]
      simp only [List.any_cons, length_filter_or]

/-- Going node by node comes to the same as removing them at once. -/
theorem removeInTurn_eq (f : Flow) (order : List Handle) : f.removeInTurn order =
    ((f.removeNodes order).flow, (f.removeNodes order).nodes,
      (f.removeNodes order).connections.length) := by
  rw [removeInTurn, cutInTurn_eq]
  rfl

/-! ### Which handles are named -/

theorem removeNodes_congr (hsame : ∀ h, h ∈ order ↔ h ∈ handles) :
    f.removeNodes order = f.removeNodes handles := by
  simp only [removeNodes_eq, Connection.avoids, hsame]

theorem flow_removeNodes_append (f : Flow) (handles more : List Handle) :
    ((f.removeNodes handles).flow.removeNodes more).flow =
      (f.removeNodes (handles ++ more)).flow := by
  simp only [removeNodes, List.filter_filter, List.any_append, List.mem_append]
  congr 1
  · refine List.filter_congr fun n _ => ?_
    rw [← Bool.decide_and, decide_eq_decide, not_or, and_comm]
  · refine List.filter_congr fun c _ => ?_
    rw [Bool.not_or, Bool.and_comm]

theorem length_connections_removeNodes (f : Flow) (handles : List Handle) :
    (f.removeNodes handles).flow.connections.length + (f.removeNodes handles).connections.length =
      f.connections.length := by
  rw [removeNodes_eq]
  exact (List.length_eq_length_filter_add _).symm

/--
**Nodes are removed as a set.**  In every flow, whatever state it is in and whatever handles are
named: removing some nodes and then others leaves what removing all of them at once leaves.  Lists
that name the same handles, in another order or more often, remove the same, and so does going
through them node by node.  The nodes removed are those named, in the order of the flow.  What is
left of the connections are those with no end at a handle that is named, in order, and nothing else
of the flow changes.  The number of connections that is reported is the number of those that are
gone.
-/
theorem nodes_are_removed_as_a_set (f : Flow) (handles more : List Handle) :
    let r := f.removeNodes handles
    (r.flow.removeNodes more).flow = (f.removeNodes (handles ++ more)).flow ∧
      (∀ order, (∀ h, h ∈ order ↔ h ∈ handles) → f.removeNodes order = r ∧
        f.removeInTurn order = (r.flow, r.nodes, r.connections.length)) ∧
      r.nodes = f.nodes.filter (·.handle ∈ handles) ∧
      r.flow = { f with
        nodes := f.nodes.filter (·.handle ∉ handles)
        connections := f.connections.filter (·.avoids handles) } ∧
      ∃ dropped, r.event = .nodesRemoved r.nodes.length dropped ∧
        r.flow.connections.length + dropped = f.connections.length := by
  intro r
  refine ⟨f.flow_removeNodes_append handles more, ?_, rfl, ?_, ?_⟩
  · intro order hsame
    have hr : f.removeNodes order = r := removeNodes_congr hsame
    exact ⟨hr, by rw [removeInTurn_eq, hr]⟩
  · exact congrArg Removal.flow (f.removeNodes_eq handles)
  · exact ⟨r.connections.length, rfl, f.length_connections_removeNodes handles⟩

/-- Four nodes in a row, of which the first two are removed: the connection between them and the one
that leads on are gone, and both are counted once, whichever node comes first. -/
theorem first_two_of_four_are_removed :
    let text : PortShape := ⟨.text, []⟩
    let relay : NodeType :=
      NodeType.withOutput (NodeType.withInput { id := "relay", title := "Relay" }
        "heard" "heard" text) "said" "said" text
    let origin : Position := ⟨.zero false, .zero false⟩
    let link (m n : Nat) : Link := ⟨⟨⟨m⟩, "said"⟩, ⟨⟨n⟩, "heard"⟩⟩
    let edits : List Edit := [.addNode relay origin "a", .addNode relay origin "b",
      .addNode relay origin "c", .addNode relay origin "d", .connect (link 0 1),
      .connect (link 1 2), .connect (link 2 3)]
    let f := edits.foldl apply (new ∅)
    let named : List Handle := [⟨1⟩, ⟨0⟩, ⟨7⟩, ⟨1⟩]
    let order : List Handle := [⟨0⟩, ⟨7⟩, ⟨1⟩]
    let r := f.removeNodes named
    f.removeNodes order = r ∧ f.removeInTurn order = (r.flow, r.nodes, r.connections.length) ∧
      r.nodes.map (·.handle) = [⟨0⟩, ⟨1⟩] ∧ r.connections.length = 2 ∧
      r.flow.connections = [.ofLink (link 2 3) text] := by
  intro text relay origin link edits f named order r
  have hsame : ∀ h, h ∈ order ↔ h ∈ named := by
    intro h
    simp only [order, named, List.mem_cons, List.not_mem_nil, or_false]
    tauto
  obtain ⟨hr, hturn⟩ := (nodes_are_removed_as_a_set f named []).2.1 order hsame
  exact ⟨hr, hturn, by decide +kernel, by decide +kernel, by decide +kernel⟩

end Flow

end CommandFlow
