/-
Following connections, backwards and forwards.

`source?` and `target?` look at the first connection they meet.  In an edited flow no other
connection enters the port, and none leaves it if it is a flow output, so the first one is the only
one.  An output that carries data may drive several inputs; of these `target?` gives one, and going
back from it leads to the output again.

A walk goes forwards from node to node.  Its loop asks only whether the next node is new, so it ends
because the nodes it has listed are different nodes of the flow: it makes as many turns as it lists
nodes, and there are no more of these than the flow has.  All this needs is that connections end at
nodes, so it holds of loaded flows too, whatever is wrong with them.
-/
import CommandFlow.Proofs.Flow.Walks
import Mathlib.Data.List.Pairwise
import Mathlib.Data.List.Perm.Subperm

namespace CommandFlow

namespace Flow

variable {f : Flow}

/-! ### The only connection at a port -/

theorem joins_mk_iff {c : Connection} {p q : Endpoint} :
    c.joins ⟨p, q⟩ = true ↔ c.source = some p ∧ c.target = some q := by
  simp [Connection.joins]

/-- What `source?` gives is at the other end of a connection. -/
theorem exists_joins_of_source? {p q : Endpoint} (h : f.source? q = some p) :
    ∃ c ∈ f.connections, c.joins ⟨p, q⟩ = true := by
  obtain ⟨c, hc, hsource⟩ := Option.bind_eq_some_iff.1 h
  have htarget : c.target = some q := by simpa using List.find?_some hc
  exact ⟨c, List.mem_of_find?_eq_some hc, joins_mk_iff.2 ⟨hsource, htarget⟩⟩

/-- What `target?` gives is at the other end of a connection. -/
theorem exists_joins_of_target? {p q : Endpoint} (h : f.target? p = some q) :
    ∃ c ∈ f.connections, c.joins ⟨p, q⟩ = true := by
  obtain ⟨c, hc, htarget⟩ := Option.bind_eq_some_iff.1 h
  have hsource : c.source = some p := by simpa using List.find?_some hc
  exact ⟨c, List.mem_of_find?_eq_some hc, joins_mk_iff.2 ⟨hsource, htarget⟩⟩

theorem Wired.source?_eq_some_iff (hwired : f.Wired) {p q : Endpoint} :
    f.source? q = some p ↔ ∃ c ∈ f.connections, c.joins ⟨p, q⟩ = true := by
  refine ⟨exists_joins_of_source?, ?_⟩
  rintro ⟨c, hc, hjoins⟩
  obtain ⟨hsource, htarget⟩ := joins_mk_iff.1 hjoins
  have hfind : f.connections.find? (·.target = some q) = some c := by
    refine find?_eq_some_of_unique hc (by simpa using htarget) fun d hd hdq => ?_
    have hdq : d.target = some q := by simpa using hdq
    exact hwired.eq_of_target hd hc (hdq.trans htarget.symm)
  rw [source?, hfind, Option.bind_some, hsource]

/-- No two connections leave the same flow output. -/
theorem Wired.eq_of_flowSource (hwired : f.Wired) {c d : Connection} {p : Endpoint}
    (hflow : f.isFlowOutput p = true) (hc : c ∈ f.connections) (hd : d ∈ f.connections)
    (hcp : c.source = some p) (hdp : d.source = some p) : c = d := by
  -- Both carry what the output declares, so both carry control.
  have hcflow := isFlowOutput_of_offered? ((hwired.fits c hc).offered? hcp)
  have hdflow := isFlowOutput_of_offered? ((hwired.fits d hd).offered? hdp)
  have hsymm : Std.Symm fun c d : Connection =>
      c.shape.isFlow = true → d.shape.isFlow = true → c.source ≠ d.source :=
    ⟨fun _ _ hdiffer hd hc heq => hdiffer hc hd heq.symm⟩
  by_contra hne
  exact hwired.sources.forall hc hd hne (hcflow.symm.trans hflow) (hdflow.symm.trans hflow)
    (hcp.trans hdp.symm)

theorem Wired.target?_eq_some_iff (hwired : f.Wired) {p q : Endpoint}
    (hflow : f.isFlowOutput p = true) :
    f.target? p = some q ↔ ∃ c ∈ f.connections, c.joins ⟨p, q⟩ = true := by
  refine ⟨exists_joins_of_target?, ?_⟩
  rintro ⟨c, hc, hjoins⟩
  obtain ⟨hsource, htarget⟩ := joins_mk_iff.1 hjoins
  have hfind : f.connections.find? (·.source = some p) = some c := by
    refine find?_eq_some_of_unique hc (by simpa using hsource) fun d hd hdp => ?_
    exact hwired.eq_of_flowSource hflow hd hc (by simpa using hdp) hsource
  rw [target?, hfind, Option.bind_some, htarget]

/--
**Going back along a connection and going forwards agree.**  Whatever the edits were: an input is
driven by a port exactly if a connection joins the two; from where an output leads, going back leads
to the output; and a flow output leads to an input exactly if a connection joins the two.
-/
theorem connections_lead_back_and_forth (catalog : Catalog) (edits : List Edit) (p q : Endpoint) :
    let f := edits.foldl apply (new catalog)
    (f.source? q = some p ↔ ∃ c ∈ f.connections, c.joins ⟨p, q⟩ = true) ∧
      (f.target? p = some q → f.source? q = some p) ∧
      (f.isFlowOutput p = true →
        (f.target? p = some q ↔ ∃ c ∈ f.connections, c.joins ⟨p, q⟩ = true)) := by
  intro f
  have hwired : f.Wired := wired_of_edits catalog edits
  refine ⟨hwired.source?_eq_some_iff, ?_, hwired.target?_eq_some_iff⟩
  intro htarget
  exact hwired.source?_eq_some_iff.2 (exists_joins_of_target? htarget)

/-- A text drives two inputs, and a step that led to a second one now leads to a third: going back
from either input leads to the text, and forwards the text leads to the first of them only. -/
theorem connections_lead_back_and_forth_where_they_fork :
    let text : PortShape := ⟨.text, []⟩
    let say : NodeType := NodeType.withOutput { id := "say", title := "Say" } "said" "said" text
    let tell : NodeType := NodeType.withInput { id := "tell", title := "Tell" } "text" "text" text
    let step : NodeType :=
      NodeType.withFlowOut (NodeType.withFlowIn { id := "step", title := "Step" })
    let place (type : NodeType) : Edit := .addNode type ⟨.zero false, .zero false⟩ ""
    let said : Endpoint := ⟨⟨0⟩, "said"⟩
    let input (n : Nat) : Endpoint := ⟨⟨n⟩, "text"⟩
    let done : Endpoint := ⟨⟨3⟩, flowOutKey⟩
    let run (n : Nat) : Endpoint := ⟨⟨n⟩, flowInKey⟩
    let edits := [place say, place tell, place tell, place step, place step, place step,
      .connect ⟨said, input 1⟩, .connect ⟨said, input 2⟩,
      .connect ⟨done, run 4⟩, .connect ⟨done, run 5⟩]
    let f := edits.foldl apply (new ∅)
    f.target? said = some (input 1) ∧ f.source? (input 1) = some said ∧
      f.source? (input 2) = some said ∧ (∃ c ∈ f.connections, c.joins ⟨said, input 2⟩ = true) ∧
      f.isFlowOutput done = true ∧ f.target? done = some (run 5) ∧
      ¬∃ c ∈ f.connections, c.joins ⟨done, run 4⟩ = true := by
  intro text say tell step place said input done run edits f
  have hfirst : f.target? said = some (input 1) := by decide +kernel
  have hsecond : f.source? (input 2) = some said := by decide +kernel
  have hflow : f.isFlowOutput done = true := by decide +kernel
  have hlast : f.target? done = some (run 5) := by decide +kernel
  refine ⟨hfirst, ?_, hsecond, ?_, hflow, hlast, ?_⟩
  · exact (connections_lead_back_and_forth ∅ edits said (input 1)).2.1 hfirst
  · exact (connections_lead_back_and_forth ∅ edits said (input 2)).1.1 hsecond
  · rw [← (connections_lead_back_and_forth ∅ edits done (run 4)).2.2 hflow]
    show f.target? done ≠ some (run 4)
    rw [hlast]
    decide

/-! ### Walks, turn by turn -/

/-- The nodes listed when a walk stops, if it does within a number of turns.  A turn looks where
control goes from the last node and lists that node too, unless it is listed already. -/
def walkWithin (f : Flow) : Nat → List Handle → Handle → Option (List Handle)
  | 0, _, _ => none
  | turns + 1, listed, last =>
    match f.next? last with
    | none => some listed
    | some next =>
      if next ∈ listed then some listed else f.walkWithin turns (listed ++ [next]) next

/-- A walk stops after one turn for each node that it lists from the last one on. -/
theorem walkWithin_eq {earlier visited : List Handle} {h : Handle}
    (hsame : ∀ k, k ∈ earlier ++ [h] ↔ k ∈ visited) (turns : Nat) :
    f.walkWithin turns (earlier ++ [h]) h =
      if (f.runFrom visited h).length ≤ turns then some (earlier ++ f.runFrom visited h)
      else none := by
  fun_induction runFrom f visited h generalizing earlier turns with
  | case1 visited h hnext =>
      cases turns with
      | zero => rfl
      | succ turns => simp [walkWithin, hnext]
  | case2 visited h next hnext hold =>
      cases turns with
      | zero => rfl
      | succ turns => simp only [walkWithin, hnext, (hsame next).2 hold, if_true]; simp
  | case3 visited h next hnext hnew _ ih =>
      cases turns with
      | zero => rfl
      | succ turns =>
          -- The loop has listed the nodes that the run has visited, in the other order.
          have hnot : next ∉ earlier ++ [h] := fun hmem => hnew ((hsame next).1 hmem)
          have hsame' : ∀ k, k ∈ earlier ++ [h] ++ [next] ↔ k ∈ next :: visited := by
            intro k
            rw [List.mem_append, hsame k, List.mem_singleton, List.mem_cons, or_comm]
          simp only [walkWithin, hnext, if_neg hnot]
          rw [ih hsame' turns, List.length_cons, List.append_assoc, List.singleton_append]
          simp only [Nat.add_le_add_iff_right]

theorem walkWithin_controlSequence {s : Handle} {n : Node} (hs : f.node? s = some n) (turns : Nat) :
    f.walkWithin turns [s] s =
      if (f.controlSequence s).length ≤ turns then some (f.controlSequence s) else none := by
  have hsame : ∀ k, k ∈ [] ++ [s] ↔ k ∈ [s] := fun _ => Iff.rfl
  rw [controlSequence_of_node? hs]
  exact walkWithin_eq hsame turns

theorem next?_of_target? {h : Handle} {p : Endpoint}
    (htarget : f.target? ⟨h, flowOutKey⟩ = some p) :
    f.next? h = if p.key = flowInKey then some p.node else none := by
  rw [next?, htarget]

theorem next?_eq_some_iff {h k : Handle} :
    f.next? h = some k ↔ f.target? ⟨h, flowOutKey⟩ = some ⟨k, flowInKey⟩ := by
  cases htarget : f.target? ⟨h, flowOutKey⟩ with
  | none => simp [next?, htarget]
  | some p =>
      obtain ⟨node, key⟩ := p
      rw [next?_of_target? htarget]
      simp [and_comm]

theorem Runs.isChain {h : Handle} {w : List Handle} {exit : Option Handle}
    (hrun : f.Runs h w exit) :
    w.IsChain fun a b => f.target? ⟨a, flowOutKey⟩ = some ⟨b, flowInKey⟩ := by
  induction hrun with
  | last h => exact .singleton h
  | step hnext hrest ih =>
      obtain ⟨rest, rfl⟩ := hrest.eq_cons
      exact .cons_cons (next?_eq_some_iff.1 hnext) ih

/-- A walk stops where control goes nowhere, to another port, or to a node that it has listed. -/
theorem IsWalk.stops {h last : Handle} {w : List Handle} {exit : Option Handle}
    (hwalk : f.IsWalk [] h w exit) (hlast : w.getLast? = some last) :
    f.target? ⟨last, flowOutKey⟩ = none ∨
      ∃ p, f.target? ⟨last, flowOutKey⟩ = some p ∧ (p.key ≠ flowInKey ∨ p.node ∈ w) := by
  cases htarget : f.target? ⟨last, flowOutKey⟩ with
  | none => exact Or.inl rfl
  | some p =>
      refine Or.inr ⟨p, rfl, ?_⟩
      by_cases hkey : p.key = flowInKey
      · refine Or.inr (hwalk.closed p.node ?_)
        rw [hwalk.runs.exit_eq, hlast, Option.bind_some, next?_of_target? htarget, if_pos hkey]
      · exact Or.inl hkey

theorem controlSequence_eq_nil_iff {start : Handle} :
    f.controlSequence start = [] ↔ start ∉ f.handles := by
  rw [← node?_eq_none_iff]
  cases hs : f.node? start with
  | none => simp [controlSequence, hs]
  | some n =>
      obtain ⟨rest, hrest⟩ := (isWalk_controlSequence hs).runs.eq_cons
      simp [hrest]

/--
**A walk ends, and goes as far as it can.**  In a flow whose connections end at its nodes, whatever
else is wrong with it: nothing is listed exactly if the start is no node of the flow.  Otherwise the
loop stops after one turn for each node listed.  The list begins with the start, has no node twice and
only nodes of the flow, so it is no longer than the list of these.  From each node listed a flow
connection leads to the next one, and from the last one none leads on: there is no connection, or it
enters another port, or a node that is listed.
-/
theorem control_goes_as_far_as_it_can (f : Flow) (hanchored : f.Anchored) (start : Handle) :
    let w := f.controlSequence start
    (w = [] ↔ start ∉ f.handles) ∧
      (start ∈ f.handles → w.head? = some start ∧
        ∀ turns, f.walkWithin turns [start] start = if w.length ≤ turns then some w else none) ∧
      w.Nodup ∧ (∀ h ∈ w, h ∈ f.handles) ∧ w.length ≤ f.nodes.length ∧
      (w.IsChain fun a b => f.target? ⟨a, flowOutKey⟩ = some ⟨b, flowInKey⟩) ∧
      ∀ last, w.getLast? = some last → f.target? ⟨last, flowOutKey⟩ = none ∨
        ∃ p, f.target? ⟨last, flowOutKey⟩ = some p ∧ (p.key ≠ flowInKey ∨ p.node ∈ w) := by
  intro w
  refine ⟨controlSequence_eq_nil_iff, ?_⟩
  by_cases hstart : start ∈ f.handles
  · obtain ⟨n, hn⟩ := mem_handles_iff.1 hstart
    have hwalk : f.IsWalk [] start w (f.walkExit? start) := isWalk_controlSequence hn
    have hmem : ∀ h ∈ w, h ∈ f.handles := fun h hh =>
      hanchored.mem_handles_of_mem hstart hwalk.runs hh
    have hlength : w.length ≤ f.nodes.length := by
      have hle := (List.Nodup.subperm hwalk.nodup hmem).length_le
      rwa [handles, List.length_map] at hle
    refine ⟨fun _ => ⟨?_, fun turns => ?_⟩, hwalk.nodup, hmem, hlength, hwalk.runs.isChain,
      fun last hlast => hwalk.stops hlast⟩
    · obtain ⟨rest, hrest⟩ := hwalk.runs.eq_cons
      rw [hrest, List.head?_cons]
    · exact walkWithin_controlSequence hn turns
  · have hnil : w = [] := controlSequence_eq_nil_iff.2 hstart
    refine ⟨fun hmem => absurd hmem hstart, ?_⟩
    rw [hnil]
    exact ⟨List.nodup_nil, by simp, Nat.zero_le _, .nil, by simp⟩

/-- Three steps of which the last leads back to the second, and a fourth whose connection to the
first stands behind one without a target: both walks end, the one because it comes back to a node
inside it and the other because nothing is at the end of the connection it follows. -/
theorem control_goes_as_far_as_it_can_in_tangle :
    let step : NodeType :=
      NodeType.withFlowOut (NodeType.withFlowIn { id := "step", title := "Step" })
    let place (n : Nat) : Node := ⟨⟨n⟩, "", step, ⟨.zero false, .zero false⟩, ∅⟩
    let join (m n : Nat) : Connection :=
      .ofLink ⟨⟨⟨m⟩, flowOutKey⟩, ⟨⟨n⟩, flowInKey⟩⟩ ⟨.flow, []⟩
    let f : Flow :=
      { nodes := [place 0, place 1, place 2, place 3]
        connections := [join 0 1, join 1 2, join 2 1,
          ⟨⟨.flow, []⟩, some ⟨⟨3⟩, flowOutKey⟩, none⟩, join 3 0]
        catalog := ∅
        optionTypes := ∅
        nextHandle := 4 }
    let listed : List Handle := [⟨0⟩, ⟨1⟩, ⟨2⟩]
    f.Anchored ∧ f.isConsistent = false ∧ f.pending = [3] ∧
      f.controlSequence ⟨0⟩ = listed ∧
      (∀ turns, f.walkWithin turns [⟨0⟩] ⟨0⟩ = if 3 ≤ turns then some listed else none) ∧
      (∃ p, f.target? ⟨⟨2⟩, flowOutKey⟩ = some p ∧ (p.key ≠ flowInKey ∨ p.node ∈ listed)) ∧
      f.controlSequence ⟨3⟩ = [⟨3⟩] ∧ f.target? ⟨⟨3⟩, flowOutKey⟩ = none ∧
      f.controlSequence ⟨4⟩ = [] := by
  intro step place join f listed
  have hanchored : f.Anchored := by decide +kernel
  have hlisted : f.controlSequence ⟨0⟩ = listed := by decide +kernel
  obtain ⟨-, hloop, -, -, -, -, hstop⟩ := control_goes_as_far_as_it_can f hanchored ⟨0⟩
  rw [hlisted] at hloop hstop
  refine ⟨hanchored, by decide +kernel, by decide +kernel, hlisted, ?_, ?_, by decide +kernel,
    by decide +kernel, ?_⟩
  · exact (hloop (by decide +kernel)).2
  · exact (hstop ⟨2⟩ rfl).resolve_left (by decide +kernel)
  · exact (control_goes_as_far_as_it_can f hanchored ⟨4⟩).1.2 (by decide +kernel)

end Flow

end CommandFlow
