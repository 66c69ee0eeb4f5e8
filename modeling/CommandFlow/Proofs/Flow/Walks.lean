/-
Where control goes in an edited flow.

`Runs` says that control goes through some nodes one after the other and where it goes from the last
of them.  A run that ends where another begins is continued by it, so a run can be cut at any of its
nodes and put together again the other way round.  The nodes that `controlSequence` lists are the
one run that visits no node twice and cannot go on to a new one (`IsWalk`).

In an edited flow no input has two sources, so control enters a node from one node at most.  A walk
that came back to a node inside it would enter that node from two.
-/
import CommandFlow.Flow.Walk
import CommandFlow.Proofs.Flow.Consistent
import CommandFlow.Proofs.Flow.Numbered
import Mathlib.Data.List.Nodup

namespace CommandFlow

namespace Flow

variable {f : Flow}

/-! ### Runs -/

/-- Control that enters a node goes through the listed nodes, and from the last of them to the given
node, if to any. -/
inductive Runs (f : Flow) : Handle → List Handle → Option Handle → Prop
  | last (h : Handle) : Runs f h [h] (f.next? h)
  | step {h k : Handle} {w : List Handle} {exit : Option Handle} (hnext : f.next? h = some k)
      (hrest : Runs f k w exit) : Runs f h (h :: w) exit

theorem Runs.eq_cons {h : Handle} {w : List Handle} {exit : Option Handle}
    (hrun : f.Runs h w exit) : ∃ rest, w = h :: rest := by
  cases hrun with
  | last => exact ⟨[], rfl⟩
  | step hnext hrest => exact ⟨_, rfl⟩

/-- Where control goes from the last node of a run is where it goes from the run. -/
theorem Runs.exit_eq {h : Handle} {w : List Handle} {exit : Option Handle}
    (hrun : f.Runs h w exit) : exit = w.getLast?.bind f.next? := by
  induction hrun with
  | last h => rfl
  | step hnext hrest ih =>
      obtain ⟨rest, rfl⟩ := hrest.eq_cons
      rw [List.getLast?_cons_cons]
      exact ih

theorem Runs.exists_next? {h k : Handle} {w : List Handle} (hrun : f.Runs h w (some k)) :
    ∃ last ∈ w, f.next? last = some k := by
  obtain ⟨last, hlast, hnext⟩ := Option.bind_eq_some_iff.1 hrun.exit_eq.symm
  exact ⟨last, List.mem_of_getLast? hlast, hnext⟩

/-- A run is continued by one that begins where it goes. -/
theorem Runs.append {h k : Handle} {v w : List Handle} {exit : Option Handle}
    (hv : f.Runs h v (some k)) (hw : f.Runs k w exit) : f.Runs h (v ++ w) exit := by
  generalize hexit : some k = middle at hv
  induction hv with
  | last h => exact .step hexit.symm hw
  | step hnext _ ih => exact .step hnext (ih hexit)

/-- A run can be cut at any of its nodes. -/
theorem Runs.cut {h t : Handle} {before after : List Handle} {exit : Option Handle}
    (hrun : f.Runs h (before ++ t :: after) exit) :
    f.Runs t (t :: after) exit ∧
      (before = [] ∧ h = t ∨ f.Runs h before (some t)) := by
  induction before generalizing h with
  | nil =>
      obtain ⟨rest, hrest⟩ := hrun.eq_cons
      obtain rfl : t = h := List.head_eq_of_cons_eq hrest
      exact ⟨hrun, Or.inl ⟨rfl, rfl⟩⟩
  | cons a rest ih =>
      generalize hw : a :: rest ++ t :: after = w at hrun
      cases hrun with
      | last =>
          exact absurd (List.tail_eq_of_cons_eq hw) (by simp)
      | step hnext hrest =>
          obtain ⟨rfl, rfl⟩ := List.cons.inj hw
          obtain ⟨hafter, ⟨rfl, rfl⟩ | hbefore⟩ := ih hrest
          · exact ⟨hafter, Or.inr (hnext ▸ .last a)⟩
          · exact ⟨hafter, Or.inr (.step hnext hbefore)⟩

/-! ### Walks -/

/-- A run that visits no node twice and goes nowhere new. The earlier nodes count as visited. -/
structure IsWalk (f : Flow) (earlier : List Handle) (h : Handle) (w : List Handle)
    (exit : Option Handle) : Prop where
  runs : f.Runs h w exit
  nodup : (earlier ++ w).Nodup
  /-- Where control goes from the last node was visited before. -/
  closed : ∀ k, exit = some k → k ∈ earlier ++ w

/-- What is listed from a node on is a walk. -/
theorem exists_isWalk_runFrom {h : Handle} {earlier : List Handle} (hnodup : (h :: earlier).Nodup) :
    ∃ exit, f.IsWalk earlier h (f.runFrom (h :: earlier) h) exit := by
  generalize hvisited : h :: earlier = visited at hnodup
  have hperm : (earlier ++ [h]).Perm visited := hvisited ▸ List.perm_append_singleton h earlier
  fun_induction runFrom f visited h generalizing earlier with
  | case1 visited h hnext =>
      exact ⟨none, hnext ▸ .last h, hperm.nodup_iff.2 hnodup, fun k hk => absurd hk (by simp)⟩
  | case2 visited h next hnext hold =>
      refine ⟨some next, hnext ▸ .last h, hperm.nodup_iff.2 hnodup, ?_⟩
      rintro k ⟨⟩
      exact hperm.mem_iff.2 hold
  | case3 visited h next hnext hnew _ ih =>
      obtain ⟨exit, hrest⟩ := ih rfl (List.nodup_cons.2 ⟨hnew, hnodup⟩)
        (List.perm_append_singleton next visited)
      -- The node stands before the rest of the walk as it stood among the nodes visited.
      rw [← hvisited] at hrest ⊢
      have hmove : (earlier ++ h :: f.runFrom (next :: h :: earlier) next).Perm
          (h :: earlier ++ f.runFrom (next :: h :: earlier) next) := List.perm_middle
      exact ⟨exit, .step hnext hrest.runs, hmove.nodup_iff.2 hrest.nodup,
        fun k hk => hmove.mem_iff.2 (hrest.closed k hk)⟩

/-- There is no other walk. -/
theorem IsWalk.runFrom_eq {earlier w : List Handle} {h : Handle} {exit : Option Handle}
    (hwalk : f.IsWalk earlier h w exit) : f.runFrom (h :: earlier) h = w := by
  obtain ⟨hrun, hnodup, hclosed⟩ := hwalk
  induction hrun generalizing earlier with
  | last h =>
      unfold runFrom
      split
      · rfl
      · rename_i next hnext
        have hold : next ∈ earlier ++ [h] := hclosed next hnext
        rw [dif_pos ((List.perm_append_singleton h earlier).mem_iff.1 hold)]
  | @step h k w exit hnext hrest ih =>
      have hmove : (earlier ++ h :: w).Perm (h :: earlier ++ w) := List.perm_middle
      have hnodup' : (h :: earlier ++ w).Nodup := hmove.nodup_iff.1 hnodup
      obtain ⟨rest, hw⟩ := hrest.eq_cons
      have hnew : k ∉ h :: earlier := fun hk =>
        List.disjoint_of_nodup_append hnodup' hk (hw ▸ List.mem_cons_self)
      have htail : f.runFrom (k :: h :: earlier) k = w :=
        ih hnodup' fun j hj => hmove.mem_iff.1 (hclosed j hj)
      unfold runFrom
      split
      · rename_i hnone
        exact absurd (hnone.symm.trans hnext) (by simp)
      · rename_i next hnext'
        obtain rfl : next = k := Option.some.inj (hnext'.symm.trans hnext)
        rw [dif_neg hnew, htail]

/-- The node to which control goes from the last node of a walk, if to any. -/
def walkExit? (f : Flow) (s : Handle) : Option Handle :=
  (f.controlSequence s).getLast?.bind f.next?

theorem controlSequence_of_node? {s : Handle} {n : Node} (hs : f.node? s = some n) :
    f.controlSequence s = f.runFrom [s] s := by
  unfold controlSequence
  rw [hs]

theorem isWalk_controlSequence {s : Handle} {n : Node} (hs : f.node? s = some n) :
    f.IsWalk [] s (f.controlSequence s) (f.walkExit? s) := by
  obtain ⟨exit, hwalk⟩ := exists_isWalk_runFrom (f := f) (List.nodup_singleton s)
  rw [walkExit?, controlSequence_of_node? hs, ← hwalk.runs.exit_eq]
  exact hwalk

theorem IsWalk.controlSequence_eq {s : Handle} {n : Node} {w : List Handle} {exit : Option Handle}
    (hwalk : f.IsWalk [] s w exit) (hs : f.node? s = some n) : f.controlSequence s = w := by
  rw [controlSequence_of_node? hs]
  exact hwalk.runFrom_eq

/-! ### Walks in edited flows -/

/-- No two connections of an edited flow end at the same port. -/
theorem Wired.eq_of_target (hwired : f.Wired) {c d : Connection} (hc : c ∈ f.connections)
    (hd : d ∈ f.connections) (htarget : c.target = d.target) : c = d :=
  List.inj_on_of_nodup_map (List.pairwise_map.2 hwired.targets) hc hd htarget

/-- Control enters a node from one node only. -/
theorem Wired.next?_inj (hwired : f.Wired) {h h' k : Handle} (hnext : f.next? h = some k)
    (hnext' : f.next? h' = some k) : h = h' := by
  obtain ⟨c, hc, hsource, htarget⟩ := exists_connection_of_next? hnext
  obtain ⟨d, hd, hsource', htarget'⟩ := exists_connection_of_next? hnext'
  have hsame : c = d := hwired.eq_of_target hc hd (htarget.trans htarget'.symm)
  have hport : (⟨h, flowOutKey⟩ : Endpoint) = ⟨h', flowOutKey⟩ :=
    Option.some.inj (hsource.symm.trans ((congrArg Connection.source hsame).trans hsource'))
  exact congrArg Endpoint.node hport

/-- Control goes to nodes of the flow. -/
theorem Anchored.mem_handles_of_next? (hanchored : f.Anchored) {h k : Handle}
    (hnext : f.next? h = some k) : k ∈ f.handles := by
  obtain ⟨c, hc, -, htarget⟩ := exists_connection_of_next? hnext
  exact hanchored c hc k (touches_of_end (Or.inr htarget))

/-- Every node of a run from a node of the flow is one. -/
theorem Anchored.mem_handles_of_mem (hanchored : f.Anchored) {s t : Handle} {w : List Handle}
    {exit : Option Handle} (hs : s ∈ f.handles) (hrun : f.Runs s w exit) (ht : t ∈ w) :
    t ∈ f.handles := by
  obtain ⟨before, after, rfl⟩ := List.append_of_mem ht
  obtain ⟨-, ⟨-, rfl⟩ | hbefore⟩ := hrun.cut
  · exact hs
  · obtain ⟨last, -, hnext⟩ := hbefore.exists_next?
    exact hanchored.mem_handles_of_next? hnext

theorem Wired.exists_node?_of_mem (hwired : f.Wired) {s t : Handle} {n : Node} {w : List Handle}
    {exit : Option Handle} (hs : f.node? s = some n) (hrun : f.Runs s w exit) (ht : t ∈ w) :
    ∃ m, f.node? t = some m :=
  mem_handles_iff.1 (hwired.anchored.mem_handles_of_mem (mem_handles_iff.2 ⟨n, hs⟩) hrun ht)

/-- A walk that comes back comes back to where it began. -/
theorem Wired.exit_eq_start (hwired : f.Wired) {s k : Handle} {w : List Handle}
    (hwalk : f.IsWalk [] s w (some k)) : k = s := by
  obtain ⟨before, after, rfl⟩ := List.append_of_mem (hwalk.closed k rfl)
  obtain ⟨hafter, ⟨-, hk⟩ | hbefore⟩ := hwalk.runs.cut
  · exact hk.symm
  · -- Otherwise control would enter the node from one before it and from one behind it.
    obtain ⟨a, ha, hnexta⟩ := hbefore.exists_next?
    obtain ⟨b, hb, hnextb⟩ := hafter.exists_next?
    obtain rfl := hwired.next?_inj hnexta hnextb
    have hnodup : (before ++ k :: after).Nodup := hwalk.nodup
    exact absurd hb (List.disjoint_of_nodup_append hnodup ha)

/-- A walk that ends leaves, from each of its nodes on, the walk from there. -/
theorem IsWalk.suffix {s t : Handle} {before after : List Handle}
    (hwalk : f.IsWalk [] s (before ++ t :: after) none) : f.IsWalk [] t (t :: after) none where
  runs := hwalk.runs.cut.1
  nodup := hwalk.nodup.sublist (List.sublist_append_right before (t :: after))
  closed _ hk := absurd hk (by simp)

/-- A walk that comes back to its start is, turned round, the walk from each of its nodes. -/
theorem IsWalk.rotate {s t : Handle} {before after : List Handle}
    (hwalk : f.IsWalk [] s (before ++ t :: after) (some s)) :
    f.IsWalk [] t (t :: after ++ before) (some t) := by
  have hturn : (before ++ t :: after).Perm (t :: after ++ before) := List.perm_append_comm
  refine ⟨?_, hturn.nodup_iff.1 hwalk.nodup, ?_⟩
  · obtain ⟨hafter, ⟨rfl, rfl⟩ | hbefore⟩ := hwalk.runs.cut
    · rw [List.append_nil]
      exact hafter
    · exact hafter.append hbefore
  · rintro k ⟨⟩
    exact List.mem_cons_self

/--
**Walks in an edited flow agree with each other.**  Whatever the edits were, the walk from a node of
the flow begins there, has no node twice, and if it comes back it comes back to where it began,
never to a node inside it.  Take a node on the walk from another.  Either that walk ends, and from
the node on it is the walk from there, or it comes back to its own start, and turned round it is the
walk from there.
-/
theorem walks_agree (catalog : Catalog) (edits : List Edit) (s : Handle) :
    let f := edits.foldl apply (new catalog)
    (∀ n, f.node? s = some n → (f.controlSequence s).head? = some s) ∧
      (f.controlSequence s).Nodup ∧ (∀ k, f.walkExit? s = some k → k = s) ∧
      ∀ t ∈ f.controlSequence s, ∃ before after, f.controlSequence s = before ++ t :: after ∧
        (f.walkExit? s = none ∧ f.controlSequence t = t :: after ∨
          f.walkExit? s = some s ∧ f.controlSequence t = t :: after ++ before) := by
  intro f
  have hwired : f.Wired := wired_of_edits catalog edits
  cases hs : f.node? s with
  | none =>
      have hnil : f.controlSequence s = [] := by
        unfold controlSequence
        rw [hs]
      simp [walkExit?, hnil]
  | some n =>
      have hwalk := isWalk_controlSequence hs
      have hexit : ∀ k, f.walkExit? s = some k → k = s := fun k hk =>
        hwired.exit_eq_start (hk ▸ hwalk)
      refine ⟨fun _ _ => ?_, hwalk.nodup, hexit, fun t ht => ?_⟩
      · obtain ⟨rest, hrest⟩ := hwalk.runs.eq_cons
        rw [hrest, List.head?_cons]
      · obtain ⟨m, hm⟩ := hwired.exists_node?_of_mem hs hwalk.runs ht
        obtain ⟨before, after, hsplit⟩ := List.append_of_mem ht
        rw [hsplit] at hwalk
        refine ⟨before, after, hsplit, ?_⟩
        cases hk : f.walkExit? s with
        | none => exact Or.inl ⟨rfl, (hk ▸ hwalk).suffix.controlSequence_eq hm⟩
        | some k =>
            obtain rfl := hexit k hk
            exact Or.inr ⟨rfl, (hk ▸ hwalk).rotate.controlSequence_eq hm⟩

/-- Three steps in a ring and two in a row: the walk from the second step of the ring is the walk
from the first, turned round, and the walk from the second step of the row is the end of the walk
from the first. -/
theorem walks_agree_in_ring_and_row :
    let step : NodeType :=
      NodeType.withFlowOut (NodeType.withFlowIn { id := "step", title := "Step" })
    let origin : Position := ⟨.zero false, .zero false⟩
    let place (uid : String) : Edit := .addNode step origin uid
    let join (m n : Nat) : Edit := .connect ⟨⟨⟨m⟩, flowOutKey⟩, ⟨⟨n⟩, flowInKey⟩⟩
    let edits := [place "a", place "b", place "c", place "d", place "e",
      join 0 1, join 1 2, join 2 0, join 3 4]
    let f := edits.foldl apply (new ∅)
    let Agree (s t : Handle) : Prop :=
      ∃ before after, f.controlSequence s = before ++ t :: after ∧
        (f.walkExit? s = none ∧ f.controlSequence t = t :: after ∨
          f.walkExit? s = some s ∧ f.controlSequence t = t :: after ++ before)
    f.controlSequence ⟨0⟩ = [⟨0⟩, ⟨1⟩, ⟨2⟩] ∧ f.controlSequence ⟨1⟩ = [⟨1⟩, ⟨2⟩, ⟨0⟩] ∧
      f.walkExit? ⟨0⟩ = some ⟨0⟩ ∧ Agree ⟨0⟩ ⟨1⟩ ∧
      f.controlSequence ⟨3⟩ = [⟨3⟩, ⟨4⟩] ∧ f.controlSequence ⟨4⟩ = [⟨4⟩] ∧
      f.walkExit? ⟨3⟩ = none ∧ Agree ⟨3⟩ ⟨4⟩ := by
  intro step origin place join edits f Agree
  refine ⟨by decide +kernel, by decide +kernel, by decide +kernel, ?_, by decide +kernel,
    by decide +kernel, by decide +kernel, ?_⟩
  · exact (walks_agree ∅ edits ⟨0⟩).2.2.2 ⟨1⟩ (by decide +kernel)
  · exact (walks_agree ∅ edits ⟨3⟩).2.2.2 ⟨4⟩ (by decide +kernel)

end Flow

end CommandFlow
