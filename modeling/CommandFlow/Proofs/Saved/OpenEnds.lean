/-
What connections with an open end do to the report of a loaded flow.

An end that leads to no node is left open, and its connection is pending.  A pending connection is
not checked, so it is never named as one that would be refused.  Its other end counts all the same:
two pending connections at one input are reported as several sources of it.  So pending connections
can add ports to the report, and change the order in which it comes to them, but nothing else.

A loaded end stands on the last node with its uid, so the uid and the key of a port tell it from all
other ports at which connections were loaded.  That is why reports can be compared by their texts.
-/
import CommandFlow.Proofs.Flow.Report
import CommandFlow.Proofs.Saved.UidLookup

namespace CommandFlow

/-- The fault with the position of a connection read off a list of positions. -/
def Violation.renumbered (positions : List Nat) : Violation → Violation
  | .invalidConnection index reason => .invalidConnection (positions.getD index index) reason
  | .sharedInput uid key => .sharedInput uid key
  | .flowFanOut uid key => .flowFanOut uid key

/-- The port, whatever its role. -/
def PortUse.port : PortUse → Endpoint
  | .input p => p
  | .output p => p

/-- Lists with the same image are the same if the map tells their elements apart. -/
theorem map_eq_map_iff_of_inj {α β : Type} {view : α → β} {as bs : List α}
    (h : ∀ a ∈ as, ∀ b ∈ bs, view a = view b → a = b) : as.map view = bs.map view ↔ as = bs := by
  refine ⟨fun heq => ?_, congrArg _⟩
  induction as generalizing bs with
  | nil => exact (List.map_eq_nil_iff.1 heq.symm).symm
  | cons a as ih =>
      obtain ⟨b, bs, rfl, hview, hrest⟩ := List.map_eq_cons_iff.1 heq.symm
      have hsame : as = bs := ih (fun a ha b hb => h a (List.mem_cons_of_mem _ ha) b
        (List.mem_cons_of_mem _ hb)) hrest.symm
      rw [h a List.mem_cons_self b List.mem_cons_self hview.symm, hsame]

namespace Flow

variable {f : Flow}

/-! ### A flow without its pending connections -/

/-- The flow with the connections that have both ends. -/
def withoutPending (f : Flow) : Flow :=
  { f with connections := f.connections.filter (!·.isPending) }

/-- The connections that have both ends, with their positions. -/
def complete (f : Flow) : List (Connection × Nat) :=
  f.connections.zipIdx.filter (!·.1.isPending)

/-- The positions of the connections that have both ends. -/
def completePositions (f : Flow) : List Nat :=
  f.complete.map (·.2)

theorem connections_withoutPending (f : Flow) :
    f.withoutPending.connections = f.complete.map (·.1) := by
  calc f.withoutPending.connections
      = (f.connections.zipIdx.map (·.1)).filter (!·.isPending) := by
        rw [List.zipIdx_map_fst]
        rfl
    _ = f.complete.map (·.1) := List.filter_map

theorem fault_withoutPending (f : Flow) : f.withoutPending.fault = f.fault := by
  funext u
  cases u with
  | input p => rfl
  | output p => rfl

theorem link?_of_isPending {c : Connection} (h : c.isPending = true) : c.link? = none := by
  obtain ⟨shape, source, target⟩ := c
  cases source with
  | none => rfl
  | some p =>
      cases target with
      | none => rfl
      | some q => exact absurd h (by simp [Connection.isPending])

theorem refusal?_of_isPending {c : Connection} (h : c.isPending = true) : f.refusal? c = none := by
  rw [refusal?, link?_of_isPending h]
  rfl

theorem refusals_eq_complete (f : Flow) :
    f.refusals = f.complete.filterMap fun x => (f.refusal? x.1).map (x.2, ·) := by
  rw [refusals, complete, List.filterMap_filter]
  refine List.filterMap_congr fun x _ => ?_
  cases hpending : x.1.isPending with
  | false => rfl
  | true =>
      rw [refusal?_of_isPending hpending]
      rfl

/-- Pending connections only shift the positions of those that would be refused. -/
theorem refusals_withoutPending (f : Flow) : f.refusals =
    f.withoutPending.refusals.map fun x => (f.completePositions.getD x.1 x.1, x.2) := by
  -- Both lists go through the complete connections, each with its two positions.
  rw [refusals_eq_complete, refusals, connections_withoutPending, List.zipIdx_map,
    List.filterMap_map, List.map_filterMap]
  nth_rewrite 1 [← List.zipIdx_map_fst 0 f.complete]
  rw [List.filterMap_map]
  refine List.filterMap_congr ?_
  rintro ⟨⟨c, position⟩, index⟩ hmem
  have hposition : f.completePositions[index]? = some position := by
    rw [completePositions, List.getElem?_map, List.mk_mem_zipIdx_iff_getElem?.1 hmem]
    rfl
  have hgetD : f.completePositions.getD index index = position := by
    rw [List.getD_eq_getElem?_getD, hposition, Option.getD_some]
  show (f.refusal? c).map (position, ·) = ((f.refusal? c).map (index, ·)).map
    fun x => (f.completePositions.getD x.1 x.1, x.2)
  cases f.refusal? c with
  | none => rfl
  | some reason => rw [Option.map_some, Option.map_some, Option.map_some, hgetD]

theorem isAtFault_of_withoutPending {u : PortUse} (h : f.withoutPending.isAtFault u = true) :
    f.isAtFault u = true := by
  have hsub : f.withoutPending.connections.Sublist f.connections := List.filter_sublist
  cases u with
  | input p =>
      rw [isAtFault, isShared, decide_eq_true_iff] at h ⊢
      exact Nat.lt_of_lt_of_le h hsub.countP_le
  | output p =>
      rw [isAtFault, fansOut, decide_eq_true_iff] at h ⊢
      exact Nat.lt_of_lt_of_le h hsub.countP_le

theorem invalidConnections_withoutPending (f : Flow) : f.invalidConnections =
    f.withoutPending.invalidConnections.map (·.renumbered f.completePositions) := by
  rw [invalidConnections_eq, invalidConnections_eq, refusals_withoutPending, List.map_map,
    List.map_map]
  rfl

/-- The report without the pending connections, with the positions that connections had. -/
theorem violations_withoutPending (f : Flow) :
    f.withoutPending.violations.map (·.renumbered f.completePositions) =
      f.invalidConnections ++ f.withoutPending.faultyUses.map f.fault := by
  rw [violations_eq, List.map_append, ← invalidConnections_withoutPending, List.map_map,
    fault_withoutPending]
  refine congrArg _ (List.map_congr_left fun u _ => ?_)
  cases u with
  | input p => rfl
  | output p => rfl

/-- What is reported without the pending connections is reported with them. -/
theorem renumbered_mem_violations {v : Violation} (hv : v ∈ f.withoutPending.violations) :
    v.renumbered f.completePositions ∈ f.violations := by
  have hports : f.withoutPending.faultyUses ⊆ f.faultyUses := fun u hu =>
    mem_faultyUses_iff.2 (isAtFault_of_withoutPending (mem_faultyUses_iff.1 hu))
  have hmem : v.renumbered f.completePositions ∈
      f.withoutPending.violations.map (·.renumbered f.completePositions) := List.mem_map_of_mem hv
  rw [violations_withoutPending, List.mem_append] at hmem
  rw [violations_eq, List.mem_append]
  exact hmem.imp_right fun h => List.map_subset f.fault hports h

end Flow

namespace Loader

/-! ### Ports of loaded connections -/

/-- A port at which a connection was loaded is told from the others by its uid and its key. -/
theorem eq_of_uidFor_eq {f : Flow} (h : f.Numbered) {e e' : Saved.End} {p q : Endpoint}
    (hp : endpoint? f e = some p) (hq : endpoint? f e' = some q) (huid : f.uidFor p = f.uidFor q)
    (hkey : p.key = q.key) : p = q := by
  obtain ⟨m, hm, rfl⟩ := exists_node_of_endpoint? h hp
  obtain ⟨n, hn, rfl⟩ := exists_node_of_endpoint? h hq
  -- The two ends were saved alike, and so they were loaded at the same port.
  have hsame : m.uid = n.uid := by simpa only [Flow.uidFor, hm, hn] using huid
  rw [hsame, hkey] at hp
  exact Option.some.inj (hp.symm.trans hq)

/-- A port at fault is one at which connections were loaded. -/
theorem exists_endpoint?_of_isAtFault {l : Loader} {saved : Saved.Flow} {optionTypes : Catalog}
    {u : PortUse} (hu : (l.flow saved optionTypes).isAtFault u = true) :
    ∃ e, endpoint? (l.flow saved optionTypes) e = some u.port := by
  obtain ⟨c, hc, hisOf⟩ := Flow.exists_isOf_of_isAtFault hu
  rw [connections_flow] at hc
  obtain ⟨d, -, rfl⟩ := List.mem_map.1 hc
  cases u with
  | input p => exact ⟨d.target, of_decide_eq_true hisOf⟩
  | output p => exact ⟨d.source, of_decide_eq_true hisOf⟩

theorem fault_inj {l : Loader} {saved : Saved.Flow} {optionTypes : Catalog} {u v : PortUse}
    (hu : (l.flow saved optionTypes).isAtFault u = true)
    (hv : (l.flow saved optionTypes).isAtFault v = true)
    (hfault : (l.flow saved optionTypes).fault u = (l.flow saved optionTypes).fault v) : u = v := by
  have hport : (l.flow saved optionTypes).uidFor u.port = (l.flow saved optionTypes).uidFor v.port →
      u.port.key = v.port.key → u.port = v.port := by
    obtain ⟨e, he⟩ := exists_endpoint?_of_isAtFault hu
    obtain ⟨e', he'⟩ := exists_endpoint?_of_isAtFault hv
    exact eq_of_uidFor_eq (l.numbered_flow saved optionTypes) he he'
  cases u with
  | input p =>
      cases v with
      | input q =>
          obtain ⟨huid, hkey⟩ := Violation.sharedInput.inj hfault
          exact congrArg PortUse.input (hport huid hkey)
      | output q => cases hfault
  | output p =>
      cases v with
      | input q => cases hfault
      | output q =>
          obtain ⟨huid, hkey⟩ := Violation.flowFanOut.inj hfault
          exact congrArg PortUse.output (hport huid hkey)

/--
**Pending connections count at the ports where they end.**  Whatever is saved and however it is
loaded, compare the report of the flow with the report that it has without its pending connections.
The connections that would be refused are the same, up to their positions, and whatever is reported
without the pending connections is reported with them.  The two reports are the same exactly if
every input with several connections has several with both ends, and every output with several that
carry control has several of these with both ends, and the report comes to these ports in the same
order.  So where all connections are pending nothing is reported exactly if no two of them share
their target and no two that carry control share their source.
-/
theorem pending_connections_count_at_ports (l : Loader) (saved : Saved.Flow)
    (optionTypes : Catalog) :
    let f := l.flow saved optionTypes
    let g := f.withoutPending
    f.invalidConnections = g.invalidConnections.map (·.renumbered f.completePositions) ∧
      (∀ v ∈ g.violations, v.renumbered f.completePositions ∈ f.violations) ∧
      (f.violations = g.violations.map (·.renumbered f.completePositions) ↔
        (∀ p, f.isShared p = true → g.isShared p = true) ∧
        (∀ p, f.fansOut p = true → g.fansOut p = true) ∧
        ∀ u v, f.isAtFault u = true → f.isAtFault v = true → f.MetBefore u v → g.MetBefore u v) ∧
      ((∀ c ∈ f.connections, c.isPending = true) → (f.violations = [] ↔
        (∀ p, f.connections.countP (·.target = some p) ≤ 1) ∧
        ∀ p, f.connections.countP (fun c => c.shape.isFlow && c.source = some p) ≤ 1)) := by
  intro f g
  refine ⟨f.invalidConnections_withoutPending, fun v => Flow.renumbered_mem_violations, ?_, ?_⟩
  · have hinj : ∀ u ∈ f.faultyUses, ∀ v ∈ g.faultyUses, f.fault u = f.fault v → u = v := by
      intro u hu v hv
      rw [Flow.mem_faultyUses_iff] at hu hv
      exact fault_inj hu (Flow.isAtFault_of_withoutPending hv)
    have hmore : ∀ u, (f.isAtFault u = true ↔ g.isAtFault u = true) ↔
        (f.isAtFault u = true → g.isAtFault u = true) := fun u =>
      ⟨Iff.mp, fun h => ⟨h, Flow.isAtFault_of_withoutPending⟩⟩
    rw [Flow.violations_withoutPending, Flow.violations_eq, List.append_right_inj,
      map_eq_map_iff_of_inj hinj, Flow.faultyUses_eq_iff, forall_congr' hmore,
      Flow.forall_isAtFault_iff, and_assoc]
    rfl
  · intro hpending
    -- No connection has both ends, so none is checked.
    have hunchecked : ∀ c ∈ f.connections, ∀ link, c.link? = some link →
        ∃ shape, f.validate link = .ok shape := by
      intro c hc link hlink
      exact absurd hlink (by simp [Flow.link?_of_isPending (hpending c hc)])
    rw [Flow.violations_eq_nil_iff, and_iff_right hunchecked]
    simp [Flow.isShared, Flow.fansOut]

/-- Two connections without a source end at one input: it is reported to have several sources,
though no connection has both ends and nothing is reported without the two. -/
theorem open_connections_are_reported_as_sources :
    let text : PortShape := ⟨.text, []⟩
    let tell : NodeType := NodeType.withInput { id := "tell", title := "Tell" } "text" "" text
    let l : Loader := { catalog := Catalog.ofNodup [tell] (by decide) }
    let heard : Saved.End := ⟨some "b", some "text"⟩
    let saved : Saved.Flow :=
      { nodes := [⟨"b", "tell", ⟨.zero false, .zero false⟩, ∅⟩]
        connections := [⟨text, ⟨some "gone", some "said"⟩, heard⟩, ⟨text, ⟨none, none⟩, heard⟩] }
    let f := l.flow saved ∅
    (∀ c ∈ f.connections, c.isPending = true) ∧ f.violations = [.sharedInput "b" "text"] ∧
      f.withoutPending.violations = [] ∧
      f.violations ≠ f.withoutPending.violations.map (·.renumbered f.completePositions) := by
  decide +kernel

/-- A pending connection at an input that has several sources anyway can still bring the report to
it before another one. -/
example :
    let text : PortShape := ⟨.text, []⟩
    let relay : NodeType := NodeType.withOutput
      (NodeType.withInput { id := "relay", title := "Relay" } "heard" "" text) "said" "" text
    let l : Loader := { catalog := Catalog.ofNodup [relay] (by decide) }
    let node (uid : String) : Saved.Node := ⟨uid, "relay", ⟨.zero false, .zero false⟩, ∅⟩
    let join (a b : String) : Saved.Connection :=
      ⟨text, ⟨some a, some "said"⟩, ⟨some b, some "heard"⟩⟩
    let f := l.flow { nodes := [node "a", node "b", node "c"], connections :=
      [join "gone" "b", join "a" "c", join "b" "c", join "a" "b", join "c" "b"] } ∅
    f.violations = [.sharedInput "b" "heard", .sharedInput "c" "heard"] ∧
      f.withoutPending.violations = [.sharedInput "c" "heard", .sharedInput "b" "heard"] := by
  decide +kernel

end Loader

end CommandFlow
