/-
Walking a flow along its connections.
-/
import CommandFlow.Flow.Basic

namespace CommandFlow.Flow

/-- Where the first connection that leaves a port ends. -/
def target? (f : Flow) (p : Endpoint) : Option Endpoint :=
  (f.connections.find? (·.source = some p)).bind (·.target)

/-- Where the first connection that enters a port starts. -/
def source? (f : Flow) (p : Endpoint) : Option Endpoint :=
  (f.connections.find? (·.target = some p)).bind (·.source)

/-- The node that runs after a node: the one that control enters from it. -/
def next? (f : Flow) (h : Handle) : Option Handle :=
  match f.target? ⟨h, flowOutKey⟩ with
  | some p => if p.key = flowInKey then some p.node else none
  | none => none

/-- The connections that end at a node not visited yet. -/
def unvisited (f : Flow) (visited : List Handle) : List Connection :=
  f.connections.filter fun c => c.target.any (·.node ∉ visited)

/-- Control goes from one node to another along a connection. -/
theorem exists_connection_of_next? {f : Flow} {h next : Handle} (hnext : f.next? h = some next) :
    ∃ c ∈ f.connections,
      c.source = some ⟨h, flowOutKey⟩ ∧ c.target = some ⟨next, flowInKey⟩ := by
  unfold next? at hnext
  split at hnext
  case h_2 => exact absurd hnext (by simp)
  case h_1 p hp =>
    obtain ⟨c, hc, htarget⟩ := Option.bind_eq_some_iff.1 hp
    obtain ⟨hkey, rfl⟩ : p.key = flowInKey ∧ p.node = next := by simpa using hnext
    exact ⟨c, List.mem_of_find?_eq_some hc, by simpa using List.find?_some hc, hkey ▸ htarget⟩

theorem length_unvisited_lt {f : Flow} {h next : Handle} {visited : List Handle}
    (hnext : f.next? h = some next) (hnew : next ∉ visited) :
    (f.unvisited (next :: visited)).length < (f.unvisited visited).length := by
  obtain ⟨c, hc, -, htarget⟩ := exists_connection_of_next? hnext
  have hsub : (f.unvisited (next :: visited)) =
      (f.unvisited visited).filter fun c => c.target.any (·.node ≠ next) := by
    unfold unvisited
    rw [List.filter_filter]
    refine List.filter_congr fun d _ => ?_
    cases d.target with
    | none => rfl
    | some q =>
      by_cases hq : q.node = next
      · simp [hq]
      · simp [hq]
  rw [hsub]
  refine List.length_filter_lt_length_iff_exists.2 ⟨c, ?_, ?_⟩
  · unfold unvisited
    refine List.mem_filter.2 ⟨hc, ?_⟩
    simp [htarget, hnew]
  · simp [htarget]

/-- The nodes that run from a node on, up to the first that has run before. `visited` holds the
nodes that have run, last first. -/
def runFrom (f : Flow) (visited : List Handle) (h : Handle) : List Handle :=
  match hnext : f.next? h with
  | none => [h]
  | some next =>
    if hnew : next ∈ visited then [h]
    else
      have := length_unvisited_lt hnext hnew
      h :: f.runFrom (next :: visited) next
termination_by (f.unvisited visited).length

/-- The nodes that run in turn when a node is started. -/
def controlSequence (f : Flow) (start : Handle) : List Handle :=
  match f.node? start with
  | none => []
  | some _ => f.runFrom [start] start

end CommandFlow.Flow
