/-
What the report of a loaded flow says about fan-out.

A flow output has one target.  In a flow that was made by edits every connection carries what its
source declares, so counting the connections that carry control counts those that leave flow
outputs.  A loaded connection carries what was saved, and nothing compares that with its source.
The report counts by what connections carry: of the connections that leave a flow output it sees
those that were saved as control, and no others.
-/
import CommandFlow.Proofs.Command.InStep

namespace CommandFlow

namespace Flow

/-! ### Connections that leave a port -/

/-- How many connections with both ends start at a port. -/
def driven (f : Flow) (p : Endpoint) : Nat :=
  f.connections.countP fun c => !c.isPending && c.source = some p

/-- How many of them carry something else than control. -/
def drivenOtherwise (f : Flow) (p : Endpoint) : Nat :=
  f.connections.countP fun c => (!c.isPending && c.source = some p) && !c.shape.isFlow

theorem drivenOtherwise_le_driven (f : Flow) (p : Endpoint) : f.drivenOtherwise p ≤ f.driven p :=
  List.countP_mono_left fun _ _ hc => (Bool.and_eq_true_iff.1 hc).1

theorem driven_le_of_fansOut {f : Flow} {p : Endpoint} (h : f.fansOut p = false) :
    f.driven p ≤ f.drivenOtherwise p + 1 := by
  have hcontrol : f.connections.countP (fun c => c.shape.isFlow && c.source = some p) ≤ 1 := by
    simpa [fansOut] using h
  have hsplit : f.driven p =
      f.connections.countP (fun c => (!c.isPending && c.source = some p) && c.shape.isFlow)
        + f.drivenOtherwise p := by
    rw [driven, List.countP_eq_countP_filter_add _ _ (·.shape.isFlow), List.countP_filter,
      List.countP_filter]
    rfl
  have hle : f.connections.countP (fun c => (!c.isPending && c.source = some p) && c.shape.isFlow)
      ≤ f.connections.countP (fun c => c.shape.isFlow && c.source = some p) := by
    refine List.countP_mono_left fun c _ hc => ?_
    simp only [Bool.and_eq_true] at hc ⊢
    exact ⟨hc.2, hc.1.2⟩
  omega

end Flow

namespace Loader

theorem shapes_flow (l : Loader) (saved : Saved.Flow) (optionTypes : Catalog) :
    (l.flow saved optionTypes).connections.map (·.shape) = saved.connections.map (·.shape) := by
  rw [connections_flow, List.map_map]
  rfl

/--
**The report of a loaded flow counts the connections of a flow output by what was saved.**
Whatever is saved and however it is loaded, connections carry what was saved with them.  Nothing is
reported exactly if every connection with both ends would be accepted, no two connections end at
one input, and no two that were saved as control start at one output.  So where nothing is
reported, flow outputs drive one connection each exactly if those that were saved as something else
are alone at theirs.
-/
theorem report_counts_fan_out_as_saved (l : Loader) (saved : Saved.Flow) (optionTypes : Catalog) :
    let f := l.flow saved optionTypes
    f.connections.map (·.shape) = saved.connections.map (·.shape) ∧
      (f.violations = [] ↔
        (∀ c ∈ f.connections, ∀ link, c.link? = some link → ∃ shape, f.validate link = .ok shape) ∧
        (∀ p, f.connections.countP (·.target = some p) ≤ 1) ∧
        ∀ p, f.connections.countP (fun c => c.shape.isFlow && c.source = some p) ≤ 1) ∧
      (f.violations = [] → ((∀ p, f.isFlowOutput p = true → f.driven p ≤ 1) ↔
        ∀ p, f.isFlowOutput p = true → 0 < f.drivenOtherwise p → f.driven p = 1)) := by
  intro f
  have hreport := Flow.violations_eq_nil_iff (f := f)
  refine ⟨l.shapes_flow saved optionTypes, ?_, ?_⟩
  · simpa [Flow.isShared, Flow.fansOut] using hreport
  · intro h
    refine forall_congr' fun p => imp_congr_right fun _ => ?_
    have hle := Flow.driven_le_of_fansOut ((hreport.1 h).2.2 p)
    have hge := f.drivenOtherwise_le_driven p
    omega

/-- Two connections that leave one flow output and were saved as `any`, the kind of a connection
that gives none: nothing is reported. -/
theorem unlabelled_fan_out_is_not_reported :
    let control : Port := ⟨⟨.flow, []⟩, ""⟩
    let start : NodeType :=
      { id := "start", title := "Start", outputs := .ofList [("next", control)] }
    let step : NodeType := { id := "step", title := "Step", inputs := .ofList [("run", control)] }
    let l : Loader := { catalog := Catalog.ofNodup [start, step] (by decide) }
    let origin : Position := ⟨.zero false, .zero false⟩
    let saved : Saved.Flow :=
      { nodes := [⟨"a", "start", origin, ∅⟩, ⟨"b", "step", origin, ∅⟩, ⟨"c", "step", origin, ∅⟩]
        connections := [⟨⟨.any, []⟩, ⟨some "a", some "next"⟩, ⟨some "b", some "run"⟩⟩,
          ⟨⟨.any, []⟩, ⟨some "a", some "next"⟩, ⟨some "c", some "run"⟩⟩] }
    let f := l.flow saved ∅
    f.violations = [] ∧ f.isFlowOutput ⟨⟨0⟩, "next"⟩ = true ∧ f.driven ⟨⟨0⟩, "next"⟩ = 2 := by
  decide +kernel

end Loader

end CommandFlow
