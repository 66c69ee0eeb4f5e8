/-
Which outputs can drive which inputs.

Whether an output is accepted rests on the two kinds and, between records, on which tags there are:
neither their order nor how often they are listed matters.  So an output that offers more is
accepted wherever one that offers less is, and what a port may drive, whatever may drive that port
may drive as well.  A port of kind `any` is apart from this: it goes with everything, and says
nothing about what stands on its two sides.
-/
import CommandFlow.Flow.Connection
import Mathlib.Data.List.Basic

namespace CommandFlow.PortShape

variable {output input : PortShape}

/-! ### Acceptance -/

/-- Whether an output goes with an input by their kinds and, between records, by the tags there
are. -/
def Suits (output input : PortShape) : Prop :=
  output.kind = .any ∨ input.kind = .any ∨
    output.kind = input.kind ∧ (output.kind = .record → input.tags ⊆ output.tags)

theorem missingTags_eq_nil_iff :
    output.missingTags input = [] ↔
      (output.kind = .record ∧ input.kind = .record → input.tags ⊆ output.tags) := by
  unfold missingTags
  by_cases hrecords : output.kind = .record ∧ input.kind = .record
  · rw [if_pos hrecords, List.filter_eq_nil_iff]
    simp [hrecords, List.subset_def]
  · simp [hrecords]

theorem fits_iff_suits : output.fits input = true ↔ output.Suits input := by
  simp only [fits, Bool.or_eq_true, Bool.and_eq_true, decide_eq_true_eq, List.isEmpty_iff,
    missingTags_eq_nil_iff, or_assoc]
  refine or_congr_right (or_congr_right (and_congr_right fun hkind => ?_))
  rw [hkind, and_self]

theorem check_eq_ok_iff {u : Unit} : output.check input = .ok u ↔ output.fits input = true := by
  unfold check
  by_cases hfits : output.fits input = true
  · simp [hfits]
  · rw [if_neg hfits]
    split <;> simp [hfits]

theorem check_eq_ok_iff_suits : output.check input = .ok () ↔ output.Suits input :=
  check_eq_ok_iff.trans fits_iff_suits

/-- More may be offered, and less required. -/
theorem Suits.mono {output' input' : PortShape} (h : output.Suits input)
    (houtput : output'.kind = output.kind) (hinput : input'.kind = input.kind)
    (hoffered : output.tags ⊆ output'.tags) (hrequired : input'.tags ⊆ input.tags) :
    output'.Suits input' := by
  unfold Suits
  rw [houtput, hinput]
  refine h.imp_right (Or.imp_right (And.imp_right fun htags hrecord => ?_))
  exact List.Subset.trans hrequired (List.Subset.trans (htags hrecord) hoffered)

/-- What goes with a port that is not of kind `any` goes with whatever that port goes with. -/
theorem Suits.trans {middle : PortShape} (h : output.Suits middle) (hnext : middle.Suits input)
    (hmiddle : middle.kind ≠ .any) : output.Suits input := by
  rcases h with hany | hany | ⟨hkind, htags⟩
  · exact Or.inl hany
  · exact absurd hany hmiddle
  · rcases hnext with hany | hany | ⟨hkind', htags'⟩
    · exact absurd hany hmiddle
    · exact Or.inr (Or.inl hany)
    · refine Or.inr (Or.inr ⟨hkind.trans hkind', fun hrecord => ?_⟩)
      exact List.Subset.trans (htags' (hkind ▸ hrecord)) (htags hrecord)

/-! ### Refusal -/

/-- Records are refused for tags alone, and some tag is then missing. -/
theorem check_eq_missingTags_iff {missing : List String} :
    output.check input = .error (.missingTags missing) ↔
      (output.kind = .record ∧ input.kind = .record) ∧
        missing = input.tags.filter (· ∉ output.tags) ∧ missing ≠ [] := by
  by_cases hrecords : output.kind = .record ∧ input.kind = .record
  · have hmissing : output.missingTags input = input.tags.filter (· ∉ output.tags) :=
      if_pos hrecords
    have hfits : output.fits input = true ↔ output.missingTags input = [] := by
      simp [fits, hrecords]
    unfold check
    rw [if_pos hrecords, ← hmissing]
    by_cases hnone : output.missingTags input = []
    · rw [if_pos (hfits.2 hnone), hnone]
      simp
    · rw [if_neg (mt hfits.1 hnone), Except.error.injEq, Refusal.missingTags.injEq]
      constructor
      · rintro rfl
        exact ⟨hrecords, rfl, hnone⟩
      · rintro ⟨-, rfl, -⟩
        rfl
  · unfold check
    rw [if_neg hrecords]
    split <;> simp [hrecords]

/-- Whatever else is refused is refused for the kinds. -/
theorem check_eq_incompatiblePorts_iff :
    output.check input = .error (.incompatiblePorts output.kind input.kind) ↔
      output.check input ≠ .ok () ∧
        ∀ missing, output.check input ≠ .error (.missingTags missing) := by
  unfold check
  split
  · simp
  · split <;> simp

/--
**An output is accepted by the two kinds and the tags there are, and a refusal names its cause.**
One side is of kind `any`, or the kinds are the same and, between records, every tag that the input
requires is among those offered.  Records are refused exactly if tags are missing, and are told
which, in the input's order; all else is refused for the kinds.  Listing the same tags in another
order or more often changes nothing, and an output stays accepted that offers more or is required
less.  From a port on to the next acceptance carries over, unless the port between is of kind `any`.
-/
theorem ports_go_by_kinds_and_tag_sets (output input : PortShape) :
    (output.check input = .ok () ↔ output.fits input = true) ∧
      (output.fits input = true ↔ output.Suits input) ∧
      (∀ missing, output.check input = .error (.missingTags missing) ↔
        (output.kind = .record ∧ input.kind = .record) ∧
          missing = input.tags.filter (· ∉ output.tags) ∧ missing ≠ []) ∧
      (output.check input = .error (.incompatiblePorts output.kind input.kind) ↔
        output.check input ≠ .ok () ∧
          ∀ missing, output.check input ≠ .error (.missingTags missing)) ∧
      (∀ offered required : List String, (∀ tag, tag ∈ offered ↔ tag ∈ output.tags) →
        (∀ tag, tag ∈ required ↔ tag ∈ input.tags) →
        (check ⟨output.kind, offered⟩ ⟨input.kind, required⟩ = .ok ()
          ↔ output.check input = .ok ())) ∧
      (∀ offered required : List String, output.tags ⊆ offered → required ⊆ input.tags →
        output.check input = .ok () →
        check ⟨output.kind, offered⟩ ⟨input.kind, required⟩ = .ok ()) ∧
      (∀ next : PortShape, input.kind ≠ .any → output.check input = .ok () →
        input.check next = .ok () → output.check next = .ok ()) := by
  simp only [check_eq_ok_iff_suits, ne_eq]
  refine ⟨fits_iff_suits.symm, fits_iff_suits, fun _ => check_eq_missingTags_iff, ?_, ?_, ?_, ?_⟩
  · rw [check_eq_incompatiblePorts_iff, ne_eq, check_eq_ok_iff_suits]
  · intro offered required hoffered hrequired
    constructor
    · intro h
      exact h.mono rfl rfl (fun tag => (hoffered tag).1) fun tag => (hrequired tag).2
    · intro h
      exact h.mono rfl rfl (fun tag => (hoffered tag).2) fun tag => (hrequired tag).1
  · intro offered required hoffered hrequired h
    exact h.mono rfl rfl hoffered hrequired
  · intro next hinput h hnext
    exact h.trans hnext hinput

/-- Text may drive any port, and any port a number; but text may not drive a number. -/
example : fits ⟨.text, []⟩ ⟨.any, []⟩ = true ∧ fits ⟨.any, []⟩ ⟨.number, []⟩ = true ∧
    fits ⟨.text, []⟩ ⟨.number, []⟩ = false := by
  decide

end CommandFlow.PortShape
