/-
When a change of the options is refused.

A removal and an update look for the option in the list, and then work on its node type in the
flow's catalog.  The catalog could refuse as well, since it checks ids of its own.  It never does,
because the options and their node types are in step from the start of a command on: what the list
holds the catalog lists, and an id that the command finds free is free in it.  So each request is
refused for what the caller sees, the names in use, and for nothing else.
-/
import CommandFlow.Proofs.Command.InStep

namespace CommandFlow

namespace Command

variable {c : Command} {name : String} {o : CommandOption} {cause : OptionError}

theorem option?_eq_none_iff : c.option? name = none ↔ ∀ o ∈ c.options, o.name ≠ name := by
  simp [option?, List.find?_eq_none]

/-- The node type of an option that is found is listed. -/
theorem InStep.contains_of_option? (h : c.InStep) (ho : c.option? name = some o) :
    c.flow.optionTypes.contains (CommandOption.typeIdOf name) = true := by
  obtain ⟨hmem, hname⟩ := mem_of_option? ho
  exact h.contains_iff.2 ⟨o, hmem, hname⟩

/-! ### What is refused -/

theorem InStep.removeOption_eq_error_iff (h : c.InStep) :
    c.removeOption name = .error cause ↔
      cause = .notFound name ∧ ∀ o ∈ c.options, o.name ≠ name := by
  rw [← option?_eq_none_iff]
  unfold removeOption
  cases ho : c.option? name with
  | none => simp [@eq_comm _ cause]
  | some o =>
      obtain ⟨t, ht⟩ := Catalog.contains_iff_exists.1 (h.contains_of_option? ho)
      obtain ⟨optionTypes, herase⟩ := Catalog.exists_erase ht
      simp [herase]

theorem InStep.updateOption_eq_error_iff (h : c.InStep) :
    c.updateOption name o = .error cause ↔
      (cause = .notFound name ∧ ∀ old ∈ c.options, old.name ≠ name) ∨
      (cause = .nameConflict o.name o.typeId ∧ (∃ old ∈ c.options, old.name = name) ∧
        o.typeId ≠ CommandOption.typeIdOf name ∧ c.isTaken o.typeId = true) := by
  have hsome : (∃ old ∈ c.options, old.name = name) ↔ c.option? name ≠ none := by
    rw [Ne, option?_eq_none_iff]
    push Not
    rfl
  rw [hsome, ← option?_eq_none_iff]
  unfold updateOption replaceType
  cases hold : c.option? name with
  | none => simp [@eq_comm _ cause]
  | some old =>
      by_cases hclash : o.typeId ≠ CommandOption.typeIdOf name ∧ c.isTaken o.typeId = true
      · simp [hclash, @eq_comm _ cause]
      · -- An id that is not in use is not listed among the node types of options either.
        have hfree : ¬(o.nodeType.id ≠ CommandOption.typeIdOf name ∧
            c.flow.optionTypes.contains o.nodeType.id = true) := by
          rintro ⟨hid, hlisted⟩
          exact hclash ⟨hid, Bool.or_eq_true_iff.2 (Or.inl hlisted)⟩
        obtain ⟨optionTypes, hreplace⟩ := Catalog.exists_replace (h.contains_of_option? hold) hfree
        simp [hclash, hreplace]

/-! ### Whole runs -/

/-- The reason for which a change of the options is refused. A change of the flow is none. -/
def refusal? (c : Command) : Edit → Option OptionError
  | .addOption o => errorOf? (c.addOption o)
  | .removeOption name => errorOf? (c.removeOption name)
  | .updateOption name o => errorOf? (c.updateOption name o)
  | .flow _ => none

/-- What is refused leaves the command as it was. -/
theorem apply_of_refusal? {e : Edit} (h : c.refusal? e = some cause) : c.apply e = c := by
  cases e with
  | addOption o => exact orUnchanged_of_errorOf? h
  | removeOption name => exact orUnchanged_of_errorOf? h
  | updateOption name o => exact orUnchanged_of_errorOf? h
  | flow e => simp [refusal?] at h

/-- No request is refused by the catalog of the options' node types. -/
theorem InStep.refusal?_ne_catalog (h : c.InStep) (e : Edit) (fault : CatalogError) :
    c.refusal? e ≠ some (.catalog fault) := by
  cases e with
  | addOption o =>
      obtain ⟨optionTypes, hadd, -⟩ := c.exists_addOption o
      simp [refusal?, hadd, errorOf?]
  | removeOption name =>
      rw [refusal?, Ne, errorOf?_eq_some_iff, h.removeOption_eq_error_iff]
      simp
  | updateOption name o =>
      rw [refusal?, Ne, errorOf?_eq_some_iff, h.updateOption_eq_error_iff]
      simp
  | flow e => simp [refusal?]

/--
**Requests about options are refused for the names in use, and for nothing else.**  From a new or
a loaded command on, after any edits of its options and its flow, new shared catalogs among them:
an option is always added; a removal is refused exactly if no option has the name; an update is
refused exactly if no option has the old name, or if the new one brings another type id that an
option or the shared catalog has.  The catalog of the options' node types never refuses, and what
is refused changes nothing.
-/
theorem options_are_refused_for_names_only (start : Start) (edits : List Edit) :
    let c := edits.foldl apply start.command
    (∀ o, ∃ r, c.addOption o = .ok r) ∧
      (∀ name cause, c.removeOption name = .error cause ↔
        cause = .notFound name ∧ ∀ o ∈ c.options, o.name ≠ name) ∧
      (∀ name o cause, c.updateOption name o = .error cause ↔
        (cause = .notFound name ∧ ∀ old ∈ c.options, old.name ≠ name) ∨
        (cause = .nameConflict o.name o.typeId ∧ (∃ old ∈ c.options, old.name = name) ∧
          o.typeId ≠ CommandOption.typeIdOf name ∧
          (c.flow.optionTypes.contains o.typeId = true ∨
            c.flow.catalog.contains o.typeId = true))) ∧
      ∀ e, (∀ fault, c.refusal? e ≠ some (.catalog fault)) ∧
        ∀ cause, c.refusal? e = some cause → c.apply e = c := by
  intro c
  have h : c.InStep := inStep_of_edits start edits
  refine ⟨?_, ?_, ?_, ?_⟩
  · intro o
    obtain ⟨optionTypes, hadd, -⟩ := c.exists_addOption o
    exact ⟨_, hadd⟩
  · intro name cause
    exact h.removeOption_eq_error_iff
  · intro name o cause
    rw [h.updateOption_eq_error_iff, isTaken, Bool.or_eq_true]
  · intro e
    exact ⟨h.refusal?_ne_catalog e, fun cause hcause => apply_of_refusal? hcause⟩

end Command

end CommandFlow
