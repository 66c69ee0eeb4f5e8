/-
When a shared type hides that of an option.

A type id is looked up in the shared catalog first.  Adding or changing an option keeps clear of the
ids that the shared catalog lists, but a new shared catalog is taken as it is: it may list a type
under the id of an option.  That id is then listed twice, and stands for the shared type.

This is the only way in which ids come to be listed twice.  `shadows` says of an edit whether it
does so.
-/
import CommandFlow.Proofs.Command.InStep

namespace CommandFlow

namespace Flow

/-- The ids of all types that can be placed differ exactly if the two catalogs list different ids. -/
theorem nodup_available_iff {f : Flow} : (Catalog.idsOf f.available).Nodup ↔ f.Apart := by
  have hsplit : Catalog.idsOf f.available = f.catalog.ids ++ f.optionTypes.ids := List.map_append
  rw [hsplit, List.nodup_append]
  constructor
  · rintro ⟨-, -, hne⟩ id hid
    rw [← Bool.not_eq_true, Catalog.contains_iff]
    intro hshared
    exact hne id hshared id ((Catalog.contains_iff _ id).1 hid) rfl
  · intro h
    refine ⟨f.catalog.nodup, f.optionTypes.nodup, ?_⟩
    intro id hshared id' hoption heq
    rw [← Catalog.contains_iff] at hshared hoption
    rw [heq, h id' hoption] at hshared
    exact absurd hshared (by simp)

/-- Of the edits of a flow, only a new shared catalog can list an id of an option. -/
theorem Apart.effect {f g : Flow} {e : Edit} (h : f.Apart)
    (hrebind : ∀ catalog, e = .rebind catalog → f.optionTypes.ids.any catalog.contains = false)
    (he : f.Effect e g) : g.Apart := by
  cases he with
  | rebound catalog =>
      intro id hid
      have hnot := List.any_eq_false.1 (hrebind catalog rfl) id ((Catalog.contains_iff _ id).1 hid)
      show catalog.contains id = false
      simpa using hnot
  | _ => exact h

end Flow

namespace Command

variable {c c' : Command} {e : Edit}

/-! ### What an option's id stands for -/

/-- The id of an option stands for the shared type with that id, if there is one. -/
theorem InStep.resolve? (h : c.InStep) {o : CommandOption} (ho : o ∈ c.options) :
    c.flow.resolve? o.typeId = some ((c.flow.catalog.get? o.typeId).getD o.nodeType) := by
  have hown := h.get?_typeId ho
  unfold Flow.resolve?
  rw [hown]
  cases c.flow.catalog.get? o.typeId with
  | none => rfl
  | some t => rfl

theorem InStep.apart_iff (h : c.InStep) :
    c.flow.Apart ↔ ∀ o ∈ c.options, c.flow.catalog.get? o.typeId = none := by
  simp only [Flow.Apart, Catalog.contains_iff, h.ids, List.forall_mem_map,
    Catalog.get?_eq_none_iff]

/-! ### Edits -/

/-- Whether an edit brings in a shared catalog that lists a type under the id of an option. -/
def shadows (c : Command) : Edit → Bool
  | .flow (.rebind catalog) => c.flow.optionTypes.ids.any catalog.contains
  | _ => false

theorem apart_effect (h : c.flow.Apart) (hnone : c.shadows e = false) (he : c.Effect e c') :
    c'.flow.Apart := by
  cases he with
  | refused => exact h
  | optionAdded hname hinsert => exact apart_optionAdded h (isTaken_added hname) hinsert
  | optionRemoved _ herase => exact apart_optionRemoved h herase
  | optionUpdated _ hfree hreplace => exact apart_optionUpdated h hfree hreplace
  | flowEdited hflow =>
      refine h.effect ?_ hflow
      rintro catalog rfl
      exact hnone

/-- An edit that brings in the id of an option leaves it listed twice. -/
theorem not_apart_of_shadows (h : c.shadows e = true) : ¬(c.apply e).flow.Apart := by
  cases e with
  | flow fe =>
      cases fe with
      | rebind catalog =>
          obtain ⟨id, hid, hshared⟩ := List.any_eq_true.1 h
          intro hapart
          have hnot : catalog.contains id = false := hapart id ((Catalog.contains_iff _ id).2 hid)
          exact absurd hshared (by simp [hnot])
      | _ => simp [shadows] at h
  | _ => simp [shadows] at h

/--
**Type ids are listed once throughout exactly if no shared catalog brings in the id of an option.**
From a new command on, by any edits of its options and its flow: the ids of the types that can be
placed differ after every edit if and only if no edit binds the flow to a catalog that lists the id
of an option that the command has at that moment.  Wherever the edits lead, the ids differ exactly if
no option's id is listed by the shared catalog, and an option's id stands for the option's own type
unless it is listed there.
-/
theorem ids_differ_throughout_iff_nothing_shadowed (name description uid : String)
    (catalog : Catalog) (edits : List Edit) :
    let start := new name description catalog uid
    let c := edits.foldl apply start
    ((∀ done, done <+: edits → (Catalog.idsOf (done.foldl apply start).flow.available).Nodup) ↔
        Allowed apply (fun c e => c.shadows e = false) start edits) ∧
      ((Catalog.idsOf c.flow.available).Nodup ↔
        ∀ o ∈ c.options, c.flow.catalog.get? o.typeId = none) ∧
      ∀ o ∈ c.options,
        c.flow.resolve? o.typeId = some ((c.flow.catalog.get? o.typeId).getD o.nodeType) := by
  intro start c
  have hstep : c.InStep := inStep_of_edits (.new name description catalog uid) edits
  refine ⟨?_, Flow.nodup_available_iff.trans hstep.apart_iff, fun o ho => hstep.resolve? ho⟩
  refine Allowed.iff_throughout (I := fun c : Command => c.flow.Apart)
    (G := fun c => (Catalog.idsOf c.flow.available).Nodup) ?_ ?_ ?_ (Flow.apart_new catalog)
  · intro c h
    exact Flow.nodup_available_iff.2 h
  · intro c e h hnone
    exact apart_effect h hnone (effect_apply c e)
  · intro c e _ hshadows
    rw [Flow.nodup_available_iff]
    exact not_apart_of_shadows (by simpa using hshadows)

/-- A published catalog lists a type under the id of an option: the id is listed twice, and stands
for the shared type, not for the option's own. -/
theorem published_type_hides_option :
    let shout : NodeType := { id := CommandOption.typeIdOf "x", title := "Shout" }
    let edits : List Edit :=
      [.addOption { name := "x" }, .flow (.rebind (Catalog.ofNodup [shout] (by decide)))]
    let c := edits.foldl apply (new "ping" "" ∅ "c")
    ¬(Catalog.idsOf c.flow.available).Nodup ∧
      ¬∀ o ∈ c.options, c.flow.resolve? o.typeId = some o.nodeType := by
  intro shout edits c
  refine ⟨by decide +kernel, ?_⟩
  intro hall
  have htitles : ∀ o ∈ c.options,
      (c.flow.resolve? o.typeId).map (·.title) = some o.nodeType.title := by
    intro o ho
    rw [hall o ho]
    rfl
  exact absurd htitles (by decide +kernel)

end Command

end CommandFlow
