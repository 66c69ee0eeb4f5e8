/-
What an edit can do to a command.

As for flows, the operations on options are opened only here: `Effect` lists their outcomes with the
conditions under which they come about.
-/
import CommandFlow.Proofs.Flow.Effect

namespace CommandFlow

namespace Command

/-- The flow of a command after another option has taken the place of the one with a name. -/
def flowWithOption (c : Command) (name : String) (o : CommandOption) (optionTypes : Catalog) :
    Flow :=
  ({ c.flow with optionTypes }.retarget (CommandOption.typeIdOf name) o.nodeType)

/-- The handles of the nodes that stand for the option with a name. -/
def optionHandles (c : Command) (name : String) : List Handle :=
  (c.flow.nodesOfType (CommandOption.typeIdOf name)).map (·.handle)

/-- The commands that an edit can lead to. -/
inductive Effect (c : Command) : Edit → Command → Prop
  /-- The edit was refused. -/
  | refused (e : Edit) : Effect c e c
  /-- An option was added under a name that is free. -/
  | optionAdded {o o' : CommandOption} {optionTypes : Catalog}
      (hname : o' = { o with name := c.freeName o.name })
      (hinsert : c.flow.optionTypes.insert o'.nodeType = .ok optionTypes) :
      Effect c (.addOption o)
        { c with options := c.options ++ [o'], flow := { c.flow with optionTypes } }
  | optionRemoved {name : String} {o : CommandOption} {type : NodeType} {optionTypes : Catalog}
      (hoption : c.option? name = some o)
      (herase : c.flow.optionTypes.erase (CommandOption.typeIdOf name) = .ok (type, optionTypes)) :
      Effect c (.removeOption name)
        { c with
          options := c.options.eraseP (·.name = name)
          flow := ({ c.flow with optionTypes }.removeNodes (c.optionHandles name)).flow }
  | optionUpdated {name : String} {old o : CommandOption} {optionTypes : Catalog}
      (hoption : c.option? name = some old)
      (hfree : o.typeId = CommandOption.typeIdOf name ∨ c.isTaken o.typeId = false)
      (hreplace : c.flow.optionTypes.replace (CommandOption.typeIdOf name) o.nodeType
        = .ok optionTypes) :
      Effect c (.updateOption name o)
        { c with
          options := updateFirst (·.name = name) (fun _ => o) c.options
          flow := ((c.flowWithOption name o optionTypes).revalidate
            (leavesAny (c.optionHandles name))).2 }
  | flowEdited {e : Flow.Edit} {f : Flow} (hflow : c.flow.Effect e f) :
      Effect c (.flow e) { c with flow := f }

theorem effect_addOption (c : Command) (o : CommandOption) :
    Effect c (.addOption o) (c.apply (.addOption o)) := by
  show Effect c _ (orUnchanged c (·.2) (c.addOption o))
  unfold addOption
  dsimp only
  split
  · exact .refused _
  · rename_i optionTypes hinsert
    exact .optionAdded rfl hinsert

theorem effect_removeOption (c : Command) (name : String) :
    Effect c (.removeOption name) (c.apply (.removeOption name)) := by
  show Effect c _ (orUnchanged c (·.command) (c.removeOption name))
  unfold removeOption
  cases hoption : c.option? name with
  | none => exact .refused _
  | some o =>
      dsimp only
      split
      · exact .refused _
      · rename_i type optionTypes herase
        exact .optionRemoved hoption herase

/-- When an option can be put in the place of another, and what that leads to. -/
theorem updateOption_eq_ok_iff {c : Command} {name : String} {o : CommandOption}
    {dropped : List Connection} {c' : Command} :
    c.updateOption name o = .ok (dropped, c') ↔
      ∃ old optionTypes, c.option? name = some old ∧
        (o.typeId = CommandOption.typeIdOf name ∨ c.isTaken o.typeId = false) ∧
        c.flow.optionTypes.replace (CommandOption.typeIdOf name) o.nodeType = .ok optionTypes ∧
        dropped = ((c.flowWithOption name o optionTypes).revalidate
          (leavesAny (c.optionHandles name))).1 ∧
        c' = { c with
          options := updateFirst (·.name = name) (fun _ => o) c.options
          flow := ((c.flowWithOption name o optionTypes).revalidate
            (leavesAny (c.optionHandles name))).2 } := by
  unfold updateOption replaceType
  cases hoption : c.option? name with
  | none => simp
  | some old =>
      by_cases hclash : o.typeId ≠ CommandOption.typeIdOf name ∧ c.isTaken o.typeId = true
      · simp [hclash]
      · have hfree : o.typeId = CommandOption.typeIdOf name ∨ c.isTaken o.typeId = false := by
          by_cases hid : o.typeId = CommandOption.typeIdOf name
          · exact Or.inl hid
          · exact Or.inr (by simpa [hid] using hclash)
        cases hreplace : c.flow.optionTypes.replace (CommandOption.typeIdOf name) o.nodeType with
        | error cause => simp [hclash, hreplace]
        | ok optionTypes =>
            simp only [if_neg hclash, hreplace]
            constructor
            · intro h
              obtain ⟨hdropped, hc'⟩ := Prod.mk.inj (Except.ok.inj h)
              exact ⟨old, optionTypes, rfl, hfree, rfl, hdropped.symm, hc'.symm⟩
            · rintro ⟨_, types, -, -, htypes, rfl, rfl⟩
              rw [← Except.ok.inj htypes]
              rfl

theorem effect_updateOption (c : Command) (name : String) (o : CommandOption) :
    Effect c (.updateOption name o) (c.apply (.updateOption name o)) := by
  show Effect c _ (orUnchanged c (·.2) (c.updateOption name o))
  cases h : c.updateOption name o with
  | error _ => exact .refused _
  | ok r =>
      obtain ⟨old, optionTypes, hoption, hfree, hreplace, -, hr⟩ := updateOption_eq_ok_iff.1 h
      show Effect c _ r.2
      rw [hr]
      exact .optionUpdated hoption hfree hreplace

/-- Every edit does one of the things listed. -/
theorem effect_apply (c : Command) (e : Edit) : Effect c e (c.apply e) := by
  cases e with
  | addOption o => exact effect_addOption c o
  | removeOption name => exact effect_removeOption c name
  | updateOption name o => exact effect_updateOption c name o
  | flow e => exact .flowEdited (Flow.effect_apply c.flow e)

end Command

end CommandFlow
