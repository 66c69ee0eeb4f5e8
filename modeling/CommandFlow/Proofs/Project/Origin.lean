/-
Where the commands of an edited project come from.

Every command of a project after an edit was there before, is new, or is one of the commands from
before with an edit of its own.  So what edits of commands keep, edits of projects keep, and the
operations on projects are opened only here.
-/
import CommandFlow.Proofs.Edit
import CommandFlow.Proofs.UpdateFirst

namespace CommandFlow

namespace Project

/-- How a command of the edited project came about, with the shared catalog of that project. -/
inductive Origin (p : Project) : Edit → Command → Option Catalog → Prop
  | kept (e : Edit) {c : Command} (hc : c ∈ p.commands) : Origin p e c p.catalog
  | created (name description uid : String) :
      Origin p (.createCommand name description uid)
        (Command.new name description p.snapshot uid) p.catalog
  | added (c : Command) : Origin p (.addCommand c) c p.catalog
  | edited (uid : String) (ce : Command.Edit) {c : Command} (hc : c ∈ p.commands) :
      Origin p (.command uid ce) (c.apply ce) p.catalog
  | nodePlaced (typeId : String) (position : Position) (uid : String) {c : Command}
      (hc : c ∈ p.commands) :
      Origin p (.addNode typeId position uid)
        (c.apply (.flow (.addNodeById typeId position uid))) p.catalog
  | nodesRemoved (nodes : List Handle) {c : Command} (hc : c ∈ p.commands) :
      Origin p (.removeNodes nodes) (c.apply (.flow (.removeNodes nodes))) p.catalog
  | rebound (catalog : Catalog) {c : Command} (hc : c ∈ p.commands) :
      Origin p (.publish catalog) (c.apply (.flow (.rebind catalog))) (some catalog)

/-- The command that is being edited is the first one with its uid. -/
theorem find?_of_editing? {p : Project} {c : Command} (h : p.editing? = some c) :
    p.commands.find? (·.uid = c.uid) = some c := by
  obtain ⟨uid, -, hc⟩ := Option.bind_eq_some_iff.1 h
  have huid : c.uid = uid := by simpa using List.find?_some hc
  rw [huid]
  exact hc

/-- A change of the command that is being edited leaves all others as they are. -/
theorem mem_or_of_mem_updateCommand {p : Project} {c d : Command} {change : Command → Command}
    (hc : p.editing? = some c) (hd : d ∈ (p.updateCommand c.uid change).commands) :
    d ∈ p.commands ∨ c ∈ p.commands ∧ d = change c := by
  rcases mem_or_of_mem_updateFirst hd with hd | ⟨a, ha, rfl⟩
  · exact Or.inl hd
  · have hac : a = c := Option.some.inj (ha.symm.trans (find?_of_editing? hc))
    rw [hac]
    exact Or.inr ⟨List.mem_of_find?_eq_some (find?_of_editing? hc), rfl⟩

theorem origin_deleteCommand {p : Project} {uid : String} {d : Command}
    (h : d ∈ (p.apply (.deleteCommand uid)).commands) :
    Origin p (.deleteCommand uid) d (p.apply (.deleteCommand uid)).catalog := by
  have happly : p.apply (.deleteCommand uid) = orUnchanged p (·.2) (p.deleteCommand uid) := rfl
  rw [happly] at h ⊢
  unfold deleteCommand at h ⊢
  cases hc : p.command? uid with
  | none =>
      rw [hc] at h
      exact .kept _ h
  | some c =>
      rw [hc] at h
      exact .kept _ (List.eraseP_subset h)

theorem origin_setEditing {p : Project} {uid : Option String} {d : Command}
    (h : d ∈ (p.apply (.setEditing uid)).commands) :
    Origin p (.setEditing uid) d (p.apply (.setEditing uid)).catalog := by
  have happly : p.apply (.setEditing uid) = orUnchanged p id (p.setEditing uid) := rfl
  rw [happly] at h ⊢
  unfold setEditing at h ⊢
  cases uid with
  | none => exact .kept _ h
  | some u =>
      dsimp only at h ⊢
      cases hc : p.command? u with
      | none =>
          rw [hc] at h
          exact .kept _ h
      | some c =>
          rw [hc] at h
          exact .kept _ h

theorem origin_addNode {p : Project} {typeId : String} {position : Position} {uid : String}
    {d : Command} (h : d ∈ (p.apply (.addNode typeId position uid)).commands) :
    Origin p (.addNode typeId position uid) d
      (p.apply (.addNode typeId position uid)).catalog := by
  have happly : p.apply (.addNode typeId position uid)
      = orUnchanged p (·.2) (p.addNode typeId position uid) := rfl
  rw [happly] at h ⊢
  unfold addNode at h ⊢
  cases hc : p.editing? with
  | none =>
      rw [hc] at h
      exact .kept _ h
  | some c =>
      cases hplace : c.flow.addNodeById typeId position uid with
      | error cause =>
          simp only [hc, hplace] at h
          simp only [hplace]
          exact .kept _ h
      | ok r =>
          simp only [hc, hplace] at h
          simp only [hplace]
          rcases mem_or_of_mem_updateCommand hc h with hd | ⟨hmem, rfl⟩
          · exact .kept _ hd
          · -- The flow of the command is what the edit of the command gives.
            have hflow : c.flow.apply (.addNodeById typeId position uid) = r.2 := by
              show orUnchanged c.flow (·.2) (c.flow.addNodeById typeId position uid) = r.2
              rw [hplace]
              rfl
            rw [← hflow]
            exact .nodePlaced typeId position uid hmem

theorem origin_removeNodes {p : Project} {nodes : List Handle} {d : Command}
    (h : d ∈ (p.apply (.removeNodes nodes)).commands) :
    Origin p (.removeNodes nodes) d (p.apply (.removeNodes nodes)).catalog := by
  have happly : p.apply (.removeNodes nodes) = orUnchanged p (·.2) (p.removeNodes nodes) := rfl
  rw [happly] at h ⊢
  unfold removeNodes at h ⊢
  cases hc : p.editing? with
  | none =>
      rw [hc] at h
      exact .kept _ h
  | some c =>
      rw [hc] at h
      rcases mem_or_of_mem_updateCommand hc h with hd | ⟨hmem, rfl⟩
      · exact .kept _ hd
      · exact .nodesRemoved nodes hmem

/-- Every command of an edited project came about in one of the ways listed. -/
theorem origin_of_mem {p : Project} {e : Edit} {d : Command} (h : d ∈ (p.apply e).commands) :
    Origin p e d (p.apply e).catalog := by
  cases e with
  | createCommand name description uid =>
      rcases List.mem_append.1 h with hd | hd
      · exact .kept _ hd
      · rw [List.mem_singleton.1 hd]
        exact .created name description uid
  | addCommand c =>
      rcases List.mem_append.1 h with hd | hd
      · exact .kept _ hd
      · rw [List.mem_singleton.1 hd]
        exact .added c
  | deleteCommand uid => exact origin_deleteCommand h
  | setEditing uid => exact origin_setEditing h
  | addNode typeId position uid => exact origin_addNode h
  | removeNodes nodes => exact origin_removeNodes h
  | command uid ce =>
      rcases mem_or_of_mem_updateFirst h with hd | ⟨c, hc, rfl⟩
      · exact .kept _ hd
      · exact .edited uid ce (List.mem_of_find?_eq_some hc)
  | publish catalog =>
      obtain ⟨c, hc, rfl⟩ := List.mem_map.1 h
      exact .rebound catalog hc

end Project

end CommandFlow
