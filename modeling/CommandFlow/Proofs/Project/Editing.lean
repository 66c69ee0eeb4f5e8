/-
The command that is being edited.

A project remembers the uid of the command that is being edited, and uids can repeat: a file may
give two commands the same one, and a command may be added twice.  The uid is looked up anew each
time, and the first command that has it counts.

`Refocused` says what a change can do to the uids and to the one that is remembered.  From that
alone the uid always leads to a command: adding a command makes its own uid the one remembered, and
deleting one forgets the uid even where another command still has it.
-/
import CommandFlow.Proofs.Command.Effect
import CommandFlow.Proofs.UpdateFirst
import CommandFlow.Saved.Loader

namespace CommandFlow

theorem Command.Effect.uid_eq {c c' : Command} {e : Edit} (he : c.Effect e c') :
    c'.uid = c.uid := by
  cases he <;> rfl

namespace Project

/-! ### Changes of a project -/

/-- What changes of a project start from. -/
inductive Start where
  | new (name : String) (catalog : Option Catalog)
  | loaded (loader : Loader) (saved : Saved.Project)

/-- The project before any change. -/
def Start.project : Start → Project
  | .new name catalog => Project.new name catalog
  | .loaded loader saved => loader.project saved

/-- One change of a project. -/
inductive Change where
  | edit (edit : Edit)
  /-- Any change of the command at a place that leaves its uid alone. -/
  | command (place : Nat) (change : Command → Command) (hkept : ∀ c, (change c).uid = c.uid)

/-- The project after a change. -/
def changed (p : Project) : Change → Project
  | .edit e => p.apply e
  | .command place change _ => { p with commands := p.commands.modify place change }

/-! ### What becomes of uids -/

/-- The uids of the commands, in order. -/
def uids (p : Project) : List String :=
  p.commands.map (·.uid)

/-- What a change can do to the uids of commands and to the one of the command being edited. -/
inductive Refocused (p q : Project) : Prop
  | same (huids : q.uids = p.uids) (hediting : q.editing = p.editing)
  | added (uid : String) (huids : q.uids = p.uids ++ [uid]) (hediting : q.editing = some uid)
  | deleted (uid : String) (huids : q.uids = p.uids.eraseP (· = uid))
      (hediting : q.editing = if p.isEditing uid then none else p.editing)
  | chosen (uid : Option String) (hthere : ∀ u, uid = some u → u ∈ p.uids) (huids : q.uids = p.uids)
      (hediting : q.editing = uid)

theorem mem_uids_of_command? {p : Project} {uid : String} {c : Command}
    (h : p.command? uid = some c) : uid ∈ p.uids := by
  have huid : c.uid = uid := by simpa using List.find?_some h
  rw [← huid]
  exact List.mem_map_of_mem (List.mem_of_find?_eq_some h)

/-- A change of one command that leaves its uid alone leaves all uids alone. -/
theorem uids_updateCommand (p : Project) (uid : String) {change : Command → Command}
    (hkept : ∀ c, (change c).uid = c.uid) : (p.updateCommand uid change).uids = p.uids :=
  map_updateFirst hkept

theorem refocused_deleteCommand (p : Project) (uid : String) :
    p.Refocused (p.apply (.deleteCommand uid)) := by
  show p.Refocused (orUnchanged p (·.2) (p.deleteCommand uid))
  unfold deleteCommand
  cases p.command? uid with
  | none => exact .same rfl rfl
  | some c =>
      refine .deleted uid ?_ rfl
      rw [uids, uids, List.eraseP_map]
      rfl

theorem refocused_setEditing (p : Project) (uid : Option String) :
    p.Refocused (p.apply (.setEditing uid)) := by
  show p.Refocused (orUnchanged p id (p.setEditing uid))
  unfold setEditing
  cases uid with
  | none => exact .chosen none (fun _ hu => absurd hu (by simp)) rfl rfl
  | some u =>
      dsimp only
      cases hc : p.command? u with
      | none => exact .same rfl rfl
      | some c =>
          refine .chosen (some u) ?_ rfl rfl
          intro v hv
          rw [← Option.some.inj hv]
          exact mem_uids_of_command? hc

theorem refocused_addNode (p : Project) (typeId : String) (position : Position) (uid : String) :
    p.Refocused (p.apply (.addNode typeId position uid)) := by
  show p.Refocused (orUnchanged p (·.2) (p.addNode typeId position uid))
  unfold addNode
  cases p.editing? with
  | none => exact .same rfl rfl
  | some c =>
      dsimp only
      cases c.flow.addNodeById typeId position uid with
      | error cause => exact .same rfl rfl
      | ok r => exact .same (uids_updateCommand p c.uid fun _ => rfl) rfl

theorem refocused_removeNodes (p : Project) (nodes : List Handle) :
    p.Refocused (p.apply (.removeNodes nodes)) := by
  show p.Refocused (orUnchanged p (·.2) (p.removeNodes nodes))
  unfold removeNodes
  cases p.editing? with
  | none => exact .same rfl rfl
  | some c => exact .same (uids_updateCommand p c.uid fun _ => rfl) rfl

theorem refocused_apply (p : Project) (e : Edit) : p.Refocused (p.apply e) := by
  cases e with
  | createCommand name description uid => exact .added uid List.map_append rfl
  | addCommand c => exact .added c.uid List.map_append rfl
  | deleteCommand uid => exact refocused_deleteCommand p uid
  | setEditing uid => exact refocused_setEditing p uid
  | addNode typeId position uid => exact refocused_addNode p typeId position uid
  | removeNodes nodes => exact refocused_removeNodes p nodes
  | command uid ce =>
      exact .same (uids_updateCommand p uid fun c => (Command.effect_apply c ce).uid_eq) rfl
  | publish catalog => exact .same List.map_map rfl

theorem map_modify {α β : Type} {view : α → β} {change : α → α}
    (hkept : ∀ a, view (change a) = view a) : ∀ (l : List α) (place : Nat),
    (l.modify place change).map view = l.map view := by
  intro l
  induction l with
  | nil => intro place; cases place <;> rfl
  | cons a rest ih =>
      intro place
      cases place with
      | zero => rw [List.modify_zero_cons, List.map_cons, List.map_cons, hkept]
      | succ place => rw [List.modify_succ_cons, List.map_cons, List.map_cons, ih]

/-- Every change does one of the things listed. -/
theorem refocused_changed (p : Project) (change : Change) : p.Refocused (p.changed change) := by
  cases change with
  | edit e => exact refocused_apply p e
  | command place change hkept => exact .same (map_modify hkept p.commands place) rfl

/-! ### The uid leads to a command -/

/-- The uid of the command that is being edited is that of a command. -/
def Focused (p : Project) : Prop :=
  ∀ u, p.editing = some u → u ∈ p.uids

theorem Start.focused : ∀ start : Start, start.project.Focused
  | .new _ _ => fun _ hu => absurd hu (by simp [Start.project, Project.new])
  | .loaded _ _ => fun _ hu => absurd hu (by simp [Start.project, Loader.project, Project.new])

theorem Focused.refocused {p q : Project} (h : p.Focused) (hq : p.Refocused q) : q.Focused := by
  intro u hu
  cases hq with
  | same huids hediting =>
      rw [huids]
      exact h u (hediting ▸ hu)
  | added uid huids hediting =>
      obtain rfl : uid = u := Option.some.inj (hediting.symm.trans hu)
      rw [huids]
      exact List.mem_append_right _ List.mem_cons_self
  | deleted uid huids hediting =>
      -- Another command may have the uid that is deleted; it is forgotten all the same.
      rw [hediting] at hu
      by_cases hedited : p.isEditing uid = true
      · rw [if_pos hedited] at hu
        exact absurd hu (by simp)
      · rw [if_neg hedited] at hu
        have hne : u ≠ uid := by
          rintro rfl
          exact hedited (by simp [isEditing, hu])
        rw [huids, List.mem_eraseP_of_neg (by simpa using hne)]
        exact h u hu
  | chosen uid hthere huids hediting =>
      rw [huids]
      exact hthere u (hediting.symm.trans hu)

theorem focused_of_changes (start : Start) (changes : List Change) :
    (changes.foldl changed start.project).Focused :=
  List.foldlRecOn changes changed start.focused fun p h change _ =>
    h.refocused (refocused_changed p change)

/-! ### Edits of the command that is being edited -/

/-- A uid that is in use leads to the first command that has it. -/
theorem exists_first_of_mem_uids {p : Project} {u : String} (h : u ∈ p.uids) :
    ∃ before c after, p.commands = before ++ c :: after ∧ c.uid = u ∧
      (∀ d ∈ before, d.uid ≠ u) ∧ p.command? u = some c ∧
      ∀ change, p.updateCommand u change = { p with commands := before ++ change c :: after } := by
  have hsome : (p.command? u).isSome = true := by
    obtain ⟨c, hc, huid⟩ := List.mem_map.1 h
    rw [command?, List.find?_isSome]
    exact ⟨c, hc, by simpa using huid⟩
  obtain ⟨c, hc⟩ := Option.isSome_iff_exists.1 hsome
  obtain ⟨before, after, hsplit, hbefore, hupdate⟩ := exists_updateFirst_eq hc
  refine ⟨before, c, after, hsplit, by simpa using List.find?_some hc, ?_, hc, fun change => ?_⟩
  · intro d hd
    simpa using hbefore d hd
  · rw [updateCommand, hupdate change]

theorem addNode_eq_noCommandEditing_iff {p : Project} {typeId : String} {position : Position}
    {uid : String} :
    p.addNode typeId position uid = .error .noCommandEditing ↔ p.editing? = none := by
  unfold addNode
  cases p.editing? with
  | none => simp
  | some c =>
      dsimp only
      cases c.flow.addNodeById typeId position uid <;> simp

theorem removeNodes_eq_noCommandEditing_iff {p : Project} {nodes : List Handle} :
    p.removeNodes nodes = .error .noCommandEditing ↔ p.editing? = none := by
  unfold removeNodes
  cases p.editing? <;> simp

section

variable {p : Project} {c : Command} {before after : List Command}

theorem apply_addNode (hcurrent : p.editing? = some c) (hsplit : p.commands = before ++ c :: after)
    (hupdate : ∀ change, p.updateCommand c.uid change =
      { p with commands := before ++ change c :: after })
    (typeId : String) (position : Position) (uid : String) :
    p.apply (.addNode typeId position uid) = { p with
      commands := before ++ c.apply (.flow (.addNodeById typeId position uid)) :: after } := by
  show orUnchanged p (·.2) (p.addNode typeId position uid) = { p with commands := before ++
    { c with flow := orUnchanged c.flow (·.2) (c.flow.addNodeById typeId position uid) } :: after }
  unfold addNode
  rw [hcurrent]
  dsimp only
  cases c.flow.addNodeById typeId position uid with
  | error cause =>
      show p = { p with commands := before ++ c :: after }
      rw [← hsplit]
  | ok r => exact hupdate _

theorem apply_removeNodes (hcurrent : p.editing? = some c)
    (hupdate : ∀ change, p.updateCommand c.uid change =
      { p with commands := before ++ change c :: after }) (nodes : List Handle) :
    p.apply (.removeNodes nodes) = { p with
      commands := before ++ c.apply (.flow (.removeNodes nodes)) :: after } := by
  show orUnchanged p (·.2) (p.removeNodes nodes) = _
  unfold removeNodes
  rw [hcurrent]
  exact hupdate _

end

/--
**The command that is being edited is there, and is the only one that node edits reach.**  Start
from a new project, with or without a catalog, or from a loaded one, and create, add, delete,
choose and edit commands, place and remove nodes and publish catalogs in any order, whatever uids
repeat.  If a uid is remembered, a command has it, and the first such command is the one being
edited: placing or removing nodes edits its flow and leaves all else as it is.  Both are refused
for want of a command exactly if no uid is remembered.
-/
theorem remembered_uid_leads_to_first_command (start : Start) (changes : List Change) :
    let p := changes.foldl changed start.project
    (∀ u, p.editing = some u → ∃ before c after, p.commands = before ++ c :: after ∧ c.uid = u ∧
      (∀ d ∈ before, d.uid ≠ u) ∧ p.editing? = some c ∧
      (∀ typeId position uid, p.apply (.addNode typeId position uid) = { p with
        commands := before ++ c.apply (.flow (.addNodeById typeId position uid)) :: after }) ∧
      ∀ nodes, p.apply (.removeNodes nodes) = { p with
        commands := before ++ c.apply (.flow (.removeNodes nodes)) :: after }) ∧
    (∀ typeId position uid,
      p.addNode typeId position uid = .error .noCommandEditing ↔ p.editing = none) ∧
    ∀ nodes, p.removeNodes nodes = .error .noCommandEditing ↔ p.editing = none := by
  intro p
  have hfocused : p.Focused := focused_of_changes start changes
  have hcurrent : ∀ u, p.editing = some u → ∃ before c after, p.commands = before ++ c :: after ∧
      c.uid = u ∧ (∀ d ∈ before, d.uid ≠ u) ∧ p.editing? = some c ∧
      ∀ change, p.updateCommand u change = { p with commands := before ++ change c :: after } := by
    intro u hu
    obtain ⟨before, c, after, hsplit, huid, hbefore, hc, hupdate⟩ :=
      exists_first_of_mem_uids (hfocused u hu)
    exact ⟨before, c, after, hsplit, huid, hbefore, by rw [editing?, hu]; exact hc, hupdate⟩
  have hnone : p.editing? = none ↔ p.editing = none := by
    constructor
    · intro hnone
      cases hu : p.editing with
      | none => rfl
      | some u =>
          obtain ⟨_, c, _, -, -, -, hc, -⟩ := hcurrent u hu
          exact absurd (hnone.symm.trans hc) (by simp)
    · intro hnone
      rw [editing?, hnone]
      rfl
  refine ⟨?_, fun _ _ _ => addNode_eq_noCommandEditing_iff.trans hnone,
    fun _ => removeNodes_eq_noCommandEditing_iff.trans hnone⟩
  intro u hu
  obtain ⟨before, c, after, hsplit, rfl, hbefore, hc, hupdate⟩ := hcurrent u hu
  exact ⟨before, c, after, hsplit, rfl, hbefore, hc, apply_addNode hc hsplit hupdate,
    apply_removeNodes hc hupdate⟩

end Project

end CommandFlow
