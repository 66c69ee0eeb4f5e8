/-
The command that was just added.

A command that is added stands behind the others, and its uid is remembered as that of the command
being edited.  Uids are looked up from the front.  So the command being edited is then the one that
was added exactly if no other has its uid.  Where another has it, the first of these is edited:
nodes are placed there, and the command that was added stays as it is.

Commands can be equal, so what is being edited is told by its place (`editedPlace?`).
-/
import CommandFlow.Proofs.Project.Editing
import Mathlib.Data.List.Nodup

namespace CommandFlow

namespace Project

/-- The place of the command that is being edited. -/
def editedPlace? (p : Project) : Option Nat :=
  p.editing.bind fun u => p.commands.findIdx? (·.uid = u)

/-- Whether a change that made the list of commands longer left the last of them being edited. -/
def EditsAdded (p q : Project) : Prop :=
  p.commands.length < q.commands.length → q.editedPlace? = some p.commands.length

section

variable {p q : Project} {before after : List Command} {c d : Command} {u : String}

/-! ### The first command with the uid is edited -/

theorem editing?_eq_bind (p : Project) : p.editing? = p.editedPlace?.bind (p.commands[·]?) := by
  unfold editing? editedPlace?
  cases p.editing with
  | none => rfl
  | some u => exact List.find?_eq_bind_findIdx?_getElem?

theorem editedPlace?_eq (hediting : p.editing = some d.uid)
    (hsplit : p.commands = before ++ d :: after) (hbefore : ∀ e ∈ before, e.uid ≠ d.uid) :
    p.editedPlace? = some before.length := by
  have hnone : before.findIdx? (·.uid = d.uid) = none := by
    rw [List.findIdx?_eq_none_iff]
    intro e he
    simpa using hbefore e he
  rw [editedPlace?, hediting, hsplit, Option.bind_some, List.findIdx?_append, hnone,
    List.findIdx?_cons]
  simp

theorem editing?_eq_some (hediting : p.editing = some d.uid)
    (hsplit : p.commands = before ++ d :: after) (hbefore : ∀ e ∈ before, e.uid ≠ d.uid) :
    p.editing? = some d := by
  rw [editing?_eq_bind, editedPlace?_eq hediting hsplit hbefore, hsplit]
  simp

/-- A node is placed in the first command with the uid, and nowhere else. -/
theorem addNode_eq (hediting : p.editing = some d.uid)
    (hsplit : p.commands = before ++ d :: after) (hbefore : ∀ e ∈ before, e.uid ≠ d.uid)
    (typeId : String) (position : Position) (uid : String) :
    p.addNode typeId position uid =
      ((d.flow.addNodeById typeId position uid).mapError .catalog).map fun r =>
        (r.1, { p with commands := before ++ { d with flow := r.2 } :: after }) := by
  unfold addNode
  rw [editing?_eq_some hediting hsplit hbefore]
  dsimp only
  cases d.flow.addNodeById typeId position uid with
  | error cause => rfl
  | ok r =>
      have htest : ∀ e ∈ before, decide (e.uid = d.uid) = false := fun e he =>
        decide_eq_false (hbefore e he)
      show Except.ok (r.1, p.updateCommand d.uid fun c => { c with flow := r.2 }) = _
      rw [updateCommand, hsplit, updateFirst_append_cons htest (by simp)]
      rfl

/-! ### Where a command that was added is found -/

theorem length_uids (p : Project) : p.uids.length = p.commands.length :=
  List.length_map _

theorem editedPlace?_of_editing (h : p.editing = some u) :
    p.editedPlace? = p.uids.findIdx? (· = u) := by
  rw [editedPlace?, h, uids, List.findIdx?_map]
  rfl

/-- A uid behind others is found there exactly if it is not one of them. -/
theorem findIdx?_append_singleton_eq_iff (us : List String) (u : String) :
    (us ++ [u]).findIdx? (· = u) = some us.length ↔ u ∉ us := by
  rw [List.findIdx?_append]
  cases hfound : us.findIdx? (· = u) with
  | none =>
      rw [List.findIdx?_eq_none_iff] at hfound
      refine iff_of_true (by simp [List.findIdx?_cons]) fun hmem => ?_
      simpa using hfound u hmem
  | some i =>
      obtain ⟨hlt, hu, -⟩ := List.findIdx?_eq_some_iff_getElem.1 hfound
      refine iff_of_false (fun heq => ?_) (not_not_intro ?_)
      · exact Nat.ne_of_lt hlt (Option.some.inj heq)
      · exact List.mem_of_getElem (of_decide_eq_true hu)

/-- After a uid was added, the command being edited is the last one exactly if the uid is new. -/
theorem editedPlace?_eq_length_iff (huids : q.uids = p.uids ++ [u])
    (hediting : q.editing = some u) :
    q.editedPlace? = some p.commands.length ↔ u ∉ p.uids := by
  rw [editedPlace?_of_editing hediting, huids, ← length_uids]
  exact findIdx?_append_singleton_eq_iff p.uids u

/-- Where uids differ, a command that is added is the one being edited exactly if they differ
afterwards. -/
theorem Refocused.editsAdded_iff (h : p.Refocused q) (hp : p.uids.Nodup) :
    p.EditsAdded q ↔ q.uids.Nodup := by
  have hlength : p.commands.length < q.commands.length ↔ p.uids.length < q.uids.length := by
    rw [length_uids, length_uids]
  unfold EditsAdded
  rw [hlength]
  -- Only adding a command makes the list longer, and otherwise uids that differ go on differing.
  cases h with
  | same huids _ => exact iff_of_true (fun hlt => absurd hlt (by simp [huids])) (huids ▸ hp)
  | added uid huids hediting =>
      have hlt : p.uids.length < q.uids.length := by simp [huids]
      rw [imp_iff_right hlt, editedPlace?_eq_length_iff huids hediting, huids,
        ← List.concat_eq_append, List.nodup_concat]
      exact (and_iff_left hp).symm
  | deleted uid huids _ =>
      have hsub : q.uids.Sublist p.uids := huids ▸ List.eraseP_sublist
      exact iff_of_true (fun hlt => absurd hsub.length_le (Nat.not_le.2 hlt)) (hp.sublist hsub)
  | chosen uid _ huids _ => exact iff_of_true (fun hlt => absurd hlt (by simp [huids])) (huids ▸ hp)

end

/--
**A command that was added is the one being edited exactly if its uid is new.**  Start from a new
project or from a loaded one and change it in any way, then add a command.  It stands behind the
others, and its place is the one that is edited exactly if no command had its uid.  In that case
placing a node places it there and changes no other command.  Otherwise the first command with the
uid is edited: placing a node places it in this one, and the command that was added stays as it is.
From a start where uids differ, every command that is added on the way is the one being edited then
exactly if uids differ all the way.
-/
theorem added_command_is_edited_iff_uid_is_new (start : Start) (changes : List Change)
    (c : Command) :
    let p := changes.foldl changed start.project
    let q := p.addCommand c
    q.commands = p.commands ++ [c] ∧
    (q.editedPlace? = some p.commands.length ↔ c.uid ∉ p.uids) ∧
    (c.uid ∉ p.uids → q.editing? = some c ∧
      ∀ typeId position uid, q.addNode typeId position uid =
        ((c.flow.addNodeById typeId position uid).mapError .catalog).map fun r =>
          (r.1, { q with commands := p.commands ++ [{ c with flow := r.2 }] })) ∧
    (c.uid ∈ p.uids → ∃ before d after, p.commands = before ++ d :: after ∧ d.uid = c.uid ∧
      (∀ e ∈ before, e.uid ≠ c.uid) ∧ q.editedPlace? = some before.length ∧ q.editing? = some d ∧
      ∀ typeId position uid, q.addNode typeId position uid =
        ((d.flow.addNodeById typeId position uid).mapError .catalog).map fun r =>
          (r.1, { q with commands := before ++ { d with flow := r.2 } :: after ++ [c] })) ∧
    (start.project.uids.Nodup →
      (Allowed changed (fun p change => p.EditsAdded (p.changed change)) start.project changes ↔
        ∀ done, done <+: changes → (done.foldl changed start.project).uids.Nodup)) := by
  intro p q
  refine ⟨rfl, editedPlace?_eq_length_iff List.map_append rfl, ?_, ?_, ?_⟩
  · intro hnew
    have hothers : ∀ e ∈ p.commands, e.uid ≠ c.uid := by
      intro e he heq
      rw [← heq] at hnew
      exact hnew (List.mem_map_of_mem he)
    exact ⟨editing?_eq_some rfl rfl hothers, addNode_eq rfl rfl hothers⟩
  · intro hold
    obtain ⟨before, d, after, hsplit, huid, hbefore, -, -⟩ := exists_first_of_mem_uids hold
    have hediting : q.editing = some d.uid := congrArg some huid.symm
    have hcommands : q.commands = before ++ d :: (after ++ [c]) := by
      show p.commands ++ [c] = _
      rw [hsplit, List.append_assoc, List.cons_append]
    have hfirst : ∀ e ∈ before, e.uid ≠ d.uid := huid ▸ hbefore
    refine ⟨before, d, after, hsplit, huid, hbefore, editedPlace?_eq hediting hcommands hfirst,
      editing?_eq_some hediting hcommands hfirst, ?_⟩
    intro typeId position uid
    simp only [List.append_assoc, List.cons_append]
    exact addNode_eq hediting hcommands hfirst typeId position uid
  · intro hstart
    have hstep : ∀ (p : Project) (change : Change), p.uids.Nodup →
        (p.EditsAdded (p.changed change) ↔ (p.changed change).uids.Nodup) := fun p change =>
      (refocused_changed p change).editsAdded_iff
    exact (Allowed.iff_throughout (I := fun p : Project => p.uids.Nodup) (fun _ => id)
      (fun p change hp => (hstep p change hp).1) (fun p change hp => mt (hstep p change hp).2)
      hstart).symm

/-- A command is added whose uid another has: the other is being edited, and the node that is placed
next is placed there. -/
theorem command_with_known_uid_is_not_edited :
    let say : NodeType := { id := "say", title := "Say" }
    let catalog := Catalog.ofNodup [say] (by decide)
    let p := (new "p" (some catalog)).addCommand (.new "first" "" catalog "c")
    let q := p.addCommand (.new "second" "" catalog "c")
    let q' := q.apply (.addNode "say" ⟨.zero false, .zero false⟩ "n")
    q.commands.map (·.name) = ["first", "second"] ∧ q.editedPlace? = some 0 ∧
      q.editing?.map (·.name) = some "first" ∧
      q'.commands.map (fun c => c.flow.nodes.map (·.uid)) = [["n"], []] := by
  decide +kernel

end Project

end CommandFlow
