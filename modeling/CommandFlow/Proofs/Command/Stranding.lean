/-
When a command's flow stays consistent.

Changing an option gives the nodes that stand for it another type, and only the connections that
leave these nodes are checked again.  Nodes of an option have no inputs, so as a rule nothing enters
them.  But the shared catalog may come to list a type under the id of an option, and a node of that
type may have inputs: an update of the option then takes the inputs away and leaves the connections
that enter them.

This is the only way in which a command's flow becomes inconsistent.  `strands` says of an edit
whether it does so.
-/
import CommandFlow.Proofs.Command.Effect
import CommandFlow.Proofs.Flow.Consistent
import CommandFlow.Proofs.Flow.Numbered

namespace CommandFlow

/-- The node type of an option has no inputs. -/
theorem CommandOption.input?_nodeType (o : CommandOption) (key : String) :
    o.nodeType.input? key = none :=
  rfl

namespace Command

/-! ### Stranded connections -/

/-- Whether a connection enters a node that stands for the option with a name and leaves none. -/
def strandedBy (c : Command) (name : String) (d : Connection) : Bool :=
  let standsFor (p : Endpoint) : Bool := c.flow.isOfType (CommandOption.typeIdOf name) p.node
  d.target.any standsFor && !d.source.any standsFor

/-- Whether an edit leaves a connection at an input that it takes away. -/
def strands (c : Command) : Edit → Bool
  | .updateOption name o =>
    (c.updateOption name o).isOk && c.flow.connections.any (c.strandedBy name)
  | _ => false

theorem leavesAny_eq {c : Command} (h : c.flow.Numbered) (name : String) (d : Connection) :
    leavesAny (c.optionHandles name) d
      = d.source.any fun p => c.flow.isOfType (CommandOption.typeIdOf name) p.node := by
  unfold leavesAny optionHandles
  cases d.source with
  | none => rfl
  | some p =>
      rw [Option.any_some, Option.any_some, Bool.eq_iff_iff, decide_eq_true_iff]
      exact h.mem_nodesOfType_iff

/-- The node of a handle keeps its type unless it stands for the option. -/
theorem typeAt?_flowWithOption {c : Command} {name : String} {k : Handle}
    (hk : c.flow.isOfType (CommandOption.typeIdOf name) k = false) (o : CommandOption)
    (optionTypes : Catalog) :
    (c.flowWithOption name o optionTypes).typeAt? k = c.flow.typeAt? k := by
  rw [flowWithOption, Flow.typeAt?_retarget]
  show (c.flow.typeAt? k).map _ = c.flow.typeAt? k
  cases ht : c.flow.typeAt? k with
  | none => rfl
  | some t =>
      have hid : t.id ≠ CommandOption.typeIdOf name := by
        simpa [Flow.isOfType, ht] using hk
      simp [hid]

/-- A node that stands for the option has no input afterwards. -/
theorem required?_flowWithOption {c : Command} {name : String} {p : Endpoint}
    (hp : c.flow.isOfType (CommandOption.typeIdOf name) p.node = true) (o : CommandOption)
    (optionTypes : Catalog) : (c.flowWithOption name o optionTypes).required? p = none := by
  rw [Flow.required?, flowWithOption, Flow.typeAt?_retarget]
  show (((c.flow.typeAt? p.node).map _).bind _).map _ = none
  obtain ⟨t, ht, hid⟩ := (Option.any_eq_true _ _).1 hp
  have hid : t.id = CommandOption.typeIdOf name := by simpa using hid
  simp [ht, hid, CommandOption.input?_nodeType]

/-! ### Updates -/

variable {c : Command} {name : String} {o : CommandOption} {optionTypes : Catalog}

/-- An update that strands nothing leaves the flow wired. -/
theorem wired_update (hwired : c.flow.Wired) (hnumbered : c.flow.Numbered)
    (hnone : c.flow.connections.any (c.strandedBy name) = false) :
    ((c.flowWithOption name o optionTypes).revalidate
      (leavesAny (c.optionHandles name))).2.Wired := by
  refine Flow.wired_revalidate ?_ hwired.targets ?_ ?_
  · intro d hd
    obtain ⟨link, hlink, -⟩ := hwired.fits d hd
    exact ⟨link, hlink⟩
  · -- What is not checked leaves no node of the option and, not being stranded, enters none.
    intro d hd hsel
    rw [leavesAny_eq hnumbered] at hsel
    have htarget : d.target.any (fun p =>
        c.flow.isOfType (CommandOption.typeIdOf name) p.node) = false := by
      have := List.any_eq_false.1 hnone d hd
      simpa [strandedBy, hsel] using this
    refine (hwired.fits d hd).of_typeAt? ?_
    intro k t hk ht
    rw [typeAt?_flowWithOption]
    · exact ht
    obtain ⟨link, hlink, -⟩ := hwired.fits d hd
    rw [hlink, Flow.touches_ofLink] at hk
    rw [hlink] at hsel htarget
    rcases hk with rfl | rfl
    · simpa [Connection.ofLink] using hsel
    · simpa [Connection.ofLink] using htarget
  · -- Two connections with one source are both checked or both not, and in the second case the
    -- source is what it was.
    refine hwired.flowOutputs.imp ?_
    intro d e hne hun hflow heq
    refine hne ?_ heq
    have hsel : leavesAny (c.optionHandles name) d = false := by
      rcases hun with h | h
      · exact h
      · rw [leavesAny, heq]
        exact h
    rw [leavesAny_eq hnumbered] at hsel
    obtain ⟨p, hp, hpflow⟩ := (Option.any_eq_true _ _).1 hflow
    rw [hp] at hsel ⊢
    have hp' : c.flow.isOfType (CommandOption.typeIdOf name) p.node = false := hsel
    rw [Flow.isFlowOutput, Flow.offered?, typeAt?_flowWithOption hp'] at hpflow
    exact hpflow

/-- An update that strands a connection leaves a fault. -/
theorem violations_update (hwired : c.flow.Wired) (hnumbered : c.flow.Numbered)
    (hsome : c.flow.connections.any (c.strandedBy name) = true) :
    ((c.flowWithOption name o optionTypes).revalidate
      (leavesAny (c.optionHandles name))).2.violations ≠ [] := by
  obtain ⟨d, hd, hstranded⟩ := List.any_eq_true.1 hsome
  obtain ⟨link, hlink, -⟩ := hwired.fits d hd
  obtain ⟨htarget, hsource⟩ : d.target.any (fun p =>
      c.flow.isOfType (CommandOption.typeIdOf name) p.node) = true ∧
      d.source.any (fun p => c.flow.isOfType (CommandOption.typeIdOf name) p.node) = false := by
    simpa [strandedBy] using hstranded
  have hsel : leavesAny (c.optionHandles name) d = false := by
    rw [leavesAny_eq hnumbered]
    exact hsource
  have hkept := Flow.mem_revalidate_of_unselected (f := c.flowWithOption name o optionTypes) hd hsel
  intro hnil
  have hlink? : d.link? = some link := by rw [hlink]; rfl
  obtain ⟨shape, hvalid⟩ := Flow.validate_of_violations_eq_nil hnil hkept hlink?
  obtain ⟨-, -, required, hrequired, -⟩ := Flow.validate_eq_ok_iff.1 hvalid
  rw [hlink] at htarget
  have hnone : (c.flowWithOption name o optionTypes).required? link.target = none :=
    required?_flowWithOption htarget o optionTypes
  exact absurd (hnone.symm.trans hrequired) (by simp)

/-! ### Edits -/

theorem numbered_effect {c c' : Command} {e : Edit} (h : c.flow.Numbered) (he : c.Effect e c') :
    c'.flow.Numbered := by
  cases he with
  | refused => exact h
  | optionAdded _ _ => exact h.of_sublist (List.Sublist.refl _) rfl
  | optionRemoved _ _ => exact h.of_sublist (List.filter_sublist.map _) rfl
  | @optionUpdated _ _ _ optionTypes _ _ _ =>
      have h' : Flow.Numbered { c.flow with optionTypes } :=
        h.of_sublist (List.Sublist.refl _) rfl
      exact (h'.retarget _ _).of_sublist (List.Sublist.refl _) rfl
  | flowEdited hflow => exact h.effect hflow

/-- An edit that strands nothing keeps the flow wired. -/
theorem wired_effect {c c' : Command} {e : Edit} (hwired : c.flow.Wired)
    (hnumbered : c.flow.Numbered) (hnone : c.strands e = false) (he : c.Effect e c') :
    c'.flow.Wired := by
  cases he with
  | refused => exact hwired
  | optionAdded _ _ =>
      exact hwired.of_sublist (List.Sublist.refl _) fun _ _ hd => hd.of_typeAt? fun _ _ _ ht => ht
  | optionRemoved _ _ =>
      refine Flow.Wired.removeNodes ?_ _
      exact hwired.of_sublist (List.Sublist.refl _) fun _ _ hd => hd.of_typeAt? fun _ _ _ ht => ht
  | optionUpdated hoption hfree hreplace =>
      have hok := updateOption_eq_ok_iff.2 ⟨_, _, hoption, hfree, hreplace, rfl, rfl⟩
      refine wired_update hwired hnumbered ?_
      simpa [strands, hok, Except.isOk, Except.toBool] using hnone
  | flowEdited hflow => exact hwired.effect hflow

/-- An edit that strands a connection leaves a fault. -/
theorem violations_of_strands {c : Command} {e : Edit} (hwired : c.flow.Wired)
    (hnumbered : c.flow.Numbered) (h : c.strands e = true) :
    (c.apply e).flow.violations ≠ [] := by
  cases e with
  | updateOption name o =>
      obtain ⟨hok, hsome⟩ := Bool.and_eq_true_iff.1 h
      cases hupdate : c.updateOption name o with
      | error _ => simp [hupdate, Except.isOk, Except.toBool] at hok
      | ok r =>
          obtain ⟨_, optionTypes, -, -, -, -, hr⟩ := updateOption_eq_ok_iff.1 hupdate
          have happly : c.apply (.updateOption name o) = r.2 := by
            show orUnchanged c (·.2) (c.updateOption name o) = r.2
            rw [hupdate]
            rfl
          rw [happly, hr]
          exact violations_update hwired hnumbered hsome
  | addOption _ => simp [strands] at h
  | removeOption _ => simp [strands] at h
  | flow _ => simp [strands] at h

/-- From a wired flow on, it is consistent after every edit exactly if no edit strands a
connection. -/
theorem consistent_iff_allowed {edits : List Edit} {c : Command} (hwired : c.flow.Wired)
    (hnumbered : c.flow.Numbered) :
    (∀ done, done <+: edits → (done.foldl apply c).flow.violations = []) ↔
      Allowed apply (fun c e => c.strands e = false) c edits := by
  refine Allowed.iff_throughout (I := fun c : Command => c.flow.Wired ∧ c.flow.Numbered)
    (G := fun c => c.flow.violations = []) ?_ ?_ ?_ ⟨hwired, hnumbered⟩
  · rintro c ⟨hwired, -⟩
    exact hwired.violations_eq_nil
  · rintro c e ⟨hwired, hnumbered⟩ hnone
    have he := effect_apply c e
    exact ⟨wired_effect hwired hnumbered hnone he, numbered_effect hnumbered he⟩
  · rintro c e ⟨hwired, hnumbered⟩ hstrands
    exact violations_of_strands hwired hnumbered (by simpa using hstrands)

/--
**A command's flow is consistent throughout exactly if no update of an option strands a
connection.**  From a new command on, by any edits of its options and its flow, whatever catalogs
its flow is bound to: the first edit that leaves a fault, if there is one, puts an option in the
place of another while a connection enters a node with the id of the old one's type and leaves no
such node.
-/
theorem consistent_throughout_iff_nothing_stranded (name description uid : String)
    (catalog : Catalog) (edits : List Edit) :
    (∀ done, done <+: edits →
      (done.foldl apply (new name description catalog uid)).flow.violations = []) ↔
    Allowed apply (fun c e => c.strands e = false) (new name description catalog uid) edits :=
  consistent_iff_allowed (Flow.wired_new catalog) (Flow.numbered_new catalog)

/-- A catalog lists a type with an input under the id of an option, a text is connected to a node of
that type, and an update of the option leaves the connection without its input. -/
theorem option_update_strands_connection :
    let say : NodeType :=
      { id := "say", title := "Say", outputs := .ofList [("said", ⟨⟨.text, []⟩, "said"⟩)] }
    let shout : NodeType :=
      { id := CommandOption.typeIdOf "x", title := "Shout",
        inputs := .ofList [("text", ⟨⟨.text, []⟩, "text"⟩)] }
    let origin : Position := ⟨.zero false, .zero false⟩
    let edits : List Edit := [
      .addOption { name := "x" },
      .flow (.rebind (Catalog.ofNodup [say, shout] (by decide))),
      .flow (.addNodeById say.id origin "a"),
      .flow (.addNodeById shout.id origin "b"),
      .flow (.connect ⟨⟨⟨0⟩, "said"⟩, ⟨⟨1⟩, "text"⟩⟩)]
    let before := edits.foldl apply (new "ping" "" (Catalog.ofNodup [say] (by decide)) "c")
    let after := before.apply (.updateOption "x" { name := "x", kind := .user })
    before.flow.violations = [] ∧
      after.flow.violations = [.invalidConnection 0 (.unknownInput shout.id "text")] := by
  decide +kernel

end Command

end CommandFlow
