/-
What the removal of an option takes away.

An option is found by its name, its node type and its nodes by their id, and the connections by the
handles of the nodes.  In an orderly command all of these tell the option apart from everything else:
no other option has the name, no other type the id, and no other node one of the handles.

An option that was just added has an id that nothing had before.  So its removal takes back what the
addition did, whatever name the option was given.
-/
import CommandFlow.Proofs.Command.Settled

namespace CommandFlow

namespace Flow

/-- What goes with the nodes of a type, and what is left. -/
def removalOfType (f : Flow) (typeId : String) : Removal :=
  let cut (d : Connection) : Bool := (f.nodesOfType typeId).any fun n => d.touches n.handle
  { flow := { f with
      nodes := f.nodes.filter (·.typeId ≠ typeId)
      connections := f.connections.filter (!cut ·) }
    nodes := f.nodesOfType typeId
    connections := f.connections.filter cut }

/-- No other node has the handle of a node of the type. -/
theorem removeNodes_nodesOfType {f : Flow} (h : f.Numbered) (typeId : String) :
    f.removeNodes ((f.nodesOfType typeId).map (·.handle)) = f.removalOfType typeId := by
  have hmem : ∀ n ∈ f.nodes, n.handle ∈ (f.nodesOfType typeId).map (·.handle) ↔
      n.typeId = typeId := by
    intro n hn
    rw [h.mem_nodesOfType_iff, isOfType, typeAt?, h.node?_eq_some_iff.2 ⟨hn, rfl⟩]
    exact decide_eq_true_iff
  have hkept : f.nodes.filter (·.handle ∉ (f.nodesOfType typeId).map (·.handle)) =
      f.nodes.filter (·.typeId ≠ typeId) :=
    List.filter_congr fun n hn => decide_eq_decide.2 (not_congr (hmem n hn))
  have hgone : f.nodes.filter (·.handle ∈ (f.nodesOfType typeId).map (·.handle)) =
      f.nodesOfType typeId :=
    List.filter_congr fun n hn => decide_eq_decide.2 (hmem n hn)
  simp only [removeNodes, removalOfType, hkept, hgone, List.any_map, Function.comp_def]

/-- Where no node is of the type, nothing goes. -/
theorem flow_removalOfType {f : Flow} {typeId : String} (h : ∀ n ∈ f.nodes, n.typeId ≠ typeId) :
    (f.removalOfType typeId).flow = f := by
  have hnodes : f.nodes.filter (·.typeId ≠ typeId) = f.nodes :=
    List.filter_eq_self.2 fun n hn => decide_eq_true (h n hn)
  have hnone : f.nodesOfType typeId = [] :=
    List.filter_eq_nil_iff.2 fun n hn => by simpa using h n hn
  simp only [removalOfType, hnodes, hnone, List.any_nil, Bool.not_false, List.filter_true]

end Flow

namespace Command

variable {c c' : Command} {o : CommandOption}

/-! ### The removal -/

/-- The removal of an option takes away the option and its node type, and what goes with the nodes
of that type. -/
theorem Orderly.removeOption_spec (h : c.Orderly) (ho : o ∈ c.options) :
    ∃ optionTypes : Catalog,
      optionTypes.entries = (c.options.eraseP (·.name = o.name)).map CommandOption.nodeType ∧
      c.removeOption o.name = .ok
        { command := { c with
            options := c.options.eraseP (·.name = o.name)
            flow := { (c.flow.removalOfType o.typeId).flow with optionTypes } }
          option := o
          removal := Flow.removalOfType { c.flow with optionTypes } o.typeId } := by
  obtain ⟨optionTypes, herase⟩ := Catalog.exists_erase (h.inStep.get?_typeId ho)
  have hoption := h.inStep.option?_name ho
  refine ⟨optionTypes, h.inStep.effect (.optionRemoved hoption herase), ?_⟩
  have hnumbered : Flow.Numbered { c.flow with optionTypes } :=
    h.numbered.of_sublist (List.Sublist.refl _) rfl
  have hnodes := Flow.removeNodes_nodesOfType hnumbered o.typeId
  rw [CommandOption.typeId] at herase hnodes
  simp only [removeOption, hoption, herase, hnodes]
  rfl

/-! ### Adding and removing -/

/-- No node is of a type whose id is free. -/
theorem typeId_ne_of_isTaken (h : c.flow.Settled) {id : String} (hfree : c.isTaken id = false) :
    ∀ n ∈ c.flow.nodes, n.typeId ≠ id := by
  intro n hn hid
  have htaken := isTaken_of_resolve? (h.resolved n hn)
  rw [hid, hfree] at htaken
  exact absurd htaken (by simp)

/-- The removal of an option that was added under a free id leaves the command as it was. -/
theorem Orderly.exists_removeOption (h : c.Orderly) (h' : c'.Orderly)
    (hfree : c.isTaken o.typeId = false) {added : Catalog}
    (hc' : c' = { c with
      options := c.options ++ [o], flow := { c.flow with optionTypes := added } }) :
    ∃ r, c'.removeOption o.name = .ok r ∧ r.option = o ∧ r.command = c := by
  have hmem : o ∈ c'.options := by simp [hc']
  obtain ⟨optionTypes, hentries, hremove⟩ := h'.removeOption_spec hmem
  -- Nothing that was there before has the name or the id.
  have hname : ∀ a ∈ c.options, ¬decide (a.name = o.name) = true := by
    intro a ha
    rw [decide_eq_true_iff]
    exact (h.inStep.isTaken_eq_false_iff.1 hfree).2 a ha
  have hoptions : c'.options.eraseP (·.name = o.name) = c.options := by
    rw [hc', List.eraseP_append_right _ hname, List.eraseP_cons_of_pos (by simp), List.append_nil]
  have htypes : optionTypes = c.flow.optionTypes := by
    refine Catalog.ext ?_
    rw [hentries, hoptions, h.inStep]
  have hflow : (c'.flow.removalOfType o.typeId).flow = c'.flow := by
    refine Flow.flow_removalOfType ?_
    rw [hc']
    exact typeId_ne_of_isTaken h.settled hfree
  refine ⟨_, hremove, rfl, ?_⟩
  rw [hoptions, htypes, hflow, hc']

theorem Orderly.of_addOption (h : c.Orderly) {name : String}
    (hadd : c.addOption o = .ok (name, c')) : c'.Orderly := by
  have happly : c.apply (.addOption o) = c' := by
    show orUnchanged c (·.2) (c.addOption o) = c'
    rw [hadd]
    rfl
  rw [← happly]
  exact h.apply rfl

/--
**The removal of an option takes what stands for the option, and nothing else.**  Start from a new
command over any catalog, edit its options and its flow, place nodes by id, and bind it to other
catalogs that are not empty and list none of the ids that its options have at that moment.  Each of
its options can then be removed.  The option goes from the list and its node type from the types of
options, the nodes of that type go, and so do the connections that have an end at one of them.  All
else stays as it is and where it is.  An option that is added, under whatever name, and then removed
under that name leaves the command as it was.
-/
theorem option_removal_takes_its_own (name description uid : String) (catalog : Catalog)
    (edits : List Edit)
    (h : Allowed apply (fun c e => c.permits e = true) (new name description catalog uid) edits) :
    let c := edits.foldl apply (new name description catalog uid)
    (∀ o ∈ c.options, ∃ r before after optionTypes,
      c.removeOption o.name = .ok r ∧
      c.options = before ++ o :: after ∧
      c.flow.optionTypes.entries = before.map CommandOption.nodeType ++
        o.nodeType :: after.map CommandOption.nodeType ∧
      optionTypes.entries = before.map CommandOption.nodeType ++
        after.map CommandOption.nodeType ∧
      r.command = { c with
        options := before ++ after
        flow := { c.flow with
          optionTypes
          nodes := c.flow.nodes.filter (·.typeId ≠ o.typeId)
          connections := c.flow.connections.filter fun d =>
            !(c.flow.nodesOfType o.typeId).any fun n => d.touches n.handle } } ∧
      r.option = o ∧
      r.removal.nodes = c.flow.nodesOfType o.typeId ∧
      r.removal.connections = c.flow.connections.filter fun d =>
        (c.flow.nodesOfType o.typeId).any fun n => d.touches n.handle) ∧
    ∀ o, ∃ name c' r, c.addOption o = .ok (name, c') ∧ c'.removeOption name = .ok r ∧
      r.option = { o with name } ∧ r.command = c := by
  intro c
  have horderly : c.Orderly := orderly_of_edits h
  constructor
  · intro o ho
    obtain ⟨optionTypes, hentries, hremove⟩ := horderly.removeOption_spec ho
    obtain ⟨before, after, hsplit, -, herase⟩ := exists_eraseP_eq (horderly.inStep.option?_name ho)
    rw [herase] at hentries hremove
    refine ⟨_, before, after, optionTypes, hremove, hsplit, ?_, ?_, rfl, rfl, rfl, rfl⟩
    · rw [horderly.inStep, hsplit, List.map_append, List.map_cons]
    · rw [hentries, List.map_append]
  · intro o
    obtain ⟨added, hadd, -⟩ := c.exists_addOption o
    obtain ⟨r, hremove, hoption, hcommand⟩ := horderly.exists_removeOption
      (horderly.of_addOption hadd) (isTaken_added (o := o) rfl) rfl
    exact ⟨_, _, r, hadd, hremove, hoption, hcommand⟩

/-- Two options, with a node each that drives the same node.  The first option goes with its node and
its connection.  A third option finds its id in the catalog, is added under another name and removed
again. -/
theorem option_removal_leaves_the_other :
    let text : PortShape := OptionKind.shape .string
    let greet : NodeType :=
      { id := "greet", title := "Greet",
        inputs := .ofList [("who", ⟨text, "who"⟩), ("what", ⟨text, "what"⟩)] }
    let origin : Position := ⟨.zero false, .zero false⟩
    let wire (m : Nat) (key : String) : Connection :=
      .ofLink ⟨⟨⟨m⟩, CommandOption.valueKey⟩, ⟨⟨2⟩, key⟩⟩ text
    let edits : List Edit := [
      .addOption { name := "x" },
      .addOption { name := "y" },
      .flow (.addNodeById (CommandOption.typeIdOf "x") origin "a"),
      .flow (.addNodeById (CommandOption.typeIdOf "y") origin "b"),
      .flow (.addNodeById "greet" origin "d"),
      .flow (.connect ⟨⟨⟨0⟩, CommandOption.valueKey⟩, ⟨⟨2⟩, "who"⟩⟩),
      .flow (.connect ⟨⟨⟨1⟩, CommandOption.valueKey⟩, ⟨⟨2⟩, "what"⟩⟩)]
    let catalog := Catalog.ofNodup [greet, { greet with id := CommandOption.typeIdOf "z" }]
      (by decide)
    let start := new "ping" "" catalog "c"
    let c := edits.foldl apply start
    Allowed apply (fun c e => c.permits e = true) start edits ∧
      (∃ r, c.removeOption "x" = .ok r ∧ r.option = { name := "x" } ∧
        r.command.flow.nodes.map (·.uid) = ["b", "d"] ∧
        r.command.flow.connections = [wire 1 "what"] ∧
        r.removal.connections = [wire 0 "who"]) ∧
      ∃ c' r, c.addOption { name := "z" } = .ok ("z1", c') ∧ c'.removeOption "z1" = .ok r ∧
        r.command = c := by
  intro text greet origin wire edits catalog start c
  have hallowed : Allowed apply (fun c e => c.permits e = true) start edits := by
    decide +kernel
  have hx : { name := "x" } ∈ c.options := by decide +kernel
  have hnodes : (c.flow.nodes.filter (·.typeId ≠ CommandOption.typeIdOf "x")).map (·.uid) =
      ["b", "d"] := by
    decide +kernel
  have hkept : (c.flow.connections.filter fun d =>
      !(c.flow.nodesOfType (CommandOption.typeIdOf "x")).any fun n => d.touches n.handle) =
        [wire 1 "what"] := by
    decide +kernel
  have hcut : (c.flow.connections.filter fun d =>
      (c.flow.nodesOfType (CommandOption.typeIdOf "x")).any fun n => d.touches n.handle) =
        [wire 0 "who"] := by
    decide +kernel
  have hname : (c.addOption { name := "z" }).toOption.map (·.1) = some "z1" := by decide +kernel
  have hspec := option_removal_takes_its_own "ping" "" "c" _ edits hallowed
  rw [show edits.foldl apply (new "ping" "" _ "c") = c from rfl] at hspec
  clear_value c
  obtain ⟨hremoval, haddition⟩ := hspec
  refine ⟨hallowed, ?_, ?_⟩
  · obtain ⟨r, _, _, _, hremove, -, -, -, hcommand, hoption, -, hlost⟩ := hremoval _ hx
    refine ⟨r, hremove, hoption, ?_, ?_, hlost.trans hcut⟩
    · rw [hcommand]
      exact hnodes
    · rw [hcommand]
      exact hkept
  · obtain ⟨name, c', r, hadd, hremove, -, hback⟩ := haddition { name := "z" }
    rw [hadd] at hname
    obtain rfl : name = "z1" := Option.some.inj hname
    exact ⟨c', r, hadd, hremove, hback⟩

end Command

end CommandFlow
