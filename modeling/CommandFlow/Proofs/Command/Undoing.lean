/-
How an update of an option is taken back.

The id of the option that takes the place of another is that of the other or was free, so nothing else
in the command has it.  Putting the old option back then finds just the option, the nodes and the
connections that were changed.
-/
import CommandFlow.Proofs.Command.Replacing

namespace CommandFlow

/-- A change of some elements is taken back by one that finds just the changed ones. -/
theorem map_back {α : Type} {l : List α} {p q : α → Prop} [DecidablePred p] [DecidablePred q]
    {change restore : α → α} (hchanged : ∀ a ∈ l, p a → q (change a) ∧ restore (change a) = a)
    (hother : ∀ a ∈ l, ¬p a → ¬q a) :
    (l.map fun a => if p a then change a else a).map (fun a => if q a then restore a else a) = l := by
  rw [List.map_map]
  refine (List.map_congr_left fun a ha => ?_).trans (List.map_id l)
  by_cases hp : p a
  · obtain ⟨hq, hrestore⟩ := hchanged a ha hp
    simp [hp, hq, hrestore]
  · simp [hp, hother a ha hp]

namespace Command

variable {c c' : Command} {old o : CommandOption} {d : Connection}

/-! ### Options and nodes -/

/-- The id of an option that takes the place of another is that of the other, or of nothing that is
in use. -/
theorem eq_of_isTaken {id : String} (hfree : o.typeId = old.typeId ∨ c.isTaken o.typeId = false)
    (htaken : c.isTaken id = true) (hid : id = o.typeId) : id = old.typeId := by
  rcases hfree with hsame | hfree
  · exact hid.trans hsame
  · rw [hid, hfree] at htaken
    exact absurd htaken (by simp)

section

variable (hfree : o.typeId = old.typeId ∨ c.isTaken o.typeId = false)

include hfree

/-- A node is of the new option's type exactly if it was of the old one's. -/
theorem Orderly.isOfType_flowWithOption (h : c.Orderly) (optionTypes : Catalog) (k : Handle) :
    (c.flowWithOption old.name o optionTypes).isOfType o.typeId k =
      c.flow.isOfType old.typeId k := by
  rw [Flow.isOfType, flowWithOption, Flow.typeAt?_retarget]
  show ((c.flow.typeAt? k).map _).any _ = (c.flow.typeAt? k).any _
  cases ht : c.flow.typeAt? k with
  | none => rfl
  | some t =>
      obtain ⟨n, hn, rfl⟩ := Option.map_eq_some_iff.1 ht
      have htaken := isTaken_of_resolve? (h.settled.resolved n (List.mem_of_find?_eq_some hn))
      rw [Option.map_some, Option.any_some, Option.any_some, Bool.eq_iff_iff, decide_eq_true_iff,
        decide_eq_true_iff]
      -- A node of another type has an id in use, which is not that of the new option.
      split
      case isTrue hid => exact iff_of_true rfl hid
      case isFalse hid => exact iff_of_false (fun hnew => hid (eq_of_isTaken hfree htaken hnew)) hid

/-- Nodes get their types back. -/
theorem Orderly.nodes_back (h : c.Orderly) (hold : old ∈ c.options) (optionTypes : Catalog) :
    ((c.flowWithOption old.name o optionTypes).nodes.map fun n =>
      if n.typeId = o.typeId then { n with type := old.nodeType } else n) = c.flow.nodes := by
  refine map_back ?_ ?_
  · intro n hn hid
    refine ⟨rfl, ?_⟩
    show { n with type := old.nodeType } = n
    rw [← type_of_typeId h.inStep h.settled hold hn hid]
  · intro n hn hid hnew
    exact hid (eq_of_isTaken hfree (isTaken_of_resolve? (h.settled.resolved n hn)) hnew)

/-- The options are as they were. -/
theorem InStep.options_back (h : c.InStep) (hold : old ∈ c.options) :
    updateFirst (·.name = o.name) (fun _ => old)
      (updateFirst (·.name = old.name) (fun _ => o) c.options) = c.options := by
  obtain ⟨before, after, hsplit, hbefore, hset⟩ := exists_updateFirst_eq (h.option?_name hold)
  rw [hset, updateFirst_append_cons _ (by simp), ← hsplit]
  intro a ha
  have hmem : a ∈ c.options := by
    rw [hsplit]
    exact List.mem_append_left _ ha
  rw [decide_eq_false_iff_not]
  intro hname
  have hid : a.typeId = old.typeId :=
    eq_of_isTaken hfree (h.isTaken_typeId hmem) (typeId_eq_iff.2 hname)
  exact absurd (hbefore a ha) (by simpa using CommandOption.typeIdOf_injective hid)

end

/-! ### Connections -/

/-- Where every target takes what the other option gives out, no connection goes. -/
theorem reconnected_of_takes {name : String} (hall : ∀ d ∈ c.flow.connections,
      c.startsAt name d = true → c.flow.takes o.kind.shape d = true) :
    (c.flow.connections.filter fun d => c.startsAt name d && !c.flow.takes o.kind.shape d) = [] ∧
      c.reconnected name o = c.flow.connections.map fun d =>
        if c.startsAt name d then { d with shape := o.kind.shape } else d := by
  constructor
  · rw [List.filter_eq_nil_iff]
    intro d hd hlost
    obtain ⟨hstart, hrefused⟩ := Bool.and_eq_true_iff.1 hlost
    exact absurd (hall d hd hstart) (by simpa using hrefused)
  · refine congrArg (List.map _) (List.filter_eq_self.2 fun d hd => ?_)
    by_cases hstart : c.startsAt name d = true
    · simp [hall d hd hstart]
    · simp [hstart]

theorem takes_of_filter_eq_nil {name : String}
    (hnone : (c.flow.connections.filter fun d =>
      c.startsAt name d && !c.flow.takes o.kind.shape d) = []) :
    ∀ d ∈ c.flow.connections, c.startsAt name d = true → c.flow.takes o.kind.shape d = true := by
  intro d hd hstart
  have hkept := List.filter_eq_nil_iff.1 hnone d hd
  simpa [hstart] using hkept

/-- A connection that is left runs between the endpoints of one that was there. -/
theorem exists_of_mem_reconnected {name : String} (hd : d ∈ c.reconnected name o) :
    ∃ d' ∈ c.flow.connections, d.source = d'.source ∧ d.target = d'.target := by
  obtain ⟨d', hd', rfl⟩ := List.mem_map.1 hd
  refine ⟨d', (List.mem_filter.1 hd').1, ?_⟩
  split <;> exact ⟨rfl, rfl⟩

/-- The target of a connection from an option takes what the option gives out. -/
theorem Orderly.takes_of_startsAt (h : c.Orderly) (hold : old ∈ c.options)
    (hd : d ∈ c.flow.connections) (hstart : c.startsAt old.name d = true) (o : CommandOption)
    (optionTypes : Catalog) :
    (c.flowWithOption old.name o optionTypes).takes old.kind.shape d = true := by
  obtain ⟨hshape, link, hlink, hvalid, -, -, htarget⟩ := h.link_of_startsAt hold hd hstart
  have hend : d.target = some link.target := by
    rw [hlink]
    rfl
  rw [takes_flowWithOption hend htarget, hlink, Flow.takes_ofLink, ← hshape]
  exact (Flow.validate_eq_ok_iff.1 hvalid).2.2

/-! ### The way back -/

/-- The id of an option that another one replaced is free, unless the other one has it. -/
theorem Orderly.isTaken_replaced (h : c.Orderly) (hstep : c'.InStep) (hold : old ∈ c.options)
    (hcatalog : c'.flow.catalog = c.flow.catalog)
    (hoptions : c'.options = updateFirst (·.name = old.name) (fun _ => o) c.options)
    (hne : old.typeId ≠ o.typeId) : c'.isTaken old.typeId = false := by
  rw [CommandOption.typeId, hstep.isTaken_eq_false_iff]
  constructor
  · rw [hcatalog]
    exact h.settled.apart _ (Catalog.contains_iff_exists.2 ⟨_, h.inStep.get?_typeId hold⟩)
  · intro a ha hname
    rw [hoptions, updateFirst_eq_map (h.inStep.pairwise_name old.name), List.mem_map] at ha
    obtain ⟨b, -, rfl⟩ := ha
    by_cases hb : b.name = old.name
    · rw [if_pos (decide_eq_true hb)] at hname
      exact hne (congrArg CommandOption.typeIdOf hname.symm)
    · rw [if_neg (by simpa using hb)] at hname
      exact hb hname

/-- The old option can be put back. -/
theorem Orderly.exists_updateOption_back (h : c.Orderly) (hold : old ∈ c.options)
    {dropped : List Connection} (hupdate : c.updateOption old.name o = .ok (dropped, c')) :
    ∃ r, c'.updateOption o.name old = .ok r := by
  have hstep := (h.of_updateOption hupdate).inStep
  obtain ⟨optionTypes, -, hc'⟩ := h.updateOption_spec hupdate
  have hoptions : c'.options = updateFirst (·.name = old.name) (fun _ => o) c.options := by
    rw [hc']
  cases hback : c'.updateOption o.name old with
  | ok r => exact ⟨r, rfl⟩
  | error cause =>
      rcases hstep.updateOption_eq_error_iff.1 hback with ⟨-, hmissing⟩ | ⟨-, -, hne, htaken⟩
      · obtain ⟨before, after, -, -, hset⟩ := exists_updateFirst_eq (h.inStep.option?_name hold)
        rw [hoptions, hset] at hmissing
        exact absurd rfl (hmissing o (by simp))
      · rw [h.isTaken_replaced hstep hold (by rw [hc']; rfl) hoptions hne] at htaken
        exact absurd htaken (by simp)

/-- Putting the old option back drops nothing either, and gives the connections what they
carried. -/
theorem Orderly.connections_back (h : c.Orderly) (hold : old ∈ c.options)
    (hupdate : c.updateOption old.name o = .ok ([], c')) :
    (c'.flow.connections.filter fun d =>
        c'.startsAt o.name d && !c'.flow.takes old.kind.shape d) = [] ∧
      c'.reconnected o.name old = c.flow.connections := by
  obtain ⟨_, _, -, hfree, -⟩ := updateOption_eq_ok_iff.1 hupdate
  obtain ⟨optionTypes, hnone, hc'⟩ := h.updateOption_spec hupdate
  have hconnections : c'.flow.connections = c.reconnected old.name o := by rw [hc']
  have hstarts : ∀ d, c'.startsAt o.name d = c.startsAt old.name d := by
    intro d
    rw [hc']
    exact congrArg d.source.any (funext fun p => h.isOfType_flowWithOption hfree optionTypes p.node)
  have htakes : ∀ d ∈ c'.flow.connections, c'.startsAt o.name d = true →
      c'.flow.takes old.kind.shape d = true := by
    intro d hd hstart
    rw [hconnections] at hd
    obtain ⟨d', hd', hsource, htarget⟩ := exists_of_mem_reconnected hd
    rw [hstarts, startsAt, hsource] at hstart
    rw [hc', Flow.takes, htarget]
    exact h.takes_of_startsAt hold hd' hstart o optionTypes
  -- Neither update drops anything, so both are maps, and the second finds what the first changed.
  obtain ⟨hnone', hmap'⟩ := reconnected_of_takes htakes
  obtain ⟨-, hmap⟩ := reconnected_of_takes (takes_of_filter_eq_nil hnone.symm)
  refine ⟨hnone', ?_⟩
  rw [hmap', hconnections, hmap]
  refine map_back ?_ ?_
  · intro d hd hstart
    refine ⟨(hstarts _).trans hstart, ?_⟩
    rw [← (h.link_of_startsAt hold hd hstart).1]
  · intro d _ hstart hback
    exact hstart ((hstarts d).symm.trans hback)

/-- An update that drops nothing is undone by the opposite one. -/
theorem Orderly.updateOption_back (h : c.Orderly) (hold : old ∈ c.options)
    (hupdate : c.updateOption old.name o = .ok ([], c')) :
    c'.updateOption o.name old = .ok ([], c) := by
  have h' := h.of_updateOption hupdate
  obtain ⟨⟨dropped, c''⟩, hback⟩ := h.exists_updateOption_back hold hupdate
  have hstep := (h'.of_updateOption hback).inStep
  obtain ⟨_, _, -, hfree, -⟩ := updateOption_eq_ok_iff.1 hupdate
  obtain ⟨optionTypes, -, hc'⟩ := h.updateOption_spec hupdate
  obtain ⟨optionTypes', hdropped, hc''⟩ := h'.updateOption_spec hback
  obtain ⟨hnone, hconnections⟩ := h.connections_back hold hupdate
  have hoptions : c''.options = c.options := by
    rw [hc'', hc']
    exact h.inStep.options_back hfree hold
  have htypes : c''.flow.optionTypes = c.flow.optionTypes := by
    refine Catalog.ext ?_
    rw [hstep, h.inStep, hoptions]
  have hnodes : c''.flow.nodes = c.flow.nodes := by
    rw [hc'', hc']
    exact h.nodes_back hfree hold optionTypes
  have hrest : c'' = { c with
      options := c''.options
      flow := { c.flow with
        nodes := c''.flow.nodes
        connections := c'.reconnected o.name old
        optionTypes := c''.flow.optionTypes } } := by
    rw [hc'', hc']
    rfl
  rw [hoptions, hnodes, hconnections, htypes] at hrest
  rw [hback, hdropped, hnone, hrest]

/--
**An update of an option that drops no connection can be taken back.**  Start from a new command over
any catalog, edit its options and its flow, place nodes by id, and bind it to other catalogs that are
not empty and list none of the ids that its options have at that moment.  If another option is then
put in the place of one of its options and no connection goes, putting the old option in the place of
the other one succeeds, drops nothing, and leads back to the same command: the same options and types
of options, the same type on every node, and the same connections, each with what it carried.
-/
theorem option_update_is_undone (name description uid : String) (catalog : Catalog)
    (edits : List Edit)
    (h : Allowed apply (fun c e => c.permits e = true) (new name description catalog uid) edits) :
    let c := edits.foldl apply (new name description catalog uid)
    ∀ old ∈ c.options, ∀ (o : CommandOption) (c' : Command),
      c.updateOption old.name o = .ok ([], c') → c'.updateOption o.name old = .ok ([], c) := by
  intro c old hold o c' hupdate
  exact (orderly_of_edits h).updateOption_back hold hupdate

/-- An option for users drives an input for anything. It becomes a text of another name, and the
connection carries text, until the option for users is put back. -/
theorem user_option_is_put_back :
    let user : CommandOption := { name := "x", kind := .user }
    let text : CommandOption := { name := "z" }
    let greet : NodeType :=
      { id := "greet", title := "Greet", inputs := .ofList [("what", ⟨⟨.any, []⟩, "what"⟩)] }
    let origin : Position := ⟨.zero false, .zero false⟩
    let link : Link := ⟨⟨⟨0⟩, CommandOption.valueKey⟩, ⟨⟨1⟩, "what"⟩⟩
    let edits : List Edit := [
      .addOption user,
      .flow (.addNodeById user.typeId origin "a"),
      .flow (.addNodeById "greet" origin "b"),
      .flow (.connect link)]
    let start := new "ping" "" (Catalog.ofNodup [greet] (by decide)) "c"
    let c := edits.foldl apply start
    Allowed apply (fun c e => c.permits e = true) start edits ∧ user ∈ c.options ∧
      c.flow.connections = [.ofLink link user.kind.shape] ∧
      ∃ c', c.updateOption user.name text = .ok ([], c') ∧ c'.options = [text] ∧
        c'.flow.connections = [.ofLink link text.kind.shape] ∧
        c'.updateOption text.name user = .ok ([], c) := by
  intro user text greet origin link edits start c
  have hallowed : Allowed apply (fun c e => c.permits e = true) start edits := by
    decide +kernel
  have huser : user ∈ c.options := by decide +kernel
  have hconnections : c.flow.connections = [.ofLink link user.kind.shape] := by decide +kernel
  have hresult : (c.updateOption user.name text).toOption.map
      (fun r => (r.1, r.2.options, r.2.flow.connections)) =
        some ([], [text], [.ofLink link text.kind.shape]) := by
    decide +kernel
  have hback := option_update_is_undone "ping" "" "c" _ edits hallowed user huser text
  rw [show edits.foldl apply (new "ping" "" _ "c") = c from rfl] at hback
  clear_value c
  cases hupdate : c.updateOption user.name text with
  | error _ => simp [hupdate, Except.toOption] at hresult
  | ok r =>
      obtain ⟨dropped, c'⟩ := r
      rw [hupdate] at hresult
      obtain ⟨hnone, hoptions, hcarried⟩ : dropped = [] ∧ c'.options = [text] ∧
          c'.flow.connections = [.ofLink link text.kind.shape] := by
        simpa only [Except.toOption, Option.map_some, Option.some.injEq, Prod.mk.injEq] using hresult
      subst hnone
      exact ⟨hallowed, huser, hconnections, c', rfl, hoptions, hcarried, hback c' hupdate⟩

end Command

end CommandFlow
