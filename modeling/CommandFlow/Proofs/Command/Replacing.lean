/-
What putting another option in the place of one does.

The nodes of an option have one output and no inputs.  So the connections that an update checks again
all leave that output, and each ends at a node that keeps its type.  Whether one stays is a matter
between the other option and the input at which it ends.  What an option gives out is never control,
so none makes way for a newer one.
-/
import CommandFlow.Proofs.Command.Refusal
import CommandFlow.Proofs.Flow.Rechecking

namespace CommandFlow

/-- The node type of an option has one output. -/
theorem CommandOption.output?_nodeType (o : CommandOption) (key : String) :
    o.nodeType.output? key = if key = valueKey then some ⟨o.kind.shape, o.name⟩ else none :=
  PortTable.get?_insert ∅ valueKey _ key

/-- What an option gives out is no control. -/
theorem OptionKind.isFlow_shape (kind : OptionKind) : kind.shape.isFlow = false := by
  cases kind <;> rfl

namespace Flow

/-- Whether the input at which a connection ends takes what an output declares. -/
def takes (f : Flow) (output : PortShape) (d : Connection) : Bool :=
  d.target.any fun q => (f.required? q).any output.fits

theorem takes_ofLink {f : Flow} {output shape : PortShape} {link : Link} :
    f.takes output (.ofLink link shape) = true ↔
      ∃ required, f.required? link.target = some required ∧ output.fits required = true := by
  show (f.required? link.target).any output.fits = true ↔ _
  exact Option.any_eq_true _ _

/-- A connection passes exactly if its target takes what its source declares. -/
theorem passes_ofLink {f : Flow} {output shape : PortShape} {link : Link}
    (hne : link.source.node ≠ link.target.node) (hoffered : f.offered? link.source = some output) :
    f.passes (.ofLink link shape) = f.takes output (.ofLink link shape) := by
  rw [Bool.eq_iff_iff, passes_iff, takes_ofLink]
  show (∃ r, f.recheck ⟨shape, some link.source, some link.target⟩ = .ok r) ↔ _
  simp only [recheck_eq_ok_iff_of_link, validate_eq_ok_iff, hoffered]
  constructor
  · rintro ⟨_, _, -, -, hoffered', required, hrequired, hfits⟩
    exact ⟨required, hrequired, Option.some.inj hoffered' ▸ hfits⟩
  · rintro ⟨required, hrequired, hfits⟩
    exact ⟨_, output, rfl, hne, rfl, required, hrequired, hfits⟩

end Flow

namespace Command

/-- Whether a connection starts at a node of the option with a name. -/
def startsAt (c : Command) (name : String) (d : Connection) : Bool :=
  d.source.any fun p => c.flow.isOfType (CommandOption.typeIdOf name) p.node

/-- The connections that are left when another option takes the place of the one with a name. -/
def reconnected (c : Command) (name : String) (o : CommandOption) : List Connection :=
  (c.flow.connections.filter fun d => !c.startsAt name d || c.flow.takes o.kind.shape d).map fun d =>
    if c.startsAt name d then { d with shape := o.kind.shape } else d

variable {c c' : Command} {old o : CommandOption} {d : Connection}

/-! ### Connections from an option -/

/-- A connection from an option carries what the option gives out, starts at the one output of its
nodes and ends at a node of something else. -/
theorem Orderly.link_of_startsAt (h : c.Orderly) (hold : old ∈ c.options)
    (hd : d ∈ c.flow.connections) (hstart : c.startsAt old.name d = true) :
    d.shape = old.kind.shape ∧ ∃ link, d = .ofLink link d.shape ∧
      c.flow.validate link = .ok d.shape ∧ link.source.key = CommandOption.valueKey ∧
      c.flow.isOfType old.typeId link.source.node = true ∧
      c.flow.isOfType old.typeId link.target.node = false := by
  obtain ⟨link, hlink, hvalid⟩ := h.wired.fits d hd
  rw [hlink] at hstart
  have hsource : c.flow.isOfType old.typeId link.source.node = true := hstart
  have htype := typeAt?_of_isOfType h.inStep h.settled hold hsource
  obtain ⟨-, hoffered, required, hrequired, -⟩ := Flow.validate_eq_ok_iff.1 hvalid
  obtain ⟨hkey, hshape⟩ : link.source.key = CommandOption.valueKey ∧
      old.kind.shape = d.shape := by
    simpa [Flow.offered?, htype, CommandOption.output?_nodeType] using hoffered
  refine ⟨hshape.symm, link, hlink, hvalid, hkey, hsource, ?_⟩
  rw [← Bool.not_eq_true]
  intro htarget
  have hnone := required?_of_standsFor h.inStep h.settled hold htarget
  exact absurd (hnone.symm.trans hrequired) (by simp)

/-- The nodes of the option give out what the other option does. -/
theorem offered?_flowWithOption {p : Endpoint} (hkey : p.key = CommandOption.valueKey)
    (hp : c.flow.isOfType old.typeId p.node = true) (o : CommandOption) (optionTypes : Catalog) :
    (c.flowWithOption old.name o optionTypes).offered? p = some o.kind.shape := by
  obtain ⟨t, ht, hid⟩ := (Option.any_eq_true _ _).1 hp
  have hid : t.id = CommandOption.typeIdOf old.name := of_decide_eq_true hid
  have htype : (c.flowWithOption old.name o optionTypes).typeAt? p.node = some o.nodeType := by
    rw [flowWithOption, Flow.typeAt?_retarget]
    show (c.flow.typeAt? p.node).map _ = _
    rw [ht, Option.map_some, if_pos hid]
  simp [Flow.offered?, htype, CommandOption.output?_nodeType, hkey]

/-- The inputs of all other nodes take what they took. -/
theorem takes_flowWithOption {q : Endpoint} (htarget : d.target = some q)
    (hq : c.flow.isOfType old.typeId q.node = false) (o : CommandOption) (optionTypes : Catalog)
    (output : PortShape) :
    (c.flowWithOption old.name o optionTypes).takes output d = c.flow.takes output d := by
  rw [Flow.takes, Flow.takes, htarget, Option.any_some, Option.any_some, Flow.required?,
    Flow.required?, typeAt?_flowWithOption hq]

/-- A connection from the option passes exactly if its target takes what the other option gives
out, which it then carries. -/
theorem Orderly.recheck_startsAt (h : c.Orderly) (hold : old ∈ c.options)
    (hd : d ∈ c.flow.connections) (hstart : c.startsAt old.name d = true) (o : CommandOption)
    (optionTypes : Catalog) :
    (c.flowWithOption old.name o optionTypes).passes d = c.flow.takes o.kind.shape d ∧
      (c.flowWithOption old.name o optionTypes).refreshed d = { d with shape := o.kind.shape } := by
  obtain ⟨-, link, hlink, hvalid, hkey, hsource, htarget⟩ := h.link_of_startsAt hold hd hstart
  have hoffered := offered?_flowWithOption hkey hsource o optionTypes
  have hends : d.source = some link.source ∧ d.target = some link.target := by
    rw [hlink]
    exact ⟨rfl, rfl⟩
  constructor
  · rw [← takes_flowWithOption hends.2 htarget o optionTypes, hlink]
    exact Flow.passes_ofLink (Flow.validate_eq_ok_iff.1 hvalid).1 hoffered
  · rw [Flow.refreshed, hends.1, Option.bind_some, hoffered, Option.getD_some, ← hends.1]

/-! ### The update -/

/-- Of the connections from the option those stay whose target takes what the other option gives
out. All that start elsewhere stay as they are. -/
theorem Orderly.revalidate_flowWithOption (h : c.Orderly) (hold : old ∈ c.options)
    (o : CommandOption) (optionTypes : Catalog) :
    (c.flowWithOption old.name o optionTypes).revalidate (leavesAny (c.optionHandles old.name)) =
      (c.flow.connections.filter fun d => c.startsAt old.name d && !c.flow.takes o.kind.shape d,
        { c.flowWithOption old.name o optionTypes with
          connections := c.reconnected old.name o }) := by
  have hselected : leavesAny (c.optionHandles old.name) = c.startsAt old.name :=
    funext (leavesAny_eq h.numbered old.name)
  have hpasses : ∀ d ∈ c.flow.connections, c.startsAt old.name d = true →
      (c.flowWithOption old.name o optionTypes).passes d = c.flow.takes o.kind.shape d :=
    fun d hd hstart => (h.recheck_startsAt hold hd hstart o optionTypes).1
  have hrefreshed : ∀ d ∈ c.flow.connections, c.startsAt old.name d = true →
      (c.flowWithOption old.name o optionTypes).refreshed d = { d with shape := o.kind.shape } :=
    fun d hd hstart => (h.recheck_startsAt hold hd hstart o optionTypes).2
  rw [hselected, Flow.revalidate_of_not_flow]
  · refine Prod.ext ?_ (congrArg (fun connections =>
      { c.flowWithOption old.name o optionTypes with connections }) ?_)
    · refine List.filter_congr fun d hd => ?_
      by_cases hstart : c.startsAt old.name d = true
      · rw [hpasses d hd hstart]
      · simp [hstart]
    · -- Among those that stay, the connections that were checked again are the ones from the option.
      have hstays : ∀ d ∈ c.flow.connections,
          (!c.startsAt old.name d || (c.flowWithOption old.name o optionTypes).passes d) =
            (!c.startsAt old.name d || c.flow.takes o.kind.shape d) := by
        intro d hd
        by_cases hstart : c.startsAt old.name d = true
        · rw [hpasses d hd hstart]
        · simp [hstart]
      refine (congrArg (List.map _) (List.filter_congr hstays)).trans ?_
      refine List.map_congr_left fun d hd => ?_
      obtain ⟨hd, hstay⟩ := List.mem_filter.1 hd
      by_cases hstart : c.startsAt old.name d = true
      · have htakes : c.flow.takes o.kind.shape d = true := by simpa [hstart] using hstay
        rw [Flow.rechecked, if_pos (by simp [hstart, hpasses d hd hstart, htakes]), if_pos hstart,
          hrefreshed d hd hstart]
      · rw [Flow.rechecked, if_neg (by simp [hstart]), if_neg hstart]
  · intro d hd hstart
    rw [hrefreshed d hd hstart]
    exact o.kind.isFlow_shape

/-- What an update of an option does to an orderly command. -/
theorem Orderly.updateOption_spec (h : c.Orderly) {name : String} {dropped : List Connection}
    (hupdate : c.updateOption name o = .ok (dropped, c')) :
    ∃ optionTypes,
      dropped = (c.flow.connections.filter fun d =>
        c.startsAt name d && !c.flow.takes o.kind.shape d) ∧
      c' = { c with
        options := updateFirst (·.name = name) (fun _ => o) c.options
        flow := { c.flowWithOption name o optionTypes with
          connections := c.reconnected name o } } := by
  obtain ⟨old, optionTypes, hoption, -, -, rfl, rfl⟩ := updateOption_eq_ok_iff.1 hupdate
  obtain ⟨hold, rfl⟩ := mem_of_option? hoption
  refine ⟨optionTypes, ?_⟩
  rw [h.revalidate_flowWithOption hold]
  exact ⟨rfl, rfl⟩

theorem apply_updateOption {name : String} {dropped : List Connection}
    (hupdate : c.updateOption name o = .ok (dropped, c')) :
    c.apply (.updateOption name o) = c' := by
  show orUnchanged c (·.2) (c.updateOption name o) = c'
  rw [hupdate]
  rfl

theorem Orderly.of_updateOption (h : c.Orderly) {name : String} {dropped : List Connection}
    (hupdate : c.updateOption name o = .ok (dropped, c')) : c'.Orderly := by
  rw [← apply_updateOption hupdate]
  exact h.apply rfl

/--
**An update of an option changes what stands for the option, and nothing else.**  Start from a new
command over any catalog, edit its options and its flow, place nodes by id, and bind it to other
catalogs that are not empty and list none of the ids that its options have at that moment.  If an
option is then put in the place of another, it stands at the same place in the list, and so does its
node type.  The nodes of the old type are of the new one.  Of the connections that start at these
nodes, those are dropped that end at an input which does not take what the new option gives out; the
others carry that.  All connections that stay keep their order, and nothing else has changed.
-/
theorem option_update_changes_its_own (name description uid : String) (catalog : Catalog)
    (edits : List Edit)
    (h : Allowed apply (fun c e => c.permits e = true) (new name description catalog uid) edits) :
    let c := edits.foldl apply (new name description catalog uid)
    ∀ (old : String) (o : CommandOption) (dropped : List Connection) (c' : Command),
      c.updateOption old o = .ok (dropped, c') →
      ∃ before replaced after optionTypes,
        c.options = before ++ replaced :: after ∧ replaced.name = old ∧
        c.flow.optionTypes.entries = before.map CommandOption.nodeType ++
          replaced.nodeType :: after.map CommandOption.nodeType ∧
        optionTypes.entries = before.map CommandOption.nodeType ++
          o.nodeType :: after.map CommandOption.nodeType ∧
        c' = { c with
          options := before ++ o :: after
          flow := { c.flow with
            optionTypes
            nodes := c.flow.nodes.map fun n =>
              if n.typeId = CommandOption.typeIdOf old then { n with type := o.nodeType } else n
            connections := (c.flow.connections.filter fun d =>
                !c.startsAt old d || c.flow.takes o.kind.shape d).map fun d =>
              if c.startsAt old d then { d with shape := o.kind.shape } else d } } ∧
        dropped = c.flow.connections.filter fun d =>
          c.startsAt old d && !c.flow.takes o.kind.shape d := by
  intro c old o dropped c' hupdate
  have horderly : c.Orderly := orderly_of_edits h
  have hstep : c'.InStep := (horderly.of_updateOption hupdate).inStep
  obtain ⟨optionTypes, hdropped, hc'⟩ := horderly.updateOption_spec hupdate
  obtain ⟨replaced, _, hoption, -⟩ := updateOption_eq_ok_iff.1 hupdate
  obtain ⟨before, after, hsplit, -, hset⟩ := exists_updateFirst_eq hoption
  refine ⟨before, replaced, after, optionTypes, hsplit, (mem_of_option? hoption).2, ?_, ?_, ?_,
    hdropped⟩
  · rw [horderly.inStep, hsplit, List.map_append, List.map_cons]
  · have hentries : optionTypes.entries = c'.options.map CommandOption.nodeType := by
      rw [← hstep, hc']
      rfl
    rw [hentries, hc', hset, List.map_append, List.map_cons]
  · rw [hc', hset]
    rfl

/-- Two options, and a node of the first that drives an input for users and one for anything.  The
first is renamed and becomes a text: one connection goes, one carries text, and that of the other
option stays as it is. -/
theorem option_update_drops_and_refreshes :
    let user : PortShape := OptionKind.shape .user
    let text : PortShape := OptionKind.shape .string
    let greet : NodeType :=
      { id := "greet", title := "Greet",
        inputs := .ofList [("who", ⟨user, "who"⟩), ("what", ⟨⟨.any, []⟩, "what"⟩),
          ("text", ⟨text, "text"⟩)] }
    let origin : Position := ⟨.zero false, .zero false⟩
    let wire (shape : PortShape) (m : Nat) (key : String) : Connection :=
      .ofLink ⟨⟨⟨m⟩, CommandOption.valueKey⟩, ⟨⟨2⟩, key⟩⟩ shape
    let edits : List Edit := [
      .addOption { name := "x", kind := .user },
      .addOption { name := "y" },
      .flow (.addNodeById (CommandOption.typeIdOf "x") origin "a"),
      .flow (.addNodeById (CommandOption.typeIdOf "y") origin "b"),
      .flow (.addNodeById "greet" origin "d"),
      .flow (.connect ⟨⟨⟨0⟩, CommandOption.valueKey⟩, ⟨⟨2⟩, "who"⟩⟩),
      .flow (.connect ⟨⟨⟨0⟩, CommandOption.valueKey⟩, ⟨⟨2⟩, "what"⟩⟩),
      .flow (.connect ⟨⟨⟨1⟩, CommandOption.valueKey⟩, ⟨⟨2⟩, "text"⟩⟩)]
    let start := new "ping" "" (Catalog.ofNodup [greet] (by decide)) "c"
    let c := edits.foldl apply start
    Allowed apply (fun c e => c.permits e = true) start edits ∧
      c.flow.connections = [wire user 0 "who", wire user 0 "what", wire text 1 "text"] ∧
      ∃ dropped c', c.updateOption "x" { name := "z" } = .ok (dropped, c') ∧
        dropped = [wire user 0 "who"] ∧
        c'.flow.nodes.map (·.type.title) = ["Get option 'z'", "Get option 'y'", "Greet"] ∧
        c'.flow.connections = [wire text 0 "what", wire text 1 "text"] := by
  intro user text greet origin wire edits start c
  have hallowed : Allowed apply (fun c e => c.permits e = true) start edits := by
    decide +kernel
  have hconnections : c.flow.connections =
      [wire user 0 "who", wire user 0 "what", wire text 1 "text"] := by
    decide +kernel
  have htitles : (c.flow.nodes.map fun n => if n.typeId = CommandOption.typeIdOf "x" then
      { n with type := CommandOption.nodeType { name := "z" } } else n).map (·.type.title) =
        ["Get option 'z'", "Get option 'y'", "Greet"] := by
    decide +kernel
  have hkept : ((c.flow.connections.filter fun d =>
      !c.startsAt "x" d || c.flow.takes text d).map fun d =>
        if c.startsAt "x" d then { d with shape := text } else d) =
      [wire text 0 "what", wire text 1 "text"] := by
    decide +kernel
  have hlost : (c.flow.connections.filter fun d => c.startsAt "x" d && !c.flow.takes text d) =
      [wire user 0 "who"] := by
    decide +kernel
  have hok : (c.updateOption "x" { name := "z" }).isOk = true := by decide +kernel
  have hspec := option_update_changes_its_own "ping" "" "c" _ edits hallowed "x" { name := "z" }
  rw [show edits.foldl apply (new "ping" "" _ "c") = c from rfl] at hspec
  clear_value c
  cases hupdate : c.updateOption "x" { name := "z" } with
  | error _ => simp [hupdate, Except.isOk, Except.toBool] at hok
  | ok r =>
      obtain ⟨dropped, c'⟩ := r
      obtain ⟨_, _, _, _, -, -, -, -, rfl, rfl⟩ := hspec dropped c' hupdate
      exact ⟨hallowed, hconnections, _, _, rfl, hlost, htitles, hkept⟩

end Command

end CommandFlow
