/-
Publishing a catalog does what saving and loading with it does.

There are two ways to bring a flow under another shared catalog: to put the catalog in place, which
looks up the types of the nodes again, or to save the flow, load it over the catalog and check its
connections again.  The first keeps handles and asks whether an option has the id before it asks the
catalog; the second hands out handles anew and asks the catalog first.  As long as the catalog lists
no id of an option, both give every node the same type, and checking connections again does not
depend on handles.
-/
import CommandFlow.Proofs.Saved.Faultless

namespace CommandFlow

namespace Flow

variable {f g : Flow}

/-- Whether two flows have nodes of the same content in order, and connections in order that carry
the same between ports at the same places. -/
structure Agrees (f g : Flow) : Prop where
  nodes : f.nodes.map Node.content = g.nodes.map Node.content
  connections : List.Forall₂ (SameConnection f g) f.connections g.connections

theorem types_eq_of_content (h : f.nodes.map Node.content = g.nodes.map Node.content) :
    f.nodes.map (·.type) = g.nodes.map (·.type) := by
  have htypes := congrArg (List.map (·.2.1)) h
  rwa [List.map_map, List.map_map] at htypes

theorem saved_eq_of_content (h : f.nodes.map Node.content = g.nodes.map Node.content) :
    f.nodes.map Node.saved = g.nodes.map Node.saved := by
  rw [map_saved, map_saved, h]

/-! ### Checking one connection again -/

theorem SamePort.symm {p q : Endpoint} (h : f.SamePort g p q) : g.SamePort f q p := by
  obtain ⟨hkey, i, m, n, hm, hmi, hn, hni⟩ := h
  exact ⟨hkey.symm, i, n, m, hn, hni, hm, hmi⟩

theorem ends_symm {p q : Option Endpoint} (h : Option.Rel (f.SamePort g) p q) :
    Option.Rel (g.SamePort f) q p := by
  cases h with
  | none => exact .none
  | some h => exact .some h.symm

/-- Ends at one port correspond to ends at one port, either way. -/
theorem ends_eq_iff (hf : f.Numbered) (hg : g.Numbered) {p p' q q' : Option Endpoint}
    (h : Option.Rel (f.SamePort g) p q) (h' : Option.Rel (f.SamePort g) p' q') :
    p = p' ↔ q = q' :=
  ⟨ends_eq_of_eq hf (ends_symm h) (ends_symm h'), ends_eq_of_eq hg h h'⟩

theorem validate_eq_ok_iff_of_samePort (hf : f.Numbered) (hg : g.Numbered)
    (htypes : f.nodes.map (·.type) = g.nodes.map (·.type)) {link link' : Link}
    (hsource : f.SamePort g link.source link'.source)
    (htarget : f.SamePort g link.target link'.target) {shape : PortShape} :
    f.validate link = .ok shape ↔ g.validate link' = .ok shape := by
  have hnode : link.source.node = link.target.node ↔ link'.source.node = link'.target.node :=
    ⟨hsource.symm.node_eq hf htarget.symm, hsource.node_eq hg htarget⟩
  rw [validate_eq_ok_iff, validate_eq_ok_iff, hsource.offered?_eq htypes,
    htarget.required?_eq htypes, Ne, Ne, hnode]

theorem recheck_eq_ok_iff_of_same (hf : f.Numbered) (hg : g.Numbered)
    (htypes : f.nodes.map (·.type) = g.nodes.map (·.type)) {c d : Connection}
    (h : f.SameConnection g c d) {r : Option PortShape} :
    f.recheck c = .ok r ↔ g.recheck d = .ok r := by
  obtain ⟨shape, source, target⟩ := c
  obtain ⟨shape', source', target'⟩ := d
  obtain ⟨-, hsource, htarget⟩ := h
  cases hsource with
  | none => exact Iff.rfl
  | @some p q hsource =>
      cases htarget with
      | none =>
          rw [recheck_eq_ok_iff_of_open, recheck_eq_ok_iff_of_open, hsource.offered?_eq htypes]
      | @some p' q' htarget =>
          rw [recheck_eq_ok_iff_of_link, recheck_eq_ok_iff_of_link]
          exact exists_congr fun s => and_congr_right fun _ =>
            validate_eq_ok_iff_of_samePort hf hg htypes hsource htarget

/-! ### Checking all connections again -/

/-- Whether two verdicts on connections between the same places say the same. -/
inductive SameVerdict (f g : Flow) : Verdict → Verdict → Prop
  | passed {c d : Connection} (h : f.SameConnection g c d) : SameVerdict f g (.passed c) (.passed d)
  | failed (c d : Connection) (reason reason' : Refusal) :
      SameVerdict f g (.failed c reason) (.failed d reason')

theorem sameVerdict_verdict (hf : f.Numbered) (hg : g.Numbered)
    (htypes : f.nodes.map (·.type) = g.nodes.map (·.type)) {c d : Connection}
    (h : f.SameConnection g c d) :
    SameVerdict f g (f.verdict (fun _ => true) c) (g.verdict (fun _ => true) d) := by
  have hsame : ∀ {r}, f.recheck c = .ok r ↔ g.recheck d = .ok r :=
    recheck_eq_ok_iff_of_same hf hg htypes h
  unfold verdict
  cases hc : f.recheck c with
  | ok r =>
      rw [hsame.1 hc]
      cases r with
      | none => exact .passed h
      | some shape => exact .passed ⟨rfl, h.source, h.target⟩
  | error reason =>
      cases hd : g.recheck d with
      | ok r => exact absurd (hsame.2 hd) (by simp [hc])
      | error reason' => exact .failed c d reason reason'

theorem SameVerdict.flowSource? {v w : Verdict} (h : SameVerdict f g v w) :
    Option.Rel (f.SamePort g) v.flowSource? w.flowSource? := by
  cases h with
  | @passed c d h =>
      unfold Verdict.flowSource?
      dsimp only
      rw [h.shape]
      split
      · exact h.source
      · exact .none
  | failed c d reason reason' => exact .none

/-- What is newer at the same flow output on one side is so on the other. -/
theorem SameVerdict.isOutdated_eq (hf : f.Numbered) (hg : g.Numbered) {v w : Verdict}
    (h : SameVerdict f g v w) {vs ws : List Verdict}
    (hnewer : List.Forall₂ (SameVerdict f g) vs ws) :
    v.isOutdated vs = w.isOutdated ws := by
  have hsome : v.flowSource?.isSome = w.flowSource?.isSome := by
    have hends := h.flowSource?
    generalize v.flowSource? = p at hends
    generalize w.flowSource? = q at hends
    cases hends <;> rfl
  have hany : vs.any (·.flowSource? = v.flowSource?) = ws.any (·.flowSource? = w.flowSource?) := by
    induction hnewer with
    | nil => rfl
    | cons hhead _ ih =>
        rw [List.any_cons, List.any_cons, ih,
          decide_eq_decide.2 (ends_eq_iff hf hg hhead.flowSource? h.flowSource?)]
  rw [Verdict.isOutdated, Verdict.isOutdated, hsome, hany]

theorem forall₂_kept (hf : f.Numbered) (hg : g.Numbered) {vs ws : List Verdict}
    (h : List.Forall₂ (SameVerdict f g) vs ws) :
    List.Forall₂ (SameConnection f g) (Verdict.kept vs) (Verdict.kept ws) := by
  induction h with
  | nil => exact .nil
  | @cons v w vs ws hhead hrest ih =>
      have houtdated := hhead.isOutdated_eq hf hg hrest
      cases hhead with
      | passed h =>
          unfold Verdict.kept
          dsimp only
          rw [houtdated]
          split
          · exact ih
          · exact .cons h ih
      | failed c d reason reason' => exact ih

/-- Checking all connections again, two flows that agree go on agreeing. -/
theorem Agrees.revalidate (h : f.Agrees g) (hf : f.Numbered) (hg : g.Numbered) :
    (f.revalidate fun _ => true).2.Agrees (g.revalidate fun _ => true).2 := by
  have hverdicts : List.Forall₂ (SameVerdict f g) (f.verdicts fun _ => true)
      (g.verdicts fun _ => true) := by
    rw [verdicts, verdicts, List.forall₂_map_left_iff, List.forall₂_map_right_iff]
    exact h.connections.imp fun _ _ hcd =>
      sameVerdict_verdict hf hg (types_eq_of_content h.nodes) hcd
  refine ⟨h.nodes, (forall₂_kept hf hg hverdicts).imp ?_⟩
  -- Which ports are the same depends on the nodes only.
  intro c d hcd
  exact ⟨hcd.shape, hcd.source, hcd.target⟩

/-! ### Nodes looked up again -/

theorem node?_rebindNodes (f : Flow) (catalog : Catalog) (k : Handle) :
    (f.rebindNodes catalog).node? k =
      (f.node? k).map fun n => { n with type := { f with catalog }.reboundType n } := by
  show (f.nodes.map fun n => { n with type := { f with catalog }.reboundType n }).find? _ = _
  rw [List.find?_map]
  rfl

/-- A new shared catalog does not show in the ends that are saved. -/
theorem savedEnd_rebindNodes (f : Flow) (catalog : Catalog) (p : Option Endpoint) :
    (f.rebindNodes catalog).savedEnd p = f.savedEnd p := by
  cases p with
  | none => rfl
  | some p =>
      unfold savedEnd
      dsimp only
      rw [node?_rebindNodes]
      cases f.node? p.node <;> rfl

end Flow

namespace Loader

variable {f : Flow} {catalog : Catalog}

/-- The type that is loaded for a node is the one that it takes under the new catalog. -/
theorem resolve_type?_of_settled (h : f.Settled) (hpermits : f.permits (.rebind catalog) = true)
    {g : Flow} (hcatalog : g.catalog = catalog) (hoptions : g.optionTypes = f.optionTypes)
    {n : Node} (hn : n ∈ f.nodes) :
    (({ catalog } : Loader).resolve g n.typeId).type? =
      some ({ f with catalog }.reboundType n) := by
  obtain ⟨hne, hapart⟩ := Flow.apart_of_permits_rebind hpermits
  have hresolve : g.resolve? n.typeId = { f with catalog }.resolve? n.typeId :=
    Flow.resolve?_congr (f := { f with catalog }) hcatalog hoptions n.typeId
  have hfallback : g.fallback? = { f with catalog }.fallback? := by
    rw [Flow.fallback?, Flow.available, hcatalog, hoptions]
    rfl
  unfold Flow.reboundType
  split
  case isTrue hoption =>
    -- The new catalog does not list the id, so its option is asked.
    have hfound : { f with catalog }.resolve? n.typeId = some n.type :=
      Flow.resolve?_eq_some_iff.2 (Or.inr ⟨hapart _ hoption, h.get?_of_contains hn hoption⟩)
    rw [resolve_eq_found (hresolve.trans hfound)]
    rfl
  case isFalse hnone =>
    split
    case h_1 type htype =>
      have hfound : { f with catalog }.resolve? n.typeId = some type :=
        Flow.resolve?_eq_some_iff.2 (Or.inl htype)
      rw [resolve_eq_found (hresolve.trans hfound)]
      rfl
    case h_2 hget =>
      have hlost : { f with catalog }.resolve? n.typeId = none :=
        Option.or_eq_none_iff.2 ⟨hget, Catalog.get?_eq_none_iff.2 (Bool.not_eq_true _ ▸ hnone)⟩
      obtain ⟨first, -, hfirst⟩ := Flow.exists_fallback? (f := { f with catalog }) hne
      have hrename : ({ catalog } : Loader).renamed n.typeId = n.typeId := rfl
      unfold resolve
      simp only [hrename, hresolve, hlost, hfallback, hfirst]
      rfl

/-- Placing saved nodes that all take a type adds them with these types, in order. -/
theorem placeNodes_content {l : Loader} {type : Node → NodeType} {nodes : List Node} {g : Flow}
    (h : ∀ n ∈ nodes, (l.resolve g n.typeId).type? = some (type n)) :
    (l.placeNodes g (nodes.map Node.saved)).nodes.map Node.content =
      g.nodes.map Node.content ++ nodes.map fun n => Node.content { n with type := type n } := by
  rw [content_placeNodes, List.filterMap_map]
  congr 1
  rw [← List.filterMap_eq_map]
  refine List.filterMap_congr fun n hn => ?_
  have htype : (l.resolve g n.saved.typeId).type? = some (type n) := h n hn
  rw [Function.comp_apply, htype]
  rfl

/-- The nodes that are loaded are those under the new catalog. -/
theorem content_flow_saved (h : f.Settled) (hpermits : f.permits (.rebind catalog) = true) :
    (f.rebindNodes catalog).nodes.map Node.content =
      (({ catalog } : Loader).flow f.saved f.optionTypes).nodes.map Node.content := by
  have hplaced : (({ catalog } : Loader).flow f.saved f.optionTypes).nodes.map Node.content =
      f.nodes.map fun n => Node.content { n with type := { f with catalog }.reboundType n } := by
    refine placeNodes_content fun n hn => ?_
    exact resolve_type?_of_settled h hpermits (by rfl) (by rfl) hn
  rw [hplaced]
  exact List.map_map

/-- Before connections are checked again, the flow over the new catalog and the one that is loaded
agree. -/
theorem agrees_flow_saved (h : f.Settled) (hwired : f.Wired) (hnumbered : f.Numbered)
    (huids : f.uids.Nodup) (hpermits : f.permits (.rebind catalog) = true) :
    (f.rebindNodes catalog).Agrees (({ catalog } : Loader).flow f.saved f.optionTypes) := by
  let loaded := ({ catalog } : Loader).flow f.saved f.optionTypes
  have hnodes := content_flow_saved h hpermits
  have hbound : (f.rebindNodes catalog).uids.Nodup := by
    have hkept : (f.rebindNodes catalog).uids = f.uids := List.map_map
    rw [hkept]
    exact huids
  refine ⟨hnodes, ?_⟩
  have hend : ∀ c ∈ f.connections, ∀ p, c.source = p ∨ c.target = p →
      Option.Rel ((f.rebindNodes catalog).SamePort loaded) p (endpoint? loaded (f.savedEnd p)) := by
    intro c hc p hp
    rw [← Flow.savedEnd_rebindNodes f catalog]
    refine samePort_end (numbered_flow _ _ _) (Flow.saved_eq_of_content hnodes) hbound ?_
    rintro q rfl
    obtain ⟨n, hn⟩ := hwired.exists_node hnumbered hc hp
    exact ⟨_, by rw [Flow.node?_rebindNodes, hn, Option.map_some]⟩
  rw [connections_flow]
  show List.Forall₂ _ f.connections
    ((f.connections.map f.savedConnection).map (connectionIn loaded))
  rw [List.map_map, List.forall₂_map_right_iff, List.forall₂_same]
  intro c hc
  exact ⟨rfl, hend c hc _ (Or.inl rfl), hend c hc _ (Or.inr rfl)⟩

/--
**Publishing agrees with reloading.**  Start from a new command over any catalog and edit it as
users do: edit its options, place nodes by type id, edit, connect and remove nodes, publish
catalogs that are not empty and list no id of an option.  As long as uids tell its nodes apart, a
further such catalog can be put in place, or the flow can be saved, loaded over it and over the
node types of the options, and all its connections checked again.  Both give the same nodes in
order, up to handles, and the same connections in order.
-/
theorem publishing_agrees_with_reloading (name description uid : String) (catalog next : Catalog)
    (edits : List Command.Edit)
    (h : Allowed Command.apply (fun c e => c.permits e = true)
      (Command.new name description catalog uid) edits)
    (huids : (edits.foldl Command.apply (Command.new name description catalog uid)).flow.uids.Nodup)
    (hnext : (edits.foldl Command.apply (Command.new name description catalog uid)).flow.permits
      (.rebind next) = true) :
    let f := (edits.foldl Command.apply (Command.new name description catalog uid)).flow
    let loaded := ({ catalog := next } : Loader).flow f.saved f.optionTypes
    (f.rebind next).2.Agrees (loaded.revalidate fun _ => true).2 := by
  intro f loaded
  have horderly := Command.orderly_of_edits h
  have hbound : (f.rebindNodes next).Numbered :=
    (horderly.numbered.rebind next).of_sublist (List.Sublist.refl _) rfl
  exact (agrees_flow_saved horderly.settled horderly.wired horderly.numbered huids hnext).revalidate
    hbound (numbered_flow _ _ _)

/-- A catalog makes an output that drives two nodes pass control, and no longer lists the type of
the node that an option drives. Of three connections the newest at the output is left. -/
theorem publishing_agrees_where_connections_are_lost :
    let anything : Port := ⟨⟨.any, []⟩, "any"⟩
    let control : Port := ⟨⟨.flow, []⟩, "then"⟩
    let start : NodeType :=
      { id := "start", title := "Start", outputs := .ofList [("then", anything)] }
    let step : NodeType := { id := "step", title := "Step", inputs := .ofList [("run", anything)] }
    let old : NodeType := { id := "old", title := "Old", inputs := .ofList [("text", anything)] }
    let catalog := Catalog.ofNodup [start, step, old] (by decide)
    let next := Catalog.ofNodup [step, { start with outputs := .ofList [("then", control)] }]
      (by decide)
    let origin : Position := ⟨.zero false, .zero false⟩
    let edits : List Command.Edit := [
      .addOption { name := "x" },
      .flow (.addNodeById "step" origin "z"),
      .flow (.addNodeById "start" origin "a"),
      .flow (.addNodeById "step" origin "b"),
      .flow (.addNodeById "step" origin "c"),
      .flow (.addNodeById "old" origin "d"),
      .flow (.addNodeById (CommandOption.typeIdOf "x") origin "e"),
      .flow (.removeNodes [⟨0⟩]),
      .flow (.connect ⟨⟨⟨1⟩, "then"⟩, ⟨⟨2⟩, "run"⟩⟩),
      .flow (.connect ⟨⟨⟨1⟩, "then"⟩, ⟨⟨3⟩, "run"⟩⟩),
      .flow (.connect ⟨⟨⟨5⟩, "value"⟩, ⟨⟨4⟩, "text"⟩⟩)]
    let f := (edits.foldl Command.apply (Command.new "ping" "" catalog "p")).flow
    let loaded := ({ catalog := next } : Loader).flow f.saved f.optionTypes
    Allowed Command.apply (fun c e => c.permits e = true)
        (Command.new "ping" "" catalog "p") edits ∧
      f.uids.Nodup ∧ f.permits (.rebind next) = true ∧ f.connections.length = 3 ∧
      (f.rebind next).2.connections.map (·.target) = [some ⟨⟨3⟩, "run"⟩] ∧
      (f.rebind next).2.Agrees (loaded.revalidate fun _ => true).2 := by
  intro anything control start step old catalog next origin edits f loaded
  have hallowed : Allowed Command.apply (fun c e => c.permits e = true)
      (Command.new "ping" "" catalog "p") edits := by
    decide +kernel
  have huids : f.uids.Nodup := by decide +kernel
  have hnext : f.permits (.rebind next) = true := by decide +kernel
  have hbefore : f.connections.length = 3 := by decide +kernel
  have hafter : (f.rebind next).2.connections.map (·.target) = [some ⟨⟨3⟩, "run"⟩] := by
    decide +kernel
  exact ⟨hallowed, huids, hnext, hbefore, hafter,
    publishing_agrees_with_reloading "ping" "" "p" catalog next edits hallowed huids hnext⟩

end Loader

end CommandFlow
