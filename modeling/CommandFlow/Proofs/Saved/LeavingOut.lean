/-
Two ways to load nodes of unknown types.

Nodes whose type is unknown take another type, or are left out.  Loaded in the first way a flow has
all the nodes that were saved, and in the second way some of them, in the same order, but with other
handles.  So the two flows are compared by what nodes are apart from their handles, and by the uids
at the ends of connections.  Uids that differ make sure that a uid means the same node in both.
-/
import CommandFlow.Proofs.Saved.UidLookup

namespace CommandFlow

/-- Lists are in step that look the same. -/
theorem map_eq_map_iff_forall₂ {α β γ : Type} {image : α → γ} {view : β → γ} {as : List α}
    {bs : List β} :
    bs.map view = as.map image ↔ List.Forall₂ (fun a b => view b = image a) as bs := by
  rw [← List.forall₂_eq_eq_eq, List.forall₂_map_left_iff, List.forall₂_map_right_iff]
  exact ⟨List.Forall₂.flip, List.Forall₂.flip⟩

/-- What a test picks of one list, in step with another, is what it picks of their pairs. -/
theorem map_filter_zip_of_forall₂ {α β γ : Type} (test : α → Bool) {image : α → γ} {view : β → γ}
    {as : List α} {bs : List β} (h : List.Forall₂ (fun a b => view b = image a) as bs) :
    ((as.zip bs).filter (test ·.1)).map (view ·.2) = (as.filter test).map image := by
  induction h with
  | nil => rfl
  | @cons a b _ _ hab _ ih =>
      by_cases ha : test a = true
      · simp [ha, hab, ih]
      · simp [ha, ih]

namespace Flow

variable {whole part : Flow} {e : Saved.End} {p q : Option Endpoint}

/-- Looking up a type id gives the first type available that has it. -/
theorem resolve?_eq_find? (f : Flow) (typeId : String) :
    f.resolve? typeId = f.available.find? (·.id == typeId) := by
  rw [resolve?, available, List.find?_append, Catalog.get?_eq_find?, Catalog.get?_eq_find?]

/-! ### Ends by uid -/

/-- At which port of a flow a saved end stands: at the one with its key of a node with its uid, and
at none if there is no such node, or the end is not given in full. -/
inductive LoadedAt (f : Flow) : Saved.End → Option Endpoint → Prop
  | port {p : Endpoint} {m : Node} (hnode : f.node? p.node = some m) :
      LoadedAt f ⟨some m.uid, some p.key⟩ (some p)
  | absent {e : Saved.End} (hnone : ∀ m ∈ f.nodes, ∀ key, e ≠ ⟨some m.uid, some key⟩) :
      LoadedAt f e none

/-- What is left of an end in a flow that has only part of the nodes: the port with the same key of
the same node, whatever its handle there, or nothing if the node is not there. -/
inductive EndLeft (whole part : Flow) : Option Endpoint → Option Endpoint → Prop
  | absent : EndLeft whole part none none
  | kept {p q : Endpoint} {m n : Node} (hp : whole.node? p.node = some m)
      (hq : part.node? q.node = some n) (hsame : n.content = m.content) (hkey : q.key = p.key) :
      EndLeft whole part (some p) (some q)
  | lost {p : Endpoint} {m : Node} (hp : whole.node? p.node = some m)
      (hgone : ∀ n ∈ part.nodes, n.uid ≠ m.uid) : EndLeft whole part (some p) none

/-- Where uids differ and a flow has part of the nodes of another, an end that stands in the one
where it stands in the other, or nowhere. -/
theorem EndLeft.of_loadedAt (hdistinct : (whole.nodes.map (·.uid)).Nodup)
    (hpart : ∀ n ∈ part.nodes, ∃ m ∈ whole.nodes, m.content = n.content)
    (hp : whole.LoadedAt e p) (hq : part.LoadedAt e q) : whole.EndLeft part p q := by
  cases hp with
  | absent hnone =>
      cases hq with
      | absent _ => exact .absent
      | @port q n hq =>
          obtain ⟨m, hm, hcontent⟩ := hpart n (List.mem_of_find?_eq_some hq)
          have huid : m.uid = n.uid := congrArg Prod.fst hcontent
          exact absurd (by rw [huid]) (hnone m hm q.key)
  | @port p m hp =>
      generalize he : (⟨some m.uid, some p.key⟩ : Saved.End) = e at hq
      cases hq with
      | absent hnone => exact .lost hp fun n hn huid => hnone n hn p.key (by rw [← he, huid])
      | @port q n hq =>
          simp only [Saved.End.mk.injEq, Option.some.injEq] at he
          obtain ⟨m', hm', hcontent⟩ := hpart n (List.mem_of_find?_eq_some hq)
          -- The node of the part stands for one with the uid of `m`, which only `m` has.
          have huid : m'.uid = m.uid := (congrArg Prod.fst hcontent).trans he.1.symm
          obtain rfl : m' = m :=
            List.inj_on_of_nodup_map hdistinct hm' (List.mem_of_find?_eq_some hp) huid
          exact .kept hp hq hcontent.symm he.2.symm

end Flow

namespace Loader

/-- Every saved end stands where the loaded flow has its node. -/
theorem loadedAt_endpoint? {f : Flow} (h : f.Numbered) (e : Saved.End) :
    f.LoadedAt e (endpoint? f e) := by
  cases he : endpoint? f e with
  | some p =>
      obtain ⟨m, hm, rfl⟩ := exists_node_of_endpoint? h he
      exact .port hm
  | none =>
      refine .absent ?_
      rintro m hm key rfl
      obtain ⟨n, hn⟩ : ∃ n, f.lastByUid? m.uid = some n :=
        Option.isSome_iff_exists.1 (List.find?_isSome.2 ⟨m, List.mem_reverse.2 hm, by simp⟩)
      have hnode : f.node? n.handle = some n :=
        h.node?_eq_some_iff.2 ⟨(h.lastByUid?_eq_some_iff.1 hn).1, rfl⟩
      have hport : endpoint? f ⟨some m.uid, some key⟩ = some ⟨n.handle, key⟩ :=
        (endpoint?_eq_some_iff h).2 ⟨rfl, m.uid, n, rfl, hn, hnode⟩
      exact absurd (he.symm.trans hport) (by simp)

/-- Saved connections are loaded in order, with their shapes and their ends where these stand. -/
theorem forall₂_loadedAt {f : Flow} (h : f.Numbered) (saved : List Saved.Connection) :
    List.Forall₂ (fun s c => c.shape = s.shape ∧
        f.LoadedAt s.source c.source ∧ f.LoadedAt s.target c.target)
      saved (saved.map (connectionIn f)) := by
  rw [List.forall₂_map_right_iff, List.forall₂_same]
  exact fun s _ => ⟨rfl, loadedAt_endpoint? h s.source, loadedAt_endpoint? h s.target⟩

/-- The same connections loaded into two flows, one with part of the nodes of the other, differ only
in the handles at their ends and in the ends that are lost. -/
theorem forall₂_endLeft {whole part : Flow} (hwhole : whole.Numbered) (hpart : part.Numbered)
    (hdistinct : (whole.nodes.map (·.uid)).Nodup)
    (hfrom : ∀ n ∈ part.nodes, ∃ m ∈ whole.nodes, m.content = n.content)
    (saved : List Saved.Connection) :
    List.Forall₂ (fun c d => d.shape = c.shape ∧
        whole.EndLeft part c.source d.source ∧ whole.EndLeft part c.target d.target)
      (saved.map (connectionIn whole)) (saved.map (connectionIn part)) := by
  -- Both flows look up the same saved end, each among its own nodes.
  have hend : ∀ e, whole.EndLeft part (endpoint? whole e) (endpoint? part e) := by
    intro e
    have hp := loadedAt_endpoint? hwhole e
    have hq := loadedAt_endpoint? hpart e
    exact .of_loadedAt hdistinct hfrom hp hq
  rw [List.forall₂_map_left_iff, List.forall₂_map_right_iff, List.forall₂_same]
  exact fun s _ => ⟨rfl, hend s.source, hend s.target⟩

/-! ### The nodes that are loaded -/

/-- The types that can be placed: the shared ones, then those of options. -/
def types (l : Loader) (optionTypes : Catalog) : List NodeType :=
  l.catalog.entries ++ optionTypes.entries

/-- The first type with the id that a saved node's type id stands for. -/
def typeOf? (l : Loader) (optionTypes : Catalog) (n : Saved.Node) : Option NodeType :=
  (l.types optionTypes).find? (·.id == l.renamed n.typeId)

/-- Whether there is a type for a saved node. -/
def knows (l : Loader) (optionTypes : Catalog) (n : Saved.Node) : Bool :=
  (l.typeOf? optionTypes n).isSome

/-- What a saved node becomes that takes a type. -/
def contentWith (n : Saved.Node) (t : NodeType) : String × NodeType × Position × Literals :=
  (n.uid, t, n.position, n.literals)

/-- A saved node takes the type that is looked up, and if there is none, perhaps the one that stands
in. -/
theorem type?_resolve (l : Loader) (f : Flow) (typeId : String) :
    (l.resolve f typeId).type? = (f.resolve? (l.renamed typeId)).or
      (if l.unknownTypes = .fallBack then f.fallback? else none) := by
  dsimp only [resolve]
  cases f.resolve? (l.renamed typeId) <;> cases l.unknownTypes <;> cases f.fallback? <;> rfl

theorem available_flow (l : Loader) (saved : Saved.Flow) (optionTypes : Catalog) :
    (l.flow saved optionTypes).available = l.types optionTypes := by
  obtain ⟨hcatalog, hoptions, -⟩ :=
    l.placeNodes_frame saved.nodes { Flow.new l.catalog with optionTypes }
  exact congrArg₂ (fun c d : Catalog => c.entries ++ d.entries) hcatalog hoptions

theorem type?_resolve_flow (l : Loader) (saved : Saved.Flow) (optionTypes : Catalog)
    (n : Saved.Node) :
    (l.resolve (l.flow saved optionTypes) n.typeId).type? = (l.typeOf? optionTypes n).or
      (if l.unknownTypes = .fallBack then (l.types optionTypes).head? else none) := by
  rw [type?_resolve, Flow.resolve?_eq_find?, Flow.fallback?, available_flow]
  rfl

/-- Where unknown types fall back on another, all saved nodes are loaded. -/
theorem content_flow_fallBack {l : Loader} {optionTypes : Catalog} (saved : Saved.Flow)
    (hfall : l.unknownTypes = .fallBack) (hsome : l.types optionTypes ≠ []) :
    (l.flow saved optionTypes).nodes.map Node.content = saved.nodes.map fun n =>
      contentWith n ((l.typeOf? optionTypes n).getD ((l.types optionTypes).head hsome)) := by
  rw [content_flow, ← List.filterMap_eq_map]
  refine List.filterMap_congr fun n _ => ?_
  rw [type?_resolve_flow, if_pos hfall, List.head?_eq_some_head hsome, Function.comp_apply]
  cases l.typeOf? optionTypes n <;> rfl

/-- Where nodes of unknown types are left out, those of known types are loaded, each with its type
and in order. -/
theorem content_flow_skip {l : Loader} {optionTypes : Catalog} (saved : Saved.Flow)
    (hskip : l.unknownTypes = .skip) (other : NodeType) :
    (l.flow saved optionTypes).nodes.map Node.content =
      (saved.nodes.filter (l.knows optionTypes)).map fun n =>
        contentWith n ((l.typeOf? optionTypes n).getD other) := by
  rw [content_flow, ← List.filterMap_eq_map, List.filterMap_filter]
  refine List.filterMap_congr fun n _ => ?_
  rw [type?_resolve_flow, hskip, if_neg (by decide), Option.or_none, Function.comp_apply, knows]
  cases l.typeOf? optionTypes n <;> rfl

/-! ### The two flows -/

/--
**Leaving nodes of unknown types out is loading them with another type and taking them away.**
Whatever is saved with uids that differ, whichever names are given to old types, and whatever types
there are, as long as there is one: let `whole` be the flow in which unknown types fall back on the
first, and `part` the one in which their nodes are left out.  Then `whole` has all saved nodes, and
the nodes of `part` are those of `whole` that were saved with a known type, in order and the same
apart from their handles.  Both have all saved connections, in order and with their shapes.  An end
stands in `whole` at the port with its uid and key, and in `part` at the same port of the same node,
or nowhere if the node is not in `part`.
-/
theorem skipping_leaves_out_unknown_types (l : Loader) (saved : Saved.Flow) (optionTypes : Catalog)
    (hdistinct : (saved.nodes.map (·.uid)).Nodup) (hsome : l.types optionTypes ≠ []) :
    let whole := { l with unknownTypes := .fallBack }.flow saved optionTypes
    let part := { l with unknownTypes := .skip }.flow saved optionTypes
    List.Forall₂ (fun n m => m.content = contentWith n
        ((l.typeOf? optionTypes n).getD ((l.types optionTypes).head hsome)))
      saved.nodes whole.nodes ∧
    part.nodes.map Node.content =
      ((saved.nodes.zip whole.nodes).filter (l.knows optionTypes ·.1)).map (·.2.content) ∧
    List.Forall₂ (fun s c => c.shape = s.shape ∧
        whole.LoadedAt s.source c.source ∧ whole.LoadedAt s.target c.target)
      saved.connections whole.connections ∧
    List.Forall₂ (fun c d => d.shape = c.shape ∧
        whole.EndLeft part c.source d.source ∧ whole.EndLeft part c.target d.target)
      whole.connections part.connections := by
  intro whole part
  have hnodes : List.Forall₂ (fun n m => m.content = contentWith n
      ((l.typeOf? optionTypes n).getD ((l.types optionTypes).head hsome)))
      saved.nodes whole.nodes :=
    map_eq_map_iff_forall₂.1
      (content_flow_fallBack (l := { l with unknownTypes := .fallBack }) saved rfl hsome)
  have hpicked : part.nodes.map Node.content =
      ((saved.nodes.zip whole.nodes).filter (l.knows optionTypes ·.1)).map (·.2.content) := by
    rw [map_filter_zip_of_forall₂ (l.knows optionTypes) hnodes]
    exact content_flow_skip (l := { l with unknownTypes := .skip }) saved rfl _
  have hwhole : whole.Numbered := numbered_flow _ saved optionTypes
  have hpart : part.Numbered := numbered_flow _ saved optionTypes
  have huids : whole.nodes.map (·.uid) = saved.nodes.map (·.uid) :=
    map_eq_map_iff_forall₂.2 (hnodes.imp fun _ _ h => congrArg Prod.fst h)
  have hfrom : ∀ n ∈ part.nodes, ∃ m ∈ whole.nodes, m.content = n.content := by
    intro n hn
    have hmem := List.mem_map_of_mem (f := Node.content) hn
    rw [hpicked] at hmem
    obtain ⟨⟨s, m⟩, hpair, hcontent⟩ := List.mem_map.1 hmem
    exact ⟨m, (List.of_mem_zip (List.mem_of_mem_filter hpair)).2, hcontent⟩
  have hwholeConnections : whole.connections = saved.connections.map (connectionIn whole) :=
    connections_flow _ saved optionTypes
  have hpartConnections : part.connections = saved.connections.map (connectionIn part) :=
    connections_flow _ saved optionTypes
  rw [hwholeConnections, hpartConnections]
  exact ⟨hnodes, hpicked, forall₂_loadedAt hwhole saved.connections,
    forall₂_endLeft hwhole hpart (huids ▸ hdistinct) hfrom saved.connections⟩

/-- The second of three nodes has an unknown type and the third an old one.  Left out, the second
takes the ends at it with it, and the third has another handle. -/
theorem second_of_three_is_left_out :
    let text : PortShape := ⟨.text, []⟩
    let echo : NodeType := NodeType.withOutput
      (NodeType.withInput { id := "echo", title := "Echo" } "text" "" text) "said" "" text
    let l : Loader :=
      { catalog := Catalog.ofNodup [echo] (by decide), aliases := [("old", "echo")] }
    let origin : Position := ⟨.zero false, .zero false⟩
    let saved : Saved.Flow :=
      { nodes := [⟨"a", "echo", origin, ∅⟩, ⟨"b", "gone", origin, ∅⟩, ⟨"c", "old", origin, ∅⟩]
        connections := [⟨text, ⟨some "a", some "said"⟩, ⟨some "b", some "text"⟩⟩,
          ⟨text, ⟨some "a", some "said"⟩, ⟨some "c", some "text"⟩⟩] }
    let whole := { l with unknownTypes := .fallBack }.flow saved ∅
    let part := { l with unknownTypes := .skip }.flow saved ∅
    (saved.nodes.map (·.uid)).Nodup ∧ l.types ∅ ≠ [] ∧
      whole.connections = [.ofLink ⟨⟨⟨0⟩, "said"⟩, ⟨⟨1⟩, "text"⟩⟩ text,
        .ofLink ⟨⟨⟨0⟩, "said"⟩, ⟨⟨2⟩, "text"⟩⟩ text] ∧
      part.connections = [⟨text, some ⟨⟨0⟩, "said"⟩, none⟩,
        .ofLink ⟨⟨⟨0⟩, "said"⟩, ⟨⟨1⟩, "text"⟩⟩ text] ∧
      part.nodes.map Node.content =
        ((saved.nodes.zip whole.nodes).filter (l.knows ∅ ·.1)).map (·.2.content) ∧
      List.Forall₂ (fun c d => d.shape = c.shape ∧
          whole.EndLeft part c.source d.source ∧ whole.EndLeft part c.target d.target)
        whole.connections part.connections := by
  intro text echo l origin saved whole part
  have hdistinct : (saved.nodes.map (·.uid)).Nodup := by decide
  have hsome : l.types ∅ ≠ [] := by decide +kernel
  obtain ⟨-, hnodes, -, hconnections⟩ :=
    skipping_leaves_out_unknown_types l saved ∅ hdistinct hsome
  exact ⟨hdistinct, hsome, by decide +kernel, by decide +kernel, hnodes, hconnections⟩

end Loader

end CommandFlow
