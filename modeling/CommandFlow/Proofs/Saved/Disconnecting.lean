/-
When taking a connection away disconnects its ports.

Asking to connect two ports that are connected takes away the first connection that joins them, and
no other.  This leaves the ports unconnected if it was the only one.  Edits never make a second one:
an operation keeps some of the links of a flow, in order, or adds one that is not there
(`Relinked`).  Loading takes connections as they were saved, so if two of them give the same ends
and both ends are at nodes, the flow has two connections between the same ports.
-/
import CommandFlow.Proofs.Flow.Handles
import CommandFlow.Proofs.Flow.Repair
import CommandFlow.Proofs.Flow.Toggle
import CommandFlow.Proofs.Saved.UidLookup

namespace CommandFlow

theorem Connection.link?_eq_some_iff_joins {c : Connection} {link : Link} :
    c.link? = some link ↔ c.joins link = true :=
  link?_eq_some_iff.trans joins_iff.symm

theorem Connection.link?_congr (c d : Connection) (hsource : d.source = c.source)
    (htarget : d.target = c.target) : d.link? = c.link? := by
  rw [link?, link?, hsource, htarget]

namespace Flow

variable {f g : Flow} {link : Link}

/-! ### Links -/

/-- The pairs of ports that are connected, in the order of the connections. -/
def links (f : Flow) : List Link :=
  f.connections.filterMap (·.link?)

/-- How many connections join two ports. -/
def joined (f : Flow) (link : Link) : Nat :=
  f.connections.countP (·.joins link)

theorem count_links (f : Flow) (link : Link) : f.links.count link = f.joined link := by
  rw [links, joined, List.count, List.countP_filterMap]
  refine List.countP_congr fun c _ => ?_
  rw [← Connection.link?_eq_some_iff_joins]
  cases c.link? <;> simp

theorem links_sublist (h : g.connections.Sublist f.connections) : g.links.Sublist f.links :=
  h.filterMap _

/-- What an operation can do to links: keep some of them, or add one that is not there. -/
inductive Relinked (f g : Flow) : Prop
  | kept (hlinks : g.links.Sublist f.links)
  | added {link : Link} {kept : List Link} (hnew : link ∉ f.links) (hkept : kept.Sublist f.links)
      (hlinks : g.links = kept ++ [link])

theorem Relinked.of_sublist (h : g.connections.Sublist f.connections) : f.Relinked g :=
  .kept (links_sublist h)

theorem Relinked.of_connections_eq (h : g.connections = f.connections) : f.Relinked g :=
  .of_sublist (h ▸ List.Sublist.refl _)

theorem Relinked.revalidate {selected : Connection → Bool} (h : g.connections = f.connections) :
    f.Relinked (g.revalidate selected).2 := by
  have hsub := map_revalidate_sublist (·.link?) Connection.link?_congr g selected
  rw [h] at hsub
  have hlinks := hsub.filterMap id
  rw [List.filterMap_map, List.filterMap_map] at hlinks
  exact .kept hlinks

theorem Effect.relinked {e : Edit} (he : f.Effect e g) : f.Relinked g := by
  cases he with
  | refused => exact .of_connections_eq rfl
  | added _ _ _ => exact .of_connections_eq rfl
  | addedById _ _ _ => exact .of_connections_eq rfl
  | moved _ _ => exact .of_connections_eq rfl
  | literalSet _ _ _ => exact .of_connections_eq rfl
  | literalCleared _ _ => exact .of_connections_eq rfl
  | cut _ => exact .of_sublist List.filter_sublist
  | removed _ => exact .of_sublist List.filter_sublist
  | disconnected _ => exact .of_sublist List.eraseP_sublist
  | @connected link shape hfind _ =>
      have hnew : link ∉ f.links := by
        intro hmem
        obtain ⟨c, hc, hlink⟩ := List.mem_filterMap.1 hmem
        exact List.find?_eq_none.1 hfind c hc (Connection.link?_eq_some_iff_joins.1 hlink)
      exact .added hnew (List.filter_sublist.filterMap _) List.filterMap_append
  | revalidated _ => exact .revalidate rfl
  | rebound _ => exact .revalidate rfl

theorem relinked_operate (f : Flow) (op : Operation) : f.Relinked (f.operate op) := by
  have heffect := Command.effect_apply { op.holder with flow := f } op.edit
  unfold operate
  generalize Command.apply { op.holder with flow := f } op.edit = c' at heffect ⊢
  obtain ⟨holder, edit⟩ := op
  cases heffect with
  | refused => exact .of_connections_eq rfl
  | optionAdded _ _ => exact .of_connections_eq rfl
  | optionRemoved _ _ => exact .of_sublist List.filter_sublist
  | optionUpdated _ _ _ => exact .revalidate rfl
  | flowEdited hflow => exact hflow.relinked

/-! ### What one step keeps -/

theorem Relinked.nodup (h : f.Relinked g) (hf : f.links.Nodup) : g.links.Nodup := by
  cases h with
  | kept hlinks => exact hf.sublist hlinks
  | added hnew hkept hlinks =>
      rw [hlinks, ← List.concat_eq_append]
      exact (hf.sublist hkept).concat fun hmem => hnew (hkept.subset hmem)

/-- Ports are joined more than once only where they were before. -/
theorem Relinked.joined_le (h : f.Relinked g) (link : Link) :
    g.joined link ≤ max 1 (f.joined link) := by
  rw [← count_links, ← count_links]
  cases h with
  | kept hlinks => exact Nat.le_trans (hlinks.count_le link) (Nat.le_max_right _ _)
  | @added new kept hnew hkept hlinks =>
      -- The new link is none of the others, so it counts once, and any other no more than before.
      rw [hlinks, List.count_append]
      have hle := hkept.count_le link
      by_cases hsame : new = link
      · rw [hsame] at hnew
        rw [List.count_eq_zero.2 hnew] at hle
        rw [hsame, List.count_singleton_self]
        omega
      · have hother : [new].count link = 0 :=
          List.count_eq_zero.2 (by simpa using Ne.symm hsame)
        omega

theorem nodup_links_run (h : f.links.Nodup) (ops : List Operation) :
    (ops.foldl operate f).links.Nodup :=
  List.foldlRecOn ops operate h fun g hg op _ => (relinked_operate g op).nodup hg

theorem joined_run_le (f : Flow) (link : Link) (ops : List Operation) :
    (ops.foldl operate f).joined link ≤ max 1 (f.joined link) := by
  refine List.foldlRecOn ops operate
    (motive := fun g : Flow => g.joined link ≤ max 1 (f.joined link)) (Nat.le_max_right _ _) ?_
  intro g hg op _
  have hstep := (relinked_operate g op).joined_le link
  omega

/-! ### Taking a connection away -/

/-- Taking a connection away leaves the others between its ports. -/
theorem joined_of_removed {c : Connection} (h : f.connect link = .ok (.removed c, g)) :
    g.joined link + 1 = f.joined link := by
  obtain ⟨hfind, rfl⟩ := connect_eq_removed_iff.1 h
  have hperm := List.perm_cons_erase (List.mem_of_find?_eq_some hfind)
  unfold joined
  rw [hperm.countP_eq, List.countP_cons_of_pos (by simpa using List.find?_some hfind)]

theorem joined_eq_zero_iff : f.joined link = 0 ↔ ∀ c ∈ f.connections, c.joins link = false := by
  simp [joined, List.countP_eq_zero]

theorem exists_removed_of_joined_pos (h : 0 < f.joined link) :
    ∃ c g, f.connect link = .ok (.removed c, g) := by
  have hsome : (f.connections.find? (·.joins link)).isSome = true :=
    List.find?_isSome.2 (List.countP_pos_iff.1 h)
  obtain ⟨c, hc⟩ := Option.isSome_iff_exists.1 hsome
  exact ⟨c, _, connect_eq_removed_iff.2 ⟨hc, rfl⟩⟩

/-- Whether taking a connection away leaves its ports unconnected, whatever ports these are. -/
def Disconnects (f : Flow) : Prop :=
  ∀ link c g, f.connect link = .ok (.removed c, g) → ∀ d ∈ g.connections, d.joins link = false

theorem disconnects_iff_nodup : f.Disconnects ↔ f.links.Nodup := by
  rw [List.nodup_iff_count_le_one]
  simp only [count_links]
  constructor
  · intro h link
    by_cases hpos : 0 < f.joined link
    · obtain ⟨c, g, hremoved⟩ := exists_removed_of_joined_pos hpos
      have hnone := joined_eq_zero_iff.2 (h link c g hremoved)
      have hone := joined_of_removed hremoved
      omega
    · omega
  · intro h link c g hremoved
    have hone := joined_of_removed hremoved
    have hle := h link
    exact joined_eq_zero_iff.1 (by omega)

end Flow

namespace Loader

/-! ### Loaded connections -/

/-- Ends that are loaded at the same port were saved alike. -/
theorem endpoint?_inj {f : Flow} (h : f.Numbered) {e e' : Saved.End} {p : Endpoint}
    (he : endpoint? f e = some p) (he' : endpoint? f e' = some p) : e = e' := by
  obtain ⟨m, hm, rfl⟩ := exists_node_of_endpoint? h he
  obtain ⟨n, hn, rfl⟩ := exists_node_of_endpoint? h he'
  rw [Option.some.inj (hm.symm.trans hn)]

theorem link?_connectionIn {f : Flow} {c : Saved.Connection} {link : Link} :
    (connectionIn f c).link? = some link ↔
      endpoint? f c.source = some link.source ∧ endpoint? f c.target = some link.target := by
  rw [Connection.link?_eq_some_iff_joins, Connection.joins, Bool.and_eq_true, decide_eq_true_iff,
    decide_eq_true_iff]
  rfl

/-- Whether two saved connections give the same ends, both at nodes. -/
def Repeats (f : Flow) (c d : Saved.Connection) : Prop :=
  c.source = d.source ∧ c.target = d.target ∧
    (endpoint? f c.source).isSome = true ∧ (endpoint? f c.target).isSome = true

theorem repeats_iff {f : Flow} (h : f.Numbered) {c d : Saved.Connection} :
    Repeats f c d ↔
      ∃ link, (connectionIn f c).link? = some link ∧ (connectionIn f d).link? = some link := by
  simp only [link?_connectionIn]
  constructor
  · rintro ⟨hsource, htarget, hp, hq⟩
    obtain ⟨p, hp⟩ := Option.isSome_iff_exists.1 hp
    obtain ⟨q, hq⟩ := Option.isSome_iff_exists.1 hq
    exact ⟨⟨p, q⟩, ⟨hp, hq⟩, hsource ▸ hp, htarget ▸ hq⟩
  · rintro ⟨link, ⟨hp, hq⟩, hp', hq'⟩
    exact ⟨endpoint?_inj h hp hp', endpoint?_inj h hq hq', by simp [hp], by simp [hq]⟩

end Loader

namespace Flow

/-- The connections that were saved, if any were. -/
def Start.saved : Start → List Saved.Connection
  | .new _ => []
  | .loaded _ saved _ => saved.connections
  | .ofCommand _ saved => saved.flow.connections

theorem Start.connections_flow (start : Start) :
    start.flow.connections = start.saved.map (Loader.connectionIn start.flow) := by
  cases start with
  | new catalog => rfl
  | loaded loader saved optionTypes => exact loader.connections_flow saved optionTypes
  | ofCommand loader saved =>
      rw [Start.flow, Loader.flow_command]
      exact loader.connections_flow saved.flow _

theorem Start.joined_flow (start : Start) (link : Link) : start.flow.joined link =
    start.saved.countP fun d => (Loader.connectionIn start.flow d).joins link := by
  rw [joined, start.connections_flow, List.countP_map]
  rfl

/-- Links differ at the start exactly if no connection was saved twice. -/
theorem Start.nodup_links_iff (start : Start) :
    start.flow.links.Nodup ↔ start.saved.Pairwise fun c d => ¬Loader.Repeats start.flow c d := by
  rw [links, start.connections_flow, List.Nodup, List.pairwise_filterMap, List.pairwise_map]
  refine List.Pairwise.iff fun c d => ?_
  rw [Loader.repeats_iff start.spec.1]
  constructor
  · rintro h ⟨link, hc, hd⟩
    exact h link hc link hd rfl
  · rintro h link hc link' hd rfl
    exact h ⟨link, hc, hd⟩

/--
**Taking a connection away disconnects its ports exactly if nothing was saved twice.**  Start from a
new flow or from one that was loaded, whatever was saved, and edit it and the options of the command
that holds it.  Whenever asking for two ports takes a connection away, no connection is left between
them: this holds in all flows that edits lead to exactly if no two saved connections give the same
ends, both at nodes.  In any case one connection fewer joins the ports than before, and before there
was one, or at most as many as were saved between them.
-/
theorem taking_away_disconnects_iff_saved_once (start : Start) :
    ((∀ ops : List Operation, (ops.foldl operate start.flow).Disconnects) ↔
      start.saved.Pairwise fun c d => ¬Loader.Repeats start.flow c d) ∧
    ∀ (ops : List Operation) link c g, let f := ops.foldl operate start.flow
      f.connect link = .ok (.removed c, g) → g.joined link + 1 = f.joined link ∧
        f.joined link ≤
          max 1 (start.saved.countP fun d => (Loader.connectionIn start.flow d).joins link) := by
  refine ⟨?_, ?_⟩
  · rw [← start.nodup_links_iff]
    constructor
    · intro h
      exact disconnects_iff_nodup.1 (h [])
    · intro h ops
      exact disconnects_iff_nodup.2 (nodup_links_run h ops)
  · intro ops link c g f hremoved
    rw [← start.joined_flow]
    exact ⟨joined_of_removed hremoved, joined_run_le start.flow link ops⟩

/-- A connection that was saved twice: asking for its ports takes one away, and they are still
connected. -/
theorem connection_saved_twice_stays :
    let text : PortShape := ⟨.text, []⟩
    let say : NodeType := NodeType.withOutput { id := "say", title := "Say" } "said" "" text
    let tell : NodeType := NodeType.withInput { id := "tell", title := "Tell" } "text" "" text
    let l : Loader := { catalog := Catalog.ofNodup [say, tell] (by decide) }
    let origin : Position := ⟨.zero false, .zero false⟩
    let twice : Saved.Connection := ⟨text, ⟨some "a", some "said"⟩, ⟨some "b", some "text"⟩⟩
    let f := l.flow
      { nodes := [⟨"a", "say", origin, ∅⟩, ⟨"b", "tell", origin, ∅⟩]
        connections := [twice, twice] } ∅
    let link : Link := ⟨⟨⟨0⟩, "said"⟩, ⟨⟨1⟩, "text"⟩⟩
    let c : Connection := .ofLink link text
    let g := { f with connections := [c] }
    f.connect link = .ok (.removed c, g) ∧ c ∈ g.connections ∧ c.joins link = true ∧
      ¬f.Disconnects := by
  intro text say tell l origin twice f link c g
  have hconnections : f.connections = [c, c] := by decide +kernel
  have hjoins : c.joins link = true := by decide
  have hremoved : f.connect link = .ok (.removed c, g) := by
    refine connect_eq_removed_iff.2 ⟨?_, ?_⟩
    · rw [hconnections]
      exact List.find?_cons_of_pos hjoins
    · rw [hconnections, List.erase_cons_head]
  refine ⟨hremoved, List.mem_cons_self, hjoins, fun h => ?_⟩
  rw [h link c g hremoved c List.mem_cons_self] at hjoins
  exact absurd hjoins (by decide)

end Flow

end CommandFlow
