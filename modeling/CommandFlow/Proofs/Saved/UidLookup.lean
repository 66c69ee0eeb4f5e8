/-
Which node a uid stands for.

Uids are meant to differ, but nothing makes those of a file differ.  Two places look nodes up by
uid: loading, for the ends of connections, and the flow itself.  Loading goes by the last node with
a uid and the flow by the first.  So the two agree exactly where no uid that an end gives was loaded
twice. Nodes that are left out, for want of a type, do not count.

Handles ascend with the nodes, so first and last are told by handles
(`find?_eq_some_iff_of_pairwise`).
-/
import CommandFlow.Proofs.Saved.Placement
import Mathlib.Data.List.Forall2

namespace CommandFlow

/-! ### First and last -/

/-- In a list in ascending order, what is found is the least that passes. -/
theorem find?_eq_some_iff_of_pairwise {α : Type} {R : α → α → Prop} {l : List α} {test : α → Bool}
    (hasymm : ∀ a b, R a b → ¬R b a) (h : l.Pairwise R) {a : α} :
    l.find? test = some a ↔ a ∈ l ∧ test a = true ∧ ∀ b ∈ l, test b = true → ¬R b a := by
  -- Whatever passes and is not the element found stands behind it.
  have hfound : ∀ {c}, l.find? test = some c → ∀ b ∈ l, test b = true → b = c ∨ R c b := by
    intro c hc b hb htest
    obtain ⟨-, before, after, rfl, hbefore⟩ := List.find?_eq_some_iff_append.1 hc
    rcases List.mem_append.1 hb with hb | hb
    · exact absurd htest (by simpa using hbefore b hb)
    · rcases List.mem_cons.1 hb with rfl | hb
      · exact Or.inl rfl
      · exact Or.inr (List.rel_of_pairwise_cons (List.pairwise_append.1 h).2.1 hb)
  constructor
  · intro ha
    refine ⟨List.mem_of_find?_eq_some ha, List.find?_some ha, fun b hb htest hlt => ?_⟩
    rcases hfound ha b hb htest with rfl | hgt
    · exact hasymm b b hlt hlt
    · exact hasymm b a hlt hgt
  · rintro ⟨ha, htest, hleast⟩
    obtain ⟨c, hc⟩ := Option.isSome_iff_exists.1 (List.find?_isSome.2 ⟨a, ha, htest⟩)
    rcases hfound hc a ha htest with rfl | hlt
    · exact hc
    · exact absurd hlt (hleast c (List.mem_of_find?_eq_some hc) (List.find?_some hc))

/-- The first element that passes is the last one exactly if no other passes. -/
theorem find?_eq_find?_reverse_iff {α : Type} {l : List α} (h : l.Nodup) (test : α → Bool) :
    l.find? test = l.reverse.find? test ↔ l.countP test ≤ 1 := by
  rw [← List.head?_filter, ← List.head?_filter, List.filter_reverse, List.head?_reverse,
    List.countP_eq_length_filter]
  have hnodup := h.filter test
  cases hpass : l.filter test with
  | nil => simp
  | cons a rest =>
      cases rest with
      | nil => simp
      | cons b rest =>
          refine iff_of_false (fun heq => ?_) (by simp)
          rw [List.head?_cons, List.getLast?_cons_cons] at heq
          rw [hpass] at hnodup
          exact (List.nodup_cons.1 hnodup).1 (List.mem_of_getLast? heq.symm)

namespace Flow

variable {f : Flow}

/-- The last node with a uid. -/
def lastByUid? (f : Flow) (uid : String) : Option Node :=
  f.nodes.reverse.find? (·.uid = uid)

theorem Numbered.pairwise_nodes (h : f.Numbered) :
    f.nodes.Pairwise fun m n => m.handle.number < n.handle.number := by
  have hascending := h.ascending
  rw [handles, List.pairwise_map] at hascending
  exact hascending

/-- Looking up a uid gives the node with it that has the least handle. -/
theorem Numbered.nodeByUid?_eq_some_iff (h : f.Numbered) {uid : String} {n : Node} :
    f.nodeByUid? uid = some n ↔ n ∈ f.nodes ∧ n.uid = uid ∧
      ∀ m ∈ f.nodes, m.uid = uid → n.handle.number ≤ m.handle.number := by
  rw [nodeByUid?, find?_eq_some_iff_of_pairwise (fun _ _ => Nat.lt_asymm) h.pairwise_nodes]
  simp

theorem Numbered.lastByUid?_eq_some_iff (h : f.Numbered) {uid : String} {n : Node} :
    f.lastByUid? uid = some n ↔ n ∈ f.nodes ∧ n.uid = uid ∧
      ∀ m ∈ f.nodes, m.uid = uid → m.handle.number ≤ n.handle.number := by
  have hdescending : f.nodes.reverse.Pairwise fun m n => n.handle.number < m.handle.number :=
    List.pairwise_reverse.2 h.pairwise_nodes
  rw [lastByUid?, find?_eq_some_iff_of_pairwise (fun _ _ => Nat.lt_asymm) hdescending]
  simp

theorem Numbered.nodeByUid?_eq_lastByUid?_iff (h : f.Numbered) {uid : String} :
    f.nodeByUid? uid = f.lastByUid? uid ↔ f.nodes.countP (·.uid = uid) ≤ 1 :=
  find?_eq_find?_reverse_iff (List.Nodup.of_map _ h.nodup) _

/-- Whether an end that was loaded, if it was, stands on the node that its uid leads to. -/
def StandsOnFirst (f : Flow) (e : Saved.End) (p : Option Endpoint) : Prop :=
  ∀ uid q, e.uid = some uid → p = some q →
    ∃ n, f.nodeByUid? uid = some n ∧ f.node? q.node = some n

end Flow

namespace Loader

/-- An end is loaded at the last node with its uid. -/
theorem endpoint?_eq_some_iff {f : Flow} (h : f.Numbered) {e : Saved.End} {p : Endpoint} :
    endpoint? f e = some p ↔ e.key = some p.key ∧
      ∃ uid n, e.uid = some uid ∧ f.lastByUid? uid = some n ∧ f.node? p.node = some n := by
  obtain ⟨node, key⟩ := p
  have hhandle : ∀ {uid n}, f.lastByUid? uid = some n →
      (n.handle = node ↔ f.node? node = some n) := by
    intro uid n hn
    rw [h.node?_eq_some_iff]
    exact (and_iff_right (h.lastByUid?_eq_some_iff.1 hn).1).symm
  simp only [endpoint?, Option.bind_eq_bind, Option.bind_eq_some_iff, Option.pure_def,
    Option.some.injEq, Endpoint.mk.injEq]
  constructor
  · rintro ⟨uid, huid, key', hkey, n, hn, hnode, rfl⟩
    exact ⟨hkey, uid, n, huid, hn, (hhandle hn).1 hnode⟩
  · rintro ⟨hkey, uid, n, huid, hn, hnode⟩
    exact ⟨uid, huid, key, hkey, n, hn, (hhandle hn).2 hnode, rfl⟩

/-- An end that was loaded at a port gave the uid of its node and its key. -/
theorem exists_node_of_endpoint? {f : Flow} (h : f.Numbered) {e : Saved.End} {p : Endpoint}
    (he : endpoint? f e = some p) :
    ∃ n, f.node? p.node = some n ∧ e = ⟨some n.uid, some p.key⟩ := by
  obtain ⟨_, _⟩ := e
  obtain ⟨rfl, uid, n, rfl, hlast, hn⟩ := (endpoint?_eq_some_iff h).1 he
  rw [← (h.lastByUid?_eq_some_iff.1 hlast).2.1]
  exact ⟨n, hn, rfl⟩

/-- How many of the saved nodes with a uid take a type. -/
def loadedWith (l : Loader) (f : Flow) (saved : Saved.Flow) (uid : String) : Nat :=
  saved.nodes.countP fun n => n.uid = uid && (l.resolve f n.typeId).type?.isSome

theorem countP_uid_flow (l : Loader) (saved : Saved.Flow) (optionTypes : Catalog) (uid : String) :
    (l.flow saved optionTypes).nodes.countP (·.uid = uid) =
      l.loadedWith (l.flow saved optionTypes) saved uid := by
  calc (l.flow saved optionTypes).nodes.countP (·.uid = uid)
      = ((l.flow saved optionTypes).nodes.map Node.content).countP (·.1 = uid) := by
        rw [List.countP_map]
        rfl
    _ = l.loadedWith (l.flow saved optionTypes) saved uid := by
        rw [content_flow, List.countP_filterMap, loadedWith]
        refine List.countP_congr fun n _ => ?_
        cases (l.resolve (l.flow saved optionTypes) n.typeId).type? with
        | none => simp
        | some t => simp

/-- Of nodes with the same uid one counts for an end exactly if only one was loaded. -/
theorem standsOnFirst_endpoint?_iff {f : Flow} (h : f.Numbered) {e : Saved.End} :
    f.StandsOnFirst e (endpoint? f e) ↔ ∀ uid key, e = ⟨some uid, some key⟩ →
      f.nodes.countP (·.uid = uid) ≤ 1 := by
  constructor
  · rintro hfirst uid key rfl
    rw [← h.nodeByUid?_eq_lastByUid?_iff]
    cases hlast : f.lastByUid? uid with
    | none =>
        rw [Flow.lastByUid?, List.find?_eq_none] at hlast
        rw [Flow.nodeByUid?, List.find?_eq_none]
        exact fun n hn => hlast n (List.mem_reverse.2 hn)
    | some m =>
        have hm : f.node? m.handle = some m :=
          h.node?_eq_some_iff.2 ⟨(h.lastByUid?_eq_some_iff.1 hlast).1, rfl⟩
        obtain ⟨n, hn, hsame⟩ := hfirst uid ⟨m.handle, key⟩ rfl
          ((endpoint?_eq_some_iff h).2 ⟨rfl, uid, m, rfl, hlast, hm⟩)
        rw [hn, ← hsame, hm]
  · intro halone uid q huid hq
    obtain ⟨hkey, uid', m, huid', hlast, hm⟩ := (endpoint?_eq_some_iff h).1 hq
    obtain rfl : uid = uid' := Option.some.inj (huid.symm.trans huid')
    obtain ⟨euid, ekey⟩ := e
    subst huid hkey
    exact ⟨m, (h.nodeByUid?_eq_lastByUid?_iff.2 (halone uid q.key rfl)).trans hlast, hm⟩

/--
**Loading and the flow agree on a uid exactly if it was loaded once.**  Whatever is saved and
however it is loaded: an end that is given in full stands on the node with its uid that was placed
last, and looking the uid up in the flow gives the one that was placed first.  So every end of every
connection stands on the node that its uid leads to exactly if, of the saved nodes with a uid that
an end gives, no two take a type.
-/
theorem ends_stand_on_first_iff_loaded_once (l : Loader) (saved : Saved.Flow)
    (optionTypes : Catalog) :
    let f := l.flow saved optionTypes
    (List.Forall₂ (fun c d => f.StandsOnFirst c.source d.source ∧ f.StandsOnFirst c.target d.target)
        saved.connections f.connections ↔
      ∀ c ∈ saved.connections, ∀ e, e = c.source ∨ e = c.target → ∀ uid key,
        e = ⟨some uid, some key⟩ → l.loadedWith f saved uid ≤ 1) ∧
    (∀ uid key p, endpoint? f ⟨some uid, some key⟩ = some p ↔ p.key = key ∧
      ∃ m, f.node? p.node = some m ∧ m.uid = uid ∧
        ∀ n ∈ f.nodes, n.uid = uid → n.handle.number ≤ m.handle.number) ∧
    ∀ uid n, f.nodeByUid? uid = some n ↔ n ∈ f.nodes ∧ n.uid = uid ∧
      ∀ m ∈ f.nodes, m.uid = uid → n.handle.number ≤ m.handle.number := by
  intro f
  have h : f.Numbered := l.numbered_flow saved optionTypes
  refine ⟨?_, ?_, fun _ _ => h.nodeByUid?_eq_some_iff⟩
  · have hends : ∀ e, f.StandsOnFirst e (endpoint? f e) ↔ ∀ uid key, e = ⟨some uid, some key⟩ →
        l.loadedWith f saved uid ≤ 1 := by
      intro e
      have hcount : ∀ uid, f.nodes.countP (·.uid = uid) = l.loadedWith f saved uid :=
        l.countP_uid_flow saved optionTypes
      simp only [← hcount]
      exact standsOnFirst_endpoint?_iff h
    have hconnections : f.connections = saved.connections.map (connectionIn f) :=
      l.connections_flow saved optionTypes
    rw [hconnections, List.forall₂_map_right_iff, List.forall₂_same]
    refine forall₂_congr fun c _ => ?_
    simp only [connectionIn, hends, forall_eq_or_imp, forall_eq]
  · intro uid key p
    rw [endpoint?_eq_some_iff h]
    constructor
    · rintro ⟨hkey, uid', m, huid, hlast, hm⟩
      cases huid
      exact ⟨(Option.some.inj hkey).symm, m, hm, (h.lastByUid?_eq_some_iff.1 hlast).2⟩
    · rintro ⟨rfl, m, hm, huid, hgreatest⟩
      have hmem : m ∈ f.nodes := (h.node?_eq_some_iff.1 hm).1
      exact ⟨rfl, uid, m, rfl, h.lastByUid?_eq_some_iff.2 ⟨hmem, huid, hgreatest⟩, hm⟩

/-- Two nodes with one uid: the connection that is saved from this uid starts at the second of them,
and looking the uid up gives the first. -/
theorem repeated_uid_stands_for_two_nodes :
    let text : PortShape := ⟨.text, []⟩
    let say : NodeType := NodeType.withOutput { id := "say", title := "Say" } "said" "" text
    let tell : NodeType := NodeType.withInput { id := "tell", title := "Tell" } "text" "" text
    let l : Loader := { catalog := Catalog.ofNodup [say, tell] (by decide) }
    let origin : Position := ⟨.zero false, .zero false⟩
    let saved : Saved.Flow :=
      { nodes := [⟨"a", "say", origin, ∅⟩, ⟨"a", "say", origin, ∅⟩, ⟨"b", "tell", origin, ∅⟩]
        connections := [⟨text, ⟨some "a", some "said"⟩, ⟨some "b", some "text"⟩⟩] }
    let f := l.flow saved ∅
    f.connections = [.ofLink ⟨⟨⟨1⟩, "said"⟩, ⟨⟨2⟩, "text"⟩⟩ text] ∧
      (f.nodeByUid? "a").map (·.handle) = some ⟨0⟩ ∧
      ¬List.Forall₂ (fun c d =>
        f.StandsOnFirst c.source d.source ∧ f.StandsOnFirst c.target d.target)
          saved.connections f.connections := by
  intro text say tell l origin saved f
  have hconnections : f.connections = [.ofLink ⟨⟨⟨1⟩, "said"⟩, ⟨⟨2⟩, "text"⟩⟩ text] := by
    decide +kernel
  have hfirst : (f.nodeByUid? "a").map (·.handle) = some ⟨0⟩ := by decide +kernel
  refine ⟨hconnections, hfirst, fun hall => ?_⟩
  rw [hconnections] at hall
  obtain ⟨n, hn, hnode⟩ := (List.forall₂_cons.1 hall).1.1 "a" ⟨⟨1⟩, "said"⟩ rfl rfl
  have hhandle : n.handle = ⟨1⟩ := Flow.handle_of_node? hnode
  rw [hn, Option.map_some, hhandle] at hfirst
  exact absurd hfirst (by decide)

end Loader

end CommandFlow
