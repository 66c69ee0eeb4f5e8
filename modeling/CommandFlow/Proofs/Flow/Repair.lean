/-
Publishing a catalog repairs a flow, whatever state it is in.

A loaded flow may hold anything: connections that nothing would accept, that carry what their
source never declared, that lack an end, or that are there twice.  A new shared catalog has every
one of them checked again.  What is refused goes, what stays carries what its source declares now,
and of several that leave one flow output the newest stays.  Only inputs with several sources are
left as they are, since no connection is checked against another at its target.

The report is read off what stays.  `Reported` says where a fault comes from, and the induction
over the verdicts, from the oldest connection on, says that nothing goes without need.
-/
import CommandFlow.Proofs.Flow.Consistent

namespace CommandFlow

namespace Flow

/-! ### Where a reported fault comes from -/

/-- The connections and ports that a fault can be reported for. -/
inductive Reported (f : Flow) : Violation → Prop
  | invalid {c : Connection} {link : Link} {reason : Refusal} (index : Nat) (hc : c ∈ f.connections)
      (hlink : c.link? = some link) (hrefused : f.validate link = .error reason) :
      Reported f (.invalidConnection index reason)
  | shared {p : Endpoint} (hp : f.isShared p = true) :
      Reported f (.sharedInput (f.uidFor p) p.key)
  | fanOut {p : Endpoint} (hp : f.fansOut p = true) :
      Reported f (.flowFanOut (f.uidFor p) p.key)

theorem reported_of_mem_violations {f : Flow} {v : Violation} (h : v ∈ f.violations) :
    f.Reported v := by
  rw [violations_eq, invalidConnections_eq, List.mem_append, List.mem_map, List.mem_map] at h
  rcases h with ⟨⟨index, reason⟩, hmem, rfl⟩ | ⟨u, hu, rfl⟩
  · obtain ⟨c, link, hindex, hlink, hrefused⟩ := mem_refusals_iff.1 hmem
    exact .invalid index (List.mem_of_getElem? hindex) hlink hrefused
  · cases u with
    | input p => exact .shared (mem_faultyUses_iff.1 hu)
    | output p => exact .fanOut (mem_faultyUses_iff.1 hu)

/-! ### What stays -/

/-- Whether a connection is among those that stay, or leaves a flow output that one of them leaves
too. -/
def AccountedIn (stay : List Connection) (d : Connection) : Prop :=
  d ∈ stay ∨ ∃ p, d.source = some p ∧ d.shape.isFlow = true ∧ ∃ e ∈ stay, e.source = some p

theorem AccountedIn.mono {stay stay' : List Connection} {d : Connection} (hsub : stay ⊆ stay')
    (h : AccountedIn stay d) : AccountedIn stay' d := by
  rcases h with hd | ⟨p, hp, hflow, e, he, hep⟩
  · exact Or.inl (hsub hd)
  · exact Or.inr ⟨p, hp, hflow, e, hsub he, hep⟩

namespace Verdict

theorem flowSource?_eq_some_iff {v : Verdict} {p : Endpoint} : v.flowSource? = some p ↔
    ∃ c, v = .passed c ∧ c.shape.isFlow = true ∧ c.source = some p := by
  cases v with
  | unselected c => simp [flowSource?]
  | failed c reason => simp [flowSource?]
  | passed c => by_cases hflow : c.shape.isFlow = true <;> simp [flowSource?, hflow]

theorem isOutdated_iff {v : Verdict} {newer : List Verdict} : v.isOutdated newer = true ↔
    ∃ p, v.flowSource? = some p ∧ ∃ w ∈ newer, w.flowSource? = some p := by
  cases hv : v.flowSource? with
  | none => simp [isOutdated, hv]
  | some p => simp [isOutdated, hv]

theorem kept_subset_cons (v : Verdict) (newer : List Verdict) : kept newer ⊆ kept (v :: newer) := by
  intro d hd
  cases v with
  | unselected c => exact List.mem_cons_of_mem c hd
  | failed c reason => exact hd
  | passed c =>
      by_cases hout : (passed c).isOutdated newer = true
      · simp [kept, hout, hd]
      · simp [kept, hout, hd]

/-- What is not refused stays, or makes way for a newer one that stays. -/
theorem accountedIn_kept : ∀ {verdicts : List Verdict} {v : Verdict} {d : Connection},
    v ∈ verdicts → v.survivor? = some d → AccountedIn (kept verdicts) d := by
  intro verdicts
  induction verdicts with
  | nil => intro v d hv; exact absurd hv List.not_mem_nil
  | cons w newer ih =>
      intro v d hv hd
      rcases List.mem_cons.1 hv with rfl | hnewer
      · cases v with
        | failed c reason => simp [survivor?] at hd
        | unselected c =>
            obtain rfl : c = d := Option.some.inj hd
            exact Or.inl List.mem_cons_self
        | passed c =>
            obtain rfl : c = d := Option.some.inj hd
            by_cases hout : (passed c).isOutdated newer = true
            · -- Of the newer ones that leave the output, one stays.
              obtain ⟨p, hp, u, hu, hup⟩ := isOutdated_iff.1 hout
              obtain ⟨_, hc, hflow, hsource⟩ := flowSource?_eq_some_iff.1 hp
              obtain rfl := Verdict.passed.inj hc
              obtain ⟨e, rfl, -, he⟩ := flowSource?_eq_some_iff.1 hup
              refine AccountedIn.mono (kept_subset_cons _ newer) (Or.inr ⟨p, hsource, hflow, ?_⟩)
              rcases ih hu rfl with hkept | ⟨q, hq, -, e', hkept, he'⟩
              · exact ⟨e, hkept, he⟩
              · exact ⟨e', hkept, he'.trans (hq.symm.trans he)⟩
            · exact Or.inl (by simp [kept, hout])
      · exact (ih hnewer hd).mono (kept_subset_cons w newer)

end Verdict

/-- A connection is lost to its verdict exactly if it is checked and refused. -/
theorem survivor?_eq_none_iff {f : Flow} {selected : Connection → Bool} {c : Connection} :
    (f.verdict selected c).survivor? = none ↔
      selected c = true ∧ ∃ reason, f.recheck c = .error reason := by
  have hjudged := judged_verdict f selected c
  generalize f.verdict selected c = v at hjudged
  cases hjudged with
  | unselected hsel => simp [Verdict.survivor?, hsel]
  | passed hsel hpass =>
      obtain ⟨r, hr⟩ := passes_iff.1 hpass
      simp [Verdict.survivor?, hr]
  | failed hsel hfail => simp [Verdict.survivor?, hsel, hfail]

/-! ### After all connections were checked -/

section

variable {f : Flow} {selected : Connection → Bool}

/-- Checking again gives no connection other ends, so what the ends tell of it stays, in order. -/
theorem map_revalidate_sublist {β : Type} (view : Connection → β)
    (hview : ∀ c d : Connection, d.source = c.source → d.target = c.target → view d = view c)
    (f : Flow) (selected : Connection → Bool) :
    ((f.revalidate selected).2.connections.map view).Sublist (f.connections.map view) := by
  refine ((Verdict.kept_sublist (f.verdicts selected)).map _).trans ?_
  rw [verdicts]
  induction f.connections with
  | nil => exact List.Sublist.refl _
  | cons c rest ih =>
      rw [List.map_cons]
      cases hd : (f.verdict selected c).survivor? with
      | none =>
          rw [List.filterMap_cons_none hd]
          exact ih.cons _
      | some d =>
          obtain ⟨hsource, htarget⟩ := ends_of_verdict hd
          rw [List.filterMap_cons_some hd, List.map_cons, List.map_cons, hview c d hsource htarget]
          exact ih.cons_cons _

/-- An input that is shared afterwards was shared before. -/
theorem isShared_of_revalidate {p : Endpoint} (h : (f.revalidate selected).2.isShared p = true) :
    f.isShared p = true := by
  have hcount : ∀ connections : List Connection,
      connections.countP (·.target = some p) =
        (connections.map (·.target)).countP (· = some p) := by
    intro connections
    rw [List.countP_map]
    rfl
  have hle := (map_revalidate_sublist (·.target) (fun _ _ _ htarget => htarget) f
    selected).countP_le (p := (· = some p))
  simp only [isShared, hcount, decide_eq_true_eq] at h ⊢
  omega

theorem checked_of_mem_revalidate {d : Connection}
    (hd : d ∈ (f.revalidate fun _ => true).2.connections) :
    (∀ p, d.source = some p → f.offered? p = some d.shape) ∧
      ∀ link, d.link? = some link → f.validate link = .ok d.shape := by
  obtain ⟨v, hv, hvd⟩ := Verdict.exists_of_mem_kept hd
  obtain ⟨c, -, rfl⟩ := List.mem_map.1 hv
  exact checked_of_verdict rfl hvd

/-- Of the connections that stay, no two that carry control leave one port. -/
theorem pairwise_revalidate (f : Flow) : (f.revalidate fun _ => true).2.connections.Pairwise
    fun c d => c.shape.isFlow = true → d.shape.isFlow = true → c.source.isSome = true →
      c.source ≠ d.source := by
  refine Verdict.pairwise_kept ?_
  -- Every connection was checked, so no two need be told apart beforehand.
  rw [verdicts, List.pairwise_map]
  refine List.pairwise_of_forall ?_
  intro c d c' d' _ _ hun
  rcases hun with hun | hun
  · exact absurd (unselected_of_verdict hun) (by simp)
  · exact absurd (unselected_of_verdict hun) (by simp)

theorem fansOut_revalidate (f : Flow) (p : Endpoint) :
    (f.revalidate fun _ => true).2.fansOut p = false :=
  fansOut_eq_false_of_pairwise (pairwise_revalidate f) p

/-- A connection is refused, or stays with its ends, or makes way for a newer one. -/
theorem stays_or_of_mem {c : Connection} (hc : c ∈ f.connections) :
    let stay := (f.revalidate fun _ => true).2.connections
    (∃ reason, f.recheck c = .error reason) ∨
      (∃ d ∈ stay, d.source = c.source ∧ d.target = c.target) ∨
      ∃ p, c.source = some p ∧ f.isFlowOutput p = true ∧ ∃ d ∈ stay, d.source = some p := by
  intro stay
  cases hd : (f.verdict (fun _ => true) c).survivor? with
  | none => exact Or.inl (survivor?_eq_none_iff.1 hd).2
  | some d =>
      obtain ⟨hsource, htarget⟩ := ends_of_verdict hd
      have hmem : f.verdict (fun _ => true) c ∈ f.verdicts fun _ => true := List.mem_map_of_mem hc
      rcases Verdict.accountedIn_kept hmem hd with hstay | ⟨p, hp, hflow, e, he, hep⟩
      · exact Or.inr (Or.inl ⟨d, hstay, hsource, htarget⟩)
      · refine Or.inr (Or.inr ⟨p, hsource ▸ hp, ?_, e, he, hep⟩)
        rw [isFlowOutput, (checked_of_verdict rfl hd).1 p hp]
        exact hflow

end

/--
**A published catalog repairs every flow.**  Whatever nodes and connections a flow has, and whatever
the catalog lists: once the catalog is in place no connection with both ends would be refused and no
flow output drives two, every connection that has a source carries what that output declares, and an
input that is reported as shared was already shared before.  A connection is lost only if it is
refused now, or if one that leaves the same flow output stays.
-/
theorem publishing_repairs_any_flow (f : Flow) (catalog : Catalog) :
    let g := (f.rebind catalog).2
    (∀ index reason, .invalidConnection index reason ∉ g.violations) ∧
      (∀ uid key, .flowFanOut uid key ∉ g.violations) ∧
      (∀ c ∈ g.connections, ∀ p, c.source = some p → g.offered? p = some c.shape) ∧
      (∀ uid key, .sharedInput uid key ∈ g.violations → ∃ p : Endpoint, g.uidFor p = uid ∧
        p.key = key ∧ 2 ≤ g.connections.countP (·.target = some p) ∧
          2 ≤ f.connections.countP (·.target = some p)) ∧
      ∀ c ∈ f.connections, (∃ reason, g.recheck c = .error reason) ∨
        (∃ d ∈ g.connections, d.source = c.source ∧ d.target = c.target) ∨
        ∃ p, c.source = some p ∧ g.isFlowOutput p = true ∧
          ∃ d ∈ g.connections, d.source = some p := by
  intro g
  refine ⟨?_, ?_, ?_, ?_, ?_⟩
  · intro index reason h
    cases reported_of_mem_violations h with
    | invalid index hc hlink hrefused =>
        have hvalid : g.validate _ = .ok _ := (checked_of_mem_revalidate hc).2 _ hlink
        exact absurd (hrefused.symm.trans hvalid) (by simp)
  · intro uid key h
    cases reported_of_mem_violations h with
    | fanOut hp => exact absurd hp (by simp [g, rebind, fansOut_revalidate])
  · intro c hc
    exact (checked_of_mem_revalidate hc).1
  · intro uid key h
    cases reported_of_mem_violations h with
    | @shared p hp =>
        have hbefore : (f.rebindNodes catalog).isShared p = true := isShared_of_revalidate hp
        exact ⟨p, rfl, rfl, of_decide_eq_true hp, of_decide_eq_true hbefore⟩
  · intro c hc
    exact stays_or_of_mem (f := f.rebindNodes catalog) hc

end Flow

end CommandFlow
