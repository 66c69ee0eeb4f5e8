/-
Which connections stay when some are checked again, and which are dropped.

What a verdict says depends on three things only: whether the connection is selected, whether it
passes, and what its source declares now (`Judged`).  A connection that passes goes all the same if
it leaves a flow output and a newer one that was checked leaves it too.  It is enough to ask for a
newer one that passes: two connections that pass and have one source carry the same.

`Drops` says this of a connection and the ones behind it.  The verdicts are walked from the oldest
on, so that the ones behind are always at hand, and positions tell apart connections that are equal.
-/
import CommandFlow.Proofs.Flow.Repair

namespace CommandFlow

namespace Flow

/-- A connection after some were checked again: if it is selected and passes, it is refreshed. -/
def rechecked (f : Flow) (selected : Connection → Bool) (c : Connection) : Connection :=
  if selected c && f.passes c then f.refreshed c else c

/-! ### What is dropped -/

section

variable {f : Flow} {selected : Connection → Bool} {c : Connection}

/-- Whether a connection is dropped, given the newer ones: it is selected, and does not pass, or
leaves a flow output that a newer one leaves that is selected and passes. -/
def Drops (f : Flow) (selected : Connection → Bool) (c : Connection) (newer : List Connection) :
    Prop :=
  selected c = true ∧ (f.passes c = false ∨
    c.source.isSome = true ∧ (f.refreshed c).shape.isFlow = true ∧
      ∃ d ∈ newer, selected d = true ∧ d.source = c.source ∧ f.passes d = true)

instance Drops.decidable (newer : List Connection) : Decidable (f.Drops selected c newer) :=
  inferInstanceAs (Decidable (_ ∧ _))

theorem flowSource?_verdict_eq_some_iff {p : Endpoint} :
    (f.verdict selected c).flowSource? = some p ↔ selected c = true ∧ f.passes c = true ∧
      (f.refreshed c).shape.isFlow = true ∧ c.source = some p := by
  rw [Verdict.flowSource?_eq_some_iff]
  have hjudged := judged_verdict f selected c
  generalize f.verdict selected c = v at hjudged
  cases hjudged with
  | unselected hsel => simp [hsel]
  | failed hsel hfail => simp [passes_eq_false_iff.2 ⟨_, hfail⟩]
  | passed hsel hpass => simp [hsel, hpass, refreshed]

/-- A connection that passes is outdated exactly if it is dropped. -/
theorem isOutdated_verdict_iff {newer : List Connection} (hsel : selected c = true)
    (hpass : f.passes c = true) :
    (f.verdict selected c).isOutdated (newer.map (f.verdict selected)) = true ↔
      f.Drops selected c newer := by
  rw [Verdict.isOutdated_iff]
  simp only [flowSource?_verdict_eq_some_iff, List.mem_map, exists_exists_and_eq_and]
  constructor
  · rintro ⟨p, ⟨-, -, hflow, hp⟩, d, hd, hdsel, hdpass, -, hdp⟩
    exact ⟨hsel, Or.inr ⟨by simp [hp], hflow, d, hd, hdsel, hdp.trans hp.symm, hdpass⟩⟩
  · rintro ⟨-, hfail | ⟨hsome, hflow, d, hd, hdsel, hsource, hdpass⟩⟩
    · simp [hpass] at hfail
    · obtain ⟨p, hp⟩ := Option.isSome_iff_exists.1 hsome
      have hdp : d.source = some p := hsource.trans hp
      -- Both carry what the one source declares.
      have hshape : (f.refreshed d).shape = (f.refreshed c).shape :=
        Option.some.inj ((offered?_of_passes hdpass hdp).symm.trans (offered?_of_passes hpass hp))
      exact ⟨p, ⟨hsel, hpass, hflow, hp⟩, d, hd, hdsel, hdpass, hshape ▸ hflow, hdp⟩

/-- The connections that do not stay: those that failed, then those that are outdated. -/
def Verdict.dropped (verdicts : List Verdict) : List Connection :=
  (verdicts.filterMap failure?).map (·.1) ++ outdated verdicts

/-- A connection stays, in front of the newer ones that do, or is one more that is dropped. -/
theorem stays_or_drops (f : Flow) (selected : Connection → Bool) (c : Connection)
    (newer : List Connection) :
    let v := f.verdict selected c
    let verdicts := newer.map (f.verdict selected)
    ¬f.Drops selected c newer ∧
        Verdict.kept (v :: verdicts) = f.rechecked selected c :: Verdict.kept verdicts ∧
        Verdict.dropped (v :: verdicts) = Verdict.dropped verdicts ∨
      f.Drops selected c newer ∧ Verdict.kept (v :: verdicts) = Verdict.kept verdicts ∧
        (Verdict.dropped (v :: verdicts)).Perm
          (f.rechecked selected c :: Verdict.dropped verdicts) := by
  intro v verdicts
  have hout : selected c = true → f.passes c = true →
      (v.isOutdated verdicts = true ↔ f.Drops selected c newer) := isOutdated_verdict_iff
  have hjudged : f.Judged selected c v := judged_verdict f selected c
  clear_value v
  cases hjudged with
  | unselected hsel =>
      refine Or.inl ⟨by simp [Drops, hsel], ?_, rfl⟩
      rw [rechecked, if_neg (by simp [hsel])]
      rfl
  | failed hsel hrefused =>
      have hfail := passes_eq_false_iff.2 ⟨_, hrefused⟩
      refine Or.inr ⟨⟨hsel, Or.inl hfail⟩, rfl, ?_⟩
      rw [rechecked, if_neg (by simp [hfail])]
      exact .refl _
  | passed hsel hpass =>
      rw [rechecked, if_pos (by simp [hsel, hpass]), Verdict.kept, Verdict.dropped,
        Verdict.outdated]
      by_cases hdrop : f.Drops selected c newer
      · refine Or.inr ⟨hdrop, ?_⟩
        rw [if_pos ((hout hsel hpass).2 hdrop), if_pos ((hout hsel hpass).2 hdrop),
          ← List.append_assoc]
        exact ⟨rfl, List.perm_append_singleton _ _⟩
      · refine Or.inl ⟨hdrop, ?_⟩
        rw [if_neg (mt (hout hsel hpass).1 hdrop), if_neg (mt (hout hsel hpass).1 hdrop)]
        exact ⟨rfl, rfl⟩

end

/-! ### All connections -/

/-- The positions of a list at which a test holds of the element and the ones behind it. -/
def positionsWhere {α : Type} (test : α → List α → Bool) (l : List α) : List (Fin l.length) :=
  (List.finRange l.length).filter fun i => test l[i] (l.drop (i + 1))

theorem map_positionsWhere_cons {α β : Type} (test : α → List α → Bool) (view : α → β) (a : α)
    (rest : List α) :
    ((positionsWhere test (a :: rest)).map fun i => view (a :: rest)[i]) =
      (if test a rest then [view a] else []) ++
        (positionsWhere test rest).map fun i => view rest[i] := by
  have hpositions : positionsWhere test (a :: rest) =
      (if test a rest then [0] else []) ++ (positionsWhere test rest).map Fin.succ := by
    show (List.finRange (rest.length + 1)).filter _ = _
    rw [List.finRange_succ, List.filter_cons, List.filter_map]
    show (if test a rest then _ else _) = _
    split <;> rfl
  rw [hpositions, List.map_append, List.map_map]
  congr 1
  split <;> rfl

section

variable (f : Flow) (selected : Connection → Bool) (connections : List Connection)

theorem kept_map_verdict :
    Verdict.kept (connections.map (f.verdict selected)) =
      (positionsWhere (fun c newer => ¬f.Drops selected c newer) connections).map
        fun i => f.rechecked selected connections[i] := by
  induction connections with
  | nil => rfl
  | cons c rest ih =>
      rw [map_positionsWhere_cons, ← ih, List.map_cons]
      rcases stays_or_drops f selected c rest with ⟨hstays, hkept, -⟩ | ⟨hdrops, hkept, -⟩
      · rw [hkept, if_pos (by simpa using hstays)]
        rfl
      · rw [hkept, if_neg (by simpa using hdrops)]
        rfl

theorem dropped_map_verdict_perm :
    (Verdict.dropped (connections.map (f.verdict selected))).Perm
      ((positionsWhere (fun c newer => f.Drops selected c newer) connections).map
        fun i => f.rechecked selected connections[i]) := by
  induction connections with
  | nil => exact .nil
  | cons c rest ih =>
      rw [map_positionsWhere_cons, List.map_cons]
      rcases stays_or_drops f selected c rest with ⟨hstays, -, hdropped⟩ | ⟨hdrops, -, hdropped⟩
      · rw [hdropped, if_neg (by simpa using hstays)]
        exact ih
      · rw [if_pos (by simpa using hdrops)]
        exact hdropped.trans (ih.cons _)

/-- Nothing is lost and nothing comes twice. -/
theorem kept_append_dropped_perm :
    (Verdict.kept (connections.map (f.verdict selected)) ++
      Verdict.dropped (connections.map (f.verdict selected))).Perm
        (connections.map (f.rechecked selected)) := by
  induction connections with
  | nil => exact .nil
  | cons c rest ih =>
      rw [List.map_cons, List.map_cons]
      rcases stays_or_drops f selected c rest with ⟨-, hkept, hdropped⟩ | ⟨-, hkept, hdropped⟩
      · rw [hkept, hdropped]
        exact ih.cons _
      · rw [hkept]
        exact (hdropped.append_left _).trans (List.perm_middle.trans (ih.cons _))

theorem filter_unselected_sublist_kept :
    (connections.filter (!selected ·)).Sublist
      (Verdict.kept (connections.map (f.verdict selected))) := by
  induction connections with
  | nil => exact .slnil
  | cons c rest ih =>
      rw [List.map_cons]
      by_cases hsel : selected c = true
      · rw [List.filter_cons_of_neg (by simp [hsel])]
        rcases stays_or_drops f selected c rest with ⟨-, hkept, -⟩ | ⟨-, hkept, -⟩
        · rw [hkept]
          exact ih.cons _
        · rw [hkept]
          exact ih
      · rw [List.filter_cons_of_pos (by simpa using hsel)]
        rcases stays_or_drops f selected c rest with ⟨-, hkept, -⟩ | ⟨hdrops, -⟩
        · rw [hkept, rechecked, if_neg (by simp [hsel])]
          exact ih.cons_cons c
        · exact absurd hdrops.1 hsel

end

/-! ### Where nothing carries control -/

section

variable {f : Flow} {selected : Connection → Bool}

/-- A connection that passes and carries no control makes way for none. -/
theorem isOutdated_eq_false_of_not_flow {c : Connection} (h : c.shape.isFlow = false)
    (newer : List Verdict) : (Verdict.passed c).isOutdated newer = false := by
  simp [Verdict.isOutdated, Verdict.flowSource?, h]

/-- Where nothing that is checked carries control, exactly what is refused is dropped, in order. -/
theorem kept_and_dropped_of_not_flow {connections : List Connection}
    (h : ∀ c ∈ connections, selected c = true → (f.refreshed c).shape.isFlow = false) :
    Verdict.kept (connections.map (f.verdict selected)) =
        (connections.filter fun c => !selected c || f.passes c).map (f.rechecked selected) ∧
      Verdict.dropped (connections.map (f.verdict selected)) =
        connections.filter fun c => selected c && !f.passes c := by
  induction connections with
  | nil => exact ⟨rfl, rfl⟩
  | cons c rest ih =>
      obtain ⟨hkept, hdropped⟩ := ih fun d hd => h d (List.mem_cons_of_mem c hd)
      have hflow := h c List.mem_cons_self
      have hjudged := judged_verdict f selected c
      rw [List.map_cons]
      generalize f.verdict selected c = v at hjudged
      cases hjudged with
      | unselected hsel =>
          rw [List.filter_cons_of_pos (by simp [hsel]), List.filter_cons_of_neg (by simp [hsel]),
            List.map_cons, rechecked, if_neg (by simp [hsel]), Verdict.kept, hkept]
          exact ⟨rfl, hdropped⟩
      | failed hsel hrefused =>
          have hfail := passes_eq_false_iff.2 ⟨_, hrefused⟩
          rw [List.filter_cons_of_neg (by simp [hsel, hfail]),
            List.filter_cons_of_pos (by simp [hsel, hfail]), ← hdropped]
          exact ⟨hkept, rfl⟩
      | passed hsel hpass =>
          have hstays := isOutdated_eq_false_of_not_flow (hflow hsel)
            (rest.map (f.verdict selected))
          rw [List.filter_cons_of_pos (by simp [hpass]), List.filter_cons_of_neg (by simp [hpass]),
            List.map_cons, rechecked, if_pos (by simp [hsel, hpass]), Verdict.kept,
            Verdict.dropped, Verdict.outdated, if_neg (by simp [hstays]),
            if_neg (by simp [hstays]), hkept, ← hdropped]
          exact ⟨rfl, rfl⟩

theorem revalidate_of_not_flow
    (h : ∀ c ∈ f.connections, selected c = true → (f.refreshed c).shape.isFlow = false) :
    f.revalidate selected = (f.connections.filter fun c => selected c && !f.passes c,
      { f with connections :=
        (f.connections.filter fun c => !selected c || f.passes c).map (f.rechecked selected) }) := by
  obtain ⟨hkept, hdropped⟩ := kept_and_dropped_of_not_flow h
  exact Prod.ext hdropped (congrArg (fun connections => { f with connections }) hkept)

end

/-! ### Positions -/

/-- Whether the connection at a position is dropped when the selected ones are checked again. -/
def DroppedAt (f : Flow) (selected : Connection → Bool) (i : Fin f.connections.length) : Prop :=
  f.Drops selected f.connections[i] (f.connections.drop (i + 1))

instance DroppedAt.decidable {f : Flow} {selected : Connection → Bool}
    (i : Fin f.connections.length) : Decidable (f.DroppedAt selected i) :=
  Drops.decidable _

/--
**Checking again drops exactly what no longer has its place.**  For every flow and every selection:
what stays and what is dropped is together what was there, with what was selected and passes
refreshed; refreshing changes no end of a connection, and nothing at all where it was not selected.
What stays is what stands at the positions that are not dropped, in order, and what is dropped
stands at the others: a connection that is selected and is refused, or leaves a flow output that a
later one leaves that is selected and passes.  So what was not selected stays as it is.
-/
theorem checking_again_splits_connections (f : Flow) (selected : Connection → Bool) :
    let r := f.revalidate selected
    let positions := List.finRange f.connections.length
    let now (i : Fin f.connections.length) := f.rechecked selected f.connections[i]
    (r.2.connections ++ r.1).Perm (f.connections.map (f.rechecked selected)) ∧
      r.2 = { f with connections := (positions.filter fun i => ¬f.DroppedAt selected i).map now } ∧
      r.1.Perm ((positions.filter fun i => f.DroppedAt selected i).map now) ∧
      (f.connections.filter (!selected ·)).Sublist r.2.connections ∧
      ∀ c, (f.rechecked selected c).source = c.source ∧
        (f.rechecked selected c).target = c.target ∧
        (selected c = false → f.rechecked selected c = c) := by
  intro r positions now
  refine ⟨?_, ?_, ?_, ?_, ?_⟩
  · exact kept_append_dropped_perm f selected f.connections
  · exact congrArg (fun connections => { f with connections })
      (kept_map_verdict f selected f.connections)
  · exact dropped_map_verdict_perm f selected f.connections
  · exact filter_unselected_sublist_kept f selected f.connections
  · intro c
    unfold rechecked
    split
    case isTrue hpass =>
      have hsel : selected c = true := by simp_all
      exact ⟨rfl, rfl, fun hnot => absurd hsel (by simp [hnot])⟩
    case isFalse => exact ⟨rfl, rfl, fun _ => rfl⟩

end Flow

end CommandFlow
