/-
What making a connection does to the others, and how asking again undoes it.

A new connection takes the place of those that stand in its way: those into its target and, if its
source is a flow output, those out of its source.  This is so in every flow, also in a loaded one
where several share a port.  In an edited flow at most one connection is in the way at either port,
and nothing else is in the way of a connection that is there.  So what was taken away can be made
again, with nothing to make way for it.
-/
import CommandFlow.Proofs.Flow.Consistent
import CommandFlow.Proofs.UpdateFirst

namespace CommandFlow

namespace Flow

variable {f g : Flow} {link : Link} {c d : Connection} {shape : PortShape}
  {superseded : List Connection}

/-! ### What a request to connect can lead to -/

/-- Taking the first connection away that meets a test takes the one away that is found by it. -/
theorem eraseP_of_find? {test : Connection → Bool} {connections : List Connection}
    (h : connections.find? test = some c) : connections.eraseP test = connections.erase c := by
  have htest := List.find?_some h
  obtain ⟨before, after, hsplit, hbefore, herase⟩ := exists_eraseP_eq h
  have hmem : c ∉ before := by
    intro hmem
    rw [hbefore c hmem] at htest
    exact absurd htest (by simp)
  rw [herase, hsplit, List.erase_append_right _ hmem, List.erase_cons_head]

theorem connect_eq_removed_iff : f.connect link = .ok (.removed c, g) ↔
    f.connections.find? (·.joins link) = some c ∧
      g = { f with connections := f.connections.erase c } := by
  unfold connect
  cases hfind : f.connections.find? (·.joins link) with
  | some old =>
      simp only [Except.ok.injEq, Prod.mk.injEq, Outcome.removed.injEq, Option.some.injEq]
      refine and_congr_right ?_
      rintro rfl
      rw [eraseP_of_find? hfind]
      exact eq_comm
  | none =>
      cases hvalid : f.validate link with
      | error reason => simp
      | ok shape => simp

theorem connect_eq_created_iff : f.connect link = .ok (.created c superseded, g) ↔
    f.connections.find? (·.joins link) = none ∧ ∃ shape, f.validate link = .ok shape ∧
      c = .ofLink link shape ∧ superseded = f.connections.filter (standsInWay link shape) ∧
      g = { f with connections := f.connections.filter (!standsInWay link shape ·) ++ [c] } := by
  unfold connect
  cases hfind : f.connections.find? (·.joins link) with
  | some old => simp
  | none =>
      cases hvalid : f.validate link with
      | error reason => simp
      | ok shape =>
          constructor
          · intro h
            obtain ⟨houtcome, hg⟩ := Prod.mk.inj (Except.ok.inj h)
            obtain ⟨rfl, rfl⟩ := Outcome.created.inj houtcome
            exact ⟨rfl, shape, rfl, rfl, rfl, hg.symm⟩
          · rintro ⟨-, shape', hshape, rfl, rfl, rfl⟩
            obtain rfl := Except.ok.inj hshape
            rfl

/-! ### What stands in the way -/

theorem standsInWay_iff : standsInWay link shape d = true ↔
    d.target = some link.target ∨ shape.isFlow = true ∧ d.source = some link.source := by
  simp [standsInWay]

theorem standsInWay_of_joins (h : d.joins link = true) : standsInWay link shape d = true :=
  standsInWay_iff.2 (Or.inl (congrArg Connection.target (Connection.joins_iff.1 h)))

/-- A new connection is the only one that meets a test which nothing meets that stays. -/
theorem filter_connected {test : Connection → Bool} (connections : List Connection)
    (hway : ∀ d, test d = true → standsInWay link shape d = true)
    (hnew : test (.ofLink link shape) = true) :
    (connections.filter (!standsInWay link shape ·) ++ [Connection.ofLink link shape]).filter test =
      [.ofLink link shape] := by
  have hnone : (connections.filter (!standsInWay link shape ·)).filter test = [] := by
    rw [List.filter_eq_nil_iff]
    intro d hd htest
    simpa [hway d htest] using (List.mem_filter.1 hd).2
  rw [List.filter_append, hnone, List.nil_append, List.filter_cons_of_pos hnew, List.filter_nil]

theorem countP_or_le {α : Type} (p q : α → Bool) (l : List α) :
    l.countP (fun a => p a || q a) ≤ l.countP p + l.countP q := by
  induction l with
  | nil => exact Nat.zero_le _
  | cons a rest ih =>
      rw [List.countP_cons, List.countP_cons, List.countP_cons]
      cases p a <;> cases q a <;> simp <;> omega

theorem Wired.countP_target_le (h : f.Wired) (p : Endpoint) :
    f.connections.countP (·.target = some p) ≤ 1 :=
  Nat.not_lt.1 (of_decide_eq_false (h.isShared p))

theorem Wired.countP_source_le (h : f.Wired) {p : Endpoint} (hp : f.isFlowOutput p = true) :
    f.connections.countP (·.source = some p) ≤ 1 := by
  refine countP_le_one_of_pairwise (h.flowOutputs.imp ?_)
  intro c d hne hc
  have hc : c.source = some p := by simpa using hc
  rw [hc, Option.any_some] at hne
  simpa using (hne hp).symm

/-- At most one connection stands in the way at the target and, for a flow output, one at the
source. -/
theorem Wired.length_standsInWay_le (h : f.Wired) (hvalid : f.validate link = .ok shape) :
    (f.connections.filter (standsInWay link shape)).length ≤ if shape.isFlow then 2 else 1 := by
  have hflow := isFlowOutput_of_offered? (validate_eq_ok_iff.1 hvalid).2.1
  have htarget := h.countP_target_le link.target
  rw [← List.countP_eq_length_filter]
  refine Nat.le_trans (countP_or_le _ _ _) ?_
  by_cases hshape : shape.isFlow = true
  · have hsource := h.countP_source_le (hflow.trans hshape)
    simp only [hshape, Bool.true_and, if_true]
    omega
  · simp only [hshape, Bool.false_and, List.countP_false, Function.const_apply]
    exact htarget

theorem eq_of_countP_le_one {test : Connection → Bool} {connections : List Connection}
    (h : connections.countP test ≤ 1) (hc : c ∈ connections) (hctest : test c = true)
    (hd : d ∈ connections) (hdtest : test d = true) : d = c := by
  have hc' : c ∈ connections.filter test := List.mem_filter.2 ⟨hc, hctest⟩
  have hd' : d ∈ connections.filter test := List.mem_filter.2 ⟨hd, hdtest⟩
  rw [List.countP_eq_length_filter] at h
  obtain ⟨e, he⟩ := List.length_eq_one_iff.1 (Nat.le_antisymm h (List.length_pos_of_mem hc'))
  rw [he, List.mem_singleton] at hc' hd'
  rw [hc', hd']

/-- Nothing but the connection itself stands in the way of one that is there. -/
theorem Wired.eq_of_standsInWay (h : f.Wired) (hc : c ∈ f.connections)
    (hlink : c = .ofLink link c.shape) (hd : d ∈ f.connections)
    (hway : standsInWay link c.shape d = true) : d = c := by
  have hsource : c.source = some link.source := congrArg Connection.source hlink
  have htarget : c.target = some link.target := congrArg Connection.target hlink
  rcases standsInWay_iff.1 hway with hsame | ⟨hflow, hsame⟩
  · exact eq_of_countP_le_one (h.countP_target_le link.target) hc (by simp [htarget]) hd
      (by simp [hsame])
  · have hflowOutput := isFlowOutput_of_offered? ((h.fits c hc).offered? hsource)
    exact eq_of_countP_le_one (h.countP_source_le (hflowOutput.trans hflow)) hc (by simp [hsource])
      hd (by simp [hsame])

theorem Wired.nodup (h : f.Wired) : f.connections.Nodup :=
  h.targets.imp fun hne heq => hne (congrArg Connection.target heq)

/--
**A new connection takes the place of those in its way.**  In every flow, whatever state it is in,
a connection that was made is of the two ports and carries what the source declares.  It is the only
one into its target and, if its source is a flow output, the only one out of its source.  Before it
stand, in order, the connections that share neither of these ports, and nothing else of the flow has
changed.  With those that made way the connections are the ones before and the new one.  In a flow
that was made by edits alone at most two make way, and at most one unless the source is a flow
output.
-/
theorem new_connection_takes_place (h : f.connect link = .ok (.created c superseded, g)) :
    (∃ shape, f.offered? link.source = some shape ∧ c = .ofLink link shape) ∧
      g.connections.filter (·.target = some link.target) = [c] ∧
      (f.isFlowOutput link.source = true →
        g.connections.filter (·.source = some link.source) = [c]) ∧
      g = { f with connections := (f.connections.filter fun d => d.target ≠ some link.target ∧
        (f.isFlowOutput link.source = true → d.source ≠ some link.source)) ++ [c] } ∧
      (f.connections ++ [c]).Perm (g.connections ++ superseded) ∧
      ∀ (catalog : Catalog) (edits : List Edit), f = edits.foldl apply (new catalog) →
        superseded.length ≤ 2 ∧ (f.isFlowOutput link.source = false → superseded.length ≤ 1) := by
  obtain ⟨-, shape, hvalid, rfl, rfl, rfl⟩ := connect_eq_created_iff.1 h
  have hoffered := (validate_eq_ok_iff.1 hvalid).2.1
  rw [isFlowOutput_of_offered? hoffered]
  refine ⟨⟨shape, hoffered, rfl⟩, ?_, ?_, ?_, ?_, ?_⟩
  · refine filter_connected f.connections ?_ (by simp [Connection.ofLink])
    intro d hd
    exact standsInWay_iff.2 (Or.inl (by simpa using hd))
  · intro hflow
    refine filter_connected f.connections ?_ (by simp [Connection.ofLink])
    intro d hd
    exact standsInWay_iff.2 (Or.inr ⟨hflow, by simpa using hd⟩)
  · have hkept : ∀ d ∈ f.connections, (!standsInWay link shape d) =
        decide (d.target ≠ some link.target ∧
          (shape.isFlow = true → d.source ≠ some link.source)) := by
      intro d _
      rw [Bool.eq_iff_iff]
      simp [standsInWay]
    rw [List.filter_congr hkept]
  · have hsplit := List.filter_append_perm (standsInWay link shape) f.connections
    refine (hsplit.symm.append_right _).trans ?_
    rw [List.append_assoc]
    exact List.perm_append_comm
  · intro catalog edits hedits
    have hwired : f.Wired := hedits ▸ wired_of_edits catalog edits
    have hle := hwired.length_standsInWay_le hvalid
    by_cases hflow : shape.isFlow = true
    · rw [if_pos hflow] at hle
      exact ⟨hle, fun hnot => absurd hflow (by simp [hnot])⟩
    · rw [if_neg hflow] at hle
      exact ⟨Nat.le_succ_of_le hle, fun _ => hle⟩

/-- Three steps in a row, and control led from the first to the last: both connections make way. -/
theorem new_connection_takes_two_places :
    let step : NodeType :=
      NodeType.withFlowOut (NodeType.withFlowIn { id := "step", title := "Step" })
    let origin : Position := ⟨.zero false, .zero false⟩
    let link (m n : Nat) : Link := ⟨⟨⟨m⟩, flowOutKey⟩, ⟨⟨n⟩, flowInKey⟩⟩
    let made (m n : Nat) : Connection := .ofLink (link m n) ⟨.flow, []⟩
    let edits : List Edit := [.addNode step origin "a", .addNode step origin "b",
      .addNode step origin "c", .connect (link 0 1), .connect (link 1 2)]
    let f := edits.foldl apply (new ∅)
    let g := { f with connections := [made 0 2] }
    f.connect (link 0 2) = .ok (.created (made 0 2) [made 0 1, made 1 2], g) ∧
      g.connections.filter (·.source = some (link 0 2).source) = [made 0 2] ∧
      [made 0 1, made 1 2].length ≤ 2 := by
  intro step origin link made edits f g
  have hconnect : f.connect (link 0 2) = .ok (.created (made 0 2) [made 0 1, made 1 2], g) := by
    rfl
  obtain ⟨-, -, hsource, -, -, hedited⟩ := new_connection_takes_place hconnect
  exact ⟨hconnect, hsource (by decide), (hedited ∅ edits rfl).1⟩

/-! ### Asking twice -/

theorem connect_of_created (h : f.connect link = .ok (.created c [], g)) :
    g.connect link = .ok (.removed c, f) := by
  obtain ⟨hfind, shape, -, rfl, hnone, rfl⟩ := connect_eq_created_iff.1 h
  have hjoins : (Connection.ofLink link shape).joins link = true := Connection.joins_iff.2 rfl
  have hnew : Connection.ofLink link shape ∉ f.connections := fun hmem =>
    List.find?_eq_none.1 hfind _ hmem hjoins
  have hstay : f.connections.filter (!standsInWay link shape ·) = f.connections := by
    rw [List.filter_eq_self]
    intro d hd
    simpa using List.filter_eq_nil_iff.1 hnone.symm d hd
  rw [hstay]
  refine connect_eq_removed_iff.2 ⟨?_, ?_⟩
  · rw [List.find?_append, hfind, Option.none_or, List.find?_singleton, if_pos hjoins]
  · rw [List.erase_append_right _ hnew, List.erase_cons_head, List.append_nil]

/-- What was taken away from a wired flow can be made again, and nothing is in its way. -/
theorem Wired.connect_of_removed (h : f.Wired) (hremoved : f.connect link = .ok (.removed c, g)) :
    g.connect link =
      .ok (.created c [], { f with connections := f.connections.erase c ++ [c] }) := by
  obtain ⟨hfind, rfl⟩ := connect_eq_removed_iff.1 hremoved
  have hc : c ∈ f.connections := List.mem_of_find?_eq_some hfind
  have hlink : c = .ofLink link c.shape :=
    Connection.joins_iff.1 (by simpa using List.find?_some hfind)
  have hfree : ∀ d ∈ f.connections.erase c, ¬standsInWay link c.shape d = true := by
    intro d hd hway
    obtain ⟨hne, hd⟩ := h.nodup.mem_erase_iff.1 hd
    exact hne (h.eq_of_standsInWay hc hlink hd hway)
  refine connect_eq_created_iff.2
    ⟨?_, c.shape, (h.fits c hc).validate hlink, hlink, ?_, ?_⟩
  · rw [List.find?_eq_none]
    intro d hd hd'
    exact hfree d hd (standsInWay_of_joins hd')
  · exact (List.filter_eq_nil_iff.2 hfree).symm
  · rw [List.filter_eq_self.2 fun d hd => by simpa using hfree d hd]

/--
**Asking twice undoes a connection, or its removal.**  In a flow that was made by edits alone,
whatever they were: if a connection is made and none makes way for it, asking for it again takes it
away and gives the flow back as it was.  If a connection is taken away, asking again makes the same
one, none makes way for it, and the flow is as it was but for the connection, which now is the
newest.
-/
theorem asking_twice_undoes (catalog : Catalog) (edits : List Edit) (link : Link) :
    let f := edits.foldl apply (new catalog)
    (∀ c g, f.connect link = .ok (.created c [], g) → g.connect link = .ok (.removed c, f)) ∧
      ∀ c g, f.connect link = .ok (.removed c, g) → g.connect link =
        .ok (.created c [], { f with connections := f.connections.erase c ++ [c] }) := by
  intro f
  have hwired : f.Wired := wired_of_edits catalog edits
  exact ⟨fun _ _ => connect_of_created, fun _ _ => hwired.connect_of_removed⟩

/-- One output drives two nodes.  Its older connection is taken away and made again, and now is the
newer one; a connection back to the first node comes and goes. -/
theorem asking_twice_moves_to_end :
    let text : PortShape := ⟨.text, []⟩
    let relay : NodeType :=
      NodeType.withOutput (NodeType.withInput { id := "relay", title := "Relay" }
        "heard" "heard" text) "said" "said" text
    let origin : Position := ⟨.zero false, .zero false⟩
    let link (m n : Nat) : Link := ⟨⟨⟨m⟩, "said"⟩, ⟨⟨n⟩, "heard"⟩⟩
    let made (m n : Nat) : Connection := .ofLink (link m n) text
    let edits : List Edit := [.addNode relay origin "a", .addNode relay origin "b",
      .addNode relay origin "c", .connect (link 0 1), .connect (link 0 2)]
    let f := edits.foldl apply (new ∅)
    let fewer := { f with connections := [made 0 2] }
    let more := { f with connections := [made 0 1, made 0 2, made 1 0] }
    let again := { f with connections := f.connections.erase (made 0 1) ++ [made 0 1] }
    f.connect (link 0 1) = .ok (.removed (made 0 1), fewer) ∧
      fewer.connect (link 0 1) = .ok (.created (made 0 1) [], again) ∧
      again.connections = [made 0 2, made 0 1] ∧
      f.connect (link 1 0) = .ok (.created (made 1 0) [], more) ∧
      more.connect (link 1 0) = .ok (.removed (made 1 0), f) := by
  intro text relay origin link made edits f fewer more again
  have hremoved : f.connect (link 0 1) = .ok (.removed (made 0 1), fewer) := by rfl
  have hcreated : f.connect (link 1 0) = .ok (.created (made 1 0) [], more) := by rfl
  refine ⟨hremoved, ?_, by decide +kernel, hcreated, ?_⟩
  · exact (asking_twice_undoes ∅ edits (link 0 1)).2 (made 0 1) fewer hremoved
  · exact (asking_twice_undoes ∅ edits (link 1 0)).1 (made 1 0) more hcreated

end Flow

end CommandFlow
