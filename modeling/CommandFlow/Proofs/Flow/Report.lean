/-
What the report of a flow lists, and in which order.

The report has two parts.  The first goes through the connections and names those that would be
refused.  The second goes through them again and names ports: a port has a role at a connection, as
the input where it ends or as the output where it starts, and a port that is at fault in a role is
named at the first connection that has it in that role.

`faultyUses` says this at once, without a list of what was met before.  Which ports it holds and how
they are ordered is read off it; the walk that the report makes is opened in `portFaultsFrom_eq`
only.
-/
import CommandFlow.Flow.Violation
import CommandFlow.Proofs.Edit
import Mathlib.Data.List.Basic

namespace CommandFlow

/-! ### Ports in their roles -/

/-- A port in the role in which connections have it. -/
inductive PortUse where
  /-- Connections end at it. -/
  | input (p : Endpoint)
  /-- Connections start at it. -/
  | output (p : Endpoint)
deriving DecidableEq

/-- Whether a connection has the port in the role. -/
def PortUse.isOf : PortUse → Connection → Bool
  | .input p, c => c.target = some p
  | .output p, c => c.source = some p

/-- The ports of a connection in their roles, its target first. -/
def Connection.uses (c : Connection) : List PortUse :=
  (c.target.map PortUse.input).toList ++ (c.source.map PortUse.output).toList

theorem Connection.mem_uses_iff {c : Connection} {u : PortUse} :
    u ∈ c.uses ↔ u.isOf c = true := by
  cases u with
  | input p => simp [uses, PortUse.isOf]
  | output p => simp [uses, PortUse.isOf]

/-- Of the ports of one connection the input comes before the output. -/
theorem Connection.pairwise_uses (c : Connection) :
    c.uses.Pairwise fun u v => ∃ p q, u = .input p ∧ v = .output q := by
  obtain ⟨shape, source, target⟩ := c
  cases source with
  | none => cases target <;> simp [uses]
  | some q => cases target <;> simp [uses]

namespace Flow

variable {f : Flow}

/-- Whether a port is at fault in a role: several connections end at it, or several that carry
control start at it. -/
def isAtFault (f : Flow) : PortUse → Bool
  | .input p => f.isShared p
  | .output p => f.fansOut p

/-- The fault of a port in a role. -/
def fault (f : Flow) : PortUse → Violation
  | .input p => .sharedInput (f.uidFor p) p.key
  | .output p => .flowFanOut (f.uidFor p) p.key

/-- The position of the first connection that has a port in a role. -/
def firstUse (f : Flow) (u : PortUse) : Nat :=
  f.connections.findIdx u.isOf

/-- Whether the report comes to one port before another. -/
def MetBefore (f : Flow) (u v : PortUse) : Prop :=
  f.firstUse u < f.firstUse v ∨
    f.firstUse u = f.firstUse v ∧ ∃ p q, u = .input p ∧ v = .output q

/-! ### Refused connections -/

/-- Why a connection would be refused, if it has both ends and would be. -/
def refusal? (f : Flow) (c : Connection) : Option Refusal :=
  (c.link?.map f.validate).bind errorOf?

theorem refusal?_eq_some_iff {c : Connection} {reason : Refusal} : f.refusal? c = some reason ↔
    ∃ link, c.link? = some link ∧ f.validate link = .error reason := by
  simp [refusal?, Option.bind_eq_some_iff, errorOf?_eq_some_iff]

/-- The connections that would be refused, by their positions, and the reasons. -/
def refusals (f : Flow) : List (Nat × Refusal) :=
  f.connections.zipIdx.filterMap fun x => (f.refusal? x.1).map (x.2, ·)

theorem invalidConnections_eq (f : Flow) :
    f.invalidConnections = f.refusals.map fun x => .invalidConnection x.1 x.2 := by
  unfold invalidConnections refusals
  rw [List.map_filterMap]
  refine List.filterMap_congr ?_
  rintro ⟨c, index⟩ -
  cases hlink : c.link? with
  | none => simp [refusal?, hlink]
  | some link => cases hvalid : f.validate link <;> simp [refusal?, hlink, hvalid, errorOf?]

theorem mem_refusals_iff {index : Nat} {reason : Refusal} : (index, reason) ∈ f.refusals ↔
    ∃ c link, f.connections[index]? = some c ∧ c.link? = some link ∧
      f.validate link = .error reason := by
  simp only [refusals, List.mem_filterMap, Option.map_eq_some_iff, refusal?_eq_some_iff,
    Prod.mk.injEq]
  constructor
  · rintro ⟨⟨c, i⟩, hc, reason', ⟨link, hlink, hvalid⟩, rfl, rfl⟩
    exact ⟨c, link, List.mk_mem_zipIdx_iff_getElem?.1 hc, hlink, hvalid⟩
  · rintro ⟨c, link, hc, hlink, hvalid⟩
    refine ⟨(c, index), List.mk_mem_zipIdx_iff_getElem?.2 hc, reason, ?_, rfl, rfl⟩
    exact ⟨link, hlink, hvalid⟩

/-- Positions ascend. -/
theorem pairwise_zipIdx {α : Type} (l : List α) : l.zipIdx.Pairwise fun x y => x.2 < y.2 := by
  refine List.pairwise_map.1 ?_
  rw [List.zipIdx_map_snd]
  exact List.pairwise_lt_range'

theorem pairwise_refusals (f : Flow) : f.refusals.Pairwise fun x y => x.1 < y.1 := by
  refine List.pairwise_filterMap.2 ((pairwise_zipIdx f.connections).imp ?_)
  intro x y hlt a ha b hb
  obtain ⟨reason, -, rfl⟩ := Option.map_eq_some_iff.1 ha
  obtain ⟨reason', -, rfl⟩ := Option.map_eq_some_iff.1 hb
  exact hlt

/-! ### Ports at fault -/

/-- The ports at fault, each in the place of the first connection that has it in its role. -/
def faultyUses (f : Flow) : List PortUse :=
  f.connections.zipIdx.flatMap fun x =>
    x.1.uses.filter fun u => f.isAtFault u && f.firstUse u = x.2

theorem portFaults_eq (f : Flow) (before : List Connection) (c : Connection) :
    f.portFaults before c =
      (c.uses.filter fun u => f.isAtFault u && before.all (!u.isOf ·)).map f.fault := by
  have hinput : ∀ p, (f.isShared p && before.all (·.target ≠ some p)) =
      (f.isAtFault (.input p) && before.all (!(PortUse.input p).isOf ·)) := by
    simp [isAtFault, PortUse.isOf]
  have houtput : ∀ p, (f.fansOut p && before.all (·.source ≠ some p)) =
      (f.isAtFault (.output p) && before.all (!(PortUse.output p).isOf ·)) := by
    simp [isAtFault, PortUse.isOf]
  simp only [portFaults, Connection.uses, hinput, houtput, Option.toList_map, Option.toList_filter,
    List.filter_append, List.map_append, List.filter_map, List.map_map]
  rfl

theorem firstUse_eq_length_iff {before rest : List Connection} {c : Connection} {u : PortUse}
    (hsplit : f.connections = before ++ c :: rest) (hu : u.isOf c = true) :
    f.firstUse u = before.length ↔ before.all (!u.isOf ·) = true := by
  rw [firstUse, hsplit, List.findIdx_append, List.findIdx_cons, hu]
  by_cases hbefore : before.findIdx u.isOf < before.length
  · rw [if_pos hbefore]
    refine iff_of_false (Nat.ne_of_lt hbefore) fun hnone => ?_
    obtain ⟨d, hd, hold⟩ := List.findIdx_lt_length.1 hbefore
    simpa [hold] using List.all_eq_true.1 hnone d hd
  · rw [if_neg hbefore]
    refine iff_of_true (Nat.zero_add _) ?_
    rw [List.findIdx_lt_length] at hbefore
    simpa using hbefore

theorem portFaultsFrom_eq {rest before : List Connection}
    (hsplit : f.connections = before ++ rest) : f.portFaultsFrom before rest =
      ((rest.zipIdx before.length).flatMap fun x =>
        x.1.uses.filter fun u => f.isAtFault u && f.firstUse u = x.2).map f.fault := by
  induction rest generalizing before with
  | nil => rfl
  | cons c rest ih =>
      have hrest : f.connections = (before ++ [c]) ++ rest := by rw [hsplit, List.append_assoc]; rfl
      rw [portFaultsFrom, portFaults_eq, ih hrest, List.length_append, List.length_singleton,
        List.zipIdx_cons, List.flatMap_cons, List.map_append]
      congr 2
      refine List.filter_congr fun u hu => ?_
      have hfirst := firstUse_eq_length_iff hsplit (Connection.mem_uses_iff.1 hu)
      rw [Bool.eq_iff_iff, Bool.and_eq_true, Bool.and_eq_true, decide_eq_true_iff, hfirst]

theorem violations_eq (f : Flow) :
    f.violations = f.invalidConnections ++ f.faultyUses.map f.fault := by
  rw [violations, portFaultsFrom_eq (List.nil_append _).symm]
  rfl

/-- A port at fault is a port of some connection. -/
theorem exists_isOf_of_isAtFault {u : PortUse} (h : f.isAtFault u = true) :
    ∃ c ∈ f.connections, u.isOf c = true := by
  cases u with
  | input p =>
      have hcount : 1 < f.connections.countP (·.target = some p) := by
        simpa [isAtFault, isShared] using h
      exact List.countP_pos_iff.1 (Nat.zero_lt_of_lt hcount)
  | output p =>
      have hcount : 1 < f.connections.countP fun c => c.shape.isFlow && c.source = some p := by
        simpa [isAtFault, fansOut] using h
      obtain ⟨c, hc, hp⟩ := List.countP_pos_iff.1 (Nat.zero_lt_of_lt hcount)
      exact ⟨c, hc, (Bool.and_eq_true_iff.1 hp).2⟩

theorem mem_faultyUses_iff {u : PortUse} : u ∈ f.faultyUses ↔ f.isAtFault u = true := by
  simp only [faultyUses, List.mem_flatMap, List.mem_filter, Bool.and_eq_true, decide_eq_true_eq,
    Connection.mem_uses_iff]
  constructor
  · rintro ⟨-, -, -, hfault, -⟩
    exact hfault
  · intro hfault
    have hlt : f.firstUse u < f.connections.length :=
      List.findIdx_lt_length.2 (exists_isOf_of_isAtFault hfault)
    refine ⟨(f.connections[f.firstUse u], f.firstUse u), ?_, List.findIdx_getElem, hfault, rfl⟩
    exact List.mk_mem_zipIdx_iff_getElem?.2 (List.getElem?_eq_getElem hlt)

theorem firstUse_of_mem {index : Nat} {uses : List PortUse} {u : PortUse}
    (h : u ∈ uses.filter fun u => f.isAtFault u && f.firstUse u = index) :
    f.firstUse u = index := by
  simpa using (Bool.and_eq_true_iff.1 (List.mem_filter.1 h).2).2

theorem pairwise_faultyUses (f : Flow) : f.faultyUses.Pairwise f.MetBefore := by
  refine List.pairwise_flatMap.2 ⟨fun x _ => ?_, (pairwise_zipIdx f.connections).imp ?_⟩
  · refine (x.1.pairwise_uses.sublist List.filter_sublist).imp_of_mem ?_
    intro u v hu hv hroles
    exact Or.inr ⟨(firstUse_of_mem hu).trans (firstUse_of_mem hv).symm, hroles⟩
  · intro x y hlt u hu v hv
    rw [MetBefore, firstUse_of_mem hu, firstUse_of_mem hv]
    exact Or.inl hlt

theorem MetBefore.asymm {u v : PortUse} (h : f.MetBefore u v) : ¬f.MetBefore v u := by
  rintro (hlt | ⟨heq, p, q, rfl, rfl⟩)
  · rcases h with hlt' | ⟨heq, -⟩
    · exact Nat.lt_asymm hlt hlt'
    · exact Nat.ne_of_lt hlt heq.symm
  · rcases h with hlt | ⟨-, p', q', hu, -⟩
    · exact Nat.ne_of_lt hlt heq.symm
    · cases hu

theorem nodup_faultyUses (f : Flow) : f.faultyUses.Nodup := by
  refine f.pairwise_faultyUses.imp ?_
  rintro u v h rfl
  exact h.asymm h

/-- Two flows have the same ports at fault, in the same order, exactly if each port is at fault in
both or in neither and those that are at fault are met in the same order. -/
theorem faultyUses_eq_iff {g : Flow} : f.faultyUses = g.faultyUses ↔
    (∀ u, f.isAtFault u = true ↔ g.isAtFault u = true) ∧
      ∀ u v, f.isAtFault u = true → f.isAtFault v = true → f.MetBefore u v → g.MetBefore u v := by
  constructor
  · intro heq
    refine ⟨fun u => by rw [← mem_faultyUses_iff, heq, mem_faultyUses_iff], ?_⟩
    intro u v hu hv hmet
    -- The list is in the order of both flows, so it cannot hold the two the other way round.
    have hboth : f.faultyUses.Pairwise fun u v => f.MetBefore u v ∧ g.MetBefore u v :=
      f.pairwise_faultyUses.and (heq ▸ g.pairwise_faultyUses)
    obtain ⟨before, after, hsplit⟩ := List.append_of_mem (mem_faultyUses_iff.2 hu)
    have hv : v ∈ f.faultyUses := mem_faultyUses_iff.2 hv
    rw [hsplit] at hboth hv
    obtain ⟨-, hbehind, hbetween⟩ := List.pairwise_append.1 hboth
    rcases List.mem_append.1 hv with hv | hv
    · exact absurd hmet (hbetween v hv u List.mem_cons_self).1.asymm
    · rcases List.mem_cons.1 hv with rfl | hv
      · exact absurd hmet hmet.asymm
      · exact (List.rel_of_pairwise_cons hbehind hv).2
  · rintro ⟨hfault, hmet⟩
    have hmem : ∀ u, u ∈ f.faultyUses ↔ u ∈ g.faultyUses := fun u => by
      rw [mem_faultyUses_iff, mem_faultyUses_iff, hfault u]
    have hordered : f.faultyUses.Pairwise g.MetBefore :=
      f.pairwise_faultyUses.imp_of_mem fun hu hv =>
        hmet _ _ (mem_faultyUses_iff.1 hu) (mem_faultyUses_iff.1 hv)
    refine List.Perm.eq_of_pairwise (fun u v _ _ huv hvu => absurd hvu huv.asymm) hordered
      g.pairwise_faultyUses ?_
    exact (List.perm_ext_iff_of_nodup f.nodup_faultyUses g.nodup_faultyUses).2 hmem

/-! ### An empty report -/

/-- What holds of all ports at fault holds of the inputs and of the outputs among them. -/
theorem forall_isAtFault_iff {P : PortUse → Prop} : (∀ u, f.isAtFault u = true → P u) ↔
    (∀ p, f.isShared p = true → P (.input p)) ∧ ∀ p, f.fansOut p = true → P (.output p) := by
  constructor
  · intro h
    exact ⟨fun p => h (.input p), fun p => h (.output p)⟩
  · rintro ⟨hinput, houtput⟩ u hu
    cases u with
    | input p => exact hinput p hu
    | output p => exact houtput p hu

/-- No connection is reported as invalid exactly if all that have both ends would be accepted. -/
theorem invalidConnections_eq_nil_iff : f.invalidConnections = [] ↔
    ∀ c ∈ f.connections, ∀ link, c.link? = some link → ∃ shape, f.validate link = .ok shape := by
  rw [invalidConnections_eq, List.map_eq_nil_iff, List.eq_nil_iff_forall_not_mem]
  constructor
  · intro hnone c hc link hlink
    obtain ⟨index, hindex⟩ := List.mem_iff_getElem?.1 hc
    cases hvalid : f.validate link with
    | error reason =>
        exact absurd (mem_refusals_iff.2 ⟨c, link, hindex, hlink, hvalid⟩) (hnone (index, reason))
    | ok shape => exact ⟨shape, rfl⟩
  · rintro haccepted ⟨index, reason⟩ hmem
    obtain ⟨c, link, hindex, hlink, hrefused⟩ := mem_refusals_iff.1 hmem
    obtain ⟨shape, hvalid⟩ := haccepted c (List.mem_of_getElem? hindex) link hlink
    exact absurd (hrefused.symm.trans hvalid) (by simp)

/-- Nothing is reported exactly if every connection with both ends would be accepted, no two
connections end at one port, and no two that carry control start at one port. -/
theorem violations_eq_nil_iff : f.violations = [] ↔
    (∀ c ∈ f.connections, ∀ link, c.link? = some link → ∃ shape, f.validate link = .ok shape) ∧
      (∀ p, f.isShared p = false) ∧ ∀ p, f.fansOut p = false := by
  have hports : f.faultyUses = [] ↔ ∀ u, f.isAtFault u = true → False := by
    simp only [List.eq_nil_iff_forall_not_mem, mem_faultyUses_iff]
  rw [violations_eq, List.append_eq_nil_iff, invalidConnections_eq_nil_iff, List.map_eq_nil_iff,
    hports, forall_isAtFault_iff]
  simp

/-! ### The whole report -/

/--
**The report of a flow lists exactly what is wrong with it, in order.**  This holds of every flow,
whatever state it is in.  The report first names, by ascending positions, the connections with both
ends that would be refused, with the reason.  Then it names, once each, the ports where two or more
connections end and the ports where two or more that carry control start.  It comes to them in the
order of the first connections that have them in these roles, and at one connection to the input
first.  Nothing else is in it.
-/
theorem report_lists_faults_in_order (f : Flow) :
    ∃ (invalid : List (Nat × Refusal)) (ports : List PortUse),
      f.violations = (invalid.map fun x => .invalidConnection x.1 x.2) ++ ports.map f.fault ∧
      (invalid.Pairwise fun x y => x.1 < y.1) ∧
      (∀ index reason, (index, reason) ∈ invalid ↔ ∃ c link, f.connections[index]? = some c ∧
        c.link? = some link ∧ f.validate link = .error reason) ∧
      ports.Nodup ∧
      (∀ p, .input p ∈ ports ↔ 2 ≤ f.connections.countP (·.target = some p)) ∧
      (∀ p, .output p ∈ ports ↔
        2 ≤ f.connections.countP fun c => c.shape.isFlow && c.source = some p) ∧
      ports.Pairwise f.MetBefore := by
  refine ⟨f.refusals, f.faultyUses, ?_, f.pairwise_refusals, fun _ _ => mem_refusals_iff,
    f.nodup_faultyUses, fun p => ?_, fun p => ?_, f.pairwise_faultyUses⟩
  · rw [violations_eq, invalidConnections_eq]
  · rw [mem_faultyUses_iff, isAtFault, isShared, decide_eq_true_iff]
    rfl
  · rw [mem_faultyUses_iff, isAtFault, fansOut, decide_eq_true_iff]
    rfl

end Flow

end CommandFlow
