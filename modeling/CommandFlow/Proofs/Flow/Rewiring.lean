/-
Checking connections again restores the wiring.

After node types have changed, the connections that were selected are checked again.  If those that
were not selected still fit and compete with no other for a flow output, the flow is wired again:
what fails is dropped, what passes takes over what its source declares, and of several that now
leave the same flow output the newest stays.

`Judged` says once what the verdict on a connection can be; all else about verdicts is read off it.
-/
import CommandFlow.Proofs.Flow.Wiring

namespace CommandFlow

namespace Flow

namespace Verdict

/-- The connection that passed or was not to be checked. -/
def survivor? : Verdict → Option Connection
  | .unselected c => some c
  | .passed c => some c
  | .failed _ _ => none

theorem kept_sublist : ∀ verdicts : List Verdict,
    (kept verdicts).Sublist (verdicts.filterMap survivor?) := by
  intro verdicts
  induction verdicts with
  | nil => exact List.Sublist.refl _
  | cons v newer ih =>
      cases v with
      | unselected c => exact ih.cons_cons c
      | passed c =>
          rw [kept]
          split
          · exact ih.cons c
          · exact ih.cons_cons c
      | failed c reason => exact ih

theorem exists_of_mem_kept {verdicts : List Verdict} {d : Connection} (h : d ∈ kept verdicts) :
    ∃ v ∈ verdicts, v.survivor? = some d :=
  List.mem_filterMap.1 ((kept_sublist verdicts).subset h)

/-- What is not to be checked stays. -/
theorem mem_kept_of_unselected {verdicts : List Verdict} {c : Connection}
    (h : .unselected c ∈ verdicts) : c ∈ kept verdicts := by
  induction verdicts with
  | nil => exact absurd h List.not_mem_nil
  | cons v newer ih =>
      rcases List.mem_cons.1 h with rfl | hnewer
      · exact List.mem_cons_self
      have hc := ih hnewer
      cases v with
      | unselected d => exact List.mem_cons_of_mem d hc
      | passed d =>
          rw [kept]
          split
          · exact hc
          · exact List.mem_cons_of_mem d hc
      | failed d reason => exact hc

/-- Whether two verdicts leave no two connections at the same flow output, unless both were
checked. -/
def Apart (v w : Verdict) : Prop :=
  ∀ c d, v.survivor? = some c → w.survivor? = some d → v = .unselected c ∨ w = .unselected d →
    c.shape.isFlow = true → d.shape.isFlow = true → c.source ≠ d.source

/-- Of the connections that stay, no two that carry control start at the same port. The induction
is on the connections from the oldest on; each has only newer ones behind it to compete with. -/
theorem pairwise_kept : ∀ {verdicts : List Verdict}, verdicts.Pairwise Apart →
    (kept verdicts).Pairwise fun c d => c.shape.isFlow = true → d.shape.isFlow = true →
      c.source.isSome = true → c.source ≠ d.source := by
  intro verdicts
  induction verdicts with
  | nil => intro _; exact .nil
  | cons v newer ih =>
      intro hapart
      have hrest := ih hapart.tail
      have hhead := (List.pairwise_cons.1 hapart).1
      cases v with
      | failed c reason => exact hrest
      | unselected c =>
          refine List.pairwise_cons.2 ⟨?_, hrest⟩
          intro d hd hcflow hdflow _
          obtain ⟨w, hw, hwd⟩ := exists_of_mem_kept hd
          exact hhead w hw c d rfl hwd (Or.inl rfl) hcflow hdflow
      | passed c =>
          rw [kept]
          by_cases hout : (passed c).isOutdated newer = true
          · rw [if_pos hout]
            exact hrest
          rw [if_neg hout]
          refine List.pairwise_cons.2 ⟨?_, hrest⟩
          intro d hd hcflow hdflow hsome heq
          obtain ⟨w, hw, hwd⟩ := exists_of_mem_kept hd
          cases w with
          | failed e reason => simp [survivor?] at hwd
          | unselected e =>
              obtain rfl : e = d := Option.some.inj hwd
              exact hhead _ hw c e rfl rfl (Or.inr rfl) hcflow hdflow heq
          | passed e =>
              -- The newer one passed as well, so the older one was outdated.
              obtain rfl : e = d := Option.some.inj hwd
              refine hout ?_
              have hc : (passed c).flowSource? = c.source := by simp [flowSource?, hcflow]
              have he : (passed e).flowSource? = c.source := by simp [flowSource?, hdflow, heq]
              simp only [isOutdated, hc, hsome, Bool.true_and, List.any_eq_true]
              exact ⟨_, hw, by simp [he]⟩

end Verdict

/-! ### One connection -/

theorem recheck_eq_ok_iff_of_link {f : Flow} {shape : PortShape} {p q : Endpoint}
    {r : Option PortShape} :
    f.recheck ⟨shape, some p, some q⟩ = .ok r ↔ ∃ s, r = some s ∧ f.validate ⟨p, q⟩ = .ok s := by
  show (f.validate ⟨p, q⟩).map some = .ok r ↔ _
  cases f.validate ⟨p, q⟩ with
  | error reason => simp [Except.map]
  | ok s => simp [Except.map, eq_comm]

/-- A connection without a target passes if its source is an output. -/
theorem recheck_eq_ok_iff_of_open {f : Flow} {shape : PortShape} {p : Endpoint}
    {r : Option PortShape} :
    f.recheck ⟨shape, some p, none⟩ = .ok r ↔ ∃ s, r = some s ∧ f.offered? p = some s := by
  unfold recheck offered? typeAt?
  cases hn : f.node? p.node with
  | none => simp [hn]
  | some n =>
      cases ho : n.type.output? p.key with
      | none => simp [hn, ho]
      | some output => simp [hn, ho, pure, Except.pure, eq_comm]

/-- Whether a connection is accepted when it is checked again. -/
def passes (f : Flow) (c : Connection) : Bool :=
  (f.recheck c).isOk

/-- The connection, carrying what its source declares now. -/
def refreshed (f : Flow) (c : Connection) : Connection :=
  { c with shape := (c.source.bind f.offered?).getD c.shape }

section

variable {f : Flow} {selected : Connection → Bool} {c d : Connection}

theorem passes_iff : f.passes c = true ↔ ∃ r, f.recheck c = .ok r := by
  unfold passes
  cases f.recheck c with
  | ok r => simp [Except.isOk, Except.toBool]
  | error reason => simp [Except.isOk, Except.toBool]

theorem passes_eq_false_iff : f.passes c = false ↔ ∃ reason, f.recheck c = .error reason := by
  rw [← Bool.not_eq_true, passes_iff]
  cases f.recheck c with
  | ok r => simp
  | error reason => simp

/-- A connection that passes gives what its source declares, and nothing only without a source. -/
theorem eq_of_recheck_eq_ok {r : Option PortShape} (h : f.recheck c = .ok r) :
    r = c.source.bind f.offered? ∧ r.isSome = c.source.isSome := by
  obtain ⟨shape, source, target⟩ := c
  cases source with
  | none =>
      obtain rfl : none = r := Except.ok.inj h
      exact ⟨rfl, rfl⟩
  | some p =>
      have hoffered : ∃ s, r = some s ∧ f.offered? p = some s := by
        cases target with
        | none => exact recheck_eq_ok_iff_of_open.1 h
        | some q =>
            obtain ⟨s, hr, hvalid⟩ := recheck_eq_ok_iff_of_link.1 h
            exact ⟨s, hr, (validate_eq_ok_iff.1 hvalid).2.1⟩
      obtain ⟨s, rfl, hs⟩ := hoffered
      exact ⟨hs.symm, rfl⟩

/-- The source of a connection that passes is an output, and refreshing takes over what it
declares. -/
theorem offered?_of_passes {p : Endpoint} (h : f.passes c = true) (hp : c.source = some p) :
    f.offered? p = some (f.refreshed c).shape := by
  obtain ⟨r, hr⟩ := passes_iff.1 h
  obtain ⟨rfl, hsome⟩ := eq_of_recheck_eq_ok hr
  rw [hp, Option.bind_some, Option.isSome_some] at hsome
  obtain ⟨shape, hshape⟩ := Option.isSome_iff_exists.1 hsome
  simp [refreshed, hp, hshape]

/-- A connection with both ends that passes would be accepted as a link. -/
theorem validate_of_passes {link : Link} (h : f.passes c = true)
    (hlink : c = .ofLink link c.shape) : f.validate link = .ok (f.refreshed c).shape := by
  have hoffered := offered?_of_passes h (congrArg Connection.source hlink)
  obtain ⟨r, hr⟩ := passes_iff.1 h
  rw [hlink] at hr
  obtain ⟨shape, -, hvalid⟩ := recheck_eq_ok_iff_of_link.1 hr
  have hshape : some shape = some (f.refreshed c).shape :=
    (validate_eq_ok_iff.1 hvalid).2.1.symm.trans hoffered
  rw [← Option.some.inj hshape]
  exact hvalid

/-- What the verdict on a connection can be. -/
inductive Judged (f : Flow) (selected : Connection → Bool) (c : Connection) : Verdict → Prop
  | unselected (hsel : selected c = false) : Judged f selected c (.unselected c)
  | passed (hsel : selected c = true) (hpass : f.passes c = true) :
      Judged f selected c (.passed (f.refreshed c))
  | failed {reason : Refusal} (hsel : selected c = true) (hfail : f.recheck c = .error reason) :
      Judged f selected c (.failed c reason)

theorem judged_verdict (f : Flow) (selected : Connection → Bool) (c : Connection) :
    f.Judged selected c (f.verdict selected c) := by
  unfold verdict
  by_cases hsel : selected c = true
  · rw [if_neg (by simp [hsel])]
    cases hre : f.recheck c with
    | error reason => exact .failed hsel hre
    | ok r =>
        have hpassed : Judged f selected c (.passed (f.refreshed c)) :=
          .passed hsel (passes_iff.2 ⟨r, hre⟩)
        rw [refreshed, ← (eq_of_recheck_eq_ok hre).1] at hpassed
        cases r with
        | none => exact hpassed
        | some shape => exact hpassed
  · rw [if_pos (by simpa using hsel)]
    exact .unselected (by simpa using hsel)

/-- What a verdict leaves in place has the ends it had. -/
theorem ends_of_verdict (h : (f.verdict selected c).survivor? = some d) :
    d.source = c.source ∧ d.target = c.target := by
  have hjudged := judged_verdict f selected c
  generalize f.verdict selected c = v at hjudged h
  cases hjudged with
  | unselected _ => obtain rfl := Option.some.inj h; exact ⟨rfl, rfl⟩
  | passed _ _ => obtain rfl := Option.some.inj h; exact ⟨rfl, rfl⟩
  | failed _ _ => simp [Verdict.survivor?] at h

/-- What was checked and stays passed and was refreshed. -/
theorem refreshed_of_verdict (hsel : selected c = true)
    (h : (f.verdict selected c).survivor? = some d) : f.passes c = true ∧ f.refreshed c = d := by
  have hjudged := judged_verdict f selected c
  generalize f.verdict selected c = v at hjudged h
  cases hjudged with
  | unselected hnot => simp [hsel] at hnot
  | passed _ hpass => exact ⟨hpass, Option.some.inj h⟩
  | failed _ _ => simp [Verdict.survivor?] at h

/-- A connection that was checked and stays carries what its source declares, if it has a source,
and would be accepted, if it has both ends. -/
theorem checked_of_verdict (hsel : selected c = true)
    (h : (f.verdict selected c).survivor? = some d) :
    (∀ p, d.source = some p → f.offered? p = some d.shape) ∧
      ∀ link, d.link? = some link → f.validate link = .ok d.shape := by
  obtain ⟨hpass, rfl⟩ := refreshed_of_verdict hsel h
  refine ⟨fun p hp => offered?_of_passes hpass hp, fun link hlink => ?_⟩
  have hends := Connection.link?_eq_some_iff.1 (show c.link? = some link from hlink)
  exact validate_of_passes hpass hends

/-- What a verdict leaves in place fits, if what is not checked fits. -/
theorem fits_of_verdict {link : Link} (hlink : c = .ofLink link c.shape)
    (hfits : selected c = false → f.Fits c)
    (h : (f.verdict selected c).survivor? = some d) : f.Fits d := by
  by_cases hsel : selected c = true
  · obtain ⟨hpass, rfl⟩ := refreshed_of_verdict hsel h
    have hsame : f.refreshed c = .ofLink link (f.refreshed c).shape :=
      congrArg (fun e : Connection => { e with shape := (f.refreshed c).shape }) hlink
    exact ⟨link, hsame, validate_of_passes hpass hlink⟩
  · have hsel : selected c = false := by simpa using hsel
    simp only [verdict, hsel, Bool.not_false, if_true, Verdict.survivor?, Option.some.injEq] at h
    exact h ▸ hfits hsel

theorem unselected_of_verdict (h : f.verdict selected c = .unselected d) : selected c = false := by
  have hjudged := judged_verdict f selected c
  rw [h] at hjudged
  cases hjudged with
  | unselected hsel => exact hsel

end

/-- Checking the selected connections again leaves a wired flow, if the others still fit and share
no flow output with any connection. -/
theorem wired_revalidate {f : Flow} {selected : Connection → Bool}
    (hlinks : ∀ c ∈ f.connections, ∃ link, c = .ofLink link c.shape)
    (htargets : f.connections.Pairwise fun c d => c.target ≠ d.target)
    (hfits : ∀ c ∈ f.connections, selected c = false → f.Fits c)
    (hapart : f.connections.Pairwise fun c d => selected c = false ∨ selected d = false →
      c.source.any f.isFlowOutput = true → c.source ≠ d.source) :
    (f.revalidate selected).2.Wired := by
  have hsurvivor : ∀ d ∈ Verdict.kept (f.verdicts selected), ∃ c ∈ f.connections,
      (f.verdict selected c).survivor? = some d := by
    intro d hd
    obtain ⟨v, hv, hvd⟩ := Verdict.exists_of_mem_kept hd
    obtain ⟨c, hc, rfl⟩ := List.mem_map.1 hv
    exact ⟨c, hc, hvd⟩
  have hsurvivorFits : ∀ c ∈ f.connections, ∀ d, (f.verdict selected c).survivor? = some d →
      f.Fits d := by
    intro c hc d hd
    obtain ⟨link, hlink⟩ := hlinks c hc
    exact fits_of_verdict hlink (hfits c hc) hd
  refine ⟨?_, ?_, ?_⟩
  · intro d hd
    obtain ⟨c, hc, hcd⟩ := hsurvivor d hd
    exact (hsurvivorFits c hc d hcd).of_typeAt? fun _ _ _ ht => ht
  · -- Nothing gets a new target, so distinct ones stay distinct.
    refine List.Pairwise.sublist (Verdict.kept_sublist _) ?_
    rw [List.pairwise_filterMap, verdicts, List.pairwise_map]
    refine htargets.imp ?_
    intro c d hne c' hc' d' hd'
    rw [(ends_of_verdict hc').2, (ends_of_verdict hd').2]
    exact hne
  · have hkept : (Verdict.kept (f.verdicts selected)).Pairwise fun c d =>
        c.shape.isFlow = true → d.shape.isFlow = true → c.source.isSome = true →
          c.source ≠ d.source := by
      refine Verdict.pairwise_kept ?_
      rw [verdicts, List.pairwise_map]
      refine hapart.imp_of_mem ?_
      intro c d hc hd hne c' d' hc' hd' hun hflow _
      rw [(ends_of_verdict hc').1, (ends_of_verdict hd').1]
      refine hne ?_ ?_
      · exact hun.imp unselected_of_verdict unselected_of_verdict
      · obtain ⟨link, hlink, hvalid⟩ := hsurvivorFits c hc c' hc'
        have hsource : c.source = some link.source := by
          rw [← (ends_of_verdict hc').1, hlink]; rfl
        have hoffered := (validate_eq_ok_iff.1 hvalid).2.1
        simp [hsource, isFlowOutput, hoffered, hflow]
    refine hkept.imp_of_mem ?_
    intro d e hd _ hne hdflow heflow
    obtain ⟨c, hc, hcd⟩ := hsurvivor d hd
    obtain ⟨link, hlink⟩ := hlinks c hc
    exact hne hdflow heflow (by rw [(ends_of_verdict hcd).1, hlink]; rfl)

/-- Checking any connections of a wired flow again keeps it wired. -/
theorem Wired.revalidate {f : Flow} (h : f.Wired) (selected : Connection → Bool) :
    (f.revalidate selected).2.Wired := by
  refine wired_revalidate ?_ h.targets (fun c hc _ => h.fits c hc) ?_
  · intro c hc
    obtain ⟨link, hlink, -⟩ := h.fits c hc
    exact ⟨link, hlink⟩
  · exact h.flowOutputs.imp fun hne _ hflow => hne hflow

theorem mem_revalidate_of_unselected {f : Flow} {selected : Connection → Bool} {c : Connection}
    (hc : c ∈ f.connections) (hsel : selected c = false) :
    c ∈ (f.revalidate selected).2.connections := by
  refine Verdict.mem_kept_of_unselected (List.mem_map.2 ⟨c, hc, ?_⟩)
  simp [verdict, hsel]

theorem typeAt?_retarget (f : Flow) (oldId : String) (type : NodeType) (k : Handle) :
    (f.retarget oldId type).typeAt? k
      = (f.typeAt? k).map fun t => if t.id = oldId then type else t := by
  unfold typeAt? node? retarget
  dsimp only
  induction f.nodes with
  | nil => rfl
  | cons n rest ih =>
      rw [List.map_cons, List.find?_cons, List.find?_cons]
      have hhandle : (if n.typeId = oldId then { n with type } else n).handle = n.handle := by
        split <;> rfl
      rw [hhandle]
      split
      · simp only [Option.map_some]
        congr 1
        show _ = if n.typeId = oldId then type else n.type
        split <;> rfl
      · exact ih

/-- Another shared catalog leaves a flow wired that was wired. -/
theorem Wired.rebind {f : Flow} (h : f.Wired) (catalog : Catalog) :
    (f.rebind catalog).2.Wired := by
  refine wired_revalidate ?_ h.targets (fun c _ hsel => absurd hsel (by simp)) ?_
  · intro c hc
    obtain ⟨link, hlink, -⟩ := h.fits c hc
    exact ⟨link, hlink⟩
  · exact List.Pairwise.imp (fun _ hun => absurd hun (by simp)) h.targets

end Flow

end CommandFlow
