/-
Options get names whose type ids are free.

Type ids tell option names apart, and so do the numbers put behind a name.  As there are more
candidates than type ids in use, one of them is free, and the search ends at the first.
-/
import CommandFlow.Command.Basic
import CommandFlow.Proofs.Catalog
import Mathlib.Data.List.Perm.Subperm
import Std.Data.String.ToNat

namespace CommandFlow

theorem CommandOption.typeIdOf_injective {name name' : String}
    (h : typeIdOf name = typeIdOf name') : name = name' := by
  have hlist := congrArg String.toList h
  simp only [typeIdOf, String.toList_append] at hlist
  exact String.toList_inj.1 (List.append_cancel_left (List.append_cancel_right hlist))

namespace Command

/-- The type ids in use. -/
def takenIds (c : Command) : List String :=
  c.flow.optionTypes.ids ++ c.flow.catalog.ids

theorem isTaken_iff {c : Command} {typeId : String} :
    c.isTaken typeId = true ↔ typeId ∈ c.takenIds := by
  rw [isTaken, Bool.or_eq_true, Catalog.contains_iff, Catalog.contains_iff, takenIds,
    List.mem_append]

theorem append_toString_injective {name : String} {k l : Nat}
    (h : name ++ toString k = name ++ toString l) : k = l := by
  have hlist := congrArg String.toList h
  simp only [String.toList_append] at hlist
  exact Nat.repr_injective (String.toList_inj.1 (List.append_cancel_left hlist))

theorem append_toString_ne (name : String) (k : Nat) : name ++ toString k ≠ name := by
  intro h
  have hlist := congrArg String.toList h
  simp at hlist

/-- The type ids of the name followed by one number after the other. -/
def candidateIds (name : String) (count : Nat) : List String :=
  (List.range' 1 count).map fun k => CommandOption.typeIdOf (name ++ toString k)

/-- A name and the candidates made from it are all different. -/
theorem nodup_candidateIds (name : String) (count : Nat) :
    (CommandOption.typeIdOf name :: candidateIds name count).Nodup := by
  refine List.nodup_cons.2 ⟨?_, List.Nodup.map ?_ List.nodup_range'⟩
  · intro hmem
    obtain ⟨k, -, hk⟩ := List.mem_map.1 hmem
    exact append_toString_ne name k (CommandOption.typeIdOf_injective hk)
  · intro k l hkl
    exact append_toString_injective (CommandOption.typeIdOf_injective hkl)

/-- If a name's own type id is taken, that of one of the candidates is free. -/
theorem exists_free_candidate {c : Command} {name : String}
    (h : c.isTaken (CommandOption.typeIdOf name) = true) :
    ∃ k ∈ List.range' 1 c.takenIds.length,
      c.isTaken (CommandOption.typeIdOf (name ++ toString k)) = false := by
  by_contra hnone
  -- Otherwise there would be more type ids in use than there are.
  have hall : CommandOption.typeIdOf name :: candidateIds name c.takenIds.length ⊆ c.takenIds := by
    intro typeId hmem
    rcases List.mem_cons.1 hmem with rfl | hmem
    · exact isTaken_iff.1 h
    · obtain ⟨k, hk, rfl⟩ := List.mem_map.1 hmem
      refine isTaken_iff.1 ?_
      by_contra hfree
      exact hnone ⟨k, hk, by simpa using hfree⟩
  have hlength := ((nodup_candidateIds name c.takenIds.length).subperm hall).length_le
  rw [List.length_cons, candidateIds, List.length_map, List.length_range'] at hlength
  omega

theorem freeName_of_free {c : Command} {name : String}
    (h : c.isTaken (CommandOption.typeIdOf name) = false) : c.freeName name = name := by
  unfold freeName
  simp [h]

/-- A name that is taken gets the least number that makes it free. -/
theorem freeName_of_taken {c : Command} {name : String}
    (h : c.isTaken (CommandOption.typeIdOf name) = true) :
    ∃ k, 0 < k ∧ c.freeName name = name ++ toString k ∧
      c.isTaken (CommandOption.typeIdOf (name ++ toString k)) = false ∧
      ∀ j, 0 < j → j < k → c.isTaken (CommandOption.typeIdOf (name ++ toString j)) = true := by
  have hcount : c.flow.optionTypes.size + c.flow.catalog.size = c.takenIds.length := by
    simp [takenIds, Catalog.size, Catalog.ids, Catalog.idsOf]
  obtain ⟨m, hm, hfree⟩ := exists_free_candidate h
  cases hfind : (List.range' 1 c.takenIds.length).find? fun k =>
      !c.isTaken (CommandOption.typeIdOf (name ++ toString k)) with
  | none =>
      have htaken := List.find?_eq_none.1 hfind m hm
      rw [hfree] at htaken
      exact absurd rfl htaken
  | some k =>
      obtain ⟨hk, hmem, hleast⟩ := List.find?_range'_eq_some.1 hfind
      refine ⟨k, (List.mem_range'_1.1 hmem).1, ?_, by simpa using hk, ?_⟩
      · unfold freeName
        dsimp only
        rw [if_neg (by simp [h]), hcount, hfind]
        rfl
      · intro j hj hlt
        simpa using hleast j hj hlt

/-- The name under which an option is added has a free type id. -/
theorem isTaken_freeName (c : Command) (name : String) :
    c.isTaken (CommandOption.typeIdOf (c.freeName name)) = false := by
  by_cases h : c.isTaken (CommandOption.typeIdOf name) = true
  · obtain ⟨k, -, hname, hfree, -⟩ := freeName_of_taken h
    rw [hname]
    exact hfree
  · have h : c.isTaken (CommandOption.typeIdOf name) = false := by simpa using h
    rw [freeName_of_free h]
    exact h

/-- An option keeps its name exactly if the type id of that is free. -/
theorem freeName_eq_self_iff {c : Command} {name : String} :
    c.freeName name = name ↔ c.isTaken (CommandOption.typeIdOf name) = false := by
  constructor
  · intro h
    have hfree := isTaken_freeName c name
    rwa [h] at hfree
  · exact freeName_of_free

/-- An option is always added, under a name that is free. -/
theorem exists_addOption (c : Command) (o : CommandOption) :
    ∃ optionTypes, c.addOption o = .ok (c.freeName o.name, { c with
        options := c.options ++ [{ o with name := c.freeName o.name }]
        flow := { c.flow with optionTypes } }) ∧
      optionTypes.entries = c.flow.optionTypes.entries ++
        [CommandOption.nodeType { o with name := c.freeName o.name }] := by
  have hfree := isTaken_freeName c o.name
  have hcontains := (Bool.or_eq_false_iff.1 hfree).1
  obtain ⟨optionTypes, hinsert⟩ := Catalog.exists_insert
    (t := CommandOption.nodeType { o with name := c.freeName o.name }) hcontains
  refine ⟨optionTypes, ?_, (Catalog.insert_eq_ok_iff.1 hinsert).2⟩
  unfold addOption
  simp only [hinsert]

/-- An option whose type id is free is added as it is. -/
theorem addOption_of_free {c : Command} {o : CommandOption} (h : c.isTaken o.typeId = false) :
    ∃ optionTypes, c.addOption o = .ok (o.name, { c with
        options := c.options ++ [o], flow := { c.flow with optionTypes } }) ∧
      optionTypes.entries = c.flow.optionTypes.entries ++ [o.nodeType] := by
  obtain ⟨optionTypes, hadd, hentries⟩ := c.exists_addOption o
  rw [freeName_of_free h] at hadd hentries
  exact ⟨optionTypes, hadd, hentries⟩

end Command

end CommandFlow
