/-
What the operations of a catalog do to its list of entries.

A catalog works through its index.  Seen from its entries, whose ids differ, registering appends,
removing leaves out the one entry with the id, and replacing changes that entry where it stands.
-/
import CommandFlow.Catalog.Basic
import CommandFlow.Proofs.UpdateFirst
import Mathlib.Data.List.Nodup

namespace CommandFlow

namespace Catalog

/-! ### Look-up -/

theorem get?_eq_some_iff {c : Catalog} {id : String} {t : NodeType} :
    c.get? id = some t ↔ t ∈ c.entries ∧ t.id = id := by
  rw [get?_eq_find?]
  constructor
  · intro h
    exact ⟨List.mem_of_find?_eq_some h, by simpa using List.find?_some h⟩
  · rintro ⟨hmem, rfl⟩
    refine find?_eq_some_of_unique hmem (by simp) fun u hu hid => ?_
    exact List.inj_on_of_nodup_map c.nodup hu hmem (by simpa using hid)

theorem id_of_get? {c : Catalog} {id : String} {t : NodeType} (h : c.get? id = some t) :
    t.id = id :=
  (get?_eq_some_iff.1 h).2

theorem contains_iff_exists {c : Catalog} {id : String} :
    c.contains id = true ↔ ∃ t, c.get? id = some t := by
  rw [contains_iff, ids, idsOf, List.mem_map]
  simp only [get?_eq_some_iff]

theorem get?_eq_none_iff {c : Catalog} {id : String} :
    c.get? id = none ↔ c.contains id = false := by
  rw [← Bool.not_eq_true, contains_iff_exists, Option.eq_none_iff_forall_ne_some]
  exact not_exists.symm

theorem position?_eq_none_iff {c : Catalog} {id : String} :
    c.position? id = none ↔ c.contains id = false := by
  rw [← isSome_position?, Option.isSome_eq_false_iff, Option.isNone_iff_eq_none]

/-! ### Changes -/

theorem insert_eq_ok_iff {c d : Catalog} {t : NodeType} :
    c.insert t = .ok d ↔ c.contains t.id = false ∧ d.entries = c.entries ++ [t] := by
  unfold insert
  by_cases hc : c.contains t.id = true
  · rw [dif_pos hc]
    simp [hc]
  · rw [dif_neg hc]
    have hc' : c.contains t.id = false := by simpa using hc
    constructor
    · intro h
      exact ⟨hc', by rw [← Except.ok.inj h]⟩
    · rintro ⟨-, h⟩
      exact congrArg Except.ok (Catalog.ext h.symm)

theorem insert_of_contains {c : Catalog} {t : NodeType} (h : c.contains t.id = true) :
    c.insert t = .error (.duplicateId t.id) :=
  dif_pos h

theorem exists_insert {c : Catalog} {t : NodeType} (h : c.contains t.id = false) :
    ∃ d, c.insert t = .ok d := by
  unfold insert
  rw [dif_neg (by simp [h])]
  exact ⟨_, rfl⟩

theorem id_ne_of_mem_rest {t u : NodeType} {rest : List NodeType} {id : String}
    (hnot : t.id ∉ idsOf rest) (ht : t.id = id) (hu : u ∈ rest) : u.id ≠ id := by
  intro hc
  refine hnot ?_
  rw [ht, ← hc]
  exact List.mem_map_of_mem hu

/-- Where ids differ, dropping the place of an id drops the entries with that id. -/
theorem eraseIdx_eq_filter {entries : List NodeType} {id : String} (h : (idsOf entries).Nodup) :
    ∀ {i : Nat}, entries.findIdx? (·.id == id) = some i →
      entries.eraseIdx i = entries.filter (·.id ≠ id) := by
  induction entries with
  | nil => intro i hi; simp at hi
  | cons t rest ih =>
      intro i hi
      obtain ⟨hnot, hrest⟩ := List.nodup_cons.1 h
      rw [List.findIdx?_cons] at hi
      by_cases ht : t.id = id
      · obtain rfl : 0 = i := by simpa [ht] using hi
        have hall : rest.filter (·.id ≠ id) = rest := by
          rw [List.filter_eq_self]
          intro u hu
          simpa using id_ne_of_mem_rest hnot ht hu
        rw [List.eraseIdx_cons_zero, List.filter_cons_of_neg (by simp [ht]), hall]
      · obtain ⟨j, hj, rfl⟩ : ∃ j, rest.findIdx? (·.id == id) = some j ∧ j + 1 = i := by
          simpa [ht] using hi
        rw [List.eraseIdx_cons_succ, ih hrest hj, List.filter_cons_of_pos (by simpa using ht)]

theorem erase_eq_ok_iff {c d : Catalog} {id : String} {t : NodeType} :
    c.erase id = .ok (t, d) ↔
      c.get? id = some t ∧ d.entries = c.entries.filter (·.id ≠ id) := by
  have hget : c.get? id = (c.position? id).bind (c.entries[·]?) := rfl
  unfold erase
  cases hpos : c.position? id with
  | none => simp [hget, hpos]
  | some i =>
      have hfilter := eraseIdx_eq_filter c.nodup (by rw [← position?_eq]; exact hpos)
      cases ht : c.entries[i]? with
      | none => simp [hget, hpos, ht]
      | some u =>
          simp only [hget, hpos, ht, Option.bind_some, Except.ok.injEq, Prod.mk.injEq,
            Option.some.injEq]
          refine and_congr_right fun _ => ⟨fun h => ?_, fun h => ?_⟩
          · rw [← h, ← hfilter]
            rfl
          · refine Catalog.ext ?_
            rw [h, ← hfilter]
            rfl

theorem exists_erase {c : Catalog} {id : String} {t : NodeType} (h : c.get? id = some t) :
    ∃ d, c.erase id = .ok (t, d) := by
  have hnodup : (idsOf (c.entries.filter (·.id ≠ id))).Nodup :=
    c.nodup.sublist (List.filter_sublist.map _)
  exact ⟨ofNodup _ hnodup, erase_eq_ok_iff.2 ⟨h, rfl⟩⟩

/-- Where ids differ, changing the place of an id changes the entries with that id. -/
theorem set_eq_map {entries : List NodeType} {id : String} {t : NodeType}
    (h : (idsOf entries).Nodup) : ∀ {i : Nat}, entries.findIdx? (·.id == id) = some i →
      entries.set i t = entries.map fun u => if u.id = id then t else u := by
  induction entries with
  | nil => intro i hi; simp at hi
  | cons u rest ih =>
      intro i hi
      obtain ⟨hnot, hrest⟩ := List.nodup_cons.1 h
      rw [List.findIdx?_cons] at hi
      by_cases hu : u.id = id
      · obtain rfl : 0 = i := by simpa [hu] using hi
        have hall : rest.map (fun u => if u.id = id then t else u) = rest := by
          have hself : ∀ v ∈ rest, (if v.id = id then t else v) = v := fun v hv =>
            if_neg (id_ne_of_mem_rest hnot hu hv)
          rw [List.map_congr_left hself, List.map_id']
        rw [List.set_cons_zero, List.map_cons, if_pos hu, hall]
      · obtain ⟨j, hj, rfl⟩ : ∃ j, rest.findIdx? (·.id == id) = some j ∧ j + 1 = i := by
          simpa [hu] using hi
        rw [List.set_cons_succ, ih hrest hj, List.map_cons, if_neg hu]

theorem replace_eq_ok_iff {c d : Catalog} {id : String} {t : NodeType} :
    c.replace id t = .ok d ↔
      c.contains id = true ∧ (t.id = id ∨ c.contains t.id = false) ∧
        d.entries = c.entries.map fun u => if u.id = id then t else u := by
  have hcontains : c.contains id = (c.position? id).isSome := (c.isSome_position? id).symm
  unfold replace
  split
  case h_1 hpos => simp [hcontains, hpos]
  case h_2 i hpos =>
    have hmap := set_eq_map (t := t) c.nodup (by rw [← position?_eq]; exact hpos)
    by_cases hclash : t.id ≠ id ∧ c.contains t.id = true
    · rw [dif_pos hclash]
      simp [hclash]
    · rw [dif_neg hclash]
      have hfree : t.id = id ∨ c.contains t.id = false := by
        by_cases ht : t.id = id
        · exact Or.inl ht
        · exact Or.inr (by simpa [ht] using hclash)
      constructor
      · intro h
        refine ⟨by rw [hcontains, hpos]; rfl, hfree, ?_⟩
        rw [← Except.ok.inj h, ← hmap]
        rfl
      · rintro ⟨-, -, h⟩
        refine congrArg Except.ok (Catalog.ext ?_)
        rw [h, ← hmap]
        rfl

theorem exists_replace {c : Catalog} {id : String} {t : NodeType} (h : c.contains id = true)
    (hfree : ¬(t.id ≠ id ∧ c.contains t.id = true)) : ∃ d, c.replace id t = .ok d := by
  unfold replace
  split
  · rename_i hi
    exact absurd h (by simp [position?_eq_none_iff.1 hi])
  · rw [dif_neg hfree]
    exact ⟨_, rfl⟩

end Catalog

end CommandFlow
