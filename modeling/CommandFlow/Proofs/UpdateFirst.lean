/-
Finding the first element of a list that passes a test, and what changing or dropping it does to the
list.
-/
import CommandFlow.UpdateFirst

namespace CommandFlow

variable {α : Type} {test : α → Bool} {change : α → α} {l : List α}

/-- What the changed list holds was there before, or is the image of the element found. -/
theorem mem_or_of_mem_updateFirst {b : α} (h : b ∈ updateFirst test change l) :
    b ∈ l ∨ ∃ a, l.find? test = some a ∧ b = change a := by
  induction l with
  | nil => exact absurd h List.not_mem_nil
  | cons a rest ih =>
      rw [updateFirst] at h
      rw [List.find?_cons]
      by_cases ha : test a = true
      · rw [if_pos ha] at h
        rcases List.mem_cons.1 h with rfl | h
        · exact Or.inr ⟨a, by simp [ha], rfl⟩
        · exact Or.inl (List.mem_cons_of_mem _ h)
      · rw [if_neg ha] at h
        rcases List.mem_cons.1 h with rfl | h
        · exact Or.inl List.mem_cons_self
        · have ha : test a = false := by simpa using ha
          rw [ha]
          exact (ih h).imp_left (List.mem_cons_of_mem _)

/-- What a change leaves alone is left alone in the list. -/
theorem map_updateFirst {β : Type} {view : α → β} (h : ∀ a, view (change a) = view a) :
    (updateFirst test change l).map view = l.map view := by
  induction l with
  | nil => rfl
  | cons a rest ih =>
      rw [updateFirst]
      split
      · rw [List.map_cons, List.map_cons, h]
      · rw [List.map_cons, List.map_cons, ih]

/-- The element that is changed is the one before which none passes. -/
theorem updateFirst_append_cons {before after : List α} {a : α}
    (hbefore : ∀ b ∈ before, test b = false) (ha : test a = true) :
    updateFirst test change (before ++ a :: after) = before ++ change a :: after := by
  induction before with
  | nil => rw [List.nil_append, updateFirst, if_pos ha, List.nil_append]
  | cons b rest ih =>
      obtain ⟨hb, hrest⟩ := List.forall_mem_cons.1 hbefore
      rw [List.cons_append, updateFirst, if_neg (by simp [hb]), ih hrest, List.cons_append]

/-- A change of the element found leaves all others in place. -/
theorem exists_updateFirst_eq {a : α} (h : l.find? test = some a) :
    ∃ before after, l = before ++ a :: after ∧ (∀ b ∈ before, test b = false) ∧
      ∀ change : α → α, updateFirst test change l = before ++ change a :: after := by
  obtain ⟨ha, before, after, hsplit, hbefore⟩ := List.find?_eq_some_iff_append.1 h
  have hbefore : ∀ b ∈ before, test b = false := fun b hb => by simpa using hbefore b hb
  refine ⟨before, after, hsplit, hbefore, fun change => ?_⟩
  rw [hsplit, updateFirst_append_cons hbefore ha]

/-- Dropping the element found leaves all others in place. -/
theorem exists_eraseP_eq {a : α} (h : l.find? test = some a) :
    ∃ before after, l = before ++ a :: after ∧ (∀ b ∈ before, test b = false) ∧
      l.eraseP test = before ++ after := by
  obtain ⟨ha, before, after, hsplit, hbefore⟩ := List.find?_eq_some_iff_append.1 h
  have hbefore : ∀ b ∈ before, test b = false := fun b hb => by simpa using hbefore b hb
  refine ⟨before, after, hsplit, hbefore, ?_⟩
  rw [hsplit, List.eraseP_append_right _ (by simpa using hbefore), List.eraseP_cons_of_pos ha]

/-! ### Where only one element passes -/

/-- An element is found if it passes and no other does. -/
theorem find?_eq_some_of_unique {a : α} (ha : a ∈ l) (htest : test a = true)
    (hunique : ∀ b ∈ l, test b = true → b = a) : l.find? test = some a := by
  obtain ⟨b, hb⟩ := Option.isSome_iff_exists.1 (List.find?_isSome.2 ⟨a, ha, htest⟩)
  rw [hb, hunique b (List.mem_of_find?_eq_some hb) (List.find?_some hb)]

theorem updateFirst_eq_map (h : l.Pairwise fun a b => test a = true → test b = false) :
    updateFirst test change l = l.map fun a => if test a = true then change a else a := by
  induction l with
  | nil => rfl
  | cons a rest ih =>
      obtain ⟨hhead, hrest⟩ := List.pairwise_cons.1 h
      rw [updateFirst, List.map_cons]
      by_cases ha : test a = true
      · have hself : ∀ b ∈ rest, (if test b = true then change b else b) = b := fun b hb =>
          if_neg (by simp [hhead b hb ha])
        rw [if_pos ha, if_pos ha, List.map_congr_left hself, List.map_id']
      · rw [if_neg ha, if_neg ha, ih hrest]

theorem eraseP_eq_filter (h : l.Pairwise fun a b => test a = true → test b = false) :
    l.eraseP test = l.filter (!test ·) := by
  induction l with
  | nil => rfl
  | cons a rest ih =>
      obtain ⟨hhead, hrest⟩ := List.pairwise_cons.1 h
      by_cases ha : test a = true
      · have hself : rest.filter (!test ·) = rest := by
          rw [List.filter_eq_self]
          intro b hb
          simp [hhead b hb ha]
        rw [List.eraseP_cons_of_pos ha, List.filter_cons_of_neg (by simp [ha]), hself]
      · rw [List.eraseP_cons_of_neg ha, List.filter_cons_of_pos (by simp [ha]), ih hrest]

end CommandFlow
