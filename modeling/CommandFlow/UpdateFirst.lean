/-
Changing the first element of a list that passes a test.
-/

namespace CommandFlow

/-- The list with its first element that passes the test replaced by its image. -/
def updateFirst {α : Type} (test : α → Bool) (change : α → α) : List α → List α
  | [] => []
  | a :: rest => if test a then change a :: rest else a :: updateFirst test change rest

theorem length_updateFirst {α : Type} (test : α → Bool) (change : α → α) (as : List α) :
    (updateFirst test change as).length = as.length := by
  induction as with
  | nil => rfl
  | cons a rest ih =>
    rw [updateFirst]
    split
    · rfl
    · rw [List.length_cons, ih, List.length_cons]

end CommandFlow
