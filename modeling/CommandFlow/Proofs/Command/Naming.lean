/-
The search for a free name ends.

An option whose type id is in use is tried under its name followed by one, two, three and so on,
until an id is free.  Nothing in the search says when to give up, and it need not: the ids tried are
all different, so after as many tries as there are ids in use the next one is free.  The name found
has the least number that will do, and with a free id the option cannot be refused.
-/
import CommandFlow.Proofs.Command.FreeName
import CommandFlow.Proofs.Edit

namespace CommandFlow

namespace Command

variable {c : Command} {base : String}

/-- The name found when the search for a free one stops, if it does within a number of turns.  A
turn asks whether the type id of a name is in use, and if it is goes on to the next number. -/
def freeNameWithin (c : Command) (base : String) : Nat → String → Nat → Option String
  | 0, _, _ => none
  | turns + 1, name, number =>
    if c.isTaken (CommandOption.typeIdOf name) then
      c.freeNameWithin base turns (base ++ toString number) (number + 1)
    else some name

/-- From a number on, the search stops at the first that makes the name free. -/
theorem freeNameWithin_of_least {k : Nat}
    (hfree : c.isTaken (CommandOption.typeIdOf (base ++ toString k)) = false) :
    ∀ {turns number : Nat}, number ≤ k → k < number + turns →
      (∀ j, number ≤ j → j < k →
        c.isTaken (CommandOption.typeIdOf (base ++ toString j)) = true) →
      c.freeNameWithin base turns (base ++ toString number) (number + 1)
        = some (base ++ toString k) := by
  intro turns
  -- A turn leaves one turn less and moves the number one further, so `k` stays within reach.
  induction turns with
  | zero =>
      intro number hle hlt _
      omega
  | succ turns ih =>
      intro number hle hlt htaken
      unfold freeNameWithin
      by_cases hk : number = k
      · rw [hk, hfree, if_neg (by simp)]
      · rw [htaken number (Nat.le_refl _) (by omega), if_pos rfl]
        refine ih (by omega) (by omega) ?_
        intro j hj hjk
        exact htaken j (by omega) hjk

/-- The least number that makes a name free is at most the number of ids in use. -/
theorem le_length_takenIds {k : Nat} (h : c.isTaken (CommandOption.typeIdOf base) = true)
    (hleast : ∀ j, 0 < j → j < k →
      c.isTaken (CommandOption.typeIdOf (base ++ toString j)) = true) :
    k ≤ c.takenIds.length := by
  obtain ⟨m, hm, hfree⟩ := exists_free_candidate h
  obtain ⟨hpos, hlt⟩ := List.mem_range'_1.1 hm
  by_contra hgreater
  have htaken := hleast m hpos (by omega)
  rw [hfree] at htaken
  exact absurd htaken (by simp)

/-- The search stops at the name under which an option is added. -/
theorem freeNameWithin_eq {turns : Nat} (hturns : c.takenIds.length < turns) :
    c.freeNameWithin base turns base 1 = some (c.freeName base) := by
  obtain ⟨turns, rfl⟩ : ∃ more, turns = more + 1 := ⟨turns - 1, by omega⟩
  unfold freeNameWithin
  by_cases h : c.isTaken (CommandOption.typeIdOf base) = true
  · obtain ⟨k, hpos, hname, hfree, hleast⟩ := freeName_of_taken h
    have hle := le_length_takenIds h hleast
    rw [if_pos h, hname]
    exact freeNameWithin_of_least hfree hpos (by omega) hleast
  · have hfree : c.isTaken (CommandOption.typeIdOf base) = false := by simpa using h
    rw [if_neg h, freeName_of_free hfree]

/--
**An option is added under the first name that is free.**  Whatever the command and the option: the
search for a name stops after at most one turn more than there are type ids in use, and the option is
added under the name it gives.  That is the option's own name if neither the options nor the shared
catalog list its type id.  Otherwise it is the name followed by the least number from one on that
makes its type id one that neither lists.  The number is at most the count of the ids in use, so 31
bits hold it as long as they hold that count.
-/
theorem option_is_added_under_first_free_name (c : Command) (o : CommandOption) :
    ∃ name c', c.addOption o = .ok (name, c') ∧
      c'.options = c.options ++ [{ o with name }] ∧
      (∀ turns, c.takenIds.length < turns →
        c.freeNameWithin o.name turns o.name 1 = some name) ∧
      (o.typeId ∉ c.takenIds → name = o.name) ∧
      (o.typeId ∈ c.takenIds → ∃ k, 1 ≤ k ∧ k ≤ c.takenIds.length ∧
        name = o.name ++ toString k ∧ CommandOption.typeIdOf name ∉ c.takenIds ∧
        ∀ j, 1 ≤ j → j < k → CommandOption.typeIdOf (o.name ++ toString j) ∈ c.takenIds) := by
  obtain ⟨optionTypes, hadd, -⟩ := c.exists_addOption o
  refine ⟨c.freeName o.name, _, hadd, rfl, fun _ hturns => freeNameWithin_eq hturns, ?_, ?_⟩
  · intro hnot
    rw [← isTaken_iff, Bool.not_eq_true] at hnot
    exact freeName_of_free hnot
  · intro hmem
    obtain ⟨k, hpos, hname, hfree, hleast⟩ := freeName_of_taken (isTaken_iff.2 hmem)
    refine ⟨k, hpos, le_length_takenIds (isTaken_iff.2 hmem) hleast, hname, ?_, ?_⟩
    · rw [← isTaken_iff, isTaken_freeName]
      simp
    · intro j hj hjk
      exact isTaken_iff.1 (hleast j hj hjk)

/-- One option has the name, and the shared catalog lists the id of the name with a one behind it:
the next option of the name gets a two. -/
theorem option_is_added_under_second_number :
    let shout : NodeType := { id := CommandOption.typeIdOf "x1", title := "Shout" }
    let start := new "ping" "" (Catalog.ofNodup [shout] (by decide)) "c"
    let c := start.apply (.addOption { name := "x" })
    let o : CommandOption := { name := "x", kind := .user }
    c.takenIds.length = 2 ∧ ∃ c', c.addOption o = .ok ("x2", c') ∧
      CommandOption.typeIdOf "x2" ∉ c.takenIds := by
  intro shout start c o
  obtain ⟨name, c', hadd, -, hsearch, -, htaken⟩ := option_is_added_under_first_free_name c o
  have hname : name = "x2" := by
    have hfound : c.freeNameWithin "x" 3 "x" 1 = some "x2" := by decide +kernel
    exact Option.some.inj ((hsearch 3 (by decide +kernel)).symm.trans hfound)
  obtain ⟨k, -, -, -, hfree, -⟩ := htaken (by decide +kernel)
  rw [hname] at hadd hfree
  exact ⟨by decide +kernel, c', hadd, hfree⟩

end Command

end CommandFlow
