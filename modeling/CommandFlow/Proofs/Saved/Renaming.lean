/-
The names that options have once they are loaded.

Saved options are added one by one, and each takes the first name that is free at that moment: its
own, or its own followed by a number.  Later options are not looked at.  So an option whose type
id the shared catalog has may take the name of a later one, which must then take another although
nothing stood in its way, and nodes saved for the later option are loaded as nodes of the earlier
one.

`loadedAs` pairs what was saved with what it became.  What an option became depends on the pairs
before it only, so every statement is about a place in that list and what stands before it.
-/
import CommandFlow.Proofs.Saved.Normal

namespace CommandFlow

/-- A relation holds between any two members, in order, if it holds from all before a place to the
one in that place. -/
theorem pairwise_of_splits {α : Type} {R : α → α → Prop} {l : List α}
    (h : ∀ before a after, l = before ++ a :: after → ∀ b ∈ before, R b a) : l.Pairwise R := by
  induction l with
  | nil => exact .nil
  | cons a rest ih =>
      refine .cons ?_ (ih ?_)
      · intro b hb
        obtain ⟨before, after, hrest⟩ := List.append_of_mem hb
        exact h (a :: before) b after (by rw [hrest]; rfl) a List.mem_cons_self
      · intro before b after hrest c hc
        exact h (a :: before) b after (by rw [hrest]; rfl) c (List.mem_cons_of_mem a hc)

namespace Loader

/-- The saved options, each with the option that it is loaded as. -/
def loadedAs (l : Loader) (saved : Saved.Command) : List (CommandOption × CommandOption) :=
  saved.options.zip (l.command saved).options

/-! ### One option after the other -/

theorem options_placeOption (c : Command) (o : CommandOption) :
    (placeOption c o).options = c.options ++ [{ o with name := c.freeName o.name }] := by
  obtain ⟨optionTypes, hadd, -⟩ := c.exists_addOption o
  unfold placeOption
  rw [hadd]

/-- Adding options leaves those before them in place, and adds as many as are given. -/
theorem options_foldl_placeOption (options : List CommandOption) (c : Command) :
    c.options <+: (options.foldl placeOption c).options ∧
      (options.foldl placeOption c).options.length = c.options.length + options.length := by
  induction options generalizing c with
  | nil => exact ⟨List.prefix_refl _, rfl⟩
  | cons o rest ih =>
      obtain ⟨hfront, hlength⟩ := ih (placeOption c o)
      rw [options_placeOption] at hfront hlength
      refine ⟨(List.prefix_append _ _).trans hfront, ?_⟩
      rw [List.foldl_cons, hlength]
      simp only [List.length_append, List.length_cons, List.length_nil]
      omega

theorem length_options (l : Loader) (saved : Saved.Command) :
    (l.commandOptions saved).options.length = saved.options.length := by
  have hlength := (options_foldl_placeOption saved.options
    (Command.new saved.name saved.description l.catalog saved.uid)).2
  exact hlength.trans (Nat.zero_add _)

theorem map_fst_loadedAs (l : Loader) (saved : Saved.Command) :
    (l.loadedAs saved).map Prod.fst = saved.options :=
  List.map_fst_zip (Nat.le_of_eq (l.length_options saved).symm)

theorem map_snd_loadedAs (l : Loader) (saved : Saved.Command) :
    (l.loadedAs saved).map Prod.snd = (l.command saved).options :=
  List.map_snd_zip (Nat.le_of_eq (l.length_options saved))

variable {l : Loader} {saved : Saved.Command} {before after : List (CommandOption × CommandOption)}
  {o o' : CommandOption}

/-- An option takes the name that is free once those before it are loaded. -/
theorem exists_command_before (h : l.loadedAs saved = before ++ (o, o') :: after) :
    ∃ c : Command, c.InStep ∧ c.flow.catalog = l.catalog ∧ c.options = before.map Prod.snd ∧
      o' = { o with name := c.freeName o.name } := by
  let early : Saved.Command := { saved with options := before.map Prod.fst }
  refine ⟨l.commandOptions early, l.inStep_commandOptions early,
    (l.commandOptions_flow early).1, ?_⟩
  have hsaved : saved.options = before.map Prod.fst ++ o :: after.map Prod.fst := by
    rw [← map_fst_loadedAs l saved, h, List.map_append, List.map_cons]
  have hloaded : (l.command saved).options = before.map Prod.snd ++ o' :: after.map Prod.snd := by
    rw [← map_snd_loadedAs l saved, h, List.map_append, List.map_cons]
  have hrun : (l.command saved).options =
      ((after.map Prod.fst).foldl placeOption
        (placeOption (l.commandOptions early) o)).options := by
    show (saved.options.foldl placeOption _).options = _
    rw [hsaved, List.foldl_append]
    rfl
  obtain ⟨later, hlater⟩ :=
    (options_foldl_placeOption (after.map Prod.fst) (placeOption (l.commandOptions early) o)).1
  rw [← hrun, hloaded, options_placeOption, List.append_assoc] at hlater
  have hlength : (l.commandOptions early).options.length = (before.map Prod.snd).length := by
    rw [length_options, List.length_map, List.length_map]
  obtain ⟨hbefore, hrest⟩ := List.append_inj hlater hlength
  exact ⟨hbefore, (List.cons.inj hrest).1.symm⟩

/-! ### Names -/

/-- An option keeps its name exactly if no shared type has its id and none before it has its name.
-/
theorem name_eq_iff (h : l.loadedAs saved = before ++ (o, o') :: after) :
    o'.name = o.name ↔
      l.catalog.contains o.typeId = false ∧ ∀ d ∈ before, d.2.name ≠ o.name := by
  obtain ⟨c, hstep, hcatalog, hoptions, rfl⟩ := exists_command_before h
  show c.freeName o.name = o.name ↔ _
  rw [Command.freeName_eq_self_iff, hstep.isTaken_eq_false_iff, hcatalog, hoptions,
    List.forall_mem_map]
  rfl

/-- Whatever name an option has, no shared type has the id. -/
theorem not_shared_of_mem_loadedAs {d : CommandOption × CommandOption} (hd : d ∈ l.loadedAs saved) :
    l.catalog.contains d.2.typeId = false := by
  obtain ⟨before, after, h⟩ := List.append_of_mem hd
  obtain ⟨c, hstep, hcatalog, -, hname⟩ := exists_command_before h
  have hfree := Command.isTaken_freeName c d.1.name
  rw [hstep.isTaken_eq_false_iff, hcatalog] at hfree
  rw [hname]
  exact hfree.1

/-- An option has its own name or that followed by a number. -/
theorem name_of_mem_loadedAs {d : CommandOption × CommandOption} (hd : d ∈ l.loadedAs saved) :
    d.2.name = d.1.name ∨ ∃ k, 0 < k ∧ d.2.name = d.1.name ++ toString k := by
  obtain ⟨before, after, h⟩ := List.append_of_mem hd
  obtain ⟨c, -, -, -, hname⟩ := exists_command_before h
  rw [hname]
  by_cases htaken : c.isTaken (CommandOption.typeIdOf d.1.name) = true
  · obtain ⟨k, hk, hfree, -⟩ := Command.freeName_of_taken htaken
    exact Or.inr ⟨k, hk, hfree⟩
  · exact Or.inl (Command.freeName_of_free (by simpa using htaken))

/-- Options that no shared type stands in the way of keep their names exactly if none is loaded
under the name of a later one. -/
theorem untouched_keep_names_iff :
    (∀ d ∈ l.loadedAs saved, l.catalog.contains d.1.typeId = false → d.2.name = d.1.name) ↔
      (l.loadedAs saved).Pairwise fun earlier later => earlier.2.name ≠ later.1.name := by
  constructor
  · intro hkeep
    refine pairwise_of_splits ?_
    rintro before ⟨o, o'⟩ after h d hd hname
    have hshared : l.catalog.contains o.typeId = false := by
      have hd' := not_shared_of_mem_loadedAs (d := d) (h ▸ List.mem_append_left _ hd)
      rwa [CommandOption.typeId, hname] at hd'
    have hkept := hkeep (o, o') (h ▸ List.mem_append_right _ List.mem_cons_self) hshared
    exact ((name_eq_iff h).1 hkept).2 d hd hname
  · rintro hnever ⟨o, o'⟩ hd hshared
    obtain ⟨before, after, h⟩ := List.append_of_mem hd
    rw [h] at hnever
    refine (name_eq_iff h).2 ⟨hshared, fun d hd => ?_⟩
    exact (List.pairwise_append.1 hnever).2.2 d hd _ List.mem_cons_self

/-! ### Nodes -/

/-- A saved node whose type id stands for a type is loaded with that type. -/
theorem exists_node_of_resolve? {n : Saved.Node} {t : NodeType} (hn : n ∈ saved.flow.nodes)
    (ht : (l.command saved).flow.resolve? (l.renamed n.typeId) = some t) :
    ∃ m ∈ (l.command saved).flow.nodes, m.uid = n.uid ∧ m.type = t := by
  obtain ⟨hcatalog, hoptions, -⟩ :=
    l.placeNodes_frame saved.flow.nodes (l.commandOptions saved).flow
  have hfound : l.resolve (l.commandOptions saved).flow n.typeId = .found t :=
    resolve_eq_found ((Flow.resolve?_congr hcatalog hoptions _).symm.trans ht)
  have hplaced : (n.uid, t, n.position, n.literals) ∈
      (l.command saved).flow.nodes.map Node.content := by
    show _ ∈ (l.placeNodes (l.commandOptions saved).flow saved.flow.nodes).nodes.map Node.content
    rw [content_placeNodes]
    refine List.mem_append_right _ (List.mem_filterMap.2 ⟨n, hn, ?_⟩)
    rw [hfound]
    rfl
  obtain ⟨m, hm, hcontent⟩ := List.mem_map.1 hplaced
  exact ⟨m, hm, congrArg (·.1) hcontent, congrArg (·.2.1) hcontent⟩

/-- The type id of a saved option that no shared type has stands for an option of that name, and
this is the option itself or one before it. -/
theorem exists_option_of_typeId (h : l.loadedAs saved = before ++ (o, o') :: after)
    (hshared : l.catalog.contains o.typeId = false) :
    ∃ d ∈ before ++ [(o, o')], d.2.name = o.name ∧
      (l.command saved).flow.resolve? o.typeId = some d.2.nodeType := by
  have hnamed : ∃ d ∈ before ++ [(o, o')], d.2.name = o.name := by
    by_cases hkept : o'.name = o.name
    · exact ⟨(o, o'), List.mem_append_right _ List.mem_cons_self, hkept⟩
    · rw [name_eq_iff h] at hkept
      push Not at hkept
      obtain ⟨d, hd, hname⟩ := hkept hshared
      exact ⟨d, List.mem_append_left _ hd, hname⟩
  obtain ⟨d, hd, hname⟩ := hnamed
  refine ⟨d, hd, hname, ?_⟩
  have hid : d.2.typeId = o.typeId := congrArg CommandOption.typeIdOf hname
  have hmem : d.2 ∈ (l.command saved).options := by
    rw [← map_snd_loadedAs l saved, h]
    refine List.mem_map_of_mem ?_
    rw [List.append_cons]
    exact List.mem_append_left after hd
  have hresolve := (l.inStep_command saved).resolve? hmem
  rw [hid, (l.command_flow saved).1, Catalog.get?_eq_none_iff.2 hshared] at hresolve
  exact hresolve

/-! ### Names that stay over every catalog -/

/-- A shared type about which only the id matters. -/
def bareType (id : String) : NodeType :=
  { id, title := "" }

theorem idsOf_map_bareType (ids : List String) : Catalog.idsOf (ids.map bareType) = ids := by
  rw [Catalog.idsOf, List.map_map]
  exact List.map_id ids

/-- A shared catalog that has the type ids of a name and of its first numbers. -/
def obstruction (name : String) (count : Nat) : Catalog :=
  Catalog.ofNodup ((CommandOption.typeIdOf name :: Command.candidateIds name count).map bareType)
    (by rw [idsOf_map_bareType]; exact Command.nodup_candidateIds name count)

theorem contains_obstruction_iff {name id : String} {count : Nat} :
    (obstruction name count).contains id = true ↔
      id = CommandOption.typeIdOf name ∨
        ∃ k, (0 < k ∧ k ≤ count) ∧ CommandOption.typeIdOf (name ++ toString k) = id := by
  have hids : (obstruction name count).ids =
      CommandOption.typeIdOf name :: Command.candidateIds name count :=
    idsOf_map_bareType _
  rw [Catalog.contains_iff, hids, List.mem_cons, Command.candidateIds, List.mem_map]
  refine or_congr_right (exists_congr fun k => and_congr_left fun _ => ?_)
  rw [List.mem_range'_1]
  omega

/-- What stands in the way of a name and its first numbers leaves the next number. -/
theorem freeName_of_obstruction {c : Command} {name : String} {count : Nat}
    (hcatalog : c.flow.catalog = obstruction name count)
    (hfree : c.isTaken (CommandOption.typeIdOf (name ++ toString (count + 1))) = false) :
    c.freeName name = name ++ toString (count + 1) := by
  have hshared : ∀ {id}, (obstruction name count).contains id = true → c.isTaken id = true := by
    intro id hid
    rw [Command.isTaken, hcatalog, hid, Bool.or_true]
  obtain ⟨k, hk, hname, hkfree, hleast⟩ :=
    Command.freeName_of_taken (hshared (contains_obstruction_iff.2 (Or.inl rfl)))
  rw [hname]
  rcases Nat.lt_trichotomy k (count + 1) with hlt | rfl | hgt
  · have htaken := hshared (contains_obstruction_iff.2 (Or.inr ⟨k, ⟨hk, by omega⟩, rfl⟩))
    exact absurd (htaken.symm.trans hkfree) (by simp)
  · rfl
  · have htaken := hleast _ (Nat.succ_pos count) hgt
    exact absurd (htaken.symm.trans hfree) (by simp)

/-- Where untouched options keep their names, an earlier option finds the name of a later one free
and does not take it. -/
theorem exists_command_avoiding {first mid last : List CommandOption} {a b : CommandOption}
    (hsaved : saved.options = first ++ a :: (mid ++ b :: last))
    (hkeep : ∀ d ∈ l.loadedAs saved, l.catalog.contains d.1.typeId = false → d.2.name = d.1.name)
    (hshared : l.catalog.contains b.typeId = false) :
    ∃ c : Command, c.flow.catalog = l.catalog ∧ c.isTaken b.typeId = false ∧
      c.freeName a.name ≠ b.name := by
  have hnever := untouched_keep_names_iff.1 hkeep
  rw [← map_fst_loadedAs l saved] at hsaved
  obtain ⟨before, rest, hsplit, -, hrest⟩ := List.map_eq_append_iff.1 hsaved
  obtain ⟨⟨_, a'⟩, later, rfl, rfl, hlater⟩ := List.map_eq_cons_iff.1 hrest
  obtain ⟨d, hd, rfl⟩ := List.mem_map.1
    (hlater ▸ List.mem_append_right mid (List.mem_cons_self (a := b) (l := last)))
  rw [hsplit] at hnever
  obtain ⟨-, hfrom, hacross⟩ := List.pairwise_append.1 hnever
  obtain ⟨c, hstep, hcatalog, hoptions, ha'⟩ := exists_command_before hsplit
  refine ⟨c, hcatalog, ?_, ?_⟩
  · refine hstep.isTaken_eq_false_iff.2 ⟨hcatalog ▸ hshared, ?_⟩
    rw [hoptions, List.forall_mem_map]
    intro e he
    exact hacross e he d (List.mem_cons_of_mem _ hd)
  · have hname : a'.name ≠ d.1.name := (List.pairwise_cons.1 hfrom).1 d hd
    rwa [ha'] at hname

/-- Over every catalog the options that nothing stands in the way of keep their names exactly if no
saved name is an earlier one, alone or followed by a number. -/
theorem untouched_keep_names_everywhere_iff (saved : Saved.Command) :
    (∀ l : Loader, ∀ d ∈ l.loadedAs saved,
        l.catalog.contains d.1.typeId = false → d.2.name = d.1.name) ↔
      saved.options.Pairwise fun earlier later =>
        later.name ≠ earlier.name ∧ ∀ k, 0 < k → later.name ≠ earlier.name ++ toString k := by
  constructor
  · intro hkeep
    refine pairwise_of_splits ?_
    intro before b after hsaved a ha
    obtain ⟨first, mid, rfl⟩ := List.append_of_mem ha
    rw [List.append_assoc, List.cons_append] at hsaved
    constructor
    · intro hname
      obtain ⟨c, -, hfree, hne⟩ := exists_command_avoiding hsaved (hkeep { catalog := ∅ }) rfl
      refine hne ?_
      rw [hname]
      exact Command.freeName_of_free (by rw [← hname]; exact hfree)
    · intro k hk hname
      obtain ⟨count, rfl⟩ := Nat.exists_eq_succ_of_ne_zero (Nat.ne_of_gt hk)
      have hid : b.typeId = CommandOption.typeIdOf (a.name ++ toString (count + 1)) :=
        congrArg CommandOption.typeIdOf hname
      have hshared : (obstruction a.name count).contains b.typeId = false := by
        rw [← Bool.not_eq_true, contains_obstruction_iff, hid]
        rintro (hown | ⟨j, ⟨-, hj⟩, hnumber⟩)
        · exact Command.append_toString_ne _ _ (CommandOption.typeIdOf_injective hown)
        · have := Command.append_toString_injective (CommandOption.typeIdOf_injective hnumber)
          omega
      obtain ⟨c, hcatalog, hfree, hne⟩ :=
        exists_command_avoiding hsaved (hkeep { catalog := obstruction a.name count }) hshared
      rw [hid] at hfree
      exact hne ((freeName_of_obstruction hcatalog hfree).trans hname.symm)
  · intro hnames l
    rw [← map_fst_loadedAs l saved, List.pairwise_map] at hnames
    refine untouched_keep_names_iff.2 (hnames.imp_of_mem ?_)
    intro d e hd _ hne heq
    rcases name_of_mem_loadedAs hd with hown | ⟨k, hk, hnumber⟩
    · exact hne.1 (heq.symm.trans hown)
    · exact hne.2 k hk (heq.symm.trans hnumber)

/--
**A loaded option keeps its name unless it is taken before it comes.**  Over whatever catalog,
every saved option is loaded with all but its name.  It keeps the name exactly if no shared type
has its type id and no option before it was loaded under that name.  If no shared type has the id,
nodes saved with it become nodes of the one option that has the name then: the option itself, or
the earlier one that took it.  So options that no shared type stands in the way of keep their
names over every catalog exactly if no saved name is an earlier one, alone or followed by a
number; that the names differ is not enough.
-/
theorem option_keeps_name_unless_taken_before (saved : Saved.Command) :
    (∀ l : Loader, (l.loadedAs saved).map Prod.fst = saved.options ∧
      (l.loadedAs saved).map Prod.snd = (l.command saved).options) ∧
    (∀ (l : Loader) before o o' after, l.loadedAs saved = before ++ (o, o') :: after →
      o' = { o with name := o'.name } ∧
      (o'.name = o.name ↔
        l.catalog.contains o.typeId = false ∧ ∀ d ∈ before, d.2.name ≠ o.name) ∧
      (l.catalog.contains o.typeId = false → ∃ d ∈ before ++ [(o, o')], d.2.name = o.name ∧
        (l.command saved).flow.resolve? o.typeId = some d.2.nodeType ∧
        ∀ n ∈ saved.flow.nodes, l.renamed n.typeId = o.typeId →
          ∃ m ∈ (l.command saved).flow.nodes, m.uid = n.uid ∧ m.type = d.2.nodeType)) ∧
    ((∀ l : Loader, ∀ d ∈ l.loadedAs saved,
        l.catalog.contains d.1.typeId = false → d.2.name = d.1.name) ↔
      saved.options.Pairwise fun earlier later =>
        later.name ≠ earlier.name ∧ ∀ k, 0 < k → later.name ≠ earlier.name ++ toString k) := by
  refine ⟨?_, ?_, untouched_keep_names_everywhere_iff saved⟩
  · intro l
    exact ⟨l.map_fst_loadedAs saved, l.map_snd_loadedAs saved⟩
  · intro l before o o' after h
    refine ⟨?_, name_eq_iff h, ?_⟩
    · obtain ⟨c, -, -, -, rfl⟩ := exists_command_before h
      rfl
    · intro hshared
      obtain ⟨d, hd, hname, hresolve⟩ := exists_option_of_typeId h hshared
      refine ⟨d, hd, hname, hresolve, ?_⟩
      intro n hn hrenamed
      exact exists_node_of_resolve? hn (hrenamed ▸ hresolve)

/-- A shared type has the id of the first option, which takes the name of the second.  The names
differed, and no shared type had the id of the second; its node is loaded as a node of the first. -/
theorem rename_takes_name_of_later_option :
    let shout : NodeType := { id := CommandOption.typeIdOf "x", title := "Shout" }
    let l : Loader := { catalog := Catalog.ofNodup [shout] (by decide) }
    let saved : Saved.Command := ⟨"c", "ping", "",
      [{ name := "x" }, { name := "x1", kind := .user }],
      { nodes := [⟨"a", CommandOption.typeIdOf "x1", ⟨.zero false, .zero false⟩, ∅⟩] }⟩
    (saved.options.map (·.name)).Nodup ∧
      l.catalog.contains (CommandOption.typeIdOf "x1") = false ∧
      (l.command saved).options = [{ name := "x1" }, { name := "x11", kind := .user }] ∧
      (l.command saved).flow.nodes.map (·.type.output? CommandOption.valueKey) =
        [some ⟨OptionKind.shape .string, "x1"⟩] := by
  intro shout l saved
  exact ⟨by decide +kernel, by decide +kernel, by decide +kernel, by decide +kernel⟩

end Loader

end CommandFlow
