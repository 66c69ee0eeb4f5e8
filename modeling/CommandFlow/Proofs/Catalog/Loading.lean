/-
Catalogs that are loaded from declarations.

Declarations are passed over in two places: one without an id when it is read, one whose id is taken
when it is registered.  Neither leaves a trace.  So the entries of a catalog can be told from its
declarations alone, one for each that states an id which none before it states, and what is loaded
from two lists behind each other follows from what is loaded from either.

All of this starts from values.  A feed is a text, and a text is read as a whole: a single
declaration that has no value keeps all others from being loaded, even if nobody would ask for the
part that is at fault.  It has none if it nests too deep, or holds a number beyond the range of
doubles or a string that is no text.
-/
import CommandFlow.Proofs.Catalog
import CommandFlow.Proofs.Catalog.Declared
import Mathlib.Data.List.Induction

namespace CommandFlow

open Json (Raw)

namespace Catalog

/-! ### Registering what is new -/

theorem contains_empty (id : String) : contains ∅ id = false :=
  Bool.eq_false_iff.2 fun h => absurd ((contains_iff ∅ id).1 h) List.not_mem_nil

theorem insertNew_of_contains {c : Catalog} {t : NodeType} (h : c.contains t.id = true) :
    c.insertNew t = c := by
  rw [insertNew, insert_of_contains h]

theorem insertNew_of_insert {c d : Catalog} {t : NodeType} (h : c.insert t = .ok d) :
    c.insertNew t = d := by
  rw [insertNew, h]

theorem entries_insertNew {c : Catalog} {t : NodeType} (h : c.contains t.id = false) :
    (c.insertNew t).entries = c.entries ++ [t] := by
  obtain ⟨d, hd⟩ := exists_insert h
  rw [insertNew_of_insert hd, (insert_eq_ok_iff.1 hd).2]

theorem contains_insertNew {c : Catalog} {t : NodeType} {id : String} :
    (c.insertNew t).contains id = true ↔ c.contains id = true ∨ id = t.id := by
  by_cases h : c.contains t.id = true
  · rw [insertNew_of_contains h]
    constructor
    · exact Or.inl
    · rintro (hid | rfl)
      · exact hid
      · exact h
  · rw [contains_iff, contains_iff, ids, ids, entries_insertNew (by simpa using h)]
    simp [idsOf]

theorem contains_foldl_insertNew {types : List NodeType} {c : Catalog} {id : String} :
    (types.foldl insertNew c).contains id = true ↔ c.contains id = true ∨ id ∈ idsOf types := by
  induction types generalizing c with
  | nil => simp [idsOf]
  | cons t rest ih =>
      rw [List.foldl_cons, ih, contains_insertNew, or_assoc]
      simp [idsOf]

/-- **A catalog takes over what is registered apart from it, less the ids it has.** -/
theorem entries_foldl_insertNew (types : List NodeType) (c : Catalog) :
    (types.foldl insertNew c).entries
      = c.entries ++ (types.foldl insertNew ∅).entries.filter fun t => !c.contains t.id := by
  induction types using List.reverseRecOn with
  | nil => exact (List.append_nil _).symm
  | append_singleton types t ih =>
      simp only [List.foldl_append, List.foldl_cons, List.foldl_nil]
      -- Its id came before among the types, or the catalog has it, or it is new to both.
      have happart : (types.foldl insertNew ∅).contains t.id = true ↔ t.id ∈ idsOf types := by
        rw [contains_foldl_insertNew, contains_empty]
        simp
      by_cases htypes : t.id ∈ idsOf types
      · rw [insertNew_of_contains (happart.2 htypes),
          insertNew_of_contains (contains_foldl_insertNew.2 (Or.inr htypes)), ih]
      · rw [entries_insertNew (Bool.eq_false_iff.2 (mt happart.1 htypes)), List.filter_append,
          ← List.append_assoc, ← ih]
        by_cases hc : c.contains t.id = true
        · rw [insertNew_of_contains (contains_foldl_insertNew.2 (Or.inl hc))]
          simp [hc]
        · have hnew : (types.foldl insertNew c).contains t.id = false :=
            Bool.eq_false_iff.2 fun h => (contains_foldl_insertNew.1 h).elim hc htypes
          rw [entries_insertNew hnew]
          simp [hc]

/-! ### Registering all -/

/-- Node types are all registered exactly if no id is taken or comes again. -/
theorem foldlM_insert_eq_ok_iff {types : List NodeType} {c d : Catalog} :
    types.foldlM insert c = .ok d
      ↔ (idsOf (c.entries ++ types)).Nodup ∧ d.entries = c.entries ++ types := by
  induction types generalizing c with
  | nil =>
      rw [List.foldlM_nil, List.append_nil]
      constructor
      · intro h
        obtain rfl := Except.ok.inj h
        exact ⟨c.nodup, rfl⟩
      · rintro ⟨-, h⟩
        exact congrArg Except.ok (Catalog.ext h.symm)
  | cons t rest ih =>
      rw [List.foldlM_cons]
      by_cases hc : c.contains t.id = true
      · rw [insert_of_contains hc]
        refine iff_of_false (fun h => absurd h (by simp [bind, Except.bind])) fun h => ?_
        rw [idsOf, List.map_append, List.nodup_append] at h
        exact h.1.2.2 t.id ((contains_iff c t.id).1 hc) t.id List.mem_cons_self rfl
      · obtain ⟨c', hc'⟩ := exists_insert (by simpa using hc)
        rw [hc', List.append_cons, ← (insert_eq_ok_iff.1 hc').2]
        exact ih

/-- Where all are registered, none is passed over. -/
theorem foldl_insertNew_of_foldlM {types : List NodeType} {c d : Catalog}
    (h : types.foldlM insert c = .ok d) : types.foldl insertNew c = d := by
  induction types generalizing c with
  | nil => exact Except.ok.inj h
  | cons t rest ih =>
      rw [List.foldlM_cons] at h
      cases hinsert : c.insert t with
      | error cause =>
          rw [hinsert] at h
          exact absurd h (by simp [bind, Except.bind])
      | ok c' =>
          rw [hinsert] at h
          rw [List.foldl_cons, insertNew_of_insert hinsert]
          exact ih h

theorem ofNodeTypes_eq_ok_iff {types : List NodeType} :
    ofNodeTypes types = .ok (types.foldl insertNew ∅) ↔ (idsOf types).Nodup := by
  constructor
  · intro h
    exact (foldlM_insert_eq_ok_iff.1 h).1
  · intro h
    have hall : ofNodeTypes types = .ok (ofNodup types h) := foldlM_insert_eq_ok_iff.2 ⟨h, rfl⟩
    rw [foldl_insertNew_of_foldlM hall, hall]

end Catalog

/-! ### What a declaration states -/

/-- The id that a declaration states, if it is an object with a string as its id. -/
def Feed.id? : Json → Option String
  | .object fields => (fields.lookup "id").bind Json.string?
  | _ => none

/-- A declaration is understood exactly if it states an id, and its type has that id. -/
theorem NodeType.map_id_ofJson? (json : Json) :
    (ofJson? json).map NodeType.id = Feed.id? json := by
  cases json with
  | object fields =>
      have hget : Json.get? (.object fields) "id" = fields.lookup "id" := rfl
      unfold ofJson?
      rw [hget, Feed.id?]
      cases fields.lookup "id" with
      | none => rfl
      | some value => cases hid : value.string? <;> simp [hid]
  | _ => rfl

theorem NodeType.id?_of_ofJson? {json : Json} {t : NodeType} (h : ofJson? json = some t) :
    Feed.id? json = some t.id := by
  rw [← map_id_ofJson?, h, Option.map_some]

theorem Feed.mem_idsOf_nodeTypes {declarations : List Json} {id : String} :
    id ∈ Catalog.idsOf (nodeTypes declarations)
      ↔ ∃ json ∈ declarations, Feed.id? json = some id := by
  rw [Catalog.idsOf, nodeTypes, List.map_filterMap, List.mem_filterMap]
  simp only [NodeType.map_id_ofJson?]

/-- The node types of those declarations that state an id which none before them states. -/
def Feed.firsts (declarations : List Json) : List NodeType :=
  declarations.zipIdx.filterMap fun entry =>
    if (declarations.take entry.2).any (id? · == id? entry.1) then none
    else NodeType.ofJson? entry.1

theorem Feed.firsts_append_singleton (declarations : List Json) (json : Json) :
    firsts (declarations ++ [json]) = firsts declarations
      ++ (if declarations.any (id? · == id? json) then none else NodeType.ofJson? json).toList := by
  unfold firsts
  rw [List.zipIdx_append, List.filterMap_append]
  congr 1
  · refine List.filterMap_congr fun entry hentry => ?_
    have hle : entry.2 ≤ declarations.length := by
      have hlt := List.snd_lt_of_mem_zipIdx hentry
      omega
    rw [List.take_append_of_le_length hle]
  · rw [List.zipIdx_singleton, Nat.zero_add, List.filterMap_cons, List.filterMap_nil,
      List.take_left]
    split
    · rename_i hnone
      rw [hnone, Option.toList_none]
    · rename_i t hsome
      rw [hsome, Option.toList_some]

namespace Catalog

/-! ### Declarations one by one -/

/-- The catalog of declarations. -/
def ofDeclarations (declarations : List Json) : Catalog :=
  (Feed.nodeTypes declarations).foldl insertNew ∅

theorem contains_ofDeclarations {declarations : List Json} {id : String} :
    (ofDeclarations declarations).contains id = true
      ↔ ∃ json ∈ declarations, Feed.id? json = some id := by
  rw [ofDeclarations, contains_foldl_insertNew, contains_empty, Feed.mem_idsOf_nodeTypes]
  simp

theorem ofDeclarations_append_singleton (declarations : List Json) (json : Json) :
    ofDeclarations (declarations ++ [json])
      = (NodeType.ofJson? json).elim (ofDeclarations declarations)
          (ofDeclarations declarations).insertNew := by
  unfold ofDeclarations Feed.nodeTypes
  rw [List.filterMap_append, List.foldl_append]
  cases h : NodeType.ofJson? json <;> simp [h]

/-- A catalog has an entry for each id, from the declaration that states it first. -/
theorem entries_ofDeclarations (declarations : List Json) :
    (ofDeclarations declarations).entries = Feed.firsts declarations := by
  induction declarations using List.reverseRecOn with
  | nil => rfl
  | append_singleton declarations json ih =>
      rw [ofDeclarations_append_singleton, Feed.firsts_append_singleton, ← ih]
      cases hread : NodeType.ofJson? json with
      | none => simp
      | some t =>
          have htaken : declarations.any (Feed.id? · == Feed.id? json) = true
              ↔ (ofDeclarations declarations).contains t.id = true := by
            rw [contains_ofDeclarations, List.any_eq_true, NodeType.id?_of_ofJson? hread]
            simp only [beq_iff_eq]
          rw [Option.elim_some]
          by_cases hc : (ofDeclarations declarations).contains t.id = true
          · rw [if_pos (htaken.2 hc), insertNew_of_contains hc, Option.toList_none,
              List.append_nil]
          · rw [if_neg (mt htaken.1 hc), entries_insertNew (Bool.eq_false_iff.2 hc),
              Option.toList_some]

/-- Declarations behind others add what they give by themselves, less the ids that are taken. -/
theorem entries_ofDeclarations_append (declarations more : List Json) :
    (ofDeclarations (declarations ++ more)).entries = (ofDeclarations declarations).entries
      ++ (ofDeclarations more).entries.filter
        fun t => !(ofDeclarations declarations).contains t.id := by
  have happend : ofDeclarations (declarations ++ more)
      = (Feed.nodeTypes more).foldl insertNew (ofDeclarations declarations) := by
    unfold ofDeclarations Feed.nodeTypes
    rw [List.filterMap_append, List.foldl_append]
  rw [happend, entries_foldl_insertNew]
  rfl

/-- A declaration that states no id, or one that was stated before, might as well be missing. -/
theorem ofDeclarations_skip {declarations : List Json} {skipped : Json}
    (h : Feed.id? skipped = none
      ∨ ∃ earlier ∈ declarations, Feed.id? earlier = Feed.id? skipped) (more : List Json) :
    ofDeclarations (declarations ++ skipped :: more) = ofDeclarations (declarations ++ more) := by
  have hskip : ofDeclarations (declarations ++ [skipped]) = ofDeclarations declarations := by
    rw [ofDeclarations_append_singleton]
    cases hread : NodeType.ofJson? skipped with
    | none => rfl
    | some t =>
        have hid := NodeType.id?_of_ofJson? hread
        obtain ⟨earlier, hearlier, hsame⟩ := h.resolve_left (by simp [hid])
        have htaken : (ofDeclarations declarations).contains t.id = true :=
          contains_ofDeclarations.2 ⟨earlier, hearlier, hsame.trans hid⟩
        exact insertNew_of_contains htaken
  refine Catalog.ext ?_
  rw [List.append_cons, entries_ofDeclarations_append, hskip, entries_ofDeclarations_append]

/-! ### Texts -/

theorem ofFeed_eq_map (text : String) : ofFeed text = (Feed.parse text).map ofDeclarations := by
  unfold ofFeed
  cases Feed.parse text <;> rfl

/-- **A text that is an array is loaded exactly if all its items have a value.** -/
theorem exists_ofFeed_iff {text : String} {items : List Raw}
    (htext : Raw.parse? text = some (.array items)) :
    (∃ catalog, ofFeed text = .ok catalog) ↔ ∀ item ∈ items, item.Valued 126 := by
  simp only [← Raw.isSome_toJson?_iff_valued, ← Raw.isSome_itemsToJson?_iff_forall]
  rw [ofFeed_eq_map, Feed.parse_of_array htext]
  cases Raw.itemsToJson? 126 items <;> simp [Except.map]

theorem parse_eq_ok_of_forall₂ {text : String} {items : List Raw} {entries : List Json}
    (htext : Raw.parse? text = some (.array items))
    (hentries : List.Forall₂ (fun item json => item.toJson? 126 = some json) items entries) :
    Feed.parse text = .ok entries := by
  rw [Feed.parse_of_array htext, Raw.itemsToJson?_eq_some_iff.2 hentries, Option.elim_some]

/--
**Declarations are loaded one by one, once all of them are read.**  A text that is an array is
loaded exactly if every item has a value and none nests deeper than 126 arrays and objects; there is
room for 127, and the list is one.  From there on none is in the way of another.  Understood are
those that are objects with a string as id, and the catalog lists their types in order, each from
the declaration that states its id first.  Declarations behind others add what they give by
themselves, less the ids that are taken; one that states no id, or one stated before, might as well
be missing.  Registering all types without passing any over gives the same catalog if no id comes
again, and else fails.
-/
theorem declarations_load_apart_iff_all_are_read (text : String) (items : List Raw)
    (htext : Raw.parse? text = some (.array items)) :
    ((∃ catalog, ofFeed text = .ok catalog) ↔ ∀ item ∈ items, item.Valued 126) ∧
      (∀ entries, List.Forall₂ (fun item json => item.toJson? 126 = some json) items entries →
        Feed.parse text = .ok entries ∧ ofFeed text = .ok (ofDeclarations entries)) ∧
      ∀ entries : List Json,
        let catalog := ofDeclarations entries
        let types := Feed.nodeTypes entries
        (∀ json ∈ entries, (NodeType.ofJson? json).map NodeType.id = Feed.id? json) ∧
          catalog.entries = Feed.firsts entries ∧
          (∀ more, (ofDeclarations (entries ++ more)).entries = catalog.entries
            ++ (ofDeclarations more).entries.filter fun t => !catalog.contains t.id) ∧
          (∀ skipped more, (Feed.id? skipped = none
              ∨ ∃ earlier ∈ entries, Feed.id? earlier = Feed.id? skipped) →
            ofDeclarations (entries ++ skipped :: more) = ofDeclarations (entries ++ more)) ∧
          (ofNodeTypes types = .ok catalog ↔ (idsOf types).Nodup) ∧
          ∀ other, ofNodeTypes types = .ok other → other = catalog := by
  refine ⟨exists_ofFeed_iff htext, ?_, ?_⟩
  · intro entries hentries
    have hparse := parse_eq_ok_of_forall₂ htext hentries
    exact ⟨hparse, by rw [ofFeed_eq_map, hparse]; rfl⟩
  intro entries catalog types
  refine ⟨fun json _ => NodeType.map_id_ofJson? json, entries_ofDeclarations entries,
    entries_ofDeclarations_append entries, fun skipped more h => ofDeclarations_skip h more,
    ofNodeTypes_eq_ok_iff, ?_⟩
  intro other hother
  exact (foldl_insertNew_of_foldlM hother).symm

/-- Of four declarations one is no object and one states an id again; the other two are loaded. -/
theorem declarations_without_new_id_are_passed_over :
    let say : NodeType := { id := "say", title := "Say" }
    let tell : NodeType := { id := "tell", title := "Tell" }
    let shout : NodeType := { id := "say", title := "Shout" }
    let entries := [say.toJson, .bool true, shout.toJson, tell.toJson]
    let text := (Json.array entries).text .compact
    Raw.parse? text = some (.array (Raw.ofItems entries)) ∧
      (∃ catalog, ofFeed text = .ok catalog) ∧
      ofFeed text = .ok (ofDeclarations entries) ∧
      (ofDeclarations entries).entries = [say, tell] := by
  intro say tell shout entries text
  have htext : Raw.parse? text = some (.array (Raw.ofItems entries)) := Raw.parse?_text _ _
  have hread : Raw.itemsToJson? 126 (Raw.ofItems entries) = some entries := rfl
  obtain ⟨-, hload, hcatalog⟩ := declarations_load_apart_iff_all_are_read text _ htext
  have hfeed := (hload entries (Raw.itemsToJson?_eq_some_iff.1 hread)).2
  exact ⟨htext, ⟨_, hfeed⟩, hfeed, (hcatalog entries).2.1⟩

/-- A value of 127 arrays is read from its own text, and states no id; but behind a declaration it
keeps this one from being loaded, which without it is. -/
theorem deeply_nested_entry_keeps_others_out :
    let deep : Json := Nat.repeat (fun json => .array [json]) 127 (.bool true)
    let say : NodeType := { id := "say", title := "Say" }
    (Json.parse? (deep.text .compact)).isSome = true ∧ Feed.id? deep = none ∧
      (ofFeed ((Json.array [say.toJson]).text .compact)).map ids = .ok ["say"] ∧
      ofFeed ((Json.array [say.toJson, deep]).text .compact) = .error .malformedFeed := by
  intro deep say
  refine ⟨(Json.isSome_parse?_text .compact deep).2 (by decide +kernel), rfl, ?_, ?_⟩
  · rw [ofFeed_eq_map, Feed.parse_text]
    rfl
  · have hdeep : ¬Json.itemsDepth [say.toJson, deep] ≤ 126 := by
      decide +kernel
    rw [← Raw.isSome_itemsToJson?, Option.not_isSome_iff_eq_none] at hdeep
    rw [ofFeed_eq_map, Feed.parse_text, hdeep]
    rfl

end Catalog

end CommandFlow
