/-
Node types that are written and declared again.

A declaration may leave much out, and may give kinds and tags in more than one form.  What is
written for a node type leaves nothing out and keeps to one form, so as a value it declares the same
type.

A feed is a text, and reading a text has limits of its own.  Around a default value stand three
levels: the list, the declaration, and its values by key.  A value that nests deeper than what is
left spoils the whole feed, and a double with many digits may come back as a neighbour of it.
Nothing else is lost.
-/
import CommandFlow.Catalog.Feed
import CommandFlow.Proofs.Json.Rereading
import CommandFlow.Proofs.Port.Declaring

namespace CommandFlow

/-! ### Ports -/

/-- The number of a kind is written as an integer. -/
theorem PortKind.ofInt_code (kind : PortKind) :
    ∃ h, Json.ofInt kind.code = .number (.int kind.code h) := by
  have h : -0x8000000000000000 ≤ kind.code ∧ kind.code < 0x10000000000000000 := by
    cases kind <;> decide
  exact ⟨h, by rw [Json.ofInt, Number.ofInt, dif_pos h]⟩

/-- Ports whose keys differ are kept as they stand. -/
theorem PortTable.entries_ofList {entries : List (String × Port)}
    (h : (Entries.keys entries).Nodup) : (ofList entries).entries = entries := by
  rw [entries_ofList_eq_foldl, Entries.foldl_set_of_nodup entries [] h, List.nil_append]

namespace Feed

theorem tags_tagsJson (tags : List String) : Feed.tags (some (tagsJson tags)) = tags := by
  show (tags.map Json.string).filterMap Json.string? = tags
  rw [List.filterMap_map]
  exact List.filterMap_some

theorem nestedShape_toJson (shape : PortShape) : nestedShape (some shape.toJson) = shape := by
  obtain ⟨hrange, hcode⟩ := shape.kind.ofInt_code
  show PortShape.mk (kind (.ofInt shape.kind.code)) (Feed.tags (some (tagsJson shape.tags))) = shape
  rw [hcode, tags_tagsJson, kind, PortKind.ofCode_code]

theorem port?_toJson (key : String) (port : Port) : port? key port.toJson = some port := by
  have hnested := nestedShape_toJson port.shape
  show some (Port.mk (if (nestedShape (some port.shape.toJson)).tags.isEmpty then
    { nestedShape (some port.shape.toJson) with tags := Feed.tags none }
      else nestedShape (some port.shape.toJson)) port.name) = some port
  rw [hnested]
  -- A port without tags looks for them beside its kind, where none are written.
  split
  case isTrue hempty =>
    have htags : port.shape.tags = Feed.tags none := List.isEmpty_iff.1 hempty
    rw [← htags]
  case isFalse => rfl

theorem ports_toJson (table : PortTable) : ports (some table.toJson) = table := by
  have hread : (table.entries.map fun entry => (entry.1, entry.2.toJson)).filterMap
      (fun entry => (port? entry.1 entry.2).map (entry.1, ·)) = table.entries := by
    rw [List.filterMap_map]
    refine Eq.trans (List.filterMap_congr fun entry _ => ?_) List.filterMap_some
    show (port? entry.1 entry.2.toJson).map (entry.1, ·) = some entry
    rw [port?_toJson]
    rfl
  refine PortTable.ext ?_
  show (PortTable.ofList _).entries = table.entries
  exact (congrArg (fun entries => (PortTable.ofList entries).entries) hread).trans
    (PortTable.entries_ofList table.nodup)

theorem defaults_toJson (values : Literals) : defaults (some values.toJson) = values :=
  Literals.ext (Literals.entries_ofList values.ascending)

end Feed

/-- **The written form of a node type declares it.** -/
theorem NodeType.ofJson?_toJson (t : NodeType) : ofJson? t.toJson = some t := by
  have hread : ofJson? t.toJson = some { t with
      inputs := Feed.ports (some t.inputs.toJson)
      outputs := Feed.ports (some t.outputs.toJson)
      defaults := Feed.defaults (some t.defaults.toJson) } := rfl
  rw [hread, Feed.ports_toJson, Feed.ports_toJson, Feed.defaults_toJson]

theorem Feed.nodeTypes_toJson (types : List NodeType) :
    nodeTypes (types.map NodeType.toJson) = types := by
  have hread : NodeType.ofJson? ∘ NodeType.toJson = some := funext NodeType.ofJson?_toJson
  rw [nodeTypes, List.filterMap_map, hread, List.filterMap_some]

/-! ### What is written for a node type, as text -/

open Json (Raw Readable ReadsBack)

theorem readable_tagsJson (depth : Nat) (tags : List String) :
    Readable (depth + 1) (tagsJson tags) := by
  refine .array ?_
  rw [List.forall_mem_map]
  exact fun tag _ => .string depth tag

theorem PortShape.readable_toJson (depth : Nat) (shape : PortShape) :
    Readable (depth + 2) shape.toJson := by
  obtain ⟨hrange, hcode⟩ := shape.kind.ofInt_code
  refine .object (by simp [Entries.keys]) ?_
  rw [hcode]
  simp only [List.forall_mem_cons, List.not_mem_nil, false_implies, implies_true, and_true]
  exact ⟨.int _ _ _, readable_tagsJson depth shape.tags⟩

theorem Port.readable_toJson (depth : Nat) (port : Port) : Readable (depth + 3) port.toJson := by
  refine .object (by simp [Entries.keys]) ?_
  simp only [List.forall_mem_cons, List.not_mem_nil, false_implies, implies_true, and_true]
  exact ⟨port.shape.readable_toJson depth, .string _ _⟩

theorem PortTable.readable_toJson (depth : Nat) (table : PortTable) :
    Readable (depth + 4) table.toJson := by
  refine .object ?_ ?_
  · show (Entries.keys (table.entries.map fun entry => (entry.1, entry.2.toJson))).Nodup
    rw [Entries.keys_map_values]
    exact table.nodup
  · rw [List.forall_mem_map]
    exact fun entry _ => entry.2.readable_toJson depth

/-- No double is written for a port. -/
theorem Port.doubles_toJson (port : Port) : port.toJson.doubles = [] := by
  obtain ⟨hrange, hcode⟩ := port.shape.kind.ofInt_code
  have htags : (tagsJson port.shape.tags).doubles = [] := by
    rw [tagsJson, Json.doubles, Json.itemsDoubles_eq]
    simp [Json.doubles]
  simp [toJson, PortShape.toJson, hcode, Json.doubles, Json.entriesDoubles, htags]

/-- The ports of one side come back as they were. -/
theorem PortTable.toJson?_ofJson_toJson (depth : Nat) (table : PortTable) :
    (Raw.ofJson table.toJson).toJson? (depth + 4) = some table.toJson := by
  rw [Json.toJson?_ofJson_eq_self_iff]
  refine ⟨table.readable_toJson depth, ?_⟩
  rw [toJson, Json.doubles, Json.entriesDoubles_eq]
  simp [Port.doubles_toJson]

namespace NodeType

/-- The node type that is read where one was written: its default values are those that are read. -/
def reread? (depth : Nat) (t : NodeType) : Option NodeType :=
  (Raw.entriesToJson? depth (Raw.ofEntries t.defaults.entries)).map fun entries =>
    { t with defaults := .ofList entries }

/-- Default values are kept as they are read. -/
theorem entries_of_reread? {depth : Nat} {t u : NodeType} (h : t.reread? depth = some u) :
    Raw.entriesToJson? depth (Raw.ofEntries t.defaults.entries) = some u.defaults.entries ∧
      u = { t with defaults := u.defaults } := by
  obtain ⟨entries, hentries, rfl⟩ := Option.map_eq_some_iff.1 h
  refine ⟨?_, rfl⟩
  have hascending : Entries.Ascending entries := by
    rw [Entries.Ascending, Raw.keys_of_entriesToJson? _ hentries]
    exact t.defaults.ascending
  rw [hentries, Literals.entries_ofList hascending]

theorem toJson?_ofJson_defaults (depth : Nat) (t : NodeType) :
    (Raw.ofJson t.defaults.toJson).toJson? (depth + 1)
      = (t.reread? depth).map (·.defaults.toJson) := by
  rw [Literals.toJson, Raw.ofJson, Raw.toJson?]
  cases hread : t.reread? depth with
  | none => rw [Option.map_eq_none_iff.1 hread, Option.map_none, Option.map_none]
  | some u =>
      have hentries := (entries_of_reread? hread).1
      rw [hentries, Option.map_some, Option.map_some,
        Json.ofEntries_of_nodup u.defaults.ascending.nodup]
      rfl

/-- **What is read where a node type was written is what is written for one that differs from it in
nothing but its default values.** -/
theorem toJson?_ofJson_toJson (depth : Nat) (t : NodeType) :
    (Raw.ofJson t.toJson).toJson? (depth + 5) = (t.reread? (depth + 3)).map toJson := by
  have hinputs := t.inputs.toJson?_ofJson_toJson depth
  have houtputs := t.outputs.toJson?_ofJson_toJson depth
  have hdefaults := t.toJson?_ofJson_defaults (depth + 3)
  cases hread : t.reread? (depth + 3) with
  | none =>
      rw [hread, Option.map_none] at hdefaults
      simp [toJson, Raw.ofJson, Raw.ofEntries, Raw.toJson?, Raw.entriesToJson?, hinputs, houtputs,
        hdefaults]
  | some u =>
      rw [hread, Option.map_some] at hdefaults
      rw [(entries_of_reread? hread).2, Option.map_some]
      simp [toJson, Raw.ofJson, Raw.ofEntries, Raw.toJson?, Raw.entriesToJson?, hinputs, houtputs,
        hdefaults, Json.ofEntries_of_nodup, Entries.keys]

/-- A node type comes back as it was exactly if its default values do. -/
theorem reread?_eq_self_iff {depth : Nat} {t : NodeType} :
    t.reread? depth = some t ↔ ∀ entry ∈ t.defaults.entries,
      Readable depth entry.2 ∧ ∀ x ∈ entry.2.doubles, ReadsBack x := by
  simp only [← Json.toJson?_ofJson_eq_self_iff, ← Raw.entriesToJson?_ofEntries_iff]
  constructor
  · intro h
    exact (entries_of_reread? h).1
  · intro h
    rw [reread?, h, Option.map_some, Literals.ext (Literals.entries_ofList t.defaults.ascending)]

theorem isSome_reread?_iff {depth : Nat} {t : NodeType} :
    (t.reread? depth).isSome = true ↔ ∀ entry ∈ t.defaults.entries, entry.2.depth ≤ depth := by
  rw [reread?, Option.isSome_map, Raw.isSome_entriesToJson?, Json.entriesDepth_le_iff]

end NodeType

namespace Feed

/-- A text that is an array is a feed if all its items are read. -/
theorem parse_of_array {text : String} {items : List Raw}
    (htext : Raw.parse? text = some (.array items)) :
    parse text = (Raw.itemsToJson? 126 items).elim (.error .malformedFeed) .ok := by
  have hparse : Json.parse? text = (Raw.itemsToJson? 126 items).map .array := by
    rw [Json.parse?, htext]
    rfl
  rw [parse, hparse]
  cases Raw.itemsToJson? 126 items with
  | none => rfl
  | some values => rfl

theorem parse_text (form : Json.Form) (items : List Json) :
    parse ((Json.array items).text form)
      = (Raw.itemsToJson? 126 (Raw.ofItems items)).elim (.error .malformedFeed) .ok :=
  parse_of_array (Raw.parse?_text form (.array items))

theorem parse_eq_ok_iff {form : Json.Form} {items declarations : List Json} :
    parse ((Json.array items).text form) = .ok declarations
      ↔ Raw.itemsToJson? 126 (Raw.ofItems items) = some declarations := by
  rw [parse_text]
  cases Raw.itemsToJson? 126 (Raw.ofItems items) with
  | none => simp
  | some values => simp

/-- What is read where node types were written is the written form of those read. -/
theorem exists_of_itemsToJson? {depth : Nat} : ∀ {types : List NodeType} {values : List Json},
    Raw.itemsToJson? (depth + 5) (Raw.ofItems (types.map NodeType.toJson)) = some values →
      ∃ read, values = read.map NodeType.toJson ∧
        List.Forall₂ (fun t u => t.reread? (depth + 3) = some u) types read := by
  intro types
  induction types with
  | nil =>
      intro values h
      exact ⟨[], (Option.some.inj h).symm, .nil⟩
  | cons t rest ih =>
      intro values h
      rw [List.map_cons, Raw.ofItems, Raw.itemsToJson?, t.toJson?_ofJson_toJson depth] at h
      obtain ⟨value, hvalue, h⟩ := Option.bind_eq_some_iff.1 h
      obtain ⟨others, hothers, h⟩ := Option.bind_eq_some_iff.1 h
      obtain rfl := Option.some.inj h
      obtain ⟨u, hu, rfl⟩ := Option.map_eq_some_iff.1 hvalue
      obtain ⟨read, rfl, hread⟩ := ih hothers
      exact ⟨u :: read, rfl, .cons hu hread⟩

/-- The text of node types is a feed exactly if no default value nests too deep. -/
theorem exists_parse_iff (form : Json.Form) (types : List NodeType) :
    (∃ declarations, parse ((Json.array (types.map NodeType.toJson)).text form) = .ok declarations)
      ↔ ∀ t ∈ types, ∀ entry ∈ t.defaults.entries, entry.2.depth ≤ 124 := by
  have hdepth : ∀ t : NodeType, t.toJson.depth ≤ 126
      ↔ ∀ entry ∈ t.defaults.entries, entry.2.depth ≤ 124 := by
    intro t
    rw [← Raw.isSome_toJson?_ofJson, t.toJson?_ofJson_toJson 121, Option.isSome_map,
      NodeType.isSome_reread?_iff]
  simp only [parse_eq_ok_iff]
  rw [← Option.isSome_iff_exists, Raw.isSome_itemsToJson?, Json.itemsDepth_le_iff,
    List.forall_mem_map]
  exact forall₂_congr fun t _ => hdepth t

/-- Where the text of node types is a feed, it declares those that are read, one for each. -/
theorem forall₂_of_parse {form : Json.Form} {types : List NodeType} {declarations : List Json}
    (h : parse ((Json.array (types.map NodeType.toJson)).text form) = .ok declarations) :
    List.Forall₂ (fun t u => t.reread? 124 = some u) types (nodeTypes declarations) := by
  obtain ⟨read, rfl, hread⟩ := exists_of_itemsToJson? (parse_eq_ok_iff.1 h)
  rw [nodeTypes_toJson]
  exact hread

theorem nodeTypes_parse_eq_iff (form : Json.Form) (types : List NodeType) :
    (parse ((Json.array (types.map NodeType.toJson)).text form)).map nodeTypes = .ok types
      ↔ ∀ t ∈ types, t.reread? 124 = some t := by
  constructor
  · intro h
    cases hparse : parse ((Json.array (types.map NodeType.toJson)).text form) with
    | error cause =>
        rw [hparse] at h
        exact absurd h (by simp [Except.map])
    | ok declarations =>
        rw [hparse] at h
        have hread := forall₂_of_parse hparse
        have hsame : nodeTypes declarations = types := Except.ok.inj h
        rw [hsame, List.forall₂_same] at hread
        exact hread
  · intro h
    have hparse : parse ((Json.array (types.map NodeType.toJson)).text form)
        = .ok (types.map NodeType.toJson) := by
      rw [parse_eq_ok_iff, Raw.itemsToJson?_ofItems_iff, List.forall_mem_map]
      intro t ht
      rw [t.toJson?_ofJson_toJson 121, h t ht, Option.map_some]
    rw [hparse]
    exact congrArg Except.ok (nodeTypes_toJson types)

/--
**A node type is declared by its written form, and a list of them by its text unless default values
are in the way.**  As a value the written form declares the same type, whatever its ports and values
are.  The text of a list is a feed exactly if no default value in it nests deeper than 124 arrays
and objects; there is room for 127, and three stand around such a value.  What it then declares are
the same types in order, but for their default values, and the same types exactly if these come back
as they were.
-/
theorem written_types_declare_themselves (form : Json.Form) (types : List NodeType) :
    let text := (Json.array (types.map NodeType.toJson)).text form
    (∀ t ∈ types, NodeType.ofJson? t.toJson = some t) ∧
      ((∃ declarations, parse text = .ok declarations)
        ↔ ∀ t ∈ types, ∀ entry ∈ t.defaults.entries, entry.2.depth ≤ 124) ∧
      (∀ declarations, parse text = .ok declarations →
        List.Forall₂ (fun t u => u = { t with defaults := u.defaults }) types
          (nodeTypes declarations)) ∧
      ((parse text).map nodeTypes = .ok types
        ↔ ∀ t ∈ types, ∀ entry ∈ t.defaults.entries,
            Readable 124 entry.2 ∧ ∀ x ∈ entry.2.doubles, ReadsBack x) := by
  intro text
  refine ⟨fun t _ => t.ofJson?_toJson, exists_parse_iff form types, ?_, ?_⟩
  · intro declarations hparse
    refine (forall₂_of_parse hparse).imp ?_
    intro t u hread
    exact (NodeType.entries_of_reread? hread).2
  · rw [nodeTypes_parse_eq_iff]
    exact forall₂_congr fun t _ => NodeType.reread?_eq_self_iff

/-- A default value of 125 arrays is read from its own text, and its type is declared by what is
written for it; but the text of a list with that type is no feed, and the other type is lost too. -/
theorem deeply_nested_default_spoils_feed :
    let deep : Json := Nat.repeat (fun json => .array [json]) 125 (.bool true)
    let tell : NodeType := { id := "tell", title := "Tell" }
    let say : NodeType := { id := "say", title := "Say", defaults := .ofList [("text", deep)] }
    (Json.parse? (deep.text .compact)).isSome = true ∧
      NodeType.ofJson? say.toJson = some say ∧
      parse ((Json.array [tell.toJson, say.toJson]).text .compact) = .error .malformedFeed := by
  intro deep tell say
  refine ⟨(Json.isSome_parse?_text .compact deep).2 (by decide +kernel), say.ofJson?_toJson, ?_⟩
  have hdeep : ¬Json.itemsDepth [tell.toJson, say.toJson] ≤ 126 := by
    decide +kernel
  rw [← Raw.isSome_itemsToJson?, Option.not_isSome_iff_eq_none] at hdeep
  rw [parse_text, hdeep, Option.elim_none]

end Feed

end CommandFlow
