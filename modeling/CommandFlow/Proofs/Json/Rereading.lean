/-
Values that are read, written and read again.

What is read from a text has no key twice in an object, and every double in it is finite.  Written
again, it is therefore read as the same value, but for its doubles: a double with many digits may
come back as a neighbour of it.  So a value comes back as it was exactly if its doubles do.
-/
import CommandFlow.Proofs.Entries
import CommandFlow.Proofs.Json.Parsing

namespace CommandFlow

/-! ### Doubles -/

/-- What is written as an integer has neither a point nor an exponent. -/
theorem Json.Literal.of_integer? {l : Literal} {n : Number} (h : l.integer? = some n) :
    (∃ v hv, n = .int v hv) ∧ l.fraction = [] ∧ l.exponent = none := by
  unfold integer? at h
  dsimp only at h
  rw [Option.dite_none_right_eq_some] at h
  obtain ⟨hrange, h⟩ := h
  rw [Option.ite_none_right_eq_some] at h
  obtain ⟨⟨hfraction, hexponent, -⟩, h⟩ := h
  exact ⟨⟨_, hrange, (Option.some.inj h).symm⟩, hfraction, hexponent⟩

/-- A decimal is never written like an integer. -/
theorem Decimal.integer?_literal (negative : Bool) (d : Decimal) :
    (d.literal negative).integer? = none := by
  have hshape : (d.literal negative).fraction ≠ [] ∨ (d.literal negative).exponent ≠ none := by
    unfold literal
    split
    · refine Or.inl ?_
      unfold positionalLiteral
      split
      · simp [d.significant_ne_nil]
      · split
        · simp
        · rename_i hpos hlong
          simp only [ne_eq, List.drop_eq_nil_iff]
          omega
    · exact Or.inr (by simp [scientificLiteral])
  cases hinteger : (d.literal negative).integer? with
  | none => rfl
  | some n =>
      obtain ⟨-, hfraction, hexponent⟩ := Json.Literal.of_integer? hinteger
      exact absurd hshape (by simp [hfraction, hexponent])

namespace Json

/-- What is written for a double is read as a double. -/
theorem number?_of_double {x : Binary64} {l : Literal} (h : literal? (.double x) = some l) :
    l.number? = some (.double l.toBinary64) := by
  cases x with
  | nan => exact absurd h (by simp [literal?])
  | infinite negative => exact absurd h (by simp [literal?])
  | finite negative m e canonical =>
      obtain rfl := Option.some.inj h
      rw [Literal.number?, Decimal.integer?_literal, if_pos (Binary64.isFinite_literal negative canonical)]

theorem exists_literal?_of_isFinite {x : Binary64} (h : x.isFinite = true) :
    ∃ l, literal? (.double x) = some l := by
  cases x with
  | nan => exact absurd h (by simp [Binary64.isFinite])
  | infinite negative => exact absurd h (by simp [Binary64.isFinite])
  | finite negative m e canonical => exact ⟨_, rfl⟩

/-- Whether a double is read back from the text that is written for it. -/
def ReadsBack (x : Binary64) : Prop :=
  parse? (text .compact (.number (.double x))) = some (.number (.double x))

theorem toJson?_ofJson_double {x : Binary64} {l : Literal} (h : literal? (.double x) = some l)
    (d : Nat) : (Raw.ofJson (.number (.double x))).toJson? d
      = some (.number (.double l.toBinary64)) := by
  rw [Raw.ofJson, h, Option.elim_some, Raw.toJson?, number?_of_double h]
  rfl

theorem readsBack_iff {x : Binary64} :
    ReadsBack x ↔ (literal? (.double x)).map Literal.toBinary64 = some x := by
  rw [ReadsBack, parse?_text]
  cases h : literal? (.double x) with
  | none => simp [Raw.ofJson, h, Raw.toJson?]
  | some l => simp [toJson?_ofJson_double h]

instance (x : Binary64) : Decidable (ReadsBack x) :=
  decidable_of_iff _ readsBack_iff.symm

example : ReadsBack (.ofDecimal false ⟨1, -1⟩) := by
  decide +kernel

/-- A double of seventeen digits that is not read back. -/
example : ¬ReadsBack (.ofDecimal false ⟨39063053896071604, -19⟩) := by
  decide +kernel

/-- The doubles that are read are finite. -/
theorem isFinite_of_number? {l : Literal} {x : Binary64} (h : l.number? = some (.double x)) :
    x.isFinite = true := by
  unfold Literal.number? at h
  split at h
  · rename_i n hn
    obtain ⟨⟨v, hv, rfl⟩, -⟩ := Literal.of_integer? hn
    exact absurd h (by simp)
  · rw [Option.ite_none_right_eq_some] at h
    obtain ⟨hfinite, h⟩ := h
    obtain rfl := Number.double.inj (Option.some.inj h)
    exact hfinite

/-! ### The doubles in a value -/

mutual

/-- The doubles in a value. -/
def doubles : Json → List Binary64
  | .number (.double x) => [x]
  | .array items => itemsDoubles items
  | .object entries => entriesDoubles entries
  | _ => []

/-- The doubles in items. -/
def itemsDoubles : List Json → List Binary64
  | [] => []
  | item :: rest => doubles item ++ itemsDoubles rest

/-- The doubles in entries. -/
def entriesDoubles : List (String × Json) → List Binary64
  | [] => []
  | (_, value) :: rest => doubles value ++ entriesDoubles rest

end

theorem itemsDoubles_eq (items : List Json) : itemsDoubles items = items.flatMap doubles := by
  induction items with
  | nil => rfl
  | cons item rest ih => rw [itemsDoubles, List.flatMap_cons, ih]

theorem entriesDoubles_eq (entries : List (String × Json)) :
    entriesDoubles entries = entries.flatMap (·.2.doubles) := by
  induction entries with
  | nil => rfl
  | cons entry rest ih => rw [entriesDoubles, List.flatMap_cons, ih]

/-! ### What is read -/

/-- The values that are read where nesting goes no deeper than given. -/
inductive Readable : Nat → Json → Prop
  | null (d : Nat) : Readable d .null
  | bool (d : Nat) (b : Bool) : Readable d (.bool b)
  | int (d : Nat) (n : Int) (h : -0x8000000000000000 ≤ n ∧ n < 0x10000000000000000) :
      Readable d (.number (.int n h))
  | double (d : Nat) {x : Binary64} (hfinite : x.isFinite = true) :
      Readable d (.number (.double x))
  | string (d : Nat) (s : String) : Readable d (.string s)
  | array {d : Nat} {items : List Json} (hitems : ∀ item ∈ items, Readable d item) :
      Readable (d + 1) (.array items)
  | object {d : Nat} {entries : List (String × Json)} (hkeys : (Entries.keys entries).Nodup)
      (hentries : ∀ entry ∈ entries, Readable d entry.2) : Readable (d + 1) (.object entries)

theorem Readable.ofEntries {d : Nat} {entries : List (String × Json)}
    (h : ∀ entry ∈ entries, Readable d entry.2) : Readable (d + 1) (ofEntries entries) := by
  obtain ⟨hnodup, hmem⟩ := Entries.foldl_set_spec entries
  exact .object hnodup fun entry hentry => h entry (hmem entry hentry)

namespace Raw

mutual

/-- **What is read from a tree is readable.** -/
theorem readable_of_toJson? :
    ∀ (raw : Raw) {d : Nat} {json : Json}, raw.toJson? d = some json → Readable d json
  | .null, d, json, h => by
      obtain rfl := Option.some.inj h
      exact .null d
  | .bool b, d, json, h => by
      obtain rfl := Option.some.inj h
      exact .bool d b
  | .number l, d, json, h => by
      rw [toJson?, Option.map_eq_some_iff] at h
      obtain ⟨n, hn, rfl⟩ := h
      cases n with
      | int n hrange => exact .int d n hrange
      | double x => exact .double d (isFinite_of_number? hn)
  | .string s, d, json, h => by
      rw [toJson?, Option.map_eq_some_iff] at h
      obtain ⟨s, -, rfl⟩ := h
      exact .string d s
  | .array items, 0, json, h => absurd h (by simp [toJson?])
  | .array items, d + 1, json, h => by
      rw [toJson?, Option.map_eq_some_iff] at h
      obtain ⟨values, hvalues, rfl⟩ := h
      exact .array (readable_of_itemsToJson? items hvalues)
  | .object entries, 0, json, h => absurd h (by simp [toJson?])
  | .object entries, d + 1, json, h => by
      rw [toJson?, Option.map_eq_some_iff] at h
      obtain ⟨values, hvalues, rfl⟩ := h
      exact .ofEntries (readable_of_entriesToJson? entries hvalues)
  | .broken, d, json, h => absurd h (by simp [toJson?])

theorem readable_of_itemsToJson? :
    ∀ (items : List Raw) {d : Nat} {values : List Json}, itemsToJson? d items = some values →
      ∀ value ∈ values, Readable d value
  | [], d, values, h => by
      obtain rfl := Option.some.inj h
      simp
  | item :: rest, d, values, h => by
      rw [itemsToJson?] at h
      obtain ⟨value, hvalue, h⟩ := Option.bind_eq_some_iff.1 h
      obtain ⟨others, hothers, h⟩ := Option.bind_eq_some_iff.1 h
      obtain rfl := Option.some.inj h
      exact List.forall_mem_cons.2
        ⟨readable_of_toJson? item hvalue, readable_of_itemsToJson? rest hothers⟩

theorem readable_of_entriesToJson? :
    ∀ (entries : List (Option String × Raw)) {d : Nat} {values : List (String × Json)},
      entriesToJson? d entries = some values → ∀ value ∈ values, Readable d value.2
  | [], d, values, h => by
      obtain rfl := Option.some.inj h
      simp
  | (key, item) :: rest, d, values, h => by
      rw [entriesToJson?] at h
      obtain ⟨key, -, h⟩ := Option.bind_eq_some_iff.1 h
      obtain ⟨value, hvalue, h⟩ := Option.bind_eq_some_iff.1 h
      obtain ⟨others, hothers, h⟩ := Option.bind_eq_some_iff.1 h
      obtain rfl := Option.some.inj h
      exact List.forall_mem_cons.2
        ⟨readable_of_toJson? item hvalue, readable_of_entriesToJson? rest hothers⟩

end

end Raw

theorem Readable.depth_le {d : Nat} {json : Json} (h : Readable d json) : json.depth ≤ d := by
  induction h with
  | null d => exact Nat.zero_le d
  | bool d b => exact Nat.zero_le d
  | int d n h => exact Nat.zero_le d
  | double d hfinite => exact Nat.zero_le d
  | string d s => exact Nat.zero_le d
  | array _ ih => exact Nat.succ_le_succ (itemsDepth_le_iff.2 ih)
  | object _ _ ih => exact Nat.succ_le_succ (entriesDepth_le_iff.2 ih)

theorem Readable.isFinite_of_mem {d : Nat} {json : Json} (h : Readable d json) :
    ∀ x ∈ json.doubles, x.isFinite = true := by
  induction h with
  | null d => simp [doubles]
  | bool d b => simp [doubles]
  | int d n h => simp [doubles]
  | double d hfinite => simpa [doubles] using hfinite
  | string d s => simp [doubles]
  | array _ ih =>
      rw [doubles, itemsDoubles_eq, List.forall_mem_flatMap]
      exact ih
  | object _ _ ih =>
      rw [doubles, entriesDoubles_eq, List.forall_mem_flatMap]
      exact ih

/-! ### Reading again -/

/-- Entries whose keys differ make up an object as they stand. -/
theorem ofEntries_of_nodup {entries : List (String × Json)} (h : (Entries.keys entries).Nodup) :
    ofEntries entries = .object entries := by
  rw [ofEntries, Entries.foldl_set_of_nodup entries [] h, List.nil_append]

namespace Raw

/-- Items come back as they were exactly if each does. -/
theorem itemsToJson?_ofItems_iff {d : Nat} (items : List Json) :
    itemsToJson? d (ofItems items) = some items
      ↔ ∀ item ∈ items, (ofJson item).toJson? d = some item := by
  induction items with
  | nil => simp [ofItems, itemsToJson?]
  | cons item rest ih =>
      rw [ofItems, itemsToJson?, List.forall_mem_cons, ← ih]
      cases (ofJson item).toJson? d <;> cases itemsToJson? d (ofItems rest) <;> simp

theorem entriesToJson?_ofEntries_iff {d : Nat} (entries : List (String × Json)) :
    entriesToJson? d (ofEntries entries) = some entries
      ↔ ∀ entry ∈ entries, (ofJson entry.2).toJson? d = some entry.2 := by
  induction entries with
  | nil => simp [ofEntries, entriesToJson?]
  | cons entry rest ih =>
      obtain ⟨key, value⟩ := entry
      rw [ofEntries, entriesToJson?, List.forall_mem_cons, ← ih]
      cases (ofJson value).toJson? d <;> cases entriesToJson? d (ofEntries rest) <;> simp

/-- Keys come back as they were. -/
theorem keys_of_entriesToJson? {d : Nat} (entries : List (String × Json))
    {values : List (String × Json)} (h : entriesToJson? d (ofEntries entries) = some values) :
    Entries.keys values = Entries.keys entries := by
  induction entries generalizing values with
  | nil =>
      obtain rfl := Option.some.inj h
      rfl
  | cons entry rest ih =>
      obtain ⟨key, value⟩ := entry
      rw [ofEntries, entriesToJson?] at h
      obtain ⟨_, hkey, h⟩ := Option.bind_eq_some_iff.1 h
      obtain ⟨value', -, h⟩ := Option.bind_eq_some_iff.1 h
      obtain ⟨others, hothers, h⟩ := Option.bind_eq_some_iff.1 h
      obtain rfl := Option.some.inj h
      obtain rfl := Option.some.inj hkey
      rw [Entries.keys_cons, Entries.keys_cons, ih hothers]

/-- An object whose keys differ comes back as it was exactly if its entries do. -/
theorem toJson?_object_iff {d : Nat} {entries : List (String × Json)}
    (hkeys : (Entries.keys entries).Nodup) :
    (ofJson (.object entries)).toJson? (d + 1) = some (.object entries)
      ↔ entriesToJson? d (ofEntries entries) = some entries := by
  rw [ofJson, toJson?, Option.map_eq_some_iff]
  constructor
  · rintro ⟨values, hvalues, heq⟩
    rw [ofEntries_of_nodup (keys_of_entriesToJson? entries hvalues ▸ hkeys)] at heq
    rw [hvalues, Json.object.inj heq]
  · intro h
    exact ⟨entries, h, ofEntries_of_nodup hkeys⟩

end Raw

/-- **A value that is read comes back as it was exactly if its doubles do.** -/
theorem Readable.toJson?_ofJson_iff {d : Nat} {json : Json} (h : Readable d json) :
    (Raw.ofJson json).toJson? d = some json ↔ ∀ x ∈ json.doubles, ReadsBack x := by
  induction h with
  | null d => simp [Raw.ofJson, Raw.toJson?, doubles]
  | bool d b => simp [Raw.ofJson, Raw.toJson?, doubles]
  | int d n h =>
      have hread : (Raw.ofJson (.number (.int n h))).toJson? d = some (.number (.int n h)) := by
        rw [Raw.ofJson, literal?, Option.elim_some, Raw.toJson?, number?_integerLiteral h]
        rfl
      simp [hread, doubles]
  | double d hfinite =>
      obtain ⟨l, hl⟩ := exists_literal?_of_isFinite hfinite
      simp [toJson?_ofJson_double hl, doubles, readsBack_iff, hl]
  | string d s => simp [Raw.ofJson, Raw.toJson?, doubles]
  | array _ ih =>
      rw [Raw.ofJson, Raw.toJson?, Option.map_eq_some_iff]
      simp only [Json.array.injEq, exists_eq_right, Raw.itemsToJson?_ofItems_iff, doubles,
        itemsDoubles_eq, List.forall_mem_flatMap]
      exact forall₂_congr ih
  | object hkeys _ ih =>
      simp only [Raw.toJson?_object_iff hkeys, Raw.entriesToJson?_ofEntries_iff, doubles,
        entriesDoubles_eq, List.forall_mem_flatMap]
      exact forall₂_congr ih

/-- A value comes back as it was exactly if it can be read at all and its doubles come back. -/
theorem toJson?_ofJson_eq_self_iff {d : Nat} {json : Json} :
    (Raw.ofJson json).toJson? d = some json
      ↔ Readable d json ∧ ∀ x ∈ json.doubles, ReadsBack x := by
  constructor
  · intro h
    have hreadable := Raw.readable_of_toJson? _ h
    exact ⟨hreadable, hreadable.toJson?_ofJson_iff.1 h⟩
  · rintro ⟨hreadable, hdoubles⟩
    exact hreadable.toJson?_ofJson_iff.2 hdoubles

end Json

end CommandFlow
