/-
A written value is read, if it does not nest too deep.

The tokens of a value make up a tree that follows the value.  Nothing on the way depends on how deep
the value nests; only the last step, from the tree to a value, enters no more than a given number of
arrays and objects.  Every number that is written is read as a number, so nothing else stands in the
way.

A text that was not written for a value may hold numbers and strings that have none.  `Valued` says
of any tree whether it is read.
-/
import CommandFlow.Json.Raw
import CommandFlow.Proofs.Json.Lexing

namespace CommandFlow.Json

/-! ### Trees -/

namespace Raw

mutual

/-- The tree of a written value. -/
def ofJson : Json → Raw
  | .null => .null
  | .bool b => .bool b
  | .number n => (literal? n).elim .null .number
  | .string s => .string (some s)
  | .array items => .array (ofItems items)
  | .object entries => .object (ofEntries entries)

/-- The trees of written items. -/
def ofItems : List Json → List Raw
  | [] => []
  | item :: rest => ofJson item :: ofItems rest

/-- The trees of written entries. -/
def ofEntries : List (String × Json) → List (Option String × Raw)
  | [] => []
  | (key, value) :: rest => (some key, ofJson value) :: ofEntries rest

end

theorem ofItems_eq (items : List Json) : ofItems items = items.map ofJson := by
  induction items with
  | nil => rfl
  | cons item rest ih => rw [ofItems, List.map_cons, ih]

theorem ofEntries_eq (entries : List (String × Json)) :
    ofEntries entries = entries.map fun entry => (some entry.1, ofJson entry.2) := by
  induction entries with
  | nil => rfl
  | cons entry rest ih => rw [ofEntries, List.map_cons, ih]

/-- No value starts with the end of an array. -/
theorem tokens_ne_closeArray (json : Json) (ts rest : List Token) :
    json.tokens ++ ts ≠ .closeArray :: rest := by
  cases json with
  | null => simp [tokens]
  | bool b => simp [tokens]
  | number n => cases hn : literal? n <;> simp [tokens, hn]
  | string s => simp [tokens]
  | array items => cases items <;> simp [tokens]
  | object entries => cases entries <;> simp [tokens]

mutual

/-- The tokens of a value are read as its tree, inside whatever is not finished. -/
theorem ofValue_tokens :
    ∀ (json : Json) (rest : List Token) (frames : List Frame),
      ofValue (json.tokens ++ rest) frames = afterValue (ofJson json) rest frames
  | .null, rest, frames => by
      rw [tokens, List.singleton_append, ofValue, ofJson]
  | .bool b, rest, frames => by
      rw [tokens, List.singleton_append, ofValue, ofJson]
  | .number n, rest, frames => by
      rw [tokens, List.singleton_append, ofJson]
      cases literal? n with
      | none => rw [Option.elim_none, Option.elim_none, ofValue]
      | some l => rw [Option.elim_some, Option.elim_some, ofValue]
  | .string s, rest, frames => by
      rw [tokens, List.singleton_append, ofValue, ofJson]
  | .array [], rest, frames => by
      rw [tokens, List.cons_append, List.singleton_append, ofValue, ofJson, ofItems]
  | .array (item :: items), rest, frames => by
      rw [tokens, List.cons_append, List.append_assoc, List.append_assoc, ofValue]
      · rw [ofValue_tokens item, List.singleton_append, afterValue_itemsTokens items,
          List.reverse_cons, ofJson, ofItems]
        rfl
      · exact fun ts hts => tokens_ne_closeArray item _ ts hts
  | .object [], rest, frames => by
      rw [tokens, List.cons_append, List.singleton_append, ofValue, ofJson, ofEntries]
  | .object ((key, value) :: entries), rest, frames => by
      simp only [tokens, List.cons_append, List.append_assoc, List.nil_append]
      rw [ofValue, ofValue_tokens value, afterValue_entriesTokens entries, ofJson, ofEntries]
      rfl

theorem afterValue_itemsTokens :
    ∀ (items : List Json) (value : Raw) (done : List Raw) (rest : List Token) (frames : List Frame),
      afterValue value (itemsTokens items ++ .closeArray :: rest) (.array done :: frames)
        = afterValue (.array ((value :: done).reverse ++ ofItems items)) rest frames
  | [], value, done, rest, frames => by
      rw [itemsTokens, List.nil_append, afterValue, ofItems, List.append_nil]
  | item :: items, value, done, rest, frames => by
      rw [itemsTokens, List.cons_append, List.append_assoc, afterValue, ofValue_tokens item,
        afterValue_itemsTokens items, ofItems, List.reverse_cons, List.append_assoc,
        List.singleton_append]

theorem afterValue_entriesTokens :
    ∀ (entries : List (String × Json)) (value : Raw) (key : Option String)
      (done : List (Option String × Raw)) (rest : List Token) (frames : List Frame),
      afterValue value (entriesTokens entries ++ .closeObject :: rest) (.object done key :: frames)
        = afterValue (.object (((key, value) :: done).reverse ++ ofEntries entries)) rest frames
  | [], value, key, done, rest, frames => by
      rw [entriesTokens, List.nil_append, afterValue, ofEntries, List.append_nil]
  | (next, json) :: entries, value, key, done, rest, frames => by
      simp only [entriesTokens, List.cons_append, List.append_assoc]
      rw [afterValue, ofValue_tokens json, afterValue_entriesTokens entries, ofEntries,
        List.reverse_cons, List.append_assoc, List.singleton_append]

end

/-- **The text of a value is read as one well-formed tree, that of the value.** -/
theorem ofText_text (form : Form) (json : Json) :
    Raw.ofText (json.text form) = ⟨ofJson json, true⟩ := by
  have hvalue := ofValue_tokens json [] []
  rw [List.append_nil] at hvalue
  rw [ofText, lex_text, hvalue, afterValue]

end Raw

/-! ### Nesting -/

mutual

/-- How many arrays and objects stand inside each other in a value. -/
def depth : Json → Nat
  | .array items => itemsDepth items + 1
  | .object entries => entriesDepth entries + 1
  | _ => 0

/-- The depth of the deepest item. -/
def itemsDepth : List Json → Nat
  | [] => 0
  | item :: rest => max (depth item) (itemsDepth rest)

/-- The depth of the deepest entry. -/
def entriesDepth : List (String × Json) → Nat
  | [] => 0
  | (_, value) :: rest => max (depth value) (entriesDepth rest)

end

theorem itemsDepth_le_iff {items : List Json} {d : Nat} :
    itemsDepth items ≤ d ↔ ∀ item ∈ items, item.depth ≤ d := by
  induction items with
  | nil => simp [itemsDepth]
  | cons item rest ih => rw [itemsDepth, max_le_iff, ih, List.forall_mem_cons]

theorem entriesDepth_le_iff {entries : List (String × Json)} {d : Nat} :
    entriesDepth entries ≤ d ↔ ∀ entry ∈ entries, entry.2.depth ≤ d := by
  induction entries with
  | nil => simp [entriesDepth]
  | cons entry rest ih => rw [entriesDepth, max_le_iff, ih, List.forall_mem_cons]

namespace Raw

theorem isSome_toJson?_number (d : Nat) (n : Number) :
    (toJson? d (ofJson (.number n))).isSome = true := by
  rw [ofJson]
  cases hl : literal? n with
  | none => rfl
  | some l =>
      show (toJson? d (.number l)).isSome = true
      rw [toJson?, Option.isSome_map]
      exact (literal?_spec hl).2

mutual

/-- **A written value is read exactly if it nests no deeper than may be entered.** -/
theorem isSome_toJson?_ofJson :
    ∀ (json : Json) (d : Nat), (toJson? d (ofJson json)).isSome = true ↔ json.depth ≤ d
  | .null, d => by simp [ofJson, toJson?, depth]
  | .bool b, d => by simp [ofJson, toJson?, depth]
  | .number n, d => by simp [isSome_toJson?_number, depth]
  | .string s, d => by simp [ofJson, toJson?, depth]
  | .array items, d => by
      cases d with
      | zero => simp [ofJson, toJson?, depth]
      | succ d =>
          rw [ofJson, toJson?, Option.isSome_map, isSome_itemsToJson? items d, depth]
          omega
  | .object entries, d => by
      cases d with
      | zero => simp [ofJson, toJson?, depth]
      | succ d =>
          rw [ofJson, toJson?, Option.isSome_map, isSome_entriesToJson? entries d, depth]
          omega

theorem isSome_itemsToJson? :
    ∀ (items : List Json) (d : Nat),
      (itemsToJson? d (ofItems items)).isSome = true ↔ itemsDepth items ≤ d
  | [], d => by simp [ofItems, itemsToJson?, itemsDepth]
  | item :: items, d => by
      have hitem := isSome_toJson?_ofJson item d
      have hitems := isSome_itemsToJson? items d
      rw [ofItems, itemsToJson?, itemsDepth, max_le_iff, ← hitem, ← hitems]
      cases toJson? d (ofJson item) <;> cases itemsToJson? d (ofItems items) <;> simp

theorem isSome_entriesToJson? :
    ∀ (entries : List (String × Json)) (d : Nat),
      (entriesToJson? d (ofEntries entries)).isSome = true ↔ entriesDepth entries ≤ d
  | [], d => by simp [ofEntries, entriesToJson?, entriesDepth]
  | (key, value) :: entries, d => by
      have hvalue := isSome_toJson?_ofJson value d
      have hentries := isSome_entriesToJson? entries d
      rw [ofEntries, entriesToJson?, entriesDepth, max_le_iff, ← hvalue, ← hentries]
      cases toJson? d (ofJson value) <;> cases entriesToJson? d (ofEntries entries) <;> simp

end

end Raw

theorem Raw.parse?_text (form : Form) (json : Json) :
    Raw.parse? (json.text form) = some (ofJson json) := by
  rw [Raw.parse?, ofText_text]
  rfl

theorem parse?_text (form : Form) (json : Json) :
    parse? (json.text form) = (Raw.ofJson json).toJson? maxDepth := by
  rw [parse?, Raw.parse?_text]
  rfl

/-- **The text of a value is read exactly if the value nests no deeper than any text may.** -/
theorem isSome_parse?_text (form : Form) (json : Json) :
    (parse? (json.text form)).isSome = true ↔ json.depth ≤ maxDepth := by
  rw [parse?_text, Raw.isSome_toJson?_ofJson]

/-! ### Trees that have a value -/

namespace Raw

/-- The trees that have a value where nesting goes no deeper than given. -/
inductive Valued : Nat → Raw → Prop
  | null (d : Nat) : Valued d .null
  | bool (d : Nat) (b : Bool) : Valued d (.bool b)
  /-- No number is beyond the range of doubles. -/
  | number (d : Nat) {l : Literal} (hnumber : l.number?.isSome = true) : Valued d (.number l)
  /-- The escapes of a string make up a text. -/
  | string (d : Nat) (s : String) : Valued d (.string (some s))
  | array {d : Nat} {items : List Raw} (hitems : ∀ item ∈ items, Valued d item) :
      Valued (d + 1) (.array items)
  | object {d : Nat} {entries : List (Option String × Raw)}
      (hkeys : ∀ entry ∈ entries, entry.1.isSome = true)
      (hentries : ∀ entry ∈ entries, Valued d entry.2) : Valued (d + 1) (.object entries)

/-- Items are read one by one. -/
theorem itemsToJson?_eq_some_iff {d : Nat} {items : List Raw} {values : List Json} :
    itemsToJson? d items = some values
      ↔ List.Forall₂ (fun item value => item.toJson? d = some value) items values := by
  induction items generalizing values with
  | nil => simp [itemsToJson?, eq_comm]
  | cons item rest ih =>
      rw [itemsToJson?]
      cases values with
      | nil => cases item.toJson? d <;> cases itemsToJson? d rest <;> simp
      | cons value others =>
          rw [List.forall₂_cons, ← ih]
          cases item.toJson? d <;> cases itemsToJson? d rest <;> simp

theorem isSome_itemsToJson?_iff_forall {d : Nat} {items : List Raw} :
    (itemsToJson? d items).isSome = true ↔ ∀ item ∈ items, (item.toJson? d).isSome = true := by
  induction items with
  | nil => simp [itemsToJson?]
  | cons item rest ih =>
      rw [itemsToJson?, List.forall_mem_cons, ← ih]
      cases item.toJson? d <;> cases itemsToJson? d rest <;> simp

theorem isSome_entriesToJson?_iff_forall {d : Nat} {entries : List (Option String × Raw)} :
    (entriesToJson? d entries).isSome = true
      ↔ ∀ entry ∈ entries, entry.1.isSome = true ∧ (entry.2.toJson? d).isSome = true := by
  induction entries with
  | nil => simp [entriesToJson?]
  | cons entry rest ih =>
      obtain ⟨key, item⟩ := entry
      rw [entriesToJson?, List.forall_mem_cons, ← ih]
      cases key <;> cases item.toJson? d <;> cases entriesToJson? d rest <;> simp

theorem valued_of_isSome : ∀ {raw : Raw} {d : Nat}, (raw.toJson? d).isSome = true → Valued d raw
  | .null, d, _ => .null d
  | .bool b, d, _ => .bool d b
  | .number l, d, h => by
      rw [toJson?, Option.isSome_map] at h
      exact .number d h
  | .string (some s), d, _ => .string d s
  | .string none, d, h => absurd h (by simp [toJson?])
  | .array items, 0, h => absurd h (by simp [toJson?])
  | .array items, d + 1, h => by
      rw [toJson?, Option.isSome_map, isSome_itemsToJson?_iff_forall] at h
      exact .array fun item hitem => valued_of_isSome (h item hitem)
  | .object entries, 0, h => absurd h (by simp [toJson?])
  | .object entries, d + 1, h => by
      rw [toJson?, Option.isSome_map, isSome_entriesToJson?_iff_forall] at h
      exact .object (fun entry hentry => (h entry hentry).1)
        fun entry hentry => valued_of_isSome (h entry hentry).2
  | .broken, d, h => absurd h (by simp [toJson?])

/-- **A tree is read exactly if it has a value.** -/
theorem isSome_toJson?_iff_valued {d : Nat} {raw : Raw} :
    (raw.toJson? d).isSome = true ↔ Valued d raw := by
  refine ⟨valued_of_isSome, fun h => ?_⟩
  induction h with
  | null d => rfl
  | bool d b => rfl
  | number d hnumber =>
      rw [toJson?, Option.isSome_map]
      exact hnumber
  | string d s => rfl
  | array _ ih =>
      rw [toJson?, Option.isSome_map, isSome_itemsToJson?_iff_forall]
      exact ih
  | object hkeys _ ih =>
      rw [toJson?, Option.isSome_map, isSome_entriesToJson?_iff_forall]
      exact fun entry hentry => ⟨hkeys entry hentry, ih entry hentry⟩

end Raw

end CommandFlow.Json
