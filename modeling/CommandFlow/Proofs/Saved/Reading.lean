/-
What reading gives, and when it gives anything.

Of any tree: what is read as a list or a record is made of parts that were read, one level further
in.  Of the tree of a written value there is more to say.  It has no fault, so a reading ends early
only because the value nests too deep; and a record is read as what its fields are read as.
-/
import CommandFlow.Proofs.Json.Rereading
import CommandFlow.Saved.Record

namespace CommandFlow.Saved

open Json (Raw)

namespace Reading

variable {α β : Type}

/-- Whether a reading has a result. -/
def Succeeds (x : Reading α) : Prop :=
  ∃ a, x.result = .ok a

theorem result_bind_eq_ok_iff {x : Reading α} {f : α → Reading β} {b : β} :
    (x >>= f).result = .ok b ↔ ∃ a, x.result = .ok a ∧ (f a).result = .ok b := by
  rw [result_bind]
  cases x.result with
  | error e => simp [Except.bind]
  | ok a => simp [Except.bind]

theorem succeeds_pure (a : α) : (pure a : Reading α).Succeeds :=
  ⟨a, rfl⟩

theorem succeeds_bind_iff {x : Reading α} {f : α → Reading β} :
    (x >>= f).Succeeds ↔ ∃ a, x.result = .ok a ∧ (f a).Succeeds := by
  unfold Succeeds
  simp only [result_bind_eq_ok_iff]
  exact ⟨fun ⟨b, a, ha, hb⟩ => ⟨a, ha, b, hb⟩, fun ⟨a, ha, b, hb⟩ => ⟨b, a, ha, hb⟩⟩

end Reading

open Reading

/-! ### Lists and values by key -/

namespace Reader

variable {α ι : Type}

/-- Going in never fails where there is a level left. -/
theorem result_enter_bind (depth : Nat) (f : Nat → Reading α) :
    (enter (depth + 1) >>= f).result = (f depth).result := by
  rw [result_bind]
  rfl

theorem result_mismatch_ne (expected : Expected) (raw : Raw) (a : α) :
    (mismatch expected raw : Reading α).result ≠ .ok a := by
  intro h
  cases raw with
  | number l =>
      obtain ⟨n, -, h⟩ := result_bind_eq_ok_iff.1 h
      cases n with
      | int n hrange =>
          obtain ⟨found, -, h⟩ := result_bind_eq_ok_iff.1 h
          exact absurd h (by simp)
      | double x =>
          obtain ⟨found, -, h⟩ := result_bind_eq_ok_iff.1 h
          exact absurd h (by simp)
  | string s =>
      obtain ⟨text, -, h⟩ := result_bind_eq_ok_iff.1 h
      obtain ⟨found, -, h⟩ := result_bind_eq_ok_iff.1 h
      exact absurd h (by simp)
  | _ =>
      obtain ⟨found, -, h⟩ := result_bind_eq_ok_iff.1 h
      exact absurd h (by simp)

/-- Every item of a list that is read was read. -/
theorem forall_of_itemsFrom {read : Nat → Reader α} {depth : Nat} {P : α → Prop}
    (hread : ∀ i raw a, (read i depth raw).result = .ok a → P a) (raws : List Raw) (start : Nat)
    {xs : List α} (h : (itemsFrom read depth start raws).result = .ok xs) : ∀ x ∈ xs, P x := by
  induction raws generalizing start xs with
  | nil =>
      obtain rfl := Except.ok.inj h
      simp
  | cons raw rest ih =>
      rw [itemsFrom] at h
      obtain ⟨a, ha, h⟩ := result_bind_eq_ok_iff.1 h
      obtain ⟨as, has, h⟩ := result_bind_eq_ok_iff.1 h
      obtain rfl := Except.ok.inj h
      exact List.forall_mem_cons.2 ⟨hread start raw a ha, ih (start + 1) has⟩

theorem forall_of_list {read : Nat → Reader α} {depth : Nat} {P : α → Prop}
    (hread : ∀ i raw a, (read i depth raw).result = .ok a → P a) {raw : Raw} {xs : List α}
    (h : (list read (depth + 1) raw).result = .ok xs) : ∀ x ∈ xs, P x := by
  cases raw with
  | array items => exact forall_of_itemsFrom hread items 0 ((result_enter_bind depth _).symm.trans h)
  | _ => exact absurd h (result_mismatch_ne _ _ _)

/-- A list is read if every item is, wherever it stands. -/
theorem succeeds_itemsFrom_iff {read : Nat → Reader α} {raw : ι → Raw} {depth : Nat}
    {P : ι → Prop} (hread : ∀ i x, (read i depth (raw x)).Succeeds ↔ P x) (xs : List ι)
    (start : Nat) :
    (itemsFrom read depth start (xs.map raw)).Succeeds ↔ ∀ x ∈ xs, P x := by
  induction xs generalizing start with
  | nil => simp [itemsFrom, succeeds_pure]
  | cons x xs ih =>
      rw [List.map_cons, itemsFrom, succeeds_bind_iff, List.forall_mem_cons, ← hread start x]
      constructor
      · rintro ⟨a, ha, hrest⟩
        obtain ⟨as, has, -⟩ := succeeds_bind_iff.1 hrest
        exact ⟨⟨a, ha⟩, (ih (start + 1)).1 ⟨as, has⟩⟩
      · rintro ⟨⟨a, ha⟩, hrest⟩
        obtain ⟨as, has⟩ := (ih (start + 1)).2 hrest
        exact ⟨a, ha, succeeds_bind_iff.2 ⟨as, has, succeeds_pure _⟩⟩

/-- A list is read as it was exactly if every item is, wherever it stands. -/
theorem result_itemsFrom_iff {read : Nat → Reader α} {raw : α → Raw} {depth : Nat} {P : α → Prop}
    (xs : List α) (hread : ∀ i, ∀ x ∈ xs, (read i depth (raw x)).result = .ok x ↔ P x)
    (start : Nat) :
    (itemsFrom read depth start (xs.map raw)).result = .ok xs ↔ ∀ x ∈ xs, P x := by
  induction xs generalizing start with
  | nil => simp [itemsFrom]
  | cons x xs ih =>
      have htail := ih (fun i y hy => hread i y (List.mem_cons_of_mem x hy)) (start + 1)
      rw [List.map_cons, itemsFrom, result_bind_eq_ok_iff, List.forall_mem_cons, ← htail,
        ← hread start x List.mem_cons_self]
      constructor
      · rintro ⟨a, ha, hrest⟩
        obtain ⟨as, has, hcons⟩ := result_bind_eq_ok_iff.1 hrest
        obtain ⟨rfl, rfl⟩ := List.cons.inj (Except.ok.inj hcons)
        exact ⟨ha, has⟩
      · rintro ⟨ha, has⟩
        exact ⟨x, ha, result_bind_eq_ok_iff.2 ⟨xs, has, rfl⟩⟩

/-- A written list is read item by item, one level further in. -/
theorem result_list_ofJson (read : Nat → Reader α) (json : ι → Json) (depth : Nat) (xs : List ι) :
    (list read (depth + 1) (Raw.ofJson (.array (xs.map json)))).result
      = (itemsFrom read depth 0 (xs.map fun x => Raw.ofJson (json x))).result := by
  rw [Raw.ofJson, Raw.ofItems_eq, List.map_map]
  exact result_enter_bind depth _

theorem succeeds_list_iff {read : Nat → Reader α} {json : ι → Json} {depth : Nat} {P : ι → Prop}
    (hread : ∀ i x, (read i depth (Raw.ofJson (json x))).Succeeds ↔ P x) (xs : List ι) :
    (list read (depth + 1) (Raw.ofJson (.array (xs.map json)))).Succeeds ↔ ∀ x ∈ xs, P x := by
  rw [Succeeds, result_list_ofJson]
  exact succeeds_itemsFrom_iff hread xs 0

theorem result_list_iff {read : Nat → Reader α} {json : α → Json} {depth : Nat} {P : α → Prop}
    (xs : List α) (hread : ∀ i, ∀ x ∈ xs, (read i depth (Raw.ofJson (json x))).result = .ok x ↔ P x) :
    (list read (depth + 1) (Raw.ofJson (.array (xs.map json)))).result = .ok xs ↔ ∀ x ∈ xs, P x := by
  rw [result_list_ofJson]
  exact result_itemsFrom_iff xs hread 0

theorem result_list {read : Nat → Reader α} {json : α → Json} {depth : Nat}
    (hread : ∀ i x, (read i depth (Raw.ofJson (json x))).result = .ok x) (xs : List α) :
    (list read (depth + 1) (Raw.ofJson (.array (xs.map json)))).result = .ok xs :=
  (result_list_iff xs fun i x _ => iff_true_intro (hread i x)).2 fun _ _ => trivial

/-- Values by key are read if all entries can be, and the last of a key counts. -/
theorem result_literalsFrom (depth : Nat) (entries : List (Option String × Raw))
    (values : Literals) :
    (literalsFrom depth values entries).result
      = (Raw.entriesToJson? depth entries).elim (.error .malformed) fun read =>
          .ok (read.foldl (fun values (key, value) => values.insert key value) values) := by
  induction entries generalizing values with
  | nil => rfl
  | cons entry rest ih =>
      obtain ⟨key, raw⟩ := entry
      rw [literalsFrom, Raw.entriesToJson?, result_bind, result_ofOption]
      cases key with
      | none => rfl
      | some key =>
          simp only [Option.elim_some, Except.bind, result_bind, result_ofOption, ih]
          cases raw.toJson? depth with
          | none => rfl
          | some value => cases Raw.entriesToJson? depth rest <;> rfl

theorem result_literals (depth : Nat) (entries : List (Option String × Raw)) :
    (literals (depth + 1) (.object entries)).result
      = (Raw.entriesToJson? depth entries).elim (.error .malformed) fun read =>
          .ok (Literals.ofList read) :=
  (result_enter_bind depth _).trans (result_literalsFrom depth entries ∅)

/-- Values by key that are read are readable, one level further in. -/
theorem readable_of_literals {depth : Nat} {raw : Raw} {values : Literals}
    (h : (literals (depth + 1) raw).result = .ok values) :
    ∀ entry ∈ values.entries, Json.Readable depth entry.2 := by
  cases raw with
  | object entries =>
      rw [result_literals] at h
      cases hread : Raw.entriesToJson? depth entries with
      | none =>
          rw [hread] at h
          exact absurd h (by simp)
      | some read =>
          rw [hread] at h
          obtain rfl := Except.ok.inj h
          intro entry hentry
          exact Raw.readable_of_entriesToJson? entries hread entry
            (Literals.mem_of_mem_ofList read entry hentry)
  | _ => exact absurd h (result_mismatch_ne _ _ _)

/-- Written values by key are read if none nests too deep. -/
theorem succeeds_literals_iff (depth : Nat) (values : Literals) :
    (literals (depth + 1) (Raw.ofJson values.toJson)).Succeeds
      ↔ ∀ entry ∈ values.entries, entry.2.depth ≤ depth := by
  rw [Succeeds, Literals.toJson, Raw.ofJson, result_literals, ← Json.entriesDepth_le_iff,
    ← Raw.isSome_entriesToJson?]
  cases Raw.entriesToJson? depth (Raw.ofEntries values.entries) with
  | none => simp
  | some read => simp

/-- Written values by key are read as they were exactly if their doubles are. -/
theorem result_literals_iff {depth : Nat} {values : Literals}
    (h : ∀ entry ∈ values.entries, Json.Readable depth entry.2) :
    (literals (depth + 1) (Raw.ofJson values.toJson)).result = .ok values
      ↔ ∀ entry ∈ values.entries, ∀ x ∈ entry.2.doubles, Json.ReadsBack x := by
  have hentries : Raw.entriesToJson? depth (Raw.ofEntries values.entries) = some values.entries
      ↔ ∀ entry ∈ values.entries, ∀ x ∈ entry.2.doubles, Json.ReadsBack x := by
    rw [Raw.entriesToJson?_ofEntries_iff]
    exact forall₂_congr fun entry hentry => (h entry hentry).toJson?_ofJson_iff
  rw [← hentries, Literals.toJson, Raw.ofJson, result_literals]
  cases hread : Raw.entriesToJson? depth (Raw.ofEntries values.entries) with
  | none => simp
  | some read =>
      -- The keys ascend as before, so what is read is kept as it stands.
      have hkeys := Raw.keys_of_entriesToJson? values.entries hread
      have hkept : (Literals.ofList read).entries = read :=
        Literals.entries_ofList (by rw [Entries.Ascending, hkeys]; exact values.ascending)
      simp only [Option.elim_some, Except.ok.injEq, Option.some.injEq, Literals.ext_iff, hkept]

/-! ### Texts -/

/-- What is read from a text is read from its tree. -/
theorem exists_of_ofText {read : Reader α} {text : String} {a : α}
    (h : (ofText read text).result = .ok a) : ∃ raw, (read Json.maxDepth raw).result = .ok a := by
  obtain ⟨value, hvalue, h⟩ := result_bind_eq_ok_iff.1 h
  split at h
  · obtain rfl := Except.ok.inj h
    exact ⟨_, hvalue⟩
  · exact absurd h (by simp)

/-- The text of a value is read as what its tree is read as. -/
theorem result_ofText_text (read : Reader α) (form : Json.Form) (json : Json) :
    (ofText read (json.text form)).result
      = (read Json.maxDepth (Raw.ofJson json)).result := by
  unfold ofText
  rw [Raw.ofText_text, result_bind]
  cases (read Json.maxDepth (Raw.ofJson json)).result with
  | error e => rfl
  | ok a => rfl

end Reader

/-! ### Records -/

namespace Draft

variable {φ : Type} {V : φ → Type} [DecidableEq φ]

/-- Whether every field that is set holds what it may. -/
def All (Q : (field : φ) → V field → Prop) (draft : Draft V) : Prop :=
  ∀ f v, draft f = some v → Q f v

theorem All.set {Q : (field : φ) → V field → Prop} {draft : Draft V} (h : draft.All Q) {f : φ}
    {value : V f} (hvalue : Q f value) : (draft.set f value).All Q := by
  intro g v hg
  unfold Draft.set at hg
  by_cases hfg : f = g
  · subst hfg
    rw [dif_pos rfl] at hg
    obtain rfl := Option.some.inj hg
    exact hvalue
  · rw [dif_neg hfg] at hg
    exact h g v hg

end Draft

theorem Record.of_all {φ : Type} {V : φ → Type} {Q : (field : φ) → V field → Prop}
    {record : Record V} (h : record.draft.All Q) {f : φ} {default : V f} (hdefault : Q f default) :
    Q f (record.get f default) := by
  unfold Record.get
  cases hdraft : record.draft f with
  | none => exact hdefault
  | some value => exact h f value hdraft

namespace Schema

variable {φ α : Type} {V : φ → Type}

/-- A record as it is written: all fields in their declared order, under their first names. -/
def written (schema : Schema φ) (json : φ → Json) : Json :=
  .object (schema.fields.map fun f => (schema.name f, json f))

/-- Every field is declared once and found under its first name. -/
structure Distinct (schema : Schema φ) : Prop where
  nodup : schema.fields.Nodup
  field?_name : ∀ f, schema.field? (schema.name f) = some f

theorem Distinct.mem_fields {schema : Schema φ} (h : schema.Distinct) (f : φ) :
    f ∈ schema.fields :=
  List.mem_of_find?_eq_some (h.field?_name f)

variable [DecidableEq φ] {schema : Schema φ} {read : (field : φ) → Reader (V field)}

section

variable {Q : (field : φ) → V field → Prop} {depth : Nat}

theorem all_of_readEntries (hread : ∀ f raw v, (read f depth raw).result = .ok v → Q f v)
    (entries : List (Option String × Raw)) {draft full : Draft V} (hdraft : draft.All Q)
    (h : (schema.readEntries read depth draft entries).result = .ok full) : full.All Q := by
  induction entries generalizing draft with
  | nil =>
      obtain rfl := Except.ok.inj h
      exact hdraft
  | cons entry rest ih =>
      obtain ⟨key, raw⟩ := entry
      rw [readEntries] at h
      obtain ⟨key, -, h⟩ := result_bind_eq_ok_iff.1 h
      split at h
      · exact ih hdraft h
      · rename_i f hf
        split at h
        · exact absurd h (by simp)
        · obtain ⟨value, hvalue, h⟩ := result_bind_eq_ok_iff.1 h
          exact ih (hdraft.set (hread f raw value hvalue)) h

theorem all_of_readItems (hread : ∀ f raw v, (read f depth raw).result = .ok v → Q f v)
    (fields : List φ) (raws : List Raw) {draft full : Draft V} (hdraft : draft.All Q)
    (h : (readItems read depth draft fields raws).result = .ok full) : full.All Q := by
  induction fields generalizing draft raws with
  | nil =>
      cases raws with
      | nil =>
          obtain rfl := Except.ok.inj h
          exact hdraft
      | cons raw rest => exact absurd h (by simp [readItems])
  | cons f fields ih =>
      cases raws with
      | nil =>
          obtain rfl := Except.ok.inj h
          exact hdraft
      | cons raw rest =>
          rw [readItems] at h
          obtain ⟨value, hvalue, h⟩ := result_bind_eq_ok_iff.1 h
          exact ih rest (hdraft.set (hread f raw value hvalue)) h

/-- **Every field of a record that is read was read, one level further in.** This holds of objects
and arrays alike. -/
theorem all_of_readRecord (hread : ∀ f raw v, (read f depth raw).result = .ok v → Q f v)
    {raw : Raw} {record : Record V}
    (h : (schema.readRecord read (depth + 1) raw).result = .ok record) : record.draft.All Q := by
  have hempty : (Draft.empty : Draft V).All Q := fun f v hv => absurd hv (by simp [Draft.empty])
  cases raw with
  | object entries =>
      obtain ⟨draft, hdraft, h⟩ :=
        result_bind_eq_ok_iff.1 ((Reader.result_enter_bind depth _).symm.trans h)
      obtain rfl := Except.ok.inj h
      exact all_of_readEntries hread entries hempty hdraft
  | array items =>
      obtain ⟨draft, hdraft, h⟩ :=
        result_bind_eq_ok_iff.1 ((Reader.result_enter_bind depth _).symm.trans h)
      obtain rfl := Except.ok.inj h
      exact all_of_readItems hread schema.fields items hempty hdraft
  | _ => exact absurd h (Reader.result_mismatch_ne _ _ _)

end

theorem result_readEntries_cons {depth : Nat} {draft : Draft V} {key : String} {raw : Raw}
    {rest : List (Option String × Raw)} {f : φ} (hf : schema.field? key = some f)
    (hnew : draft f = none) :
    (schema.readEntries read depth draft ((some key, raw) :: rest)).result
      = (read f depth raw).result.bind fun value =>
          (schema.readEntries read depth (draft.set f value) rest).result := by
  rw [readEntries, result_bind, result_ofOption]
  simp only [Option.elim_some, Except.bind, hf, hnew, Option.isSome_none, Bool.false_eq_true,
    if_false, result_bind]

theorem set_eq_none {draft : Draft V} {f : φ} {value : V f} {fs : List φ} (hf : f ∉ fs)
    (hnew : ∀ g ∈ fs, draft g = none) : ∀ g ∈ fs, draft.set f value g = none := by
  intro g hg
  have hfg : f ≠ g := fun hc => hf (hc ▸ hg)
  unfold Draft.set
  rw [dif_neg hfg]
  exact hnew g hg

/-- The entries of written fields. -/
abbrev writtenEntries (schema : Schema φ) (json : φ → Json) (fs : List φ) :
    List (Option String × Raw) :=
  fs.map fun f => (some (schema.name f), Raw.ofJson (json f))

section

variable {json : φ → Json} {depth : Nat}

/-- Fields that are new to a draft are read one by one, and nothing else in the draft changes. -/
theorem result_readEntries_written (hschema : schema.Distinct) {values : (f : φ) → V f}
    {fs : List φ} (hnodup : fs.Nodup)
    (hread : ∀ f ∈ fs, (read f depth (Raw.ofJson (json f))).result = .ok (values f))
    (draft : Draft V) (hnew : ∀ f ∈ fs, draft f = none) :
    (schema.readEntries read depth draft (schema.writtenEntries json fs)).result
      = .ok fun f => if f ∈ fs then some (values f) else draft f := by
  induction fs generalizing draft with
  | nil => simp [readEntries]
  | cons f fs ih =>
      obtain ⟨hf, hnodup⟩ := List.nodup_cons.1 hnodup
      rw [writtenEntries, List.map_cons, result_readEntries_cons (hschema.field?_name f)
        (hnew f List.mem_cons_self), hread f List.mem_cons_self]
      have hrest := ih hnodup (fun g hg => hread g (List.mem_cons_of_mem _ hg))
        (draft.set f (values f)) (set_eq_none hf fun g hg => hnew g (List.mem_cons_of_mem _ hg))
      refine hrest.trans (congrArg Except.ok (funext fun g => ?_))
      by_cases hgf : f = g
      · subst hgf
        rw [if_neg hf, if_pos List.mem_cons_self, Draft.set, dif_pos rfl]
      · have hmem : g ∈ f :: fs ↔ g ∈ fs := by simp [Ne.symm hgf]
        simp only [Draft.set, dif_neg hgf, hmem]

/-- Where written fields are read, each of them is. -/
theorem succeeds_of_readEntries (hschema : schema.Distinct) {fs : List φ} (hnodup : fs.Nodup)
    (draft : Draft V) (hnew : ∀ f ∈ fs, draft f = none)
    (h : (schema.readEntries read depth draft (schema.writtenEntries json fs)).Succeeds) :
    ∀ f ∈ fs, (read f depth (Raw.ofJson (json f))).Succeeds := by
  induction fs generalizing draft with
  | nil => simp
  | cons f fs ih =>
      obtain ⟨hf, hnodup⟩ := List.nodup_cons.1 hnodup
      rw [Succeeds, writtenEntries, List.map_cons, result_readEntries_cons (hschema.field?_name f)
        (hnew f List.mem_cons_self)] at h
      cases hvalue : (read f depth (Raw.ofJson (json f))).result with
      | error e =>
          rw [hvalue] at h
          exact absurd h (by simp [Except.bind])
      | ok value =>
          rw [hvalue] at h
          refine List.forall_mem_cons.2 ⟨⟨value, hvalue⟩, ih hnodup (draft.set f value) ?_ h⟩
          exact set_eq_none hf fun g hg => hnew g (List.mem_cons_of_mem _ hg)

/-- A written record is read field by field, one level further in. -/
theorem result_readRecord_written (schema : Schema φ) (read : (field : φ) → Reader (V field))
    (json : φ → Json) (depth : Nat) :
    (schema.readRecord read (depth + 1) (Raw.ofJson (schema.written json))).result
      = (schema.readEntries read depth .empty (schema.writtenEntries json schema.fields) >>=
          fun draft => pure ⟨draft, fun field => .missingField (schema.name field)⟩).result := by
  have hraw : Raw.ofJson (schema.written json)
      = .object (schema.writtenEntries json schema.fields) := by
    rw [written, Raw.ofJson, Raw.ofEntries_eq, List.map_map]
    rfl
  rw [hraw]
  exact Reader.result_enter_bind depth _

/-- **A written record is read as what is made of its fields, each read one level further in.** -/
theorem result_record_iff (hschema : schema.Distinct) {make : Record V → Reading α} {a : α} :
    (schema.readRecord read (depth + 1) (Raw.ofJson (schema.written json)) >>= make).result = .ok a
      ↔ ∃ values : (f : φ) → V f,
          (∀ f, (read f depth (Raw.ofJson (json f))).result = .ok (values f)) ∧
          (make ⟨fun f => some (values f), fun f => .missingField (schema.name f)⟩).result
            = .ok a := by
  -- Fields that are all read make up a full draft.
  have hmade : ∀ values : (f : φ) → V f,
      (∀ f, (read f depth (Raw.ofJson (json f))).result = .ok (values f)) →
      (schema.readRecord read (depth + 1) (Raw.ofJson (schema.written json)) >>= make).result
        = (make ⟨fun f => some (values f), fun f => .missingField (schema.name f)⟩).result := by
    intro values hvalues
    have hentries := result_readEntries_written hschema hschema.nodup (fun f _ => hvalues f)
      .empty fun _ _ => rfl
    simp only [hschema.mem_fields, if_true] at hentries
    rw [result_bind, result_readRecord_written, result_bind, hentries]
    rfl
  constructor
  · intro h
    obtain ⟨record, hrecord, -⟩ := result_bind_eq_ok_iff.1 h
    rw [result_readRecord_written] at hrecord
    obtain ⟨draft, hdraft, -⟩ := result_bind_eq_ok_iff.1 hrecord
    have hfields := succeeds_of_readEntries hschema hschema.nodup .empty (fun _ _ => rfl)
      ⟨draft, hdraft⟩
    choose values hvalues using fun f => hfields f (hschema.mem_fields f)
    exact ⟨values, hvalues, (hmade values hvalues).symm.trans h⟩
  · rintro ⟨values, hvalues, h⟩
    exact (hmade values hvalues).trans h

/-- A written record is read if its fields are, one level further in. -/
theorem succeeds_record_iff (hschema : schema.Distinct) {make : Record V → Reading α}
    (hmake : ∀ (values : (f : φ) → V f) lack, (make ⟨fun f => some (values f), lack⟩).Succeeds) :
    (schema.readRecord read (depth + 1) (Raw.ofJson (schema.written json)) >>= make).Succeeds
      ↔ ∀ f, (read f depth (Raw.ofJson (json f))).Succeeds := by
  constructor
  · rintro ⟨a, ha⟩ f
    obtain ⟨values, hvalues, -⟩ := (result_record_iff hschema).1 ha
    exact ⟨values f, hvalues f⟩
  · intro h
    choose values hvalues using h
    obtain ⟨a, ha⟩ := hmake values fun f => .missingField (schema.name f)
    exact ⟨a, (result_record_iff hschema).2 ⟨values, hvalues, ha⟩⟩

end

end Schema

end CommandFlow.Saved
