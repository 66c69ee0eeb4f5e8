/-
Catalogs: the node types that can be placed, by id, in the order of their registration.

A catalog holds its entries in a list and, beside it, an index from ids to positions.  The index
is always the one that the list gives, and no two entries share an id; both facts are part of the
type, so two catalogs with the same entries are equal.
-/
import CommandFlow.NodeType
import Std.Data.TreeMap

namespace CommandFlow

/-- Why a catalog refuses a request, or cannot be loaded. -/
inductive CatalogError where
  | duplicateId (id : String)
  | notFound (id : String)
  /-- The text of the declarations is not JSON. -/
  | malformedFeed
  /-- The declarations are JSON, but not an array. -/
  | feedNotArray
deriving DecidableEq, Repr

/-- The message of an error. -/
def CatalogError.message : CatalogError → String
  | .duplicateId id => s!"Node type '{id}' is already registered"
  | .notFound id => s!"Node type '{id}' is not registered"
  | .malformedFeed => "Invalid node declaration feed: invalid JSON"
  | .feedNotArray =>
    "Invalid node declaration feed: expected a JSON array of node declarations"

namespace Catalog

/-- The ids of node types. -/
def idsOf (entries : List NodeType) : List String :=
  entries.map (·.id)

/-- Adds the positions of node types, counted from `start`, to an index. -/
def indexFrom (start : Nat) (index : Std.TreeMap String Nat) :
    List NodeType → Std.TreeMap String Nat
  | [] => index
  | t :: rest => indexFrom (start + 1) (index.insert t.id start) rest

/-- The positions of node types by id. -/
def indexOf (entries : List NodeType) : Std.TreeMap String Nat :=
  indexFrom 0 ∅ entries

theorem indexFrom_append_singleton (start : Nat) (index : Std.TreeMap String Nat)
    (entries : List NodeType) (t : NodeType) :
    indexFrom start index (entries ++ [t])
      = (indexFrom start index entries).insert t.id (start + entries.length) := by
  induction entries generalizing start index with
  | nil => simp [indexFrom]
  | cons t' rest ih =>
    rw [List.cons_append, indexFrom, ih, indexFrom, List.length_cons,
      Nat.add_assoc, Nat.add_comm 1]

theorem indexOf_append_singleton (entries : List NodeType) (t : NodeType) :
    indexOf (entries ++ [t]) = (indexOf entries).insert t.id entries.length := by
  simp [indexOf, indexFrom_append_singleton]

theorem getElem?_indexFrom {entries : List NodeType} (h : (idsOf entries).Nodup) (start : Nat)
    (index : Std.TreeMap String Nat) (id : String) :
    (indexFrom start index entries)[id]?
      = match entries.findIdx? (·.id == id) with
        | some i => some (start + i)
        | none => index[id]? := by
  induction entries generalizing start index with
  | nil => simp [indexFrom]
  | cons t rest ih =>
    have hcons : t.id ∉ idsOf rest ∧ (idsOf rest).Nodup := by simpa [idsOf] using h
    rw [indexFrom, ih hcons.2, List.findIdx?_cons]
    by_cases ht : t.id = id
    · have hnone : rest.findIdx? (·.id == id) = none := by
        rw [List.findIdx?_eq_none_iff]
        intro t' ht'
        have hne : t'.id ≠ id := by
          intro hc
          refine hcons.1 ?_
          rw [ht, ← hc]
          exact List.mem_map_of_mem ht'
        simpa using hne
      simp [hnone, ht]
    · have hne : (t.id == id) = false := by simpa using ht
      rw [hne]
      cases rest.findIdx? (·.id == id) with
      | none => simp [Std.TreeMap.getElem?_insert, ht]
      | some i => simp [Nat.add_assoc, Nat.add_comm 1]

/-- The index gives the position of the entry with an id. -/
theorem getElem?_indexOf {entries : List NodeType} (h : (idsOf entries).Nodup) (id : String) :
    (indexOf entries)[id]? = entries.findIdx? (·.id == id) := by
  rw [indexOf, getElem?_indexFrom h]
  cases entries.findIdx? (·.id == id) <;> simp

end Catalog

/-- Node types by id, in the order of their registration. -/
structure Catalog where
  entries : List NodeType
  /-- The position of every id. -/
  index : Std.TreeMap String Nat
  /-- An id has one entry. -/
  nodup : (Catalog.idsOf entries).Nodup
  /-- The index is the one of the entries. -/
  index_eq : index = Catalog.indexOf entries

namespace Catalog

/-- The catalog of node types whose ids differ. -/
def ofNodup (entries : List NodeType) (nodup : (idsOf entries).Nodup) : Catalog :=
  ⟨entries, indexOf entries, nodup, rfl⟩

/-- A catalog without entries. -/
def empty : Catalog :=
  ofNodup [] List.nodup_nil

instance : EmptyCollection Catalog := ⟨empty⟩

instance : Inhabited Catalog := ⟨empty⟩

@[ext]
theorem ext {c d : Catalog} (h : c.entries = d.entries) : c = d := by
  obtain ⟨ce, ci, _, rfl⟩ := c
  obtain ⟨de, di, _, rfl⟩ := d
  obtain rfl : ce = de := h
  rfl

/-! ### Look-up -/

/-- The position of an id. -/
def position? (c : Catalog) (id : String) : Option Nat :=
  c.index[id]?

/-- The entry of an id. -/
def get? (c : Catalog) (id : String) : Option NodeType := do
  c.entries[← c.position? id]?

/-- Whether an id is registered. -/
def contains (c : Catalog) (id : String) : Bool :=
  c.index.contains id

/-- The entry of an id, or the error that there is none. -/
def find (c : Catalog) (id : String) : Except CatalogError NodeType :=
  match c.get? id with
  | some t => .ok t
  | none => .error (.notFound id)

/-- The entry that was registered first. -/
def first? (c : Catalog) : Option NodeType :=
  c.entries.head?

/-- The ids in their order. -/
def ids (c : Catalog) : List String :=
  idsOf c.entries

/-- The number of entries. -/
def size (c : Catalog) : Nat :=
  c.entries.length

/-- Whether there are no entries. -/
def isEmpty (c : Catalog) : Bool :=
  c.entries.isEmpty

theorem position?_eq (c : Catalog) (id : String) :
    c.position? id = c.entries.findIdx? (·.id == id) := by
  rw [position?, c.index_eq, getElem?_indexOf c.nodup]

/-- Look-up through the index finds the entry with the id. -/
theorem get?_eq_find? (c : Catalog) (id : String) :
    c.get? id = c.entries.find? (·.id == id) := by
  unfold get?
  rw [position?_eq]
  induction c.entries with
  | nil => rfl
  | cons t rest ih =>
    rw [List.findIdx?_cons, List.find?_cons]
    cases h : t.id == id with
    | true => rfl
    | false =>
      simp only [Bool.false_eq_true, if_false]
      rw [← ih]
      cases rest.findIdx? (·.id == id) <;> rfl

theorem isSome_position? (c : Catalog) (id : String) :
    (c.position? id).isSome = c.contains id := by
  rw [contains, position?, Std.TreeMap.isSome_getElem?_eq_contains]

theorem contains_iff (c : Catalog) (id : String) : c.contains id = true ↔ id ∈ c.ids := by
  rw [← isSome_position?, position?_eq, List.findIdx?_isSome, List.any_eq_true, ids, idsOf, List.mem_map]
  simp only [beq_iff_eq]

/-! ### Changes -/

theorem nodup_append_singleton {c : Catalog} {t : NodeType} (h : ¬ c.contains t.id = true) :
    (idsOf (c.entries ++ [t])).Nodup := by
  have hmem : t.id ∉ idsOf c.entries := fun hc => h ((c.contains_iff t.id).2 hc)
  rw [idsOf, List.map_append, List.map_cons, List.map_nil, List.nodup_append]
  refine ⟨c.nodup, by simp, ?_⟩
  intro a ha b hb hab
  rw [List.mem_singleton] at hb
  exact hmem (by rw [← hb, ← hab]; exact ha)

/-- Registers a node type behind all others. -/
def insert (c : Catalog) (t : NodeType) : Except CatalogError Catalog :=
  if h : c.contains t.id then .error (.duplicateId t.id)
  else
    .ok {
      entries := c.entries ++ [t]
      index := c.index.insert t.id c.entries.length
      nodup := nodup_append_singleton h
      index_eq := by rw [indexOf_append_singleton, c.index_eq] }

/-- Removes the entry of an id and gives it back. -/
def erase (c : Catalog) (id : String) : Except CatalogError (NodeType × Catalog) :=
  match c.position? id with
  | none => .error (.notFound id)
  | some i =>
    match c.entries[i]? with
    | none => .error (.notFound id)
    | some t =>
      let nodup := c.nodup.sublist ((List.eraseIdx_sublist c.entries i).map _)
      .ok (t, ofNodup (c.entries.eraseIdx i) nodup)

theorem nodup_set_of_not_mem {l : List String} (h : l.Nodup) (i : Nat) {a : String} (ha : a ∉ l) :
    (l.set i a).Nodup := by
  induction l generalizing i with
  | nil => simp
  | cons x xs ih =>
    have hx := List.nodup_cons.1 h
    rw [List.mem_cons, not_or] at ha
    cases i with
    | zero => exact List.nodup_cons.2 ⟨ha.2, hx.2⟩
    | succ i =>
      refine List.nodup_cons.2 ⟨fun hc => ?_, ih hx.2 i ha.2⟩
      rcases List.mem_or_eq_of_mem_set hc with hc | hc
      · exact hx.1 hc
      · exact ha.1 hc.symm

theorem idsOf_set {entries : List NodeType} {i : Nat} {t : NodeType}
    (h : entries.findIdx? (·.id == t.id) = some i) : idsOf (entries.set i t) = idsOf entries := by
  rw [List.findIdx?_eq_some_iff_getElem] at h
  obtain ⟨hlt, hid, _⟩ := h
  rw [idsOf, List.map_set]
  refine List.ext_getElem? fun j => ?_
  rw [List.getElem?_set]
  by_cases hj : i = j
  · subst hj
    have hid : entries[i].id = t.id := by simpa using hid
    simp [idsOf, hlt, hid]
  · simp [idsOf, hj]

theorem nodup_set {c : Catalog} {id : String} {i : Nat} {t : NodeType}
    (hi : c.position? id = some i) (h : ¬ (t.id ≠ id ∧ c.contains t.id = true)) :
    (idsOf (c.entries.set i t)).Nodup := by
  by_cases ht : t.id = id
  · rw [position?_eq, ← ht] at hi
    rw [idsOf_set hi]
    exact c.nodup
  · have hmem : t.id ∉ idsOf c.entries := fun hc => h ⟨ht, (c.contains_iff t.id).2 hc⟩
    rw [idsOf, List.map_set]
    exact nodup_set_of_not_mem c.nodup i hmem

/-- Puts a node type in the place of the entry of an id. -/
def replace (c : Catalog) (id : String) (t : NodeType) : Except CatalogError Catalog :=
  match hi : c.position? id with
  | none => .error (.notFound id)
  | some i =>
    if h : t.id ≠ id ∧ c.contains t.id then .error (.duplicateId t.id)
    else .ok (ofNodup (c.entries.set i t) (nodup_set hi h))

/-- The catalog of node types in their order; an id that comes again is an error. -/
def ofNodeTypes (types : List NodeType) : Except CatalogError Catalog :=
  types.foldlM insert ∅

/-- Registers a node type unless its id is taken. -/
def insertNew (c : Catalog) (t : NodeType) : Catalog :=
  match c.insert t with
  | .ok c' => c'
  | .error _ => c

end Catalog

end CommandFlow
