/-
A catalog answers as a plain list does.

A catalog finds its entries through an index.  The positions in it shift with every removal, and its
keys change whenever an entry takes another id.  Whoever makes requests sees nothing of this: the
answers are those of a plain list of node types with different ids, searched from the front.

The two are compared over one request, and then over whole runs of requests.
-/
import CommandFlow.Proofs.Catalog
import CommandFlow.Proofs.UpdateFirst

namespace CommandFlow

/-! ### Requests -/

/-- A request to change what is listed. -/
inductive Catalog.Request where
  | register (type : NodeType)
  | unregister (id : String)
  | replace (id : String) (type : NodeType)

/-- The answers to requests made one after the other, and the state that they leave. -/
def serveAll {σ ρ α : Type} (serve : σ → ρ → α × σ) : σ → List ρ → List α × σ
  | s, [] => ([], s)
  | s, request :: rest =>
    let later := serveAll serve (serve s request).2 rest
    ((serve s request).1 :: later.1, later.2)

/-- What a catalog answers and what it is afterwards. One that refuses stays as it was. -/
def Catalog.answered (c : Catalog) :
    Except CatalogError (NodeType × Catalog) → Except CatalogError NodeType × Catalog
  | .ok (type, after) => (.ok type, after)
  | .error e => (.error e, c)

/-- A catalog answers with the node type that was registered, removed or put in place. -/
def Catalog.serve (c : Catalog) : Request → Except CatalogError NodeType × Catalog
  | .register type => c.answered ((c.insert type).map (type, ·))
  | .unregister id => c.answered (c.erase id)
  | .replace id type => c.answered ((c.replace id type).map (type, ·))

/-! ### The plain list -/

namespace Listing

/-- The first node type with an id. -/
def get? (types : List NodeType) (id : String) : Option NodeType :=
  types.find? (·.id == id)

/-- Whether a node type has an id. -/
def contains (types : List NodeType) (id : String) : Bool :=
  types.any (·.id == id)

/-- The first node type with an id, or the error that there is none. -/
def find (types : List NodeType) (id : String) : Except CatalogError NodeType :=
  (get? types id).elim (.error (.notFound id)) .ok

/-- Appends a node type. -/
def register (types : List NodeType) (t : NodeType) :
    Except CatalogError NodeType × List NodeType :=
  if contains types t.id then (.error (.duplicateId t.id), types) else (.ok t, types ++ [t])

/-- Leaves out the node type with an id. The others keep their order. -/
def unregister (types : List NodeType) (id : String) :
    Except CatalogError NodeType × List NodeType :=
  match get? types id with
  | none => (.error (.notFound id), types)
  | some t => (.ok t, types.eraseP (·.id == id))

/-- Puts a node type in the place of the one with an id. -/
def replace (types : List NodeType) (id : String) (t : NodeType) :
    Except CatalogError NodeType × List NodeType :=
  if contains types id = false then (.error (.notFound id), types)
  else if t.id ≠ id ∧ contains types t.id then (.error (.duplicateId t.id), types)
  else (.ok t, updateFirst (·.id == id) (fun _ => t) types)

/-- What a list answers and what it is afterwards. -/
def serve (types : List NodeType) :
    Catalog.Request → Except CatalogError NodeType × List NodeType
  | .register t => register types t
  | .unregister id => unregister types id
  | .replace id t => replace types id t

end Listing

namespace Catalog

/-! ### Look-up -/

theorem contains_eq_listing (c : Catalog) (id : String) :
    c.contains id = Listing.contains c.entries id := by
  rw [Bool.eq_iff_iff, contains_iff, Listing.contains, List.any_eq_true, ids, idsOf, List.mem_map]
  simp only [beq_iff_eq]

theorem find_eq_listing (c : Catalog) (id : String) : c.find id = Listing.find c.entries id := by
  unfold find Listing.find Listing.get?
  rw [get?_eq_find?]
  cases c.entries.find? (·.id == id) with
  | none => rfl
  | some t => rfl

/-- The index gives the position of every id, and nothing else. -/
theorem index_eq_some_iff {c : Catalog} {id : String} {i : Nat} :
    c.index[id]? = some i ↔ ∃ t, c.entries[i]? = some t ∧ t.id = id := by
  have hposition : c.index[id]? = c.entries.findIdx? (·.id == id) := c.position?_eq id
  rw [hposition]
  constructor
  · intro h
    obtain ⟨hlt, htest, -⟩ := List.findIdx?_eq_some_iff_getElem.1 h
    exact ⟨c.entries[i], List.getElem?_eq_getElem hlt, by simpa using htest⟩
  · rintro ⟨t, ht, rfl⟩
    -- Some position is found, and since ids differ it is this one.
    have hsome : (c.entries.findIdx? (·.id == t.id)).isSome = true := by
      rw [List.findIdx?_isSome, List.any_eq_true]
      exact ⟨t, List.mem_of_getElem? ht, by simp⟩
    obtain ⟨j, hj⟩ := Option.isSome_iff_exists.1 hsome
    obtain ⟨hlt, htest, -⟩ := List.findIdx?_eq_some_iff_getElem.1 hj
    have hid : c.entries[j].id = t.id := by simpa using htest
    have hsame : (idsOf c.entries)[j]? = (idsOf c.entries)[i]? := by
      rw [idsOf, List.getElem?_map, List.getElem?_map, List.getElem?_eq_getElem hlt, ht]
      exact congrArg some hid
    have hji : j = i := (List.getElem?_inj (by simpa [idsOf] using hlt) c.nodup).1 hsame
    rw [hj, hji]

/-! ### One request -/

/-- Of the entries of a catalog, at most one has an id. -/
theorem pairwise_id (c : Catalog) (id : String) :
    c.entries.Pairwise fun t u => (t.id == id) = true → (u.id == id) = false := by
  have hne : c.entries.Pairwise fun t u => t.id ≠ u.id := List.pairwise_map.1 c.nodup
  refine hne.imp ?_
  intro t u hne ht
  rw [beq_iff_eq] at ht
  rw [beq_eq_false_iff_ne, ← ht]
  exact hne.symm

theorem erase_of_get?_none {c : Catalog} {id : String} (h : c.get? id = none) :
    c.erase id = .error (.notFound id) := by
  cases herase : c.erase id with
  | ok r =>
      have hget : c.get? id = some r.1 := (erase_eq_ok_iff.1 herase).1
      exact absurd (h.symm.trans hget) (by simp)
  | error e =>
      -- Either way in which a removal is refused names the id.
      unfold erase at herase
      split at herase
      · exact herase.symm
      · split at herase
        · exact herase.symm
        · exact absurd herase (by simp)

theorem replace_of_not_contains {c : Catalog} {id : String} (h : c.contains id = false)
    (t : NodeType) : c.replace id t = .error (.notFound id) := by
  unfold replace
  split
  · rfl
  · rename_i i hi
    rw [← isSome_position?, hi] at h
    exact absurd h (by simp)

theorem replace_of_clash {c : Catalog} {id : String} {t : NodeType} (h : c.contains id = true)
    (hne : t.id ≠ id) (hclash : c.contains t.id = true) :
    c.replace id t = .error (.duplicateId t.id) := by
  unfold replace
  split
  · rename_i hi
    exact absurd h (by simp [position?_eq_none_iff.1 hi])
  · rw [dif_pos ⟨hne, hclash⟩]

/-- A list registers as a catalog does. -/
theorem register_entries (c : Catalog) (t : NodeType) :
    Listing.register c.entries t
      = ((c.serve (.register t)).1, (c.serve (.register t)).2.entries) := by
  have hserve : c.serve (.register t) = c.answered ((c.insert t).map (t, ·)) := rfl
  unfold Listing.register
  rw [hserve, ← contains_eq_listing]
  by_cases hc : c.contains t.id = true
  · rw [if_pos hc, insert_of_contains hc]
    rfl
  · obtain ⟨d, hd⟩ := exists_insert (by simpa using hc)
    rw [if_neg hc, hd, ← (insert_eq_ok_iff.1 hd).2]
    rfl

/-- A list removes as a catalog does. -/
theorem unregister_entries (c : Catalog) (id : String) :
    Listing.unregister c.entries id
      = ((c.serve (.unregister id)).1, (c.serve (.unregister id)).2.entries) := by
  have hserve : c.serve (.unregister id) = c.answered (c.erase id) := rfl
  unfold Listing.unregister Listing.get?
  rw [hserve, ← get?_eq_find?]
  cases hget : c.get? id with
  | none =>
      rw [erase_of_get?_none hget]
      rfl
  | some t =>
      obtain ⟨d, hd⟩ := exists_erase hget
      rw [hd, eraseP_eq_filter (c.pairwise_id id)]
      show (_, _) = (Except.ok t, d.entries)
      rw [(erase_eq_ok_iff.1 hd).2]
      congr 1
      refine List.filter_congr fun u _ => ?_
      by_cases hu : u.id = id
      · simp [hu]
      · simp [hu]

/-- A list replaces as a catalog does. -/
theorem replace_entries (c : Catalog) (id : String) (t : NodeType) :
    Listing.replace c.entries id t
      = ((c.serve (.replace id t)).1, (c.serve (.replace id t)).2.entries) := by
  have hserve : c.serve (.replace id t) = c.answered ((c.replace id t).map (t, ·)) := rfl
  unfold Listing.replace
  rw [hserve, ← contains_eq_listing, ← contains_eq_listing]
  by_cases hc : c.contains id = true
  · rw [if_neg (by simp [hc])]
    by_cases hclash : t.id ≠ id ∧ c.contains t.id = true
    · rw [if_pos hclash, replace_of_clash hc hclash.1 hclash.2]
      rfl
    · obtain ⟨d, hd⟩ := exists_replace hc hclash
      rw [if_neg hclash, hd, updateFirst_eq_map (c.pairwise_id id)]
      show (_, _) = (Except.ok t, d.entries)
      rw [(replace_eq_ok_iff.1 hd).2.2]
      simp
  · have hc : c.contains id = false := by simpa using hc
    rw [if_pos hc, replace_of_not_contains hc]
    rfl

/-- **A list answers a request as a catalog with these entries does, and is left with the entries
that the catalog is left with.** -/
theorem serve_entries (c : Catalog) (request : Request) :
    Listing.serve c.entries request = ((c.serve request).1, (c.serve request).2.entries) := by
  cases request with
  | register t => exact c.register_entries t
  | unregister id => exact c.unregister_entries id
  | replace id t => exact c.replace_entries id t

/-! ### Runs of requests -/

theorem serveAll_entries (requests : List Request) (c : Catalog) :
    serveAll Listing.serve c.entries requests
      = ((serveAll serve c requests).1, (serveAll serve c requests).2.entries) := by
  induction requests generalizing c with
  | nil => rfl
  | cons request rest ih => simp only [serveAll, serve_entries, ih]

/-- Whether a catalog lists exactly the given node types, in their order. -/
structure Lists (c : Catalog) (types : List NodeType) : Prop where
  entries : c.entries = types
  /-- No two of them share an id. -/
  distinct : types.Pairwise fun t u => t.id ≠ u.id
  /-- Look-up finds what a search from the front finds. -/
  get? : ∀ id, c.get? id = Listing.get? types id
  contains : ∀ id, c.contains id = Listing.contains types id
  find : ∀ id, c.find id = Listing.find types id
  /-- What is found is the one node type with the id. -/
  unique : ∀ id t, c.get? id = some t ↔ t ∈ types ∧ t.id = id
  /-- The index holds the position of every id, and nothing else. -/
  index : ∀ (id : String) (i : Nat), c.index[id]? = some i ↔ ∃ t, types[i]? = some t ∧ t.id = id

theorem lists_entries (c : Catalog) : c.Lists c.entries where
  entries := rfl
  distinct := List.pairwise_map.1 c.nodup
  get? := c.get?_eq_find?
  contains := c.contains_eq_listing
  find := c.find_eq_listing
  unique _ _ := get?_eq_some_iff
  index _ _ := index_eq_some_iff

/--
**A catalog answers every run of requests as a plain list does.**  Start from a catalog without
entries and from an empty list, and make the same requests of both, whatever they are: register,
remove and replace node types.  The answers and errors are the same one by one.  Afterwards the
catalog lists what the list holds: its look-ups give what a search of the list from the front gives,
and its index holds the position of every id and nothing else.
-/
theorem answers_as_plain_list (requests : List Request) :
    let catalog := serveAll serve ∅ requests
    let plain := serveAll Listing.serve [] requests
    catalog.1 = plain.1 ∧ catalog.2.Lists plain.2 := by
  intro catalog plain
  have hplain : plain = (catalog.1, catalog.2.entries) := serveAll_entries requests ∅
  rw [hplain]
  exact ⟨rfl, catalog.2.lists_entries⟩

end Catalog

end CommandFlow
