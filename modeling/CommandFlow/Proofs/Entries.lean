/-
Entries that are set one after the other.

Where keys differ nothing is set twice, so `set` gives the entries as they stand.  Where keys ascend
each is inserted behind all others, so `insert` does too.  Whatever the keys, nothing is kept but
entries that were set; `set` keeps each key where it was set first, with the value it was set to
last.
-/
import CommandFlow.Literals
import Mathlib.Data.List.Basic
import Mathlib.Data.List.Induction

namespace CommandFlow.Entries

variable {α : Type}

/-- What is done to values leaves the keys alone. -/
theorem keys_map_values {β : Type} (change : α → β) (entries : List (String × α)) :
    keys (entries.map fun entry => (entry.1, change entry.2)) = keys entries :=
  List.map_map

/-! ### Order of first appearance -/

/-- A key that is new is set behind all others. -/
theorem set_of_not_mem {entries : List (String × α)} {key : String} (h : key ∉ keys entries)
    (value : α) : set entries key value = entries ++ [(key, value)] := by
  induction entries with
  | nil => rfl
  | cons entry rest ih =>
      obtain ⟨k, v⟩ := entry
      rw [keys_cons, List.mem_cons, not_or] at h
      rw [set, if_neg (Ne.symm h.1), ih h.2, List.cons_append]

/-- Where keys differ, every entry is found under its key. -/
theorem lookup_of_mem {entries : List (String × α)} (h : (keys entries).Nodup) {key : String}
    {value : α} (hmem : (key, value) ∈ entries) : entries.lookup key = some value := by
  induction entries with
  | nil => exact absurd hmem List.not_mem_nil
  | cons entry rest ih =>
      obtain ⟨k, v⟩ := entry
      rw [keys_cons, List.nodup_cons] at h
      rw [lookup_cons]
      rcases List.mem_cons.1 hmem with heq | hmem
      · rw [(Prod.mk.inj heq).1, if_pos rfl, (Prod.mk.inj heq).2]
      · have hne : key ≠ k := by
          intro heq
          exact h.1 (List.mem_map.2 ⟨(key, value), hmem, heq⟩)
        rw [if_neg hne, ih h.2 hmem]

theorem mem_set {entries : List (String × α)} {key : String} {value : α} {entry : String × α}
    (h : entry ∈ set entries key value) : entry ∈ entries ∨ entry = (key, value) := by
  induction entries with
  | nil => exact Or.inr (List.mem_singleton.1 h)
  | cons first rest ih =>
      obtain ⟨k, v⟩ := first
      unfold set at h
      split at h
      · rename_i heq
        rcases List.mem_cons.1 h with rfl | hmem
        · exact Or.inr (by rw [heq])
        · exact Or.inl (List.mem_cons_of_mem _ hmem)
      · rcases List.mem_cons.1 h with rfl | hmem
        · exact Or.inl List.mem_cons_self
        · exact (ih hmem).imp_left (List.mem_cons_of_mem _)

/-- Entries whose keys differ from each other and from those before are set behind them. -/
theorem foldl_set_of_nodup (entries done : List (String × α))
    (h : (keys (done ++ entries)).Nodup) :
    entries.foldl (fun done (key, value) => set done key value) done = done ++ entries := by
  induction entries generalizing done with
  | nil => exact (List.append_nil _).symm
  | cons entry rest ih =>
      obtain ⟨key, value⟩ := entry
      have hnew : key ∉ keys done := by
        intro hmem
        rw [keys, List.map_append, List.nodup_append] at h
        exact h.2.2 key hmem key List.mem_cons_self rfl
      rw [List.append_cons] at h ⊢
      show rest.foldl _ (set done key value) = _
      rw [set_of_not_mem hnew]
      exact ih _ h

/-- Setting entries one after the other gives entries whose keys differ, and none that was not
set. -/
theorem foldl_set_spec (entries : List (String × α)) :
    let done := entries.foldl (fun done (key, value) => set done key value) []
    (keys done).Nodup ∧ ∀ entry ∈ done, entry ∈ entries := by
  refine List.foldlRecOn entries _
    (motive := fun done => (keys done).Nodup ∧ ∀ entry ∈ done, entry ∈ entries)
    ⟨List.nodup_nil, fun _ h => absurd h (by simp)⟩ ?_
  rintro done ⟨hnodup, hmem⟩ entry hentry
  refine ⟨nodup_keys_set hnodup _ _, ?_⟩
  intro other hother
  rcases mem_set hother with hold | rfl
  · exact hmem other hold
  · exact hentry

/-- Keys stand in the order in which they were first set. -/
theorem keys_foldl_set (entries : List (String × α)) :
    keys (entries.foldl (fun done (key, value) => set done key value) [])
      = (keys entries).eraseDups := by
  induction entries using List.reverseRecOn with
  | nil => rfl
  | append_singleton entries entry ih =>
      obtain ⟨key, value⟩ := entry
      have hkeys : keys (entries ++ [(key, value)]) = keys entries ++ [key] := List.map_append
      rw [List.foldl_append, List.foldl_cons, List.foldl_nil, keys_set, ih, hkeys,
        List.eraseDups_append]
      by_cases hmem : key ∈ keys entries
      · simp [hmem, List.removeAll]
      · simp [hmem, List.removeAll, List.eraseDups_cons]

/-- A key has the value that was set last. -/
theorem lookup_foldl_set (entries : List (String × α)) (key : String) :
    (entries.foldl (fun done (key, value) => set done key value) []).lookup key
      = entries.reverse.lookup key := by
  induction entries using List.reverseRecOn with
  | nil => rfl
  | append_singleton entries entry ih =>
      obtain ⟨k, value⟩ := entry
      rw [List.foldl_append, List.foldl_cons, List.foldl_nil, lookup_set, ih, List.reverse_append,
        List.reverse_singleton, List.singleton_append, lookup_cons]

/-- Where keys differ, entries are given by the order of their keys and by the values found. -/
theorem filterMap_lookup_keys {entries : List (String × α)} (h : (keys entries).Nodup) :
    (keys entries).filterMap (fun key => (entries.lookup key).map (key, ·)) = entries := by
  rw [keys, List.filterMap_map]
  refine Eq.trans (List.filterMap_congr fun entry hentry => ?_) List.filterMap_some
  show (entries.lookup entry.1).map (entry.1, ·) = some entry
  rw [lookup_of_mem h hentry]
  rfl

/-- A key that is there is set where it stands. -/
theorem exists_set_eq {entries : List (String × α)} {key : String} (h : key ∈ keys entries)
    (value : α) : ∃ before old after, entries = before ++ (key, old) :: after ∧
      set entries key value = before ++ (key, value) :: after := by
  induction entries with
  | nil => exact absurd h List.not_mem_nil
  | cons entry rest ih =>
      obtain ⟨k, v⟩ := entry
      unfold set
      by_cases hk : k = key
      · exact ⟨[], v, rest, by rw [hk]; rfl, by rw [if_pos hk, hk]; rfl⟩
      · rw [keys_cons, List.mem_cons] at h
        obtain ⟨before, old, after, hsplit, hset⟩ := ih (h.resolve_left fun he => hk he.symm)
        exact ⟨(k, v) :: before, old, after, by rw [hsplit]; rfl, by rw [if_neg hk, hset]; rfl⟩

/-! ### Ascending keys -/

/-- A key that is above all others is inserted behind them. -/
theorem insert_of_forall_lt {entries : List (String × α)} {key : String}
    (h : ∀ k ∈ keys entries, k < key) (value : α) :
    insert entries key value = entries ++ [(key, value)] := by
  induction entries with
  | nil => rfl
  | cons entry rest ih =>
      obtain ⟨k, v⟩ := entry
      have hlt : k < key := h k List.mem_cons_self
      have hne : key ≠ k := fun heq => String.lt_irrefl k (heq ▸ hlt)
      rw [insert, if_neg (String.lt_asymm hlt), if_neg hne,
        ih fun k' hk' => h k' (List.mem_cons_of_mem _ hk'), List.cons_append]

/-- Keys that ascend differ. -/
theorem Ascending.nodup {entries : List (String × α)} (h : Ascending entries) :
    (keys entries).Nodup := by
  refine h.imp ?_
  intro a b hlt heq
  exact String.lt_irrefl b (heq ▸ hlt)

theorem mem_insert {entries : List (String × α)} {key : String} {value : α} {entry : String × α}
    (h : entry ∈ insert entries key value) : entry ∈ entries ∨ entry = (key, value) := by
  induction entries with
  | nil => exact Or.inr (List.mem_singleton.1 h)
  | cons first rest ih =>
      obtain ⟨k, v⟩ := first
      unfold insert at h
      split at h
      · exact (List.mem_cons.1 h).symm
      · split at h
        · rcases List.mem_cons.1 h with rfl | hmem
          · exact Or.inr rfl
          · exact Or.inl (List.mem_cons_of_mem _ hmem)
        · rcases List.mem_cons.1 h with rfl | hmem
          · exact Or.inl List.mem_cons_self
          · exact (ih hmem).imp_left (List.mem_cons_of_mem _)

end CommandFlow.Entries

namespace CommandFlow.Literals

/-! ### Values by key -/

/-- Values whose keys ascend are kept as they stand. -/
theorem foldl_insert_of_ascending (entries : List (String × Json)) (values : Literals)
    (h : Entries.Ascending (values.entries ++ entries)) :
    (entries.foldl (fun values (key, value) => values.insert key value) values).entries
      = values.entries ++ entries := by
  induction entries generalizing values with
  | nil => exact (List.append_nil _).symm
  | cons entry rest ih =>
      obtain ⟨key, value⟩ := entry
      have habove : ∀ k ∈ Entries.keys values.entries, k < key := by
        intro k hk
        rw [Entries.Ascending, Entries.keys, List.map_append, List.pairwise_append] at h
        exact h.2.2 k hk key List.mem_cons_self
      have hinsert : (values.insert key value).entries = values.entries ++ [(key, value)] :=
        Entries.insert_of_forall_lt habove value
      rw [List.append_cons, ← hinsert] at h ⊢
      exact ih _ h

theorem entries_ofList {entries : List (String × Json)} (h : Entries.Ascending entries) :
    (ofList entries).entries = entries :=
  foldl_insert_of_ascending entries ∅ h

/-- Nothing is kept but values that were set. -/
theorem mem_of_mem_ofList (entries : List (String × Json)) :
    ∀ entry ∈ (ofList entries).entries, entry ∈ entries := by
  refine List.foldlRecOn entries _
    (motive := fun values : Literals => ∀ entry ∈ values.entries, entry ∈ entries)
    (fun _ h => absurd h (by simp [EmptyCollection.emptyCollection, empty])) ?_
  intro values hvalues entry hentry other hother
  rcases Entries.mem_insert hother with hold | rfl
  · exact hvalues other hold
  · exact hentry

end CommandFlow.Literals
