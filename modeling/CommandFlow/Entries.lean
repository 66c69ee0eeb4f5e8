/-
Lists of entries, each a value under a key.

Two disciplines are used.  `set` keeps the order in which keys first appeared: a key that is set
again keeps its place.  `insert` keeps the keys ascending.  Either way no key appears twice, and
looking a key up gives what was set last; the lemmas here say so.
-/

namespace CommandFlow.Entries

variable {α : Type}

/-- The keys of entries, in their order. -/
def keys (entries : List (String × α)) : List String :=
  entries.map (·.1)

/-- Sets the value of a key: at its place if there is such an entry, else behind all others. -/
def set : List (String × α) → String → α → List (String × α)
  | [], key, value => [(key, value)]
  | (k, v) :: rest, key, value =>
    if k = key then (k, value) :: rest else (k, v) :: set rest key value

/-- Sets the value of a key in entries whose keys ascend. -/
def insert : List (String × α) → String → α → List (String × α)
  | [], key, value => [(key, value)]
  | (k, v) :: rest, key, value =>
    if key < k then (key, value) :: (k, v) :: rest
    else if key = k then (key, value) :: rest
    else (k, v) :: insert rest key value

/-- The entries without those of a key. -/
def erase (entries : List (String × α)) (key : String) : List (String × α) :=
  entries.filter (·.1 ≠ key)

theorem keys_cons (k : String) (v : α) (rest : List (String × α)) :
    keys ((k, v) :: rest) = k :: keys rest := rfl

theorem lookup_cons (k : String) (v : α) (rest : List (String × α)) (key : String) :
    ((k, v) :: rest).lookup key = if key = k then some v else rest.lookup key := by
  rw [List.lookup_cons]
  by_cases h : key = k
  · rw [if_pos h, beq_iff_eq.2 h]
  · rw [if_neg h, beq_eq_false_iff_ne.2 h]

/-! ### Order of first appearance -/

/-- Setting a key leaves the keys as they are, or adds it behind them. -/
theorem keys_set (entries : List (String × α)) (key : String) (value : α) :
    keys (set entries key value)
      = if key ∈ keys entries then keys entries else keys entries ++ [key] := by
  induction entries with
  | nil => rfl
  | cons entry rest ih =>
    obtain ⟨k, v⟩ := entry
    unfold set
    by_cases h : k = key
    · rw [if_pos h, keys_cons, keys_cons, if_pos (by rw [h]; exact List.mem_cons_self)]
    · have hmem : key ∈ k :: keys rest ↔ key ∈ keys rest := by
        rw [List.mem_cons]
        exact ⟨fun hc => hc.resolve_left fun he => h he.symm, Or.inr⟩
      rw [if_neg h, keys_cons, keys_cons, ih]
      by_cases hk : key ∈ keys rest
      · rw [if_pos hk, if_pos (hmem.2 hk)]
      · rw [if_neg hk, if_neg fun hc => hk (hmem.1 hc), List.cons_append]

theorem nodup_keys_set {entries : List (String × α)} (h : (keys entries).Nodup) (key : String)
    (value : α) : (keys (set entries key value)).Nodup := by
  rw [keys_set]
  by_cases hk : key ∈ keys entries
  · rw [if_pos hk]
    exact h
  · rw [if_neg hk, List.nodup_append]
    refine ⟨h, by simp, ?_⟩
    intro a ha b hb hab
    rw [List.mem_singleton] at hb
    exact hk (by rw [← hb, ← hab]; exact ha)

/-- Looking a key up gives what was set last. -/
theorem lookup_set (entries : List (String × α)) (key : String) (value : α) (k : String) :
    (set entries key value).lookup k = if k = key then some value else entries.lookup k := by
  induction entries with
  | nil =>
    rw [set, lookup_cons]
  | cons entry rest ih =>
    obtain ⟨k', v'⟩ := entry
    unfold set
    by_cases h : k' = key
    · rw [if_pos h, lookup_cons, lookup_cons, h]
      by_cases hk : k = key
      · rw [if_pos hk, if_pos hk]
      · rw [if_neg hk, if_neg hk, if_neg hk]
    · rw [if_neg h, lookup_cons, lookup_cons, ih]
      by_cases hk : k = k'
      · rw [if_pos hk, if_pos hk, if_neg (by rw [hk]; exact h)]
      · rw [if_neg hk, if_neg hk]

/-! ### Ascending keys -/

/-- Whether the keys ascend. -/
def Ascending (entries : List (String × α)) : Prop :=
  (keys entries).Pairwise (· < ·)

theorem mem_keys_insert {entries : List (String × α)} {key : String} {value : α} {k : String}
    (h : k ∈ keys (insert entries key value)) : k ∈ keys entries ∨ k = key := by
  induction entries with
  | nil => exact Or.inr (List.mem_singleton.1 h)
  | cons entry rest ih =>
    obtain ⟨k', v'⟩ := entry
    rw [keys_cons, List.mem_cons]
    unfold insert at h
    by_cases hlt : key < k'
    · rw [if_pos hlt, keys_cons, keys_cons, List.mem_cons, List.mem_cons] at h
      exact h.elim Or.inr Or.inl
    · by_cases heq : key = k'
      · rw [if_neg hlt, if_pos heq, keys_cons, List.mem_cons] at h
        exact h.elim Or.inr fun hc => Or.inl (Or.inr hc)
      · rw [if_neg hlt, if_neg heq, keys_cons, List.mem_cons] at h
        rcases h with h | h
        · exact Or.inl (Or.inl h)
        · exact (ih h).elim (fun hc => Or.inl (Or.inr hc)) Or.inr

theorem lt_of_not_lt_of_ne {a b : String} (h : ¬ a < b) (hne : a ≠ b) : b < a := by
  refine Classical.byContradiction fun hc => hne ?_
  exact String.le_antisymm (String.not_lt.1 hc) (String.not_lt.1 h)

theorem ascending_insert {entries : List (String × α)} (h : Ascending entries) (key : String)
    (value : α) : Ascending (insert entries key value) := by
  induction entries with
  | nil => exact List.pairwise_singleton _ _
  | cons entry rest ih =>
    obtain ⟨k', v'⟩ := entry
    have hcons : (∀ k ∈ keys rest, k' < k) ∧ Ascending rest := List.pairwise_cons.1 h
    unfold insert
    by_cases hlt : key < k'
    · rw [if_pos hlt]
      refine List.pairwise_cons.2 ⟨?_, h⟩
      intro k hk
      rcases List.mem_cons.1 hk with rfl | hk
      · exact hlt
      · exact String.lt_trans hlt (hcons.1 k hk)
    · by_cases heq : key = k'
      · rw [if_neg hlt, if_pos heq, heq]
        exact List.pairwise_cons.2 ⟨hcons.1, hcons.2⟩
      · rw [if_neg hlt, if_neg heq]
        refine List.pairwise_cons.2 ⟨?_, ih hcons.2⟩
        intro k hk
        rcases mem_keys_insert hk with hk | rfl
        · exact hcons.1 k hk
        · exact lt_of_not_lt_of_ne hlt heq

theorem ascending_erase {entries : List (String × α)} (h : Ascending entries) (key : String) :
    Ascending (erase entries key) :=
  h.sublist (List.Sublist.map _ List.filter_sublist)

/-- Looking a key up gives what was inserted last. -/
theorem lookup_insert (entries : List (String × α)) (key : String) (value : α) (k : String) :
    (insert entries key value).lookup k = if k = key then some value else entries.lookup k := by
  induction entries with
  | nil => rw [insert, lookup_cons]
  | cons entry rest ih =>
    obtain ⟨k', v'⟩ := entry
    unfold insert
    by_cases hlt : key < k'
    · rw [if_pos hlt, lookup_cons]
    · by_cases heq : key = k'
      · rw [if_neg hlt, if_pos heq, lookup_cons, lookup_cons, heq]
        by_cases hk : k = k'
        · rw [if_pos hk, if_pos hk]
        · rw [if_neg hk, if_neg hk, if_neg hk]
      · rw [if_neg hlt, if_neg heq, lookup_cons, lookup_cons, ih]
        by_cases hk : k = k'
        · rw [if_pos hk, if_pos hk, if_neg (by rw [hk]; exact fun hc => heq hc.symm)]
        · rw [if_neg hk, if_neg hk]

theorem lookup_erase (entries : List (String × α)) (key k : String) :
    (erase entries key).lookup k = if k = key then none else entries.lookup k := by
  induction entries with
  | nil => simp [erase]
  | cons entry rest ih =>
    obtain ⟨k', v'⟩ := entry
    unfold erase at ih ⊢
    by_cases hk' : k' = key
    · rw [List.filter_cons_of_neg (by simp [hk']), ih, lookup_cons, hk']
      by_cases hk : k = key
      · rw [if_pos hk, if_pos hk]
      · rw [if_neg hk, if_neg hk, if_neg hk]
    · rw [List.filter_cons_of_pos (by simp [hk']), lookup_cons, lookup_cons, ih]
      by_cases hk : k = k'
      · rw [if_pos hk, if_pos hk, if_neg (by rw [hk]; exact hk')]
      · rw [if_neg hk, if_neg hk]

end CommandFlow.Entries
