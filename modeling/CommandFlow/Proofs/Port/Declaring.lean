/-
Ports that are declared one after the other.

Where a port stands and what it is come from different declarations of its key: the place from the
first, the port from the last.  So a port that is declared again is changed where it stands, in the
table and in what is written for it.
-/
import CommandFlow.NodeType
import CommandFlow.Proofs.Entries

namespace CommandFlow.PortTable

/-- The entries of a table are set one after the other. -/
theorem entries_ofList_eq_foldl (declarations : List (String × Port)) :
    (ofList declarations).entries
      = declarations.foldl (fun done (key, port) => Entries.set done key port) [] :=
  (List.foldl_hom PortTable.entries fun _ _ => rfl).symm

theorem keys_ofList (declarations : List (String × Port)) :
    (ofList declarations).keys = (Entries.keys declarations).eraseDups := by
  rw [keys, entries_ofList_eq_foldl, Entries.keys_foldl_set]

theorem get?_ofList (declarations : List (String × Port)) (key : String) :
    (ofList declarations).get? key = declarations.reverse.lookup key := by
  rw [get?, entries_ofList_eq_foldl, Entries.lookup_foldl_set]

/-- A table is written as its keys in order, each with its port. -/
theorem toJson_eq (table : PortTable) :
    table.toJson = .object (table.keys.filterMap fun key =>
      (table.get? key).map fun port => (key, port.toJson)) := by
  have hentries := Entries.filterMap_lookup_keys table.nodup
  refine congrArg Json.object ?_
  show table.entries.map (fun entry => (entry.1, entry.2.toJson)) = _
  conv_lhs => rw [← hentries]
  rw [List.map_filterMap]
  refine List.filterMap_congr fun key _ => ?_
  exact Option.map_map _ _ _

/-- A port that is declared again is written where it was. -/
theorem exists_toJson_insert {table : PortTable} {key : String} (h : key ∈ table.keys)
    (port : Port) : ∃ before old after,
      (key ∉ Entries.keys before ∧ key ∉ Entries.keys after) ∧
        table.toJson = .object (before ++ (key, old) :: after) ∧
        (table.insert key port).toJson = .object (before ++ (key, port.toJson) :: after) := by
  obtain ⟨before, old, after, hsplit, hset⟩ := Entries.exists_set_eq h port
  refine ⟨before.map fun entry => (entry.1, entry.2.toJson), old.toJson,
    after.map fun entry => (entry.1, entry.2.toJson), ?_, ?_, ?_⟩
  · -- The key stands at one place only.
    have hnodup : (Entries.keys before ++ key :: Entries.keys after).Nodup := by
      have hnodup := table.nodup
      rwa [hsplit, Entries.keys, List.map_append] at hnodup
    rw [List.nodup_append, List.nodup_cons] at hnodup
    rw [Entries.keys_map_values, Entries.keys_map_values]
    exact ⟨fun hmem => hnodup.2.2 key hmem key List.mem_cons_self rfl, hnodup.2.1.1⟩
  · refine congrArg Json.object ?_
    rw [hsplit]
    exact List.map_append
  · refine congrArg Json.object ?_
    show (Entries.set table.entries key port).map _ = _
    rw [hset]
    exact List.map_append

/--
**A port stands where its key was first declared, and is the one that was declared last.**  Whatever
is declared, in whatever order, the keys of the table differ and stand in the order of their first
declarations, and a key has the port of its last declaration.  Declaring more goes on from the table
there is.  What is written is an object with these keys in this order; a key that is declared once
more changes in it where it stands, and nothing else does.
-/
theorem redeclared_ports_keep_their_places (declarations : List (String × Port)) :
    let table := ofList declarations
    let order := (Entries.keys declarations).eraseDups
    table.keys.Nodup ∧ table.keys = order ∧
      (∀ key, table.get? key = declarations.reverse.lookup key) ∧
      (∀ more, ofList (declarations ++ more)
        = more.foldl (fun table entry => table.insert entry.1 entry.2) table) ∧
      (table.toJson = .object (order.filterMap fun key =>
        (declarations.reverse.lookup key).map fun port => (key, port.toJson))) ∧
      ∀ key ∈ Entries.keys declarations, ∀ port, ∃ before old after,
        (key ∉ Entries.keys before ∧ key ∉ Entries.keys after) ∧
          table.toJson = .object (before ++ (key, old) :: after) ∧
          (ofList (declarations ++ [(key, port)])).toJson
            = .object (before ++ (key, port.toJson) :: after) := by
  intro table order
  have hkeys : table.keys = order := keys_ofList declarations
  have hget : ∀ key, table.get? key = declarations.reverse.lookup key := get?_ofList declarations
  have hmore : ∀ more, ofList (declarations ++ more)
      = more.foldl (fun table entry => table.insert entry.1 entry.2) table :=
    fun _ => List.foldl_append
  refine ⟨table.nodup, hkeys, hget, hmore, ?_, ?_⟩
  · simp only [table.toJson_eq, hkeys, hget]
  · intro key hkey port
    rw [hmore, List.foldl_cons, List.foldl_nil]
    exact exists_toJson_insert (by rw [hkeys]; exact List.mem_eraseDups.2 hkey) port

end CommandFlow.PortTable
