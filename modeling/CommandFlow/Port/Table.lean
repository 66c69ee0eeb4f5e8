/-
The ports of one side of a node type, by key, in the order of their declaration.
-/
import CommandFlow.Entries
import CommandFlow.Port.Basic

namespace CommandFlow

/-- Ports by key, in the order in which the keys were first declared. -/
@[ext]
structure PortTable where
  entries : List (String × Port)
  /-- A key has one port. -/
  nodup : (Entries.keys entries).Nodup

namespace PortTable

/-- A table without ports. -/
def empty : PortTable := ⟨[], by simp [Entries.keys]⟩

instance : EmptyCollection PortTable := ⟨empty⟩

instance : Inhabited PortTable := ⟨empty⟩

/-- Declares a port. A key that is declared again keeps its place. -/
def insert (table : PortTable) (key : String) (port : Port) : PortTable :=
  ⟨Entries.set table.entries key port, Entries.nodup_keys_set table.nodup key port⟩

/-- Declares ports one after the other. -/
def ofList (entries : List (String × Port)) : PortTable :=
  entries.foldl (fun table (key, port) => table.insert key port) ∅

/-- The port of a key. -/
def get? (table : PortTable) (key : String) : Option Port :=
  table.entries.lookup key

/-- Whether a key has a port. -/
def contains (table : PortTable) (key : String) : Bool :=
  (table.get? key).isSome

/-- The keys in their order. -/
def keys (table : PortTable) : List String :=
  Entries.keys table.entries

/-- The number of ports. -/
def size (table : PortTable) : Nat :=
  table.entries.length

/-- Whether there are no ports. -/
def isEmpty (table : PortTable) : Bool :=
  table.entries.isEmpty

@[simp]
theorem get?_insert (table : PortTable) (key : String) (port : Port) (k : String) :
    (table.insert key port).get? k = if k = key then some port else table.get? k :=
  Entries.lookup_set table.entries key port k

@[simp]
theorem keys_insert (table : PortTable) (key : String) (port : Port) :
    (table.insert key port).keys
      = if key ∈ table.keys then table.keys else table.keys ++ [key] :=
  Entries.keys_set table.entries key port

end PortTable

end CommandFlow
