/-
Values typed straight into the inputs of a node, by input key in ascending order.
-/
import CommandFlow.Entries
import CommandFlow.Json.Basic

namespace CommandFlow

/-- JSON values by key. The keys ascend, so equal contents are equal. -/
@[ext]
structure Literals where
  entries : List (String × Json)
  ascending : Entries.Ascending entries

namespace Literals

/-- No values. -/
def empty : Literals := ⟨[], by simp [Entries.Ascending, Entries.keys]⟩

instance : EmptyCollection Literals := ⟨empty⟩

instance : Inhabited Literals := ⟨empty⟩

/-- Sets the value of a key. -/
def insert (values : Literals) (key : String) (value : Json) : Literals :=
  ⟨Entries.insert values.entries key value, Entries.ascending_insert values.ascending key value⟩

/-- Removes the value of a key. -/
def erase (values : Literals) (key : String) : Literals :=
  ⟨Entries.erase values.entries key, Entries.ascending_erase values.ascending key⟩

/-- The value of a key. -/
def get? (values : Literals) (key : String) : Option Json :=
  values.entries.lookup key

/-- Sets values one after the other; the last one of a key counts. -/
def ofList (entries : List (String × Json)) : Literals :=
  entries.foldl (fun values (key, value) => values.insert key value) ∅

/-- The values as a JSON object. -/
def toJson (values : Literals) : Json :=
  .object values.entries

/-- Whether the same keys have the same values. -/
instance : BEq Literals := ⟨fun a b => a.entries == b.entries⟩

@[simp]
theorem get?_insert (values : Literals) (key : String) (value : Json) (k : String) :
    (values.insert key value).get? k = if k = key then some value else values.get? k :=
  Entries.lookup_insert values.entries key value k

@[simp]
theorem get?_erase (values : Literals) (key k : String) :
    (values.erase key).get? k = if k = key then none else values.get? k :=
  Entries.lookup_erase values.entries key k

end Literals

end CommandFlow
