/-
Records: values with named fields.

A record is written as an object, whose unknown fields are passed over, or as an array of its
fields in their declared order.  A field may go by several names; errors give the first.
-/
import CommandFlow.Saved.Reading

namespace CommandFlow.Saved

open Json (Raw)

/-- The fields of a record. -/
structure Schema (φ : Type) where
  /-- What the record is called in messages. -/
  label : String
  /-- All fields in their declared order. -/
  fields : List φ
  /-- The name of a field in messages and in what is written. -/
  name : φ → String
  /-- Other names under which a field is read. -/
  aliases : φ → List String := fun _ => []

variable {φ : Type} {V : φ → Type}

/-- The fields of a record that have been read. -/
def Draft (V : φ → Type) : Type :=
  (field : φ) → Option (V field)

namespace Draft

/-- No fields. -/
def empty : Draft V := fun _ => none

/-- Sets a field. -/
def set [DecidableEq φ] (draft : Draft V) (field : φ) (value : V field) : Draft V := fun other =>
  if h : field = other then some (h ▸ value) else draft other

end Draft

/-- The fields of a record that its text gives, and the error to report for one that it lacks. -/
structure Record (V : φ → Type) where
  draft : Draft V
  lack : φ → ReadError

namespace Record

/-- A field that must be given. -/
def require (record : Record V) (field : φ) : Reading (V field) :=
  match record.draft field with
  | some value => pure value
  | none => .fail (record.lack field)

/-- A field that has a default. -/
def get (record : Record V) (field : φ) (default : V field) : V field :=
  (record.draft field).getD default

end Record

namespace Schema

/-- The field that goes by a name. -/
def field? (schema : Schema φ) (name : String) : Option φ :=
  schema.fields.find? fun f => name = schema.name f ∨ name ∈ schema.aliases f

variable [DecidableEq φ] (schema : Schema φ) (read : (field : φ) → Reader (V field))

/-- Reads the entries of an object in their order. -/
def readEntries (depth : Nat) (draft : Draft V) :
    List (Option String × Raw) → Reading (Draft V)
  | [] => pure draft
  | (key, raw) :: rest => do
    let key ← .ofOption key
    match schema.field? key with
    | none => readEntries depth draft rest
    | some field =>
      if (draft field).isSome then .fail (.duplicateField (schema.name field))
      else
        let value ← read field depth raw
        readEntries depth (draft.set field value) rest

/-- Reads the items of an array as the given fields. There must not be more items. -/
def readItems (depth : Nat) (draft : Draft V) : List φ → List Raw → Reading (Draft V)
  | _, [] => pure draft
  | [], _ :: _ => .fail .malformed
  | field :: fields, raw :: rest => do
    let value ← read field depth raw
    readItems depth (draft.set field value) fields rest

/-- Reads a record. -/
def readRecord : Reader (Record V) := fun depth raw =>
  match raw with
  | .object entries => do
    let draft ← readEntries schema read (← Reader.enter depth) .empty entries
    return ⟨draft, fun field => .missingField (schema.name field)⟩
  | .array items => do
    let draft ← readItems read (← Reader.enter depth) .empty schema.fields items
    let lack field := ReadError.invalidLength (schema.fields.idxOf field) schema.label
      schema.fields.length
    return ⟨draft, lack⟩
  | _ => Reader.mismatch (.record schema.label) raw

end Schema

end CommandFlow.Saved
