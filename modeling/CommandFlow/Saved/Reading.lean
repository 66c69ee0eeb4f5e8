/-
Reading typed values out of the tree of a JSON text.

Parts are read in the order of the text, and the first problem ends the reading.  On the way, codes
of options that are not in use are noted; they are no problem, but somebody may want to know.

Values nest: `depth` is always how many more arrays and objects may be entered.
-/
import CommandFlow.Json.Printer
import CommandFlow.Json.Raw
import CommandFlow.Literals
import CommandFlow.Text.Quoted

namespace CommandFlow.Saved

/-- What was found where something else was expected. -/
inductive Found where
  | null
  | boolean (value : Bool)
  | integer (value : Int)
  | double (value : Binary64)
  | string (value : String)
  | sequence
  | map
deriving DecidableEq

/-- What was expected. -/
inductive Expected where
  | string
  | boolean
  | code
  | coordinate
  | sequence
  | map
  /-- A record with the given label. -/
  | record (label : String)
deriving DecidableEq, Repr

/-- Why a text cannot be read. -/
inductive ReadError where
  /-- The text is not well formed, or a value in it is out of bounds. -/
  | malformed
  | missingField (name : String)
  | duplicateField (name : String)
  | invalidType (found : Found) (expected : Expected)
  | codeOutOfRange (value : Int)
  /-- A record written as an array ends before a field that it needs. -/
  | invalidLength (length : Nat) (label : String) (fields : Nat)
deriving DecidableEq

/-- What was found, as messages show it. -/
def Found.text : Found → String
  | .null => "null"
  | .boolean b => s!"boolean `{b}`"
  | .integer n => s!"integer `{n}`"
  | .double x => "floating point `" ++ String.ofList (x.text Json.numberStyle) ++ "`"
  | .string s => "string " ++ Text.quoted s
  | .sequence => "sequence"
  | .map => "map"

/-- What was expected, as messages show it. -/
def Expected.text : Expected → String
  | .string => "a string"
  | .boolean => "a boolean"
  | .code => "i64"
  | .coordinate => "f64"
  | .sequence => "a sequence"
  | .map => "a map"
  | .record label => label

/-- The message of an error. -/
def ReadError.message : ReadError → String
  | .malformed => "invalid JSON"
  | .missingField name => s!"missing field `{name}`"
  | .duplicateField name => s!"duplicate field `{name}`"
  | .invalidType found expected =>
    s!"invalid type: {found.text}, expected {expected.text}"
  | .codeOutOfRange n => s!"invalid value: integer `{n}`, expected {Expected.code.text}"
  | .invalidLength length label fields =>
    s!"invalid length {length}, expected {label} with {fields} elements"

/-! ### Results -/

/-- What reading gives: a result, and the codes noted up to its end. -/
structure Reading (α : Type) where
  result : Except ReadError α
  /-- Codes of options that are not in use, in the order of the text. -/
  unknownCodes : List Int := []

namespace Reading

/-- Ends the reading with an error. -/
def fail {α : Type} (e : ReadError) : Reading α :=
  ⟨.error e, []⟩

/-- Notes a code that is not in use. -/
def note (code : Int) : Reading Unit :=
  ⟨.ok (), [code]⟩

/-- Goes on with what was read, unless the reading has ended. -/
def andThen {α β : Type} (x : Reading α) (f : α → Reading β) : Reading β :=
  match x.result with
  | .error e => ⟨.error e, x.unknownCodes⟩
  | .ok a => ⟨(f a).result, x.unknownCodes ++ (f a).unknownCodes⟩

instance : Monad Reading where
  pure a := ⟨.ok a, []⟩
  bind := andThen

/-- A value that must be there. -/
def ofOption {α : Type} : Option α → Reading α
  | some a => pure a
  | none => fail .malformed

/-! The result of a reading is that of its steps, whatever codes they note. -/

section

variable {α β : Type}

@[simp] theorem result_pure (a : α) : (pure a : Reading α).result = .ok a := rfl

@[simp] theorem result_fail (e : ReadError) : (fail e : Reading α).result = .error e := rfl

@[simp] theorem result_bind (x : Reading α) (f : α → Reading β) :
    (x >>= f).result = x.result.bind fun a => (f a).result := by
  change (x.andThen f).result = _
  unfold andThen
  cases x.result <;> rfl

@[simp] theorem result_map (f : α → β) (x : Reading α) : (f <$> x).result = x.result.map f := by
  change (x.andThen fun a => pure (f a)).result = _
  unfold andThen
  cases x.result <;> rfl

@[simp] theorem result_ofOption (o : Option α) :
    (ofOption o).result = o.elim (.error .malformed) .ok := by
  cases o <;> rfl

end

end Reading

open Json (Raw)

/-- How values of a type are read, given how much deeper values may nest. -/
abbrev Reader (α : Type) := (depth : Nat) → Raw → Reading α

namespace Reader

variable {α : Type}

/-- Reads a whole text. A fault in it counts when the reading comes to it. -/
def ofText (read : Reader α) (text : String) : Reading α := do
  let parsed := Raw.ofText text
  let value ← read Json.maxDepth parsed.tree
  if parsed.wellFormed then return value else .fail .malformed

/-- Ends the reading because something else was expected. What was found must itself be sound. -/
def mismatch (expected : Expected) (raw : Raw) : Reading α := do
  let found : Found ←
    match raw with
    | .null => pure .null
    | .bool b => pure (.boolean b)
    | .number l => do
      match ← .ofOption l.number? with
      | .int n _ => pure (.integer n)
      | .double x => pure (.double x)
    | .string s => do pure (.string (← .ofOption s))
    | .array _ => pure .sequence
    | .object _ => pure .map
    | .broken => .fail .malformed
  .fail (.invalidType found expected)

/-- Goes into an array or object. -/
def enter (depth : Nat) : Reading Nat :=
  match depth with
  | 0 => .fail .malformed
  | depth + 1 => pure depth

/-! ### Single values -/

/-- Reads a text. -/
def string : Reader String := fun _ raw =>
  match raw with
  | .string s => .ofOption s
  | _ => mismatch .string raw

/-- Reads a text or null. -/
def optionalString : Reader (Option String) := fun depth raw =>
  match raw with
  | .null => pure none
  | _ => some <$> string depth raw

/-- Reads true or false. -/
def boolean : Reader Bool := fun _ raw =>
  match raw with
  | .bool b => pure b
  | _ => mismatch .boolean raw

/-- Reads the code of a kind: an integer of 64 bits with a sign. -/
def code : Reader Int := fun _ raw =>
  match raw with
  | .number l => do
    match ← .ofOption l.number? with
    | .int n _ => if n < 0x8000000000000000 then pure n else .fail (.codeOutOfRange n)
    | .double _ => mismatch .code raw
  | _ => mismatch .code raw

/-- Reads a coordinate: a number, or null for zero. -/
def coordinate : Reader Binary64 := fun _ raw =>
  match raw with
  | .null => pure (.zero false)
  | .number l => do return (← .ofOption l.number?).toBinary64
  | _ => mismatch .coordinate raw

/-! ### Collections -/

/-- Reads items, counted from `start`. -/
def itemsFrom (read : Nat → Reader α) (depth start : Nat) : List Raw → Reading (List α)
  | [] => pure []
  | raw :: rest => do
    let a ← read start depth raw
    return a :: (← itemsFrom read depth (start + 1) rest)

/-- Reads a list. The reader of an item is told its position. -/
def list (read : Nat → Reader α) : Reader (List α) := fun depth raw =>
  match raw with
  | .array items => do itemsFrom read (← enter depth) 0 items
  | _ => mismatch .sequence raw

/-- Reads further values by key. The last value of a key counts. -/
def literalsFrom (depth : Nat) (values : Literals) :
    List (Option String × Raw) → Reading Literals
  | [] => pure values
  | (key, raw) :: rest => do
    let key ← .ofOption key
    let value ← .ofOption (raw.toJson? depth)
    literalsFrom depth (values.insert key value) rest

/-- Reads values by key. -/
def literals : Reader Literals := fun depth raw =>
  match raw with
  | .object entries => do literalsFrom (← enter depth) ∅ entries
  | _ => mismatch .map raw

end Reader

end CommandFlow.Saved
