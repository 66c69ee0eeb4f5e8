/-
The tree of a JSON text, before its values are looked at.

Not every part of a text is read as a value: a part that nobody asks for only has to be well
formed.  So numbers keep their literals here, strings may lack a text, objects keep repeated keys,
and nesting is not limited.  `toJson?` turns a tree into a value and applies these checks.

A text that is not well formed has a tree too, because a reader that goes through it in order may
come across things worth knowing before it meets the fault.  The tree holds what stands before the
fault, and every array and object around it ends in the mark `broken`; so a reader meets a mark
whether it enters the part with the fault or passes it over.
-/
import CommandFlow.Json.Token

namespace CommandFlow.Json

/-- The tree of a JSON text. -/
inductive Raw where
  | null
  | bool (value : Bool)
  | number (literal : Literal)
  | string (text : Option String)
  | array (items : List Raw)
  | object (entries : List (Option String × Raw))
  /-- The text is not well formed from here on. -/
  | broken
deriving Inhabited

/-- What a text gives. -/
structure Parsed where
  tree : Raw
  /-- Whether the text is one value, without a fault in it and with nothing behind it. -/
  wellFormed : Bool
deriving Inhabited

namespace Raw

/-! ### From tokens -/

/-- An array or object whose end is still to come. Finished parts are held last first. -/
inductive Frame where
  | array (items : List Raw)
  | object (entries : List (Option String × Raw)) (key : Option String)

/-- What a text gives that has a fault behind a value. -/
def breakOff (value : Raw) : List Frame → Parsed
  | [] => ⟨value, false⟩
  | .array items :: frames => breakOff (.array (.broken :: value :: items).reverse) frames
  | .object entries key :: frames =>
    breakOff (.object ((none, .broken) :: (key, value) :: entries).reverse) frames

mutual

/-- Reads a value inside the given unfinished arrays and objects, innermost first. -/
def ofValue : List Token → List Frame → Parsed
  | .null :: rest, frames => afterValue .null rest frames
  | .bool b :: rest, frames => afterValue (.bool b) rest frames
  | .number l :: rest, frames => afterValue (.number l) rest frames
  | .string s :: rest, frames => afterValue (.string s) rest frames
  | .openArray :: .closeArray :: rest, frames => afterValue (.array []) rest frames
  | .openArray :: rest, frames => ofValue rest (.array [] :: frames)
  | .openObject :: .closeObject :: rest, frames => afterValue (.object []) rest frames
  | .openObject :: .string key :: .colon :: rest, frames =>
    ofValue rest (.object [] key :: frames)
  | .openObject :: .string key :: _, frames => breakOff .broken (.object [] key :: frames)
  | .openObject :: _, frames => breakOff (.object [(none, .broken)]) frames
  | _, frames => breakOff .broken frames

/-- Goes on behind a finished value. -/
def afterValue (value : Raw) : List Token → List Frame → Parsed
  | [], [] => ⟨value, true⟩
  | .comma :: rest, .array items :: frames => ofValue rest (.array (value :: items) :: frames)
  | .closeArray :: rest, .array items :: frames =>
    afterValue (.array (value :: items).reverse) rest frames
  | .comma :: .string next :: .colon :: rest, .object entries key :: frames =>
    ofValue rest (.object ((key, value) :: entries) next :: frames)
  | .comma :: .string next :: _, .object entries key :: frames =>
    breakOff .broken (.object ((key, value) :: entries) next :: frames)
  | .closeObject :: rest, .object entries key :: frames =>
    afterValue (.object ((key, value) :: entries).reverse) rest frames
  | _, frames => breakOff value frames

end

/-- Reads a text. -/
def ofText (text : String) : Parsed :=
  ofValue (Token.lex text) []

/-- The tree of a text that holds one well-formed value. -/
def parse? (text : String) : Option Raw :=
  let parsed := ofText text
  if parsed.wellFormed then some parsed.tree else none

/-! ### To values -/

mutual

/-- The value of a tree that nests no deeper than `depth` and whose numbers and strings all have
a value. -/
def toJson? (depth : Nat) : Raw → Option Json
  | .null => some .null
  | .bool b => some (.bool b)
  | .number l => l.number?.map .number
  | .string s => s.map .string
  | .array items =>
    match depth with
    | 0 => none
    | depth + 1 => (itemsToJson? depth items).map .array
  | .object entries =>
    match depth with
    | 0 => none
    | depth + 1 => (entriesToJson? depth entries).map .ofEntries
  | .broken => none

/-- The values of the items of an array. -/
def itemsToJson? (depth : Nat) : List Raw → Option (List Json)
  | [] => some []
  | item :: rest => do
    let value ← toJson? depth item
    return value :: (← itemsToJson? depth rest)

/-- The values of the entries of an object. -/
def entriesToJson? (depth : Nat) : List (Option String × Raw) → Option (List (String × Json))
  | [] => some []
  | (key, item) :: rest => do
    let key ← key
    let value ← toJson? depth item
    return (key, value) :: (← entriesToJson? depth rest)

end

end Raw

/-- How many arrays and objects may stand inside each other in a text that is read. -/
def maxDepth : Nat := 127

/-- The value of a JSON text. -/
def parse? (text : String) : Option Json := do
  (← Raw.parse? text).toJson? maxDepth

end CommandFlow.Json
