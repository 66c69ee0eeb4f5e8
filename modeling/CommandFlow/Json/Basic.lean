/-
JSON values.

An object keeps its entries in the order they were written, because that order is shown again when
the value is saved.  Two values can therefore be the same without being identical: `==` ignores
the order of entries and the sign of zero.
-/
import CommandFlow.Entries
import CommandFlow.Number.Binary64

namespace CommandFlow

/-- A JSON number: an integer when it is written as one and fits 64 bits, else a double. -/
inductive Number where
  | int (value : Int) (inRange : -0x8000000000000000 ≤ value ∧ value < 0x10000000000000000)
  | double (value : Binary64)
deriving DecidableEq

namespace Number

/-- The number an integer is kept as. -/
def ofInt (n : Int) : Number :=
  if h : -0x8000000000000000 ≤ n ∧ n < 0x10000000000000000 then .int n h else .double (.ofInt n)

instance : BEq Number where
  beq
    | .int a _, .int b _ => a == b
    | .double a, .double b => a == b
    | _, _ => false

/-- The number as a double. -/
def toBinary64 : Number → Binary64
  | .int n _ => .ofInt n
  | .double x => x

end Number

/-- A JSON value. The entries of an object stand in the order they were first written. -/
inductive Json where
  | null
  | bool (value : Bool)
  | number (value : Number)
  | string (value : String)
  | array (items : List Json)
  | object (entries : List (String × Json))
deriving Inhabited

namespace Json

/-- The integer `n` as a value. -/
def ofInt (n : Int) : Json :=
  .number (.ofInt n)

/-- The object written as the given entries: a key written again keeps its first place and takes
the last value. -/
def ofEntries (entries : List (String × Json)) : Json :=
  .object (entries.foldl (fun done (key, value) => Entries.set done key value) [])

/-- The value of a key, if this is an object that has it. -/
def get? (json : Json) (key : String) : Option Json :=
  match json with
  | .object entries => entries.lookup key
  | _ => none

/-- The text of a string value. -/
def string? : Json → Option String
  | .string s => some s
  | _ => none

mutual

/-- Whether two values are the same: objects whatever the order of their entries, zeros whatever
their sign. -/
def same : Json → Json → Bool
  | .null, .null => true
  | .bool a, .bool b => a == b
  | .number a, .number b => a == b
  | .string a, .string b => a == b
  | .array as, .array bs => sameItems as bs
  | .object as, .object bs => as.length == bs.length && sameEntries as bs
  | _, _ => false

/-- Whether two lists hold the same values in the same order. -/
def sameItems : List Json → List Json → Bool
  | [], [] => true
  | a :: as, b :: bs => same a b && sameItems as bs
  | _, _ => false

/-- Whether every entry of the first list has the same value in the second. -/
def sameEntries : List (String × Json) → List (String × Json) → Bool
  | [], _ => true
  | (key, a) :: rest, bs =>
    (match bs.lookup key with
      | some b => same a b
      | none => false) && sameEntries rest bs

end

instance : BEq Json := ⟨same⟩

end Json

end CommandFlow
