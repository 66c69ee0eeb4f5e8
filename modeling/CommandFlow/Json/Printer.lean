/-
Writing JSON values as text.

There are two forms.  The compact one has no blanks; the indented one puts every item and entry on
a line of its own, two blanks further in for every level.

The characters of a value are said by recursion on it.  Writing goes through the value in the same
way, but adds to what has been written before, so that what stands deep inside is not copied once
for every level around it.  What it adds are those characters.
-/
import CommandFlow.Json.Basic

namespace CommandFlow.Json

/-- Doubles are written out when their first digit stands at a power of ten from -5 to 15, and
whole ones keep a zero behind the point. -/
def numberStyle : Binary64.Style where
  layout := { positional := fun power => -5 ≤ power && power ≤ 15, wholeEnd := ['.', '0'] }
  tie := .even

/-- The text of an integer. -/
def integerText (n : Int) : List Char :=
  if n < 0 then '-' :: Nat.toDigits 10 n.natAbs else Nat.toDigits 10 n.natAbs

/-- The text of a number. A double that is not finite has no number to show and is written as
null. -/
def numberText : Number → List Char
  | .int n _ => integerText n
  | .double x => if x.isFinite then x.text numberStyle else "null".toList

/-- One character as it stands inside a string. -/
def escapedChar (c : Char) : List Char :=
  match c with
  | '"' => ['\\', '"']
  | '\\' => ['\\', '\\']
  | '\x08' => ['\\', 'b']
  | '\x0c' => ['\\', 'f']
  | '\n' => ['\\', 'n']
  | '\r' => ['\\', 'r']
  | '\t' => ['\\', 't']
  | c =>
    if c.toNat < 0x20 then
      ['\\', 'u', '0', '0', Nat.digitChar (c.toNat / 16), Nat.digitChar (c.toNat % 16)]
    else [c]

/-- A string between quotes. -/
def stringText (s : String) : List Char :=
  '"' :: (s.toList.flatMap escapedChar ++ ['"'])

/-- The two forms of written values. -/
inductive Form where
  | compact
  | indented
deriving DecidableEq, Repr

namespace Form

/-- What stands before an item or a closing bracket that is `level` levels in. -/
def newline : Form → (level : Nat) → List Char
  | .compact, _ => []
  | .indented, level => '\n' :: List.replicate (2 * level) ' '

/-- What stands between a key and its value. -/
def colon : Form → List Char
  | .compact => [':']
  | .indented => [':', ' ']

end Form

mutual

/-- The characters of a value that stands `level` levels in. -/
def textAt (form : Form) (level : Nat) : Json → List Char
  | .null => "null".toList
  | .bool true => "true".toList
  | .bool false => "false".toList
  | .number n => numberText n
  | .string s => stringText s
  | .array [] => ['[', ']']
  | .array (item :: rest) =>
    '[' :: (form.newline (level + 1) ++ textAt form (level + 1) item
      ++ itemsText form (level + 1) rest ++ form.newline level ++ [']'])
  | .object [] => ['\x7b', '\x7d']
  | .object ((key, value) :: rest) =>
    '\x7b' :: (form.newline (level + 1) ++ stringText key ++ form.colon
      ++ textAt form (level + 1) value ++ entriesText form (level + 1) rest
      ++ form.newline level ++ ['\x7d'])

/-- The characters of further items of an array, each behind a comma. -/
def itemsText (form : Form) (level : Nat) : List Json → List Char
  | [] => []
  | item :: rest =>
    ',' :: (form.newline level ++ textAt form level item ++ itemsText form level rest)

/-- The characters of further entries of an object, each behind a comma. -/
def entriesText (form : Form) (level : Nat) : List (String × Json) → List Char
  | [] => []
  | (key, value) :: rest =>
    ',' :: (form.newline level ++ stringText key ++ form.colon ++ textAt form level value
      ++ entriesText form level rest)

end

mutual

/-- Writes a value that stands `level` levels in behind what is there. -/
def writeAt (form : Form) (level : Nat) (out : String) : Json → String
  | .array (item :: rest) =>
    let start := out.push '[' ++ String.ofList (form.newline (level + 1))
    let items := writeItems form (level + 1) (writeAt form (level + 1) start item) rest
    (items ++ String.ofList (form.newline level)).push ']'
  | .object ((key, value) :: rest) =>
    let start := out.push '\x7b' ++ String.ofList (form.newline (level + 1))
    let first := start ++ String.ofList (stringText key) ++ String.ofList form.colon
    let entries := writeEntries form (level + 1) (writeAt form (level + 1) first value) rest
    (entries ++ String.ofList (form.newline level)).push '\x7d'
  | json => out ++ String.ofList (textAt form level json)

/-- Writes further items of an array behind what is there. -/
def writeItems (form : Form) (level : Nat) (out : String) : List Json → String
  | [] => out
  | item :: rest =>
    let start := out.push ',' ++ String.ofList (form.newline level)
    writeItems form level (writeAt form level start item) rest

/-- Writes further entries of an object behind what is there. -/
def writeEntries (form : Form) (level : Nat) (out : String) : List (String × Json) → String
  | [] => out
  | (key, value) :: rest =>
    let start := out.push ',' ++ String.ofList (form.newline level)
    let next := start ++ String.ofList (stringText key) ++ String.ofList form.colon
    writeEntries form level (writeAt form level next value) rest

end

/-- The text of a value. -/
def text (form : Form) (json : Json) : String :=
  writeAt form 0 "" json

mutual

/-- Writing a value adds its characters, and leaves what is there as it is. -/
theorem toList_writeAt (form : Form) (level : Nat) :
    ∀ (json : Json) (out : String),
      (writeAt form level out json).toList = out.toList ++ textAt form level json
  | .null, _ => by simp [writeAt]
  | .bool _, _ => by simp [writeAt]
  | .number _, _ => by simp [writeAt]
  | .string _, _ => by simp [writeAt]
  | .array [], _ => by simp [writeAt]
  | .array (item :: rest), out => by
      rw [writeAt, textAt]
      simp [toList_writeAt form (level + 1) item, toList_writeItems form (level + 1) rest]
  | .object [], _ => by simp [writeAt]
  | .object ((key, value) :: rest), out => by
      rw [writeAt, textAt]
      simp [toList_writeAt form (level + 1) value, toList_writeEntries form (level + 1) rest]

theorem toList_writeItems (form : Form) (level : Nat) :
    ∀ (items : List Json) (out : String),
      (writeItems form level out items).toList = out.toList ++ itemsText form level items
  | [], _ => by simp [writeItems, itemsText]
  | item :: rest, out => by
      rw [writeItems, itemsText]
      simp [toList_writeAt form level item, toList_writeItems form level rest]

theorem toList_writeEntries (form : Form) (level : Nat) :
    ∀ (entries : List (String × Json)) (out : String),
      (writeEntries form level out entries).toList = out.toList ++ entriesText form level entries
  | [], _ => by simp [writeEntries, entriesText]
  | (key, value) :: rest, out => by
      rw [writeEntries, entriesText]
      simp [toList_writeAt form level value, toList_writeEntries form level rest]

end

/-- **What is written is the characters of the value.** -/
theorem toList_text (form : Form) (json : Json) :
    (json.text form).toList = json.textAt form 0 := by
  rw [text, toList_writeAt, String.toList_empty, List.nil_append]

end CommandFlow.Json
