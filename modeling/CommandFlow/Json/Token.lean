/-
The tokens of JSON text.

Reading goes in three steps: characters to tokens, tokens to a tree, and the tree to values.  This
is the first.  It settles what is well formed and decides nothing else: a number keeps its digits,
and a string whose escapes name half of a surrogate pair is still a string, because such a value
may stand in a part of the text that is passed over.
-/
import CommandFlow.Json.Basic
import CommandFlow.Number.Scaled

namespace CommandFlow.Json

/-- A number as it is written. -/
structure Literal where
  negative : Bool
  /-- The digits before the point. -/
  integer : List Char
  /-- The digits behind the point; none if there is no point. -/
  fraction : List Char
  exponent : Option Int
deriving DecidableEq, Repr

namespace Literal

/-- The value of a decimal digit. -/
def digitValue (c : Char) : Nat :=
  c.toNat - '0'.toNat

/-- Takes digits into a significand as long as it fits 64 bits. Gives the significand, and the
number of digits that were left out. -/
def takeDigits (significand : Nat) : List Char → Nat × Nat
  | [] => (significand, 0)
  | c :: cs =>
    let next := 10 * significand + digitValue c
    if next < 0x10000000000000000 then takeDigits next cs else (significand, cs.length + 1)

/-- The double that a literal stands for. Digits before the point that are left out of the
significand count as places; of those behind it, nothing remains. -/
def toBinary64 (l : Literal) : Binary64 :=
  let (whole, places) := takeDigits 0 l.integer
  let (significand, dropped) := takeDigits whole l.fraction
  let exponent : Int := (places : Int) - ((l.fraction.length : Int) - dropped)
  .ofScaled l.negative significand (exponent + l.exponent.getD 0)

/-- The integer that a literal stands for, if it has neither a point nor an exponent and fits 64
bits. The literal `-0` is none. -/
def integer? (l : Literal) : Option Number :=
  let (magnitude, places) := takeDigits 0 l.integer
  let value : Int := if l.negative then -magnitude else magnitude
  if h : -0x8000000000000000 ≤ value ∧ value < 0x10000000000000000 then
    if l.fraction = [] ∧ l.exponent = none ∧ places = 0 ∧ ¬(l.negative ∧ magnitude = 0) then
      some (.int value h)
    else none
  else none

/-- The number a literal stands for: an integer if it can be one, else a double. There is none
beyond the range of doubles. -/
def number? (l : Literal) : Option Number :=
  match l.integer? with
  | some n => some n
  | none => if l.toBinary64.isFinite then some (.double l.toBinary64) else none

end Literal

/-- A token of JSON text. -/
inductive Token where
  | openArray
  | closeArray
  | openObject
  | closeObject
  | comma
  | colon
  | null
  | bool (value : Bool)
  | number (literal : Literal)
  /-- The text of a string, or nothing when its escapes do not make up a text. -/
  | string (text : Option String)
  /-- What is no token. Nothing behind it is read. -/
  | unknown
deriving DecidableEq, Repr

namespace Token

/-! ### Strings -/

/-- The value of a hexadecimal digit. -/
def hexDigit? (c : Char) : Option Nat :=
  if '0' ≤ c ∧ c ≤ '9' then some (c.toNat - '0'.toNat)
  else if 'a' ≤ c ∧ c ≤ 'f' then some (c.toNat - 'a'.toNat + 10)
  else if 'A' ≤ c ∧ c ≤ 'F' then some (c.toNat - 'A'.toNat + 10)
  else none

/-- The value of four hexadecimal digits. -/
def hexUnit? (a b c d : Char) : Option Nat := do
  return (((← hexDigit? a) * 16 + (← hexDigit? b)) * 16 + (← hexDigit? c)) * 16 + (← hexDigit? d)

/-- Whether a unit is the first half of a surrogate pair. -/
def isLeading (u : Nat) : Bool :=
  0xD800 ≤ u && u ≤ 0xDBFF

/-- Whether a unit is the second half of a surrogate pair. -/
def isTrailing (u : Nat) : Bool :=
  0xDC00 ≤ u && u ≤ 0xDFFF

/-- The character after a backslash that stands for one character by itself. -/
def shortEscape? : Char → Option Char
  | '"' => some '"'
  | '\\' => some '\\'
  | '/' => some '/'
  | 'b' => some '\x08'
  | 'f' => some '\x0c'
  | 'n' => some '\n'
  | 'r' => some '\r'
  | 't' => some '\t'
  | _ => none

/-- The part of a string that has been read. -/
structure Spelled where
  /-- The characters read, last first. -/
  chars : List Char := []
  /-- Whether every escape so far stands for a character or is half of a pair. -/
  complete : Bool := true
  /-- The first half of a surrogate pair, when the part ends in one. -/
  lead : Option Nat := none

namespace Spelled

/-- Adds a character. -/
def push (s : Spelled) (c : Char) : Spelled :=
  { chars := c :: s.chars, complete := s.complete && s.lead.isNone }

/-- Adds the unit of an escape: a character, or half of a surrogate pair. -/
def pushUnit (s : Spelled) (u : Nat) : Spelled :=
  match s.lead with
  | some first =>
    if isTrailing u then
      { s with
        chars := Char.ofNat (0x10000 + (first - 0xD800) * 0x400 + (u - 0xDC00)) :: s.chars
        lead := none }
    else if isLeading u then { s with complete := false, lead := some u }
    else s.push (Char.ofNat u)
  | none =>
    if isLeading u then { s with lead := some u }
    else if isTrailing u then { s with complete := false }
    else s.push (Char.ofNat u)

/-- The text that was spelled, if all of it is made up of characters. -/
def text? (s : Spelled) : Option String :=
  if s.complete && s.lead.isNone then some (String.ofList s.chars.reverse) else none

end Spelled

/-- Reads the inside of a string up to its closing quote, with the number of characters passed in
all. -/
def scanString (sofar : Spelled) (count : Nat) : List Char → Option (Token × Nat)
  | [] => none
  | '"' :: _ => some (.string sofar.text?, count + 1)
  | '\\' :: 'u' :: a :: b :: c :: d :: rest =>
    match hexUnit? a b c d with
    | none => none
    | some u => scanString (sofar.pushUnit u) (count + 6) rest
  | '\\' :: c :: rest =>
    match shortEscape? c with
    | none => none
    | some e => scanString (sofar.push e) (count + 2) rest
  | c :: rest =>
    if c = '\\' ∨ c.toNat < 0x20 then none
    else scanString (sofar.push c) (count + 1) rest

/-! ### Numbers -/

/-- The number that digits spell. -/
def digitsValue (cs : List Char) : Nat :=
  cs.foldl (fun n c => 10 * n + Literal.digitValue c) 0

/-- Reads the digits of the integer part: a zero alone, or digits that start with another one. -/
def scanInteger? (cs : List Char) : Option (List Char) :=
  match cs.takeWhile Char.isDigit with
  | [] => none
  | ['0'] => some ['0']
  | '0' :: _ => none
  | ds => some ds

/-- Reads a point and the digits behind it, if there is a point. The second part is the number of
characters passed. -/
def scanFraction? (cs : List Char) : Option (List Char × Nat) :=
  match cs with
  | '.' :: rest =>
    match rest.takeWhile Char.isDigit with
    | [] => none
    | ds => some (ds, ds.length + 1)
  | _ => some ([], 0)

/-- Reads an exponent, if there is one. The second part is the number of characters passed. -/
def scanExponent? (cs : List Char) : Option (Option Int × Nat) :=
  let digits (sign : Int) (mark : Nat) (rest : List Char) : Option (Option Int × Nat) :=
    match rest.takeWhile Char.isDigit with
    | [] => none
    | ds => some (some (sign * digitsValue ds), ds.length + mark)
  let signed (rest : List Char) : Option (Option Int × Nat) :=
    match rest with
    | '+' :: rest => digits 1 2 rest
    | '-' :: rest => digits (-1) 2 rest
    | _ => digits 1 1 rest
  match cs with
  | 'e' :: rest => signed rest
  | 'E' :: rest => signed rest
  | _ => some (none, 0)

/-- Reads a number. -/
def scanNumber (cs : List Char) : Option (Token × Nat) := do
  let negative := cs.head? = some '-'
  let mark := if negative then 1 else 0
  let cs := cs.drop mark
  let integer ← scanInteger? cs
  let cs := cs.drop integer.length
  let (fraction, fractionCount) ← scanFraction? cs
  let (exponent, exponentCount) ← scanExponent? (cs.drop fractionCount)
  return (.number ⟨negative, integer, fraction, exponent⟩,
    mark + integer.length + fractionCount + exponentCount)

/-! ### Texts -/

/-- The blanks that may stand between tokens. -/
def isBlank (c : Char) : Bool :=
  c == ' ' || c == '\n' || c == '\t' || c == '\r'

/-- Reads the token at the front of a text, with its length. -/
def scan : List Char → Option (Token × Nat)
  | '[' :: _ => some (.openArray, 1)
  | ']' :: _ => some (.closeArray, 1)
  | '\x7b' :: _ => some (.openObject, 1)
  | '\x7d' :: _ => some (.closeObject, 1)
  | ',' :: _ => some (.comma, 1)
  | ':' :: _ => some (.colon, 1)
  | 'n' :: 'u' :: 'l' :: 'l' :: _ => some (.null, 4)
  | 't' :: 'r' :: 'u' :: 'e' :: _ => some (.bool true, 4)
  | 'f' :: 'a' :: 'l' :: 's' :: 'e' :: _ => some (.bool false, 5)
  | '"' :: rest => scanString {} 1 rest
  | cs => scanNumber cs

/-- The tokens of a text after the first `skip` characters. `sofar` holds the tokens read before,
last first. -/
def lexFrom (sofar : List Token) : (skip : Nat) → List Char → List Token
  | _, [] => sofar.reverse
  | skip + 1, _ :: cs => lexFrom sofar skip cs
  | 0, c :: cs =>
    if isBlank c then lexFrom sofar 0 cs
    else
      match scan (c :: cs) with
      | none => (.unknown :: sofar).reverse
      | some (token, length) => lexFrom (token :: sofar) (length - 1) cs

/-- The tokens of a text, up to the first place where no token stands. -/
def lex (text : String) : List Token :=
  lexFrom [] 0 text.toList

end Token

end CommandFlow.Json
