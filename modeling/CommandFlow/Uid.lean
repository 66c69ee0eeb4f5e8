/-
Uids: random names of 122 bits in the usual notation of version 4.
-/

namespace CommandFlow.Uid

/-- The hexadecimal digits of a number, padded with zeros to a width. -/
def hex (width n : Nat) : String :=
  let digits := (Nat.toDigits 16 (n % Nat.pow 16 width)).leftpad width '0'
  String.ofList digits

/-- The uid with the given bits. -/
def ofBits (bits : Nat) : String :=
  let part (width shift : Nat) : String := hex width (bits >>> shift)
  let variant := hex 4 (0x8000 + (bits >>> 48) % 0x4000)
  "-".intercalate [part 8 90, part 4 74, "4" ++ part 3 62, variant, part 12 0]

end CommandFlow.Uid
