/-
Numbers in base sixteen, with lower-case digits.
-/

namespace RdmRegistry.Text

/-- The hexadecimal digits of a number, without leading zeros. -/
def hexDigits (n : Nat) : List Char :=
  Nat.toDigits 16 n

/-- A number in hexadecimal, filled with zeros up to the given width. -/
def hexPadded (width n : Nat) : List Char :=
  let digits := hexDigits n
  List.replicate (width - digits.length) '0' ++ digits

/-- A sixteen-bit word as data sheets write it: `0x` and four digits. -/
def word (n : UInt16) : String :=
  "0x" ++ String.ofList (hexPadded 4 n.toNat)

end RdmRegistry.Text
