/-!
# Numerals

How a natural number is written: its base, what stands in front of the digits, and how a numeral
that is shorter than its field is filled up.  `NumeralStyle.render` applies a style;
`hexadecimal` and `decimal` are the two styles without a field.
-/

namespace Residency

/-- Where a numeral that is shorter than its field gets its filling. -/
inductive Filling where
  | spacesBefore
  | spacesAfter
  /-- Zeros between the lead and the digits. -/
  | zeros
deriving DecidableEq

/-- A way to write natural numbers. -/
structure NumeralStyle where
  base : Nat := 10
  /-- A sign or a mark of the base, written in front of the digits. -/
  lead : String := ""
  /-- The least number of characters. -/
  width : Nat := 0
  filling : Filling := .spacesBefore

/-- The numeral of `n`; digits above nine are lower-case letters. -/
def NumeralStyle.render (style : NumeralStyle) (n : Nat) : String :=
  let digits := String.ofList (Nat.toDigits style.base n)
  let missing := style.width - (style.lead.length + digits.length)
  let fill (c : Char) := String.ofList (List.replicate missing c)
  match style.filling with
  | .spacesBefore => fill ' ' ++ style.lead ++ digits
  | .spacesAfter => style.lead ++ digits ++ fill ' '
  | .zeros => style.lead ++ fill '0' ++ digits

def decimal : NumeralStyle := {}

def hexadecimal : NumeralStyle := { base := 16 }

def markedHexadecimal : NumeralStyle := { base := 16, lead := "0x" }

end Residency
