import Residency.Text.Numeral
import Residency.Text.Printable

/-!
# Quoted text

Text in an error message stands between double quotes.  A double quote, a backslash and a few
control characters are written as a backslash and a letter, and any other character that is not
printable as its number in braces.
-/

namespace Residency

/-- A character as it is written between the quotes. -/
def quoteChar (c : Char) : String :=
  match c with
  | '\x00' => "\\0"
  | '\t' => "\\t"
  | '\r' => "\\r"
  | '\n' => "\\n"
  | '\\' => "\\\\"
  | '"' => "\\\""
  | _ =>
    if isPrintable c then c.toString
    else "\\u\x7b" ++ hexadecimal.render c.toNat ++ "\x7d"

def quote (s : String) : String :=
  "\"" ++ String.join (s.toList.map quoteChar) ++ "\""

end Residency
