/-
Multistage.Text.Quoted — text between quotes.

Single quotes stand around the text, or double quotes when it holds a single
quote and no double quote.  The quote in use, the backslash, and characters
that do not print are escaped.
-/
import Multistage.Decimal.Shortest
import Multistage.Text.Printable

namespace Multistage.Text

/-- The single quote. -/
def singleQuote : Char := Char.ofNat 39

/-- The double quote. -/
def doubleQuote : Char := Char.ofNat 34

/-- The backslash. -/
def backslash : Char := Char.ofNat 92

/-- A number in lower-case hexadecimal, filled with zeros to a width. -/
def hexDigits (width n : Nat) : List Char :=
  let digits := Nat.toDigits 16 n
  List.replicate (width - digits.length) '0' ++ digits

/-- A character by its code point: two, four or eight hexadecimal digits. -/
def escapeCode (c : Char) : List Char :=
  if c.toNat < 0x100 then backslash :: 'x' :: hexDigits 2 c.toNat
  else if c.toNat < 0x10000 then backslash :: 'u' :: hexDigits 4 c.toNat
  else backslash :: 'U' :: hexDigits 8 c.toNat

/-- One character inside the given quotes. -/
def escapeChar (quote c : Char) : List Char :=
  if c = quote ∨ c = backslash then [backslash, c]
  else if c.toNat = 10 then [backslash, 'n']
  else if c.toNat = 13 then [backslash, 'r']
  else if c.toNat = 9 then [backslash, 't']
  else if isPrintable c then [c]
  else escapeCode c

/-- The text between quotes. -/
def quoted (s : String) : String :=
  let cs := s.toList
  let quote := if cs.contains singleQuote && !cs.contains doubleQuote
    then doubleQuote else singleQuote
  String.ofList (quote :: cs.flatMap (escapeChar quote) ++ [quote])

/-- The text with every character beyond the first 128 by its code point. -/
def asciiOnly (s : String) : String :=
  String.ofList (s.toList.flatMap fun c => if c.toNat < 0x80 then [c] else escapeCode c)

/-- Items in brackets, separated by commas. -/
def bracketed (items : List String) : String := "[" ++ ", ".intercalate items ++ "]"

/-- Items in braces, separated by commas. -/
def braced (items : List String) : String := "\x7b" ++ ", ".intercalate items ++ "\x7d"

/-- The lengths of a shape in parentheses; a single one keeps its comma. -/
def shapeText (dims : List Int) : String :=
  match dims with
  | [d] => "(" ++ Decimal.intText d ++ ",)"
  | _ => "(" ++ ", ".intercalate (dims.map Decimal.intText) ++ ")"

end Multistage.Text
