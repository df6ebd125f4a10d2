import DirList.Text.Printable
import DirList.Text.Decimal

/-!
# Quoted texts

Messages and descriptions show a text between quotes, on one line and in printable characters. The
quote is the apostrophe, unless the text holds an apostrophe and no double quote. A backslash and
the quote in use are preceded by a backslash, the tabulator, the newline and the carriage return
have their letters, and every other character that is not printable is written as its code point.
-/

namespace DirList.Quoted

/-- The code point of a character in lower-case hexadecimal, filled with zeros. -/
def hexadecimal (width : Nat) (c : Char) : String :=
  let text := String.ofList (Nat.toDigits 16 c.toNat)
  repeated (width - text.length) '0' ++ text

/-- The code point of a character that is not printable, in the shortest of three forms. -/
def codePoint (c : Char) : String :=
  if c.toNat < 0x100 then "\\x" ++ hexadecimal 2 c
  else if c.toNat < 0x10000 then "\\u" ++ hexadecimal 4 c
  else "\\U" ++ hexadecimal 8 c

/-- One character between quotes. -/
def escaped (quote : Char) (c : Char) : String :=
  if c = quote ∨ c = '\\' then "\\" ++ c.toString
  else if c = '\t' then "\\t"
  else if c = '\n' then "\\n"
  else if c = '\r' then "\\r"
  else if isPrintable c then c.toString
  else codePoint c

/-- The quote that a text is written with. -/
def quoteFor (text : String) : Char :=
  if text.toList.contains '\'' && !text.toList.contains '"' then '"' else '\''

end Quoted

/-- A text between quotes. -/
def quoted (text : String) : String :=
  let quote := Quoted.quoteFor text
  quote.toString ++ String.join (text.toList.map (Quoted.escaped quote)) ++ quote.toString

/-- The word for a truth value in descriptions. -/
def truthWord (b : Bool) : String :=
  if b then "True" else "False"

end DirList
