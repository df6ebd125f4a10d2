/-!
# Reading whole numbers

A whole number as a person may type it into an environment variable: blanks around it, a sign,
digits of any script, and single underscores between digits. `readWhole?` refuses everything else.
-/

namespace DirList.Numeral

/-- The code points of the zeros of all scripts in Unicode 14; nine more digits follow each. -/
def zeros : List Nat := [
  0x30, 0x660, 0x6f0, 0x7c0, 0x966, 0x9e6, 0xa66, 0xae6, 0xb66, 0xbe6, 0xc66, 0xce6,
  0xd66, 0xde6, 0xe50, 0xed0, 0xf20, 0x1040, 0x1090, 0x17e0, 0x1810, 0x1946, 0x19d0, 0x1a80,
  0x1a90, 0x1b50, 0x1bb0, 0x1c40, 0x1c50, 0xa620, 0xa8d0, 0xa900, 0xa9d0, 0xa9f0, 0xaa50, 0xabf0,
  0xff10, 0x104a0, 0x10d30, 0x11066, 0x110f0, 0x11136, 0x111d0, 0x112f0, 0x11450, 0x114d0,
  0x11650, 0x116c0, 0x11730, 0x118e0, 0x11950, 0x11c50, 0x11d50, 0x11da0, 0x16a60, 0x16ac0,
  0x16b50, 0x1d7ce, 0x1d7d8, 0x1d7e2, 0x1d7ec, 0x1d7f6, 0x1e140, 0x1e2f0, 0x1e950, 0x1fbf0]

/-- The value of a decimal digit of any script. -/
def digit? (c : Char) : Option Nat :=
  (zeros.find? fun first => first ≤ c.toNat && c.toNat < first + 10).map (c.toNat - ·)

/-- The blanks outside ASCII. -/
def wideBlanks : List Nat :=
  [0x85, 0xa0, 0x1680, 0x2000, 0x2001, 0x2002, 0x2003, 0x2004, 0x2005, 0x2006, 0x2007, 0x2008,
    0x2009, 0x200a, 0x2028, 0x2029, 0x202f, 0x205f, 0x3000]

/-- Whether a character may stand around a number: the space, the controls from the tabulator to the
carriage return, and the blanks outside ASCII. -/
def isBlank (c : Char) : Bool :=
  c = ' ' || ('\t' ≤ c && c ≤ '\r') || wideBlanks.contains c.toNat

/-- The characters without the blanks at both ends. -/
def trim (text : List Char) : List Char :=
  ((text.dropWhile isBlank).reverse.dropWhile isBlank).reverse

/-- The sign in front of a number and what follows it. -/
def splitSign : List Char → Bool × List Char
  | '-' :: rest => (true, rest)
  | '+' :: rest => (false, rest)
  | text => (false, text)

/-- The digit values of a text of digits with single underscores between them. -/
def digits? : List Char → Option (List Nat)
  | [] => none
  | [c] => (digit? c).map ([·])
  | c :: '_' :: rest => do return (← digit? c) :: (← digits? rest)
  | c :: rest => do return (← digit? c) :: (← digits? rest)

/-- No number of more digits than this is read. -/
def maxDigits : Nat := 4300

/-- The value of a row of digits, the most significant first. -/
def value (row : List Nat) : Nat :=
  row.foldl (fun n d => 10 * n + d) 0

end Numeral

/-- The whole number that a text spells, if it spells one. -/
def readWhole? (text : String) : Option Int :=
  let (negative, rest) := Numeral.splitSign (Numeral.trim text.toList)
  match Numeral.digits? rest with
  | none => none
  | some row =>
    if Numeral.maxDigits < row.length then none
    else some (if negative then -(Numeral.value row : Int) else Numeral.value row)

end DirList
