/-!
# Decimal numbers and padding

The text of a whole number, and texts brought to a width with blanks.
-/

namespace DirList

/-- The decimal digits of a natural number. -/
def digits (n : Nat) : String :=
  String.ofList (Nat.toDigits 10 n)

/-- The decimal text of a whole number, with a minus sign when it is negative. -/
def decimal (n : Int) : String :=
  if n < 0 then "-" ++ digits n.natAbs else digits n.toNat

/-- A text of `n` copies of one character. -/
def repeated (n : Nat) (c : Char) : String :=
  String.ofList (List.replicate n c)

/-- A text moved to the right end of a field; a longer text is left as it is. -/
def padLeft (width : Nat) (text : String) : String :=
  repeated (width - text.length) ' ' ++ text

/-- A text at the left end of a field; a longer text is left as it is. -/
def padRight (width : Nat) (text : String) : String :=
  text ++ repeated (width - text.length) ' '

@[simp] theorem length_repeated (n : Nat) (c : Char) : (repeated n c).length = n := by
  simp [repeated]

@[simp] theorem length_padLeft (width : Nat) (text : String) :
    (padLeft width text).length = max width text.length := by
  simp only [padLeft, String.length_append, length_repeated]
  omega

@[simp] theorem length_padRight (width : Nat) (text : String) :
    (padRight width text).length = max width text.length := by
  simp only [padRight, String.length_append, length_repeated]
  omega

end DirList
