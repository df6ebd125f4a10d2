/-!
# Paths

A path is a text; its components are the pieces between slashes that are not empty. A path that ends
in a slash names a directory, which a last component `.` stands for.
-/

namespace DirList.Path

/-- The pieces of a text between slashes. -/
def pieces : List Char → List (List Char)
  | [] => [[]]
  | c :: rest =>
    if c = '/' then [] :: pieces rest
    else
      match pieces rest with
      | [] => [[c]]
      | piece :: others => (c :: piece) :: others

/-- The names in a path. -/
def names (path : String) : List String :=
  ((pieces path.toList).filter fun piece => !piece.isEmpty).map String.ofList

def endsWithSlash (path : String) : Bool :=
  path.toList.getLast? = some '/'

def isAbsolute (path : String) : Bool :=
  path.toList.head? = some '/'

/-- Whether a path has a null character in it. No such path can be passed to a system. -/
def hasNull (path : String) : Bool :=
  path.toList.contains '\x00'

/-- What a path leads through. -/
def components (path : String) : List String :=
  names path ++ if endsWithSlash path then ["."] else []

/-- The path of an entry of a directory. -/
def join (directory name : String) : String :=
  if endsWithSlash directory then directory ++ name else directory ++ "/" ++ name

end DirList.Path
