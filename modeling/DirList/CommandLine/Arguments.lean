import DirList.CommandLine.Flag

/-!
# Arguments

The words of a command line. Each word is first told apart: a path, the divider `--`, a cluster of
flags, one of the long options, or an option that nobody knows. Then they are taken in order. The
paths are one unbroken row of words; the words of later rows, and unknown options, are left over,
and a command line with leftovers is refused.
-/

namespace DirList

/-- The options with names. -/
inductive LongOption where
  | help
  | version
deriving DecidableEq, Repr, Inhabited

namespace LongOption

def spelling : LongOption → String
  | help => "--help"
  | version => "--version"

def helpText : LongOption → String
  | help => "show this help message and exit"
  | version => "show program's version number and exit"

def all : List LongOption := [help, version]

/-- The options that a spelling can be short for. -/
def matching (start : String) : List LongOption :=
  all.filter fun option => start.toList.isPrefixOf option.spelling.toList

end LongOption

/-- What a word of a command line is. -/
inductive Word where
  | path (text : String)
  /-- The first `--`, after which all words are paths. -/
  | divider
  /-- A known flag letter with what follows it in the word. -/
  | cluster (first : Flag) (rest : List Char)
  /-- A long option, perhaps with a value after an equals sign. -/
  | long (option : LongOption) (value : Option String)
  | unknown (text : String)

/-- Why a command line is refused. -/
inductive UsageError where
  | ambiguous (text : String)
  /-- An option was given a value that it does not take. -/
  | valued (option : String) (value : String)
  | leftovers (words : List String)
deriving DecidableEq, Repr

def UsageError.message : UsageError → String
  | ambiguous text =>
    "ambiguous option: " ++ text ++ " could match "
      ++ ", ".intercalate (LongOption.all.map LongOption.spelling)
  | valued option value => "argument " ++ option ++ ": ignored explicit argument " ++ quoted value
  | leftovers words => "unrecognized arguments: " ++ " ".intercalate words

namespace Word

/-- A text before its first equals sign, and after it if there is one. -/
def splitValue (text : List Char) : List Char × Option (List Char) :=
  let name := text.takeWhile (· ≠ '=')
  (name, (text.drop name.length).tail?)

/-- A word that starts with a dash and is no known option: a path if it holds a blank. -/
def strange (text : String) : Word :=
  if text.toList.contains ' ' then path text else unknown text

/-- What a word before the divider is. -/
def ofText (text : String) : Except UsageError Word :=
  match text.toList with
  | '-' :: '-' :: _ =>
    let (name, value) := splitValue text.toList
    match LongOption.matching (String.ofList name) with
    | [] => .ok (strange text)
    | [option] => .ok (long option (value.map String.ofList))
    | _ => .error (.ambiguous text)
  | '-' :: letter :: rest =>
    match Flag.ofLetter? letter with
    | some flag => .ok (cluster flag rest)
    | none => .ok (strange text)
  | _ => .ok (path text)

/-- What the words of a command line are. -/
def ofTexts : List String → Except UsageError (List Word)
  | [] => .ok []
  | text :: rest =>
    if text = "--" then .ok (divider :: rest.map path)
    else do return (← ofText text) :: (← ofTexts rest)

/-- How a word that can stand in a row of paths reads. -/
def plain? : Word → Option String
  | path text => some text
  | divider => some "--"
  | _ => none

/-- The path in a word. -/
def path? : Word → Option String
  | path text => some text
  | _ => none

end Word

/-- What a command line asks for. -/
inductive Request where
  | list (settings : Settings) (paths : List String)
  | help
  | version
deriving DecidableEq, Repr

namespace Request

/-- The settings after a flag and the letters that follow it. -/
def applyLetters (settings : Settings) (flag : Flag) : List Char → Except UsageError Settings
  | [] => .ok (flag.apply settings)
  | letter :: rest =>
    match Flag.ofLetter? letter with
    | some next => applyLetters (flag.apply settings) next rest
    | none =>
      .error (.valued (String.ofList ['-', flag.letter]) (String.ofList (letter :: rest)))

/-- The settings after a cluster of flags. What follows an equals sign behind the first flag is a
value, which stands for further letters unless it is empty. -/
def applyCluster (settings : Settings) (flag : Flag) : List Char → Except UsageError Settings
  | ['='] => .error (.valued (String.ofList ['-', flag.letter]) "")
  | '=' :: letters => applyLetters settings flag letters
  | letters => applyLetters settings flag letters

/-- The request of words, where `paths` holds the row of paths once there was one. -/
def ofWords (settings : Settings) (paths : Option (List String)) (leftovers : List String)
    (words : List Word) : Except UsageError Request :=
  match words with
  | [] =>
    if leftovers.isEmpty then .ok (.list settings (paths.getD []))
    else .error (.leftovers leftovers)
  | .cluster flag letters :: rest =>
    match applyCluster settings flag letters with
    | .ok settings => ofWords settings paths leftovers rest
    | .error error => .error error
  | .long option (some value) :: _ => .error (.valued option.spelling value)
  | .long .help none :: _ => .ok .help
  | .long .version none :: _ => .ok .version
  | .unknown text :: rest => ofWords settings paths (leftovers ++ [text]) rest
  | word :: rest =>
    let row := word :: rest.takeWhile fun word => word.plain?.isSome
    let others := rest.dropWhile fun word => word.plain?.isSome
    match paths with
    | none => ofWords settings (some (row.filterMap Word.path?)) leftovers others
    | some paths => ofWords settings (some paths) (leftovers ++ row.filterMap Word.plain?) others
termination_by words.length
decreasing_by
  all_goals
    have := (List.dropWhile_suffix (fun word : Word => word.plain?.isSome) (l := rest)).length_le
    simp only [List.length_cons]
    omega

/-- The request of a command line. -/
def ofArguments (settings : Settings) (arguments : List String) : Except UsageError Request := do
  ofWords settings none [] (← Word.ofTexts arguments)

end Request
end DirList
