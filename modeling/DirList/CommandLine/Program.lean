import DirList.CommandLine.Arguments
import DirList.Listing.Paths

/-!
# The program

What the program writes and how it ends, for a command line, an environment and a world.
-/

namespace DirList

namespace Program

/-- The name of the program. -/
def name : String := "treels"

def versionLine : String := name ++ " 0.1.0\n"

def usageLine : String := "usage: " ++ name ++ " [-1ACFLRSTWacdfgiklmnopqrstux] [file ...]\n"

/-- One line of the help text. -/
def helpLine (term explanation : String) : String :=
  "  " ++ padRight 11 term ++ explanation ++ "\n"

def helpText : String :=
  usageLine
    ++ "\nList directory contents.\n\npositional arguments:\n"
    ++ helpLine "file" "files and directories to list"
    ++ "\noptions:\n"
    ++ String.join (Flag.all.map fun flag => helpLine (String.ofList ['-', flag.letter]) flag.help)
    ++ String.join (LongOption.all.map fun option => helpLine option.spelling option.helpText)

/-- What the program writes for a refused command line. -/
def refusal (error : UsageError) : String :=
  usageLine ++ name ++ ": error: " ++ error.message ++ "\n"

/-- What the program is started with. -/
structure Environment where
  device : OutputDevice
  /-- The variable with the width of the terminal. -/
  columns : Option String
  user : Int

/-- How the program ends. -/
inductive Ending where
  /-- It leaves before it lists anything. -/
  | exited (code : Nat)
  | returned (status : Nat)
  /-- Something went wrong that it does not settle. -/
  | aborted (abort : Abort)
deriving DecidableEq, Repr

/-- The exit code of an ending; something that is not settled counts as a failure. -/
def Ending.code : Ending → Nat
  | exited code => code
  | returned status => status
  | aborted _ => 1

structure Result where
  ending : Ending
  output : String
  errors : String
deriving DecidableEq, Repr

/-- The exit status of an interrupted program. -/
def interruptedStatus : Nat := 130

/-- The configuration and the paths of a command line, or what the program ends with instead. -/
def readArguments (environment : Environment) (arguments : List String) :
    Except Result (Config × List String) :=
  let initial := Settings.initial environment.device environment.columns environment.user
  match Request.ofArguments initial arguments with
  | .ok (.list settings paths) => .ok (settings.toConfig, paths)
  | .ok .help => .error ⟨.exited 0, helpText, ""⟩
  | .ok .version => .error ⟨.exited 0, versionLine, ""⟩
  | .error error => .error ⟨.exited 2, "", refusal error⟩

/-- How a listing ends the program. -/
def endingOf : Except Abort Nat → Ending
  | .ok status => .returned status
  | .error .interrupted => .returned interruptedStatus
  | .error abort => .aborted abort

/-- Run the program. -/
def run (table : RendererTable) (environment : Environment) (world : World)
    (arguments : List String) : Result :=
  match readArguments environment arguments with
  | .error result => result
  | .ok (config, paths) =>
    match listPaths table world (.report none) paths config with
    | .error error => ⟨.returned 1, "", name ++ ": " ++ error.message ++ "\n"⟩
    | .ok outcome =>
      ⟨endingOf outcome.status, outcome.session.output, outcome.session.policy.written⟩

end Program
end DirList
