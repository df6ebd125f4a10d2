import DirList.Config
import DirList.Text.Numeral

/-!
# The output device

A listing is laid out for the width of the terminal it is written to. The environment may give the
width; otherwise the device is asked.
-/

namespace DirList

/-- What an output answers when it is asked whether it is a terminal. -/
inductive TerminalAnswer where
  | yes
  | no
  /-- It is closed and refuses to answer. -/
  | failed
  /-- It cannot be asked. -/
  | missing
deriving DecidableEq, Repr, Inhabited

structure OutputDevice where
  isTerminal : Bool
  /-- The width that the device gives, if it gives one. -/
  width : Option Int
deriving DecidableEq, Repr, Inhabited

namespace OutputDevice

/-- The device of an output that was asked; only an output that says so is a terminal. -/
def ofAnswers (answer : TerminalAnswer) (width : Option Int) : OutputDevice where
  isTerminal := answer = .yes
  width := width

/-- The width in a setting of the environment, if it holds one. -/
def widthOf (setting : Option String) : Option Int :=
  (setting.bind readWhole?).filter (0 < ·)

/-- The width to lay out for: the one in the environment, else the one of the device, else a
default, which also serves an output that is no terminal. -/
def layoutWidth (device : OutputDevice) (setting : Option String) (fallback : Int) : Int :=
  if device.isTerminal then
    (widthOf setting <|> device.width.filter (0 < ·)).getD fallback
  else fallback

end OutputDevice
end DirList
