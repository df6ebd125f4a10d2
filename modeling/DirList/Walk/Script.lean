import DirList.Walk.Source

/-!
# Scripted walks

A walk whose events and listings are given in advance. It writes down what is asked of it.
-/

namespace DirList

/-- What a scripted walk was asked. -/
inductive ScriptCall where
  /-- To list the directory just reported. -/
  | children (directory : Option String) (namesOnly : Bool)
  | skip (name : String)
  | close
deriving DecidableEq, Repr, Inhabited

structure Script where
  roots : Option (List Entry)
  /-- The events not read yet. -/
  events : List Entry
  /-- The entries of directories, by name. -/
  listings : List (String × Option (List Entry))
  /-- Reading fails when this many events are left. -/
  failsAt : Option Nat
  /-- Opening fails with this error. -/
  openFails : Option SystemError
  current : Option Entry := none
  calls : List ScriptCall := []
deriving DecidableEq, Repr, Inhabited

namespace Script

def record (script : Script) (call : ScriptCall) : Script :=
  { script with calls := script.calls ++ [call] }

/-- The entries of the directory just reported, or the roots before the first event. -/
def children (namesOnly : Bool) (script : Script) : Option (List Entry) × Script :=
  let name := script.current.map Entry.name
  let entries := match name with
    | none => script.roots
    | some name => (script.listings.lookup name).join
  (entries, script.record (.children name namesOnly))

def read (script : Script) : Except ListingError (Option Entry) × Script :=
  if script.failsAt = some script.events.length then (.error (.walkRead "device went away"), script)
  else
    match script.events with
    | [] => (.ok none, script)
    | event :: events => (.ok (some event), { script with events, current := some event })

/-- Walks that follow a script. -/
def walker (script : Script) : Walker Script where
  start _ _ _ _ := pure (match script.openFails with
    | some error => .error (.system error)
    | none => .ok script)
  children namesOnly script := pure (script.children namesOnly)
  read script := pure script.read
  skip entry script := script.record (.skip entry.name)
  close script := script.record .close
  budget _ script := script.events.length + 1
  nextSerial _ := 0

end Script
end DirList
