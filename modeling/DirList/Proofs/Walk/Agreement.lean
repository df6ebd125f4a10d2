import DirList.Proofs.FileSystem.Agreement
import DirList.Proofs.Walk.Reading

/-!
# Reading alike

Entries are read alike in two file systems as far as the calls agree that are made for them. What is
known besides of the status that the calls give is known of the entry.

Results:
1. `agrees_withStatus_of_status`: an entry gets the same status where the calls agree.
2. `agrees_readChild_of_calls`: an entry of a directory is read alike where the calls agree.
-/

namespace DirList.Walk

open FileSystem

variable {files files' : FileSystem}

/-- An entry gets the same status where the calls agree that may be made, and is a directory only by
such a status. -/
theorem agrees_withStatus_of_status {followLinks : Bool} {entry : Entry} {fits : Status → Prop}
    (asks : ∀ followLast, (followLast = true → followLinks = true) →
      Agrees files files' (fun status status' => status' = status ∧ fits status)
        (Call.status followLast entry.accessPath) (Call.status followLast entry.accessPath)) :
    Agrees files files' (fun read read' => read' = read ∧
        ∃ kind status code, read = informed entry kind status code ∧
          (kind = .directory → ∃ status, fits status ∧ status.fileType = .directory))
      (withStatus followLinks entry) (withStatus followLinks entry) := by
  refine (asks followLinks id).attempt.bind fun answer answer' same => ?_
  cases same with
  | @ok _ status same =>
    obtain ⟨rfl, suits⟩ := same
    exact .pure ⟨rfl, _, _, _, rfl, fun directory =>
      ⟨status, suits, (kindOf_eq_directory.mp directory).1⟩⟩
  | error error =>
    dsimp only
    split
    next follows =>
      refine (asks false nofun).attempt.bind fun answer answer' same => ?_
      cases same with
      | @ok _ status same =>
        obtain ⟨rfl, -⟩ := same
        dsimp only
        split
        · exact .pure ⟨rfl, .dangling, some status, entry.errorCode, rfl, nofun⟩
        · exact .pure ⟨rfl, .noStatus, none, error.codeOrZero, rfl, nofun⟩
      | error _ => exact .pure ⟨rfl, .noStatus, none, error.codeOrZero, rfl, nofun⟩
    · exact .pure ⟨rfl, .noStatus, none, error.codeOrZero, rfl, nofun⟩

/-- An entry gets the same status where the calls agree. -/
theorem agrees_withStatus_of_calls {followLinks : Bool} {entry : Entry}
    (asks : ∀ followLast, Agrees files files' Eq (Call.status followLast entry.accessPath)
      (Call.status followLast entry.accessPath)) :
    Agrees files files' (fun read read' => read' = read ∧
        ∃ kind status code, read = informed entry kind status code)
      (withStatus followLinks entry) (withStatus followLinks entry) := by
  have asks' : ∀ followLast, Agrees files files' (fun status status' => status' = status ∧ True)
      (Call.status followLast entry.accessPath) (Call.status followLast entry.accessPath) :=
    fun followLast => (asks followLast).mono fun _ _ same => ⟨same.symm, trivial⟩
  refine (agrees_withStatus_of_status fun followLast _ => asks' followLast).mono ?_
  rintro _ _ ⟨same, kind, status, code, read, -⟩
  exact ⟨same, kind, status, code, read⟩

/-- An entry of a directory is read alike where it is listed alike, and its status agrees. -/
theorem agrees_readChild_of_calls {options : WalkOptions} {namesOnly : Bool} {parent : Entry}
    {serial : Nat} {name : String} {id id' : NodeId} {related : Entry → Entry → Prop}
    (lists : Agrees files files' Eq
      (Call.isDirectory options.logical parent.accessPath name id)
      (Call.isDirectory options.logical parent.accessPath name id'))
    (names : ∀ isDirectory,
      related { childEntry parent serial name with listedAsDirectory := isDirectory }
        { childEntry parent serial name with listedAsDirectory := isDirectory })
    (asks : ∀ isDirectory, Agrees files files' related
      (withStatus options.logical
        { childEntry parent serial name with listedAsDirectory := isDirectory })
      (withStatus options.logical
        { childEntry parent serial name with listedAsDirectory := isDirectory })) :
    Agrees files files' related (readChild options namesOnly parent serial (name, id))
      (readChild options namesOnly parent serial (name, id')) := by
  have known : ∀ isDirectory : Bool, Agrees files files' related
      (if namesOnly || (options.skipStatus && !isDirectory) then
        pure { childEntry parent serial name with listedAsDirectory := isDirectory }
      else withStatus options.logical
        { childEntry parent serial name with listedAsDirectory := isDirectory })
      (if namesOnly || (options.skipStatus && !isDirectory) then
        pure { childEntry parent serial name with listedAsDirectory := isDirectory }
      else withStatus options.logical
        { childEntry parent serial name with listedAsDirectory := isDirectory }) := by
    intro isDirectory
    split
    · exact .pure (names isDirectory)
    · exact asks isDirectory
  refine lists.attempt.bind fun answer answer' same => ?_
  cases same with
  | error error => exact known false
  | ok same =>
    cases same
    exact known _

end DirList.Walk
