import DirList.CommandLine.Program

/-!
# What flags come to

Flags change the settings one after the other. What a row of flags comes to is said here of each
field by itself: a flag either writes a value of its own into the field or leaves it, so the last
flag that writes it decides; what is only ever switched on is on as soon as one letter does it. How
the letters are cut into words is not seen in the settings, and neither is where among them the
timestamp was chosen that the entries are sorted by.

Results:
1. `Flag.apply_eq_overlay`: what one flag writes.
2. `Settings.overlay_append`: what is written by two rows of letters, one after the other.
3. `Program.readArguments_clusters`: the configuration and the paths of a command line of clusters
   and paths.
-/

namespace DirList

section LastOf

variable {α : Type} (value : Char → Option α)

/-- The value of the last letter that has one. -/
def lastOf (letters : List Char) : Option α :=
  (letters.filterMap value).getLast?

@[simp] theorem lastOf_nil : lastOf value [] = none := rfl

@[simp] theorem lastOf_singleton (letter : Char) : lastOf value [letter] = value letter := by
  cases found : value letter <;> simp [lastOf, found]

@[simp] theorem lastOf_append (front back : List Char) :
    lastOf value (front ++ back) = (lastOf value back).or (lastOf value front) := by
  simp [lastOf, List.getLast?_append]

end LastOf

/-- The layout that a letter chooses. -/
def displayModeOf : Char → Option DisplayMode
  | '1' => some .singleColumn
  | 'C' => some .columns
  | 'l' => some .long
  | 'm' => some .stream
  | 'x' => some .across
  | 'n' => some .long
  | _ => none

/-- Whether a letter of the long layout asks for numbers in place of names. -/
def numericOnlyOf : Char → Option Bool
  | 'l' => some false
  | 'n' => some true
  | _ => none

/-- The timestamp that a letter chooses. -/
def timeFieldOf : Char → Option TimeField
  | 'c' => some .change
  | 'u' => some .access
  | _ => none

/-- What a letter sorts by. -/
def sortChoiceOf : Char → Option SortChoice
  | 'S' => some .size
  | 't' => some .time
  | _ => none

/-- Whether a letter asks for the contents of directories, or for the directories themselves. -/
def recursiveOf : Char → Option Bool
  | 'd' => some false
  | 'R' => some true
  | _ => none

/-- The blocks that a letter chooses. -/
def blockSizeOf : Char → Option Int
  | 'k' => some 1024
  | _ => none

/-- Whether a letter has links followed. -/
def symlinkModeOf : Char → Option SymlinkMode
  | 'L' => some .logical
  | _ => none

namespace Config

/-- A configuration with what letters write over it, all but what is sorted by. -/
def overlay (config : Config) (letters : List Char) : Config where
  displayMode := ((lastOf displayModeOf letters).map Choice.known).getD config.displayMode
  width := config.width
  sortKey := config.sortKey
  reverse := config.reverse || letters.contains 'r'
  unsorted := config.unsorted || letters.contains 'f'
  showHidden := config.showHidden || letters.any fun letter => letter = 'a' || letter = 'A'
  showDots := config.showDots || letters.contains 'a'
  recursive := (lastOf recursiveOf letters).getD config.recursive
  listDirectory := config.listDirectory || letters.contains 'd'
  numericOnly := (lastOf numericOnlyOf letters).getD config.numericOnly
  showInode := config.showInode || letters.contains 'i'
  showBlocks := config.showBlocks || letters.contains 's'
  showFlags := config.showFlags || letters.contains 'o'
  classify := config.classify || letters.contains 'F'
  classifyDirectories := config.classifyDirectories || letters.contains 'p'
  maskNames := config.maskNames || letters.contains 'q'
  fullTime := config.fullTime || letters.contains 'T'
  timeField := ((lastOf timeFieldOf letters).map Choice.known).getD config.timeField
  blockSize := (lastOf blockSizeOf letters).getD config.blockSize
  symlinkMode := ((lastOf symlinkModeOf letters).map Choice.known).getD config.symlinkMode
  whiteout := config.whiteout || letters.contains 'W'
  compatGroup := config.compatGroup || letters.contains 'g'

/-- A configuration with all that letters write over it. Sorting by time is sorting by the timestamp
that is chosen in the end. -/
def overlaid (config : Config) (letters : List Char) : Config :=
  let settled := config.overlay letters
  match lastOf sortChoiceOf letters with
  | none => settled
  | some .size => { settled with sortKey := SortKey.size }
  | some .time => { settled with sortKey := Settings.timeKey settled.timeField }

end Config

namespace Settings

/-- Settings with what letters write over them. -/
def overlay (settings : Settings) (letters : List Char) : Settings where
  config := settings.config.overlay letters
  sortBy := (lastOf sortChoiceOf letters).or settings.sortBy

theorem overlay_nil (settings : Settings) : settings.overlay [] = settings := by
  simp [overlay, Config.overlay]

/-- Letters write over what the letters before them wrote. -/
theorem overlay_append (settings : Settings) (front back : List Char) :
    settings.overlay (front ++ back) = (settings.overlay front).overlay back := by
  simp [overlay, Config.overlay, Bool.or_assoc, Option.or_assoc, Option.getD_or,
    Option.map_or]

theorem toConfig_overlay (config : Config) (letters : List Char) :
    (overlay { config } letters).toConfig = config.overlaid letters := by
  unfold Config.overlaid toConfig overlay
  cases lastOf sortChoiceOf letters with
  | none => rfl
  | some choice => cases choice <;> rfl

end Settings

namespace Flag

/-- What one flag writes. -/
theorem apply_eq_overlay {flag : Flag} (known : flag ∈ all) (settings : Settings) :
    flag.apply settings = settings.overlay [flag.letter] := by
  have each : ∀ flag ∈ all, flag.apply settings = settings.overlay [flag.letter] := by
    simp [all, config, sort, Settings.change, Settings.overlay, Config.overlay, displayModeOf,
      numericOnlyOf, timeFieldOf, sortChoiceOf, recursiveOf, blockSizeOf, symlinkModeOf]
  exact each flag known

theorem of_ofLetter? {letter : Char} {flag : Flag} (known : ofLetter? letter = some flag) :
    flag ∈ all ∧ flag.letter = letter :=
  ⟨List.mem_of_find?_eq_some known, by simpa using List.find?_some known⟩

/-- Whether every letter is one of a flag. -/
def AreLetters (letters : List Char) : Prop :=
  ∀ letter ∈ letters, (ofLetter? letter).isSome

instance (letters : List Char) : Decidable (AreLetters letters) :=
  -- Only the letters are looked at: to look at all characters would take too long.
  List.decidableBAll (fun letter => (ofLetter? letter).isSome) letters

end Flag

namespace Request

open DirList.Flag

theorem applyLetters_eq {letters : List Char} (known : AreLetters letters) {flag : Flag}
    (first : flag ∈ all) (settings : Settings) :
    applyLetters settings flag letters = .ok (settings.overlay (flag.letter :: letters)) := by
  induction letters generalizing flag settings with
  | nil => rw [applyLetters, apply_eq_overlay first]
  | cons letter rest ih =>
    obtain ⟨here, later⟩ := List.forall_mem_cons.mp known
    obtain ⟨next, found⟩ := Option.isSome_iff_exists.mp here
    obtain ⟨member, rfl⟩ := of_ofLetter? found
    rw [applyLetters]
    simp only [found]
    rw [ih later member, apply_eq_overlay first, ← Settings.overlay_append, List.singleton_append]

/-- The equals sign is no flag, so letters are never taken for a value. -/
theorem applyCluster_eq {letters : List Char} (known : AreLetters letters) {flag : Flag}
    (first : flag ∈ all) (settings : Settings) :
    applyCluster settings flag letters = .ok (settings.overlay (flag.letter :: letters)) := by
  have absent : letters.head? ≠ some '=' := fun equals =>
    absurd (known '=' (List.mem_of_head? equals)) (by decide)
  unfold applyCluster
  split
  · exact absurd rfl absent
  · exact absurd rfl absent
  · exact applyLetters_eq known first settings

end Request

namespace Word

/-- The word of a cluster of flags. -/
def ofCluster (letters : List Char) : String :=
  String.ofList ('-' :: letters)

open DirList.Flag

theorem ofText_cluster {letter : Char} {flag : Flag} (known : ofLetter? letter = some flag)
    (rest : List Char) : ofText (ofCluster (letter :: rest)) = .ok (cluster flag rest) := by
  have undashed : letter ≠ '-' := by
    rintro rfl
    exact absurd (Option.isSome_iff_exists.mpr ⟨flag, known⟩) (by decide)
  unfold ofText ofCluster
  rw [String.toList_ofList]
  split <;> simp_all

theorem ofText_path {text : String} (undashed : text.toList.head? ≠ some '-') :
    ofText text = .ok (path text) := by
  unfold ofText
  split <;> simp_all

theorem ofTexts_cons {text : String} {first : Word} {texts : List String} {words : List Word}
    (undivided : text ≠ "--") (told : ofText text = .ok first)
    (others : ofTexts texts = .ok words) : ofTexts (text :: texts) = .ok (first :: words) := by
  rw [ofTexts, if_neg undivided, told, others]
  rfl

theorem ofTexts_paths {paths : List String}
    (undashed : ∀ path ∈ paths, path.toList.head? ≠ some '-') :
    ofTexts paths = .ok (paths.map path) := by
  induction paths with
  | nil => rfl
  | cons path rest ih =>
    obtain ⟨here, later⟩ := List.forall_mem_cons.mp undashed
    have undivided : path ≠ "--" := by
      rintro rfl
      exact here rfl
    exact ofTexts_cons undivided (ofText_path here) (ih later)

end Word

namespace Request

open DirList.Flag

/-- Paths that end the command line are one row. -/
theorem ofWords_paths (settings : Settings) (paths : List String) :
    ofWords settings none [] (paths.map Word.path) = .ok (.list settings paths) := by
  cases paths with
  | nil => simp [ofWords]
  | cons path rest =>
    have plain : ∀ word ∈ rest.map Word.path, word.plain?.isSome := by
      simp [Word.plain?]
    have row := @List.takeWhile_append_of_pos _ _ _ [] plain
    have others := @List.dropWhile_append_of_pos _ _ _ [] plain
    have kept : (rest.map Word.path).filterMap Word.path? = rest := by
      rw [List.filterMap_map]
      exact List.filterMap_some
    rw [List.append_nil] at row others
    rw [List.map_cons, ofWords, row, others, List.takeWhile_nil, List.append_nil]
    · simp [ofWords, Word.path?, kept]
    all_goals simp

/-- The request of clusters and paths: the settings are those of all letters in a row. -/
theorem exists_words {clusters : List (List Char)} {paths : List String}
    (filled : ∀ letters ∈ clusters, letters ≠ []) (known : ∀ letters ∈ clusters, AreLetters letters)
    (undashed : ∀ path ∈ paths, path.toList.head? ≠ some '-') : ∃ words,
      Word.ofTexts (clusters.map Word.ofCluster ++ paths) = .ok words ∧
      ∀ settings, ofWords settings none [] words
        = .ok (.list (settings.overlay clusters.flatten) paths) := by
  induction clusters with
  | nil =>
    refine ⟨paths.map Word.path, Word.ofTexts_paths undashed, fun settings => ?_⟩
    rw [ofWords_paths, List.flatten_nil, Settings.overlay_nil]
  | cons letters rest ih =>
    obtain ⟨full, filled⟩ := List.forall_mem_cons.mp filled
    obtain ⟨cut, known⟩ := List.forall_mem_cons.mp known
    obtain ⟨words, told, read⟩ := ih filled known
    obtain ⟨letter, others, rfl⟩ := List.exists_cons_of_ne_nil full
    obtain ⟨first, later⟩ := List.forall_mem_cons.mp cut
    obtain ⟨flag, found⟩ := Option.isSome_iff_exists.mp first
    obtain ⟨member, rfl⟩ := of_ofLetter? found
    have cluster := Word.ofText_cluster found others
    have undivided : Word.ofCluster (flag.letter :: others) ≠ "--" := by
      intro equals
      rw [equals] at cluster
      cases cluster
    refine ⟨.cluster flag others :: words, Word.ofTexts_cons undivided cluster told,
      fun settings => ?_⟩
    rw [ofWords, applyCluster_eq later member]
    simp only
    rw [read, List.flatten_cons, Settings.overlay_append]

end Request

namespace Program

/-- The configuration before the first flag. -/
def Environment.defaults (environment : Environment) : Config where
  displayMode := if environment.device.isTerminal then DisplayMode.columns
    else DisplayMode.singleColumn
  width := environment.device.layoutWidth environment.columns defaultWidth
  showHidden := environment.user = 0
  maskNames := environment.device.isTerminal

theorem Environment.initial_eq (environment : Environment) :
    Settings.initial environment.device environment.columns environment.user
      = { config := environment.defaults } := by
  unfold Settings.initial Environment.defaults
  split <;> split <;> simp_all [Config.forTerminal, OutputDevice.layoutWidth]

open DirList.Flag

/-- A command line of clusters and paths comes to its paths and to what all the letters in a row
write over the defaults of the environment, however they are cut into clusters. -/
theorem readArguments_clusters (environment : Environment) (clusters : List (List Char))
    (paths : List String) (filled : ∀ letters ∈ clusters, letters ≠ [])
    (known : ∀ letters ∈ clusters, AreLetters letters)
    (undashed : ∀ path ∈ paths, path.toList.head? ≠ some '-') :
    readArguments environment (clusters.map Word.ofCluster ++ paths)
      = .ok (environment.defaults.overlaid clusters.flatten, paths) := by
  obtain ⟨words, told, read⟩ := Request.exists_words filled known undashed
  have asked : Request.ofArguments { config := environment.defaults }
      (clusters.map Word.ofCluster ++ paths)
      = .ok (.list (Settings.overlay { config := environment.defaults } clusters.flatten)
        paths) := by
    rw [Request.ofArguments, told]
    exact read _
  rw [readArguments, environment.initial_eq, asked]
  simp only [Settings.toConfig_overlay]

/-- Cut one way or another: the layout is the last that was chosen, and entries are sorted by the
access time, which was chosen after the order. -/
theorem readArguments_clusters_sample :
    readArguments ⟨⟨false, none⟩, none, 0⟩ ["-1t", "-nuR", "-C", "lib", ""]
      = .ok ({ displayMode := DisplayMode.columns, numericOnly := true, recursive := true,
               timeField := TimeField.access, sortKey := SortKey.time .access,
               showHidden := true }, ["lib", ""]) :=
  readArguments_clusters ⟨⟨false, none⟩, none, 0⟩ [['1', 't'], ['n', 'u', 'R'], ['C']] ["lib", ""]
    (by decide) (by decide) (by decide)

end Program
end DirList
