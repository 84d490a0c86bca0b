import Rulebook.Entries
import Rulebook.Text.Split

set_option autoImplicit false

/-!
Directories of text files. A path is followed step by step from the directory, and every step but the
last has to lead to a folder. Documents are replaced by way of a temporary file, so one that cannot be
written in full keeps its text and nothing is left behind.
-/

namespace Rulebook

/-- Why a file cannot be read or written. -/
inductive FileFault where
  | missing
  /-- The path goes through a file, or has a slash after one. -/
  | notFolder
  | folder
  | tooLong
  /-- The text is no path. -/
  | notPath
  | diskFull
  deriving DecidableEq, Repr

/-- Where a path leads: the steps from the directory, or from the root if the first one is a slash.
Steps that go up stand at the start. -/
abbrev Location := List String

namespace Location

def text : Location → String
  | "/" :: steps => "/" ++ "/".intercalate steps
  | steps => "/".intercalate steps

def up (location : Location) : Location :=
  match location.getLast? with
  | none | some ".." => location ++ [".."]
  | some "/" => location
  | some _ => location.dropLast

/-- The directory itself, the folders above it, and the root. -/
def isAbove (location : Location) : Bool := location == ["/"] || location.all (· == "..")

end Location

namespace Path

def isRooted (path : String) : Bool := path.toList.head? == some '/'

def start (path : String) : Location := if isRooted path then ["/"] else []

/-- All steps, also the empty ones beside a slash. -/
def steps (path : String) : List String := (Text.split '/' path.toList).map String.ofList

/-- A step that stays in place. -/
def isIdle (step : String) : Bool := step == "" || step == "."

def move (location : Location) (step : String) : Location :=
  if isIdle step then location else if step == ".." then location.up else location ++ [step]

/-- The location that the path names, whether its folders exist or not. -/
def location (path : String) : Location := (steps path).foldl move (start path)

def activeSteps (path : String) : List String := (steps path).filter fun s => !isIdle s

/-- The path without steps that stay in place; a single dot if nothing is left. -/
def normal (path : String) : String :=
  let p := (if isRooted path then "/" else "") ++ "/".intercalate (activeSteps path)
  if p = "" then "." else p

/-- The folder of a path; empty for the directory itself. -/
def parent (path : String) : String := (location path).up.text

/-- The last step, up to its last dot. A dot at either end does not count. -/
def stem (path : String) : String :=
  let name := (((activeSteps path).getLast?).getD "").toList
  let extension := name.reverse.takeWhile (· != '.')
  let before := name.take (name.length - extension.length - 1)
  if extension.isEmpty || before.isEmpty then String.ofList name else String.ofList before

/-- The longest step and the longest path, in bytes. -/
def longestStep : Nat := 255

def longestPath : Nat := 4095

end Path

structure Directory where
  files : Entries String String
  /-- Folders without files. -/
  folders : List String
  /-- The time that is written into documents. -/
  clock : String
  full : Bool

namespace Directory

def empty (clock : String) : Directory := ⟨[], [], clock, false⟩

/-- A folder exists if a file is in it. -/
def isFolder (d : Directory) (place : Location) : Bool :=
  place.isAbove || d.folders.contains place.text ||
    (Entries.keys d.files).any fun f => (place.text ++ "/").toList.isPrefixOf f.toList

def isFile (d : Directory) (place : Location) : Bool := (Entries.get? d.files place.text).isSome

/-- One step from a folder. -/
def step (d : Directory) (place : Location) (step : String) : Except FileFault Location :=
  if !d.isFolder place then .error (if d.isFile place then .notFolder else .missing)
  else if Path.longestStep < step.utf8ByteSize then .error .tooLong
  else .ok (Path.move place step)

/-- Follows a path that has no more steps than these. -/
def follow (d : Directory) (path : String) (steps : List String) : Except FileFault Location :=
  if path.toList.contains '\x00' then .error .notPath
  else if Path.longestPath < path.utf8ByteSize then .error .tooLong
  else steps.foldlM d.step (Path.start path)

/-- The location of an existing file or folder, or of a file that can be made. -/
def locate (d : Directory) (path : String) : Except FileFault Location := d.follow path (Path.steps path)

def read (d : Directory) (path : String) : Except FileFault String :=
  match d.locate path with
  | .error fault => .error fault
  | .ok location =>
    if d.isFolder location then .error .folder
    else
      match Entries.get? d.files location.text with
      | some text => .ok text
      | none => .error .missing

/-- Writes a file in place. -/
def write (d : Directory) (path text : String) : Except FileFault Unit × Directory :=
  match d.locate path with
  | .error fault => (.error fault, d)
  | .ok location =>
    if d.isFolder location then (.error .folder, d)
    else (.ok (), { d with files := Entries.put d.files location.text text })

/-- A name that is longer than those of all files, so no file has it. -/
def unusedName (d : Directory) (folder : String) : String :=
  let longest := (d.files.map fun f => f.1.length).foldr max 0
  folder ++ ".rulesets-" ++ String.ofList (List.replicate longest '0') ++ ".json"

/-- The folder that a temporary file for a path is made in. -/
def temporaryFolder (d : Directory) (path : String) : Except FileFault Location :=
  let folder := (Path.location path).up
  (folder.filter (· != "/") ++ [""]).foldlM d.step (Path.start path)

/-- Where a file can take the place of what is at a path. A slash at the end is for folders only. -/
def replaceable (d : Directory) (path : String) : Except FileFault Location :=
  let steps := Path.steps path
  let active := (steps.reverse.dropWhile (· == "")).reverse
  match d.follow path active with
  | .error fault => .error fault
  | .ok location =>
    if d.isFolder location then .error .folder
    else if active.length < steps.length then .error .notFolder
    else .ok location

/-- Writes a file by way of a temporary one that takes its place at the end. -/
def replace (d : Directory) (path text : String) : Except FileFault Unit × Directory :=
  match d.temporaryFolder path with
  | .error fault => (.error fault, d)
  | .ok folder =>
    let temporary := d.unusedName (if folder.isEmpty then "" else folder.text ++ "/")
    let begun := { d with files := Entries.put d.files temporary (if d.full then "" else text) }
    let ended := { d with files := Entries.erase begun.files temporary }
    if d.full then (.error .diskFull, ended)
    else
      match d.replaceable path with
      | .error fault => (.error fault, ended)
      | .ok location => (.ok (), { ended with files := Entries.put ended.files location.text text })

theorem unusedName_not_mem (d : Directory) (folder : String) :
    d.unusedName folder ∉ Entries.keys d.files := by
  have longest : ∀ l : List Nat, ∀ n ∈ l, n ≤ l.foldr max 0 := by
    intro l
    induction l with
    | nil => simp
    | cons m l ih => intro n hn; have := ih n; grind
  intro h
  obtain ⟨f, hf, heq⟩ := List.mem_map.mp h
  have := longest (d.files.map fun f => f.1.length) f.1.length (List.mem_map.mpr ⟨f, hf, rfl⟩)
  have length_eq := congrArg String.length heq
  simp only [unusedName, String.length_append, String.length_ofList, List.length_replicate] at length_eq
  have : ".json".length = 5 := rfl
  omega

/-- A file is replaced as a whole, or nothing changes. -/
theorem replace_eq (d : Directory) (path text : String) :
    d.replace path text =
      match d.temporaryFolder path with
      | .error fault => (.error fault, d)
      | .ok _ =>
        if d.full then (.error .diskFull, d)
        else
          match d.replaceable path with
          | .error fault => (.error fault, d)
          | .ok location => (.ok (), { d with files := Entries.put d.files location.text text }) := by
  unfold replace
  split <;> simp only [Entries.erase_put (d.unusedName_not_mem _)]

end Directory

end Rulebook
