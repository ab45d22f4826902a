import Unwinding.Table

/-!
# The scratch directory

A directory of text files and nothing else: it has no directories inside, so a name with a further
part behind a file's or a missing file's name cannot be opened. Opening a file to write creates it.
A path may also lead out of the directory, to those above it. Nothing is known of what they hold, so
they count as empty at first.
-/
namespace Unwinding

inductive FileFault
  | notFound
  | notADirectory
  | isADirectory
  | nameTooLong
  | nulInName
  deriving DecidableEq, Repr

def FileFault.message : FileFault → String
  | notFound => "No such file or directory (os error 2)"
  | notADirectory => "Not a directory (os error 20)"
  | isADirectory => "Is a directory (os error 21)"
  | nameTooLong => "File name too long (os error 36)"
  | nulInName => "file name contained an unexpected NUL byte"

/-- A directory that a path can pass through. -/
inductive Directory
  /-- So many levels above the scratch directory, which is the one at level zero. -/
  | above (levels : Nat)
  | root
  deriving DecidableEq, Repr

/-- The root is its own parent. -/
def Directory.parent : Directory → Directory
  | above levels => above (levels + 1)
  | root => root

/-- Where a file is, however it was spelled. -/
structure Location where
  directory : Directory
  name : String
  deriving DecidableEq, Repr

structure Scratch where
  files : Table Location String := {}
  /-- How many bytes the path of the scratch directory itself has. -/
  ownPath : Nat := 15
  deriving DecidableEq, Repr

namespace Scratch

def empty : Scratch := {}

/-- The longest name of a file, in bytes. -/
def maxName : Nat := 255

/-- The longest path, in bytes. -/
def maxPath : Nat := 4095

def isAbsolute (path : String) : Bool := path.startsWith "/"

/-- How long a path is from the root on; a relative one follows that of the scratch directory. -/
def fullLength (d : Scratch) (path : String) : Nat :=
  if isAbsolute path then path.utf8ByteSize else d.ownPath + 1 + path.utf8ByteSize

/-- The parts of a path between its slashes, empty ones left out. -/
def parts (path : String) : List String := (path.splitOn "/").filter (· ≠ "")

/-- Where the parts of a path lead from a directory, when the last is opened to write. All parts but
the last have to be directories. A slash behind the last part makes it one too, whatever it is; this
is found before the part is looked at. -/
def walk (d : Scratch) (endsInSlash : Bool) : Directory → List String → Except FileFault Location
  | _, [] => .error .isADirectory
  | dir, part :: rest =>
    if part = "." then d.walk endsInSlash dir rest
    else if part = ".." then d.walk endsInSlash dir.parent rest
    else if rest.isEmpty && endsInSlash then .error .isADirectory
    else if maxName < part.utf8ByteSize then .error .nameTooLong
    else if rest.isEmpty then .ok ⟨dir, part⟩
    else .error (if d.files.contains ⟨dir, part⟩ then .notADirectory else .notFound)

def locate (d : Scratch) (path : String) : Except FileFault Location :=
  if path.contains '\x00' then .error .nulInName
  else if maxPath < d.fullLength path then .error .nameTooLong
  else d.walk (path.endsWith "/") (if isAbsolute path then .root else .above 0) (parts path)

/-- Opens a file to append to it, and says where it is. -/
def openToAppend (d : Scratch) (path : String) : Except FileFault (Location × Scratch) := do
  let file ← d.locate path
  return (file, if d.files.contains file then d else { d with files := d.files.insert file "" })

/-- Makes `text` the whole content of a file. -/
def create (d : Scratch) (path text : String) : Except FileFault Scratch := do
  return { d with files := d.files.insert (← d.locate path) text }

def contents (d : Scratch) (file : Location) : String := (d.files.find? file).getD ""

/-- Adds `text` at the end of an open file, wherever that end is by now. -/
def append (d : Scratch) (file : Location) (text : String) : Scratch :=
  { d with files := d.files.insert file (d.contents file ++ text) }

/-- The content of a file. There is none where a path cannot be opened. -/
def read (d : Scratch) (path : String) : Option String :=
  match d.locate path with
  | .ok file => d.files.find? file
  | .error _ => none

end Scratch

/-- Puts a character in front of a text that is split into lines. -/
def Lines.cons (c : Char) : List (List Char) → List (List Char)
  | [] => [[c]]
  | l :: ls => if c = '\n' then [c] :: l :: ls else (c :: l) :: ls

/-- The lines of a text, each with the line break that ends it; the last may lack one. -/
def Lines.ofText (cs : List Char) : List (List Char) := cs.foldr Lines.cons []

theorem Lines.flatten_cons (c : Char) (ls : List (List Char)) :
    (Lines.cons c ls).flatten = c :: ls.flatten := by
  cases ls with
  | nil => rfl
  | cons l ls => by_cases h : c = '\n' <;> simp [Lines.cons, h]

/-- No character is lost or moved. -/
theorem Lines.flatten_ofText (cs : List Char) : (Lines.ofText cs).flatten = cs := by
  induction cs with
  | nil => rfl
  | cons c cs ih => simpa [Lines.ofText, Lines.flatten_cons] using ih

end Unwinding
