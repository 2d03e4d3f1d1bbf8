import BoxedValues.Text.Split
import BoxedValues.Text.Utf8

/-!
# Trees of files

What a path leads to when the program's `run` reads the file there. A path is followed name by name
through the directories of a tree (`Place.step`); its names are the pieces between slashes.

* `Place.follow` is the place at the end of a path;
* `Place.read` is the contents of the file there.
-/

set_option autoImplicit false

namespace BoxedValues

/-- Why a path cannot be read: the system's number for the reason, and its words. -/
structure FileError where
  number : Nat
  words : String
  deriving DecidableEq

namespace FileError

def missing : FileError := ⟨2, "No such file or directory"⟩

def permissionDenied : FileError := ⟨13, "Permission denied"⟩

def notDirectory : FileError := ⟨20, "Not a directory"⟩

def isDirectory : FileError := ⟨21, "Is a directory"⟩

def nameTooLong : FileError := ⟨36, "File name too long"⟩

/-- The errors whose words are known. -/
def known : List FileError := [missing, permissionDenied, notDirectory, isDirectory, nameTooLong]

/-- The error of a number, in the given words if it has none of its own. -/
def ofNumber (number : Nat) (words : String) : FileError :=
  (known.find? (·.number == number)).getD ⟨number, words⟩

/-- The message of an error. -/
def message (error : FileError) : String := s!"{error.words} (os error {error.number})"

end FileError

/-- A file or a directory. -/
inductive FileTree where
  | file (contents : Bytes)
  | directory (entries : List (String × FileTree))

/-- A place in a tree, with the directories around it, innermost first. -/
structure Place where
  here : FileTree
  around : List FileTree

namespace Place

/-- The top of a tree. -/
def top (tree : FileTree) : Place := ⟨tree, []⟩

/-- The top of the tree that a place is in. -/
def root (place : Place) : Place := top (place.around.getLast?.getD place.here)

/-- The place that holds another one. The top holds itself. -/
def parent (place : Place) : Place :=
  match place.around with
  | [] => place
  | outer :: around => ⟨outer, around⟩

/-- The most octets that a name may have. -/
def nameLimit : Nat := 255

/-- The most octets that a path may have. -/
def pathLimit : Nat := 4095

/-- The place that a name leads to. -/
def step (place : Place) (name : String) : Except FileError Place :=
  match place.here with
  | .file _ => .error .notDirectory
  | .directory entries =>
    if name = "" ∨ name = "." then .ok place
    else if name = ".." then .ok place.parent
    else if nameLimit < name.utf8ByteSize then .error .nameTooLong
    else
      match entries.lookup name with
      | some tree => .ok ⟨tree, place.here :: place.around⟩
      | none => .error .missing

/-- The names of a path. -/
def names (path : String) : List String := (Split.split ['/'] path.toList).map String.ofList

/-- The place at the end of a path. A path that begins with a slash begins at the top. -/
def follow (place : Place) (path : String) : Except FileError Place :=
  if path.isEmpty then .error .missing
  else if pathLimit < path.utf8ByteSize then .error .nameTooLong
  else (names path).foldlM step (if path.toList.head? = some '/' then place.root else place)

/-- The contents of the file at the end of a path. -/
def read (place : Place) (path : String) : Except FileError Bytes := do
  match (← place.follow path).here with
  | .file contents => return contents
  | .directory _ => throw .isDirectory

end Place

end BoxedValues
