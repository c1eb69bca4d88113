import AccessTopology.Text.Search

namespace AccessTopology.CommandLine

/-!
# Files under paths

What a path leads to in a tree of files. A path is followed part by part, and
every part but the last has to lead to a directory: a path does not lead through
a file, nor to a name that is too long to be one. The program itself finds its
files through the system; a tree is what a request finds where no system is at
hand, as when a run is tried out.
-/

/-- Why nothing stands under a path. -/
inductive Absence
  | missing
  | notDirectory
  | nameTooLong
  deriving Repr, DecidableEq

/-- What stands under a path. -/
inductive FileState
  | absent (why : Absence)
  | directory
  | bytes (content : ByteArray)

/-- Why a file's text cannot be had. -/
inductive FileError
  | absent (why : Absence)
  | directory
  | notUtf8
  deriving Repr, DecidableEq

/-- Why nothing stands under a path, in words. -/
def Absence.message : Absence → String
  | missing => "No such file or directory (os error 2)"
  | notDirectory => "Not a directory (os error 20)"
  | nameTooLong => "File name too long (os error 36)"

/-- A file error in words. -/
def FileError.message : FileError → String
  | absent why => why.message
  | directory => "Is a directory (os error 21)"
  | notUtf8 => "stream did not contain valid UTF-8"

/-- The text that stands under a path. -/
def FileState.text : FileState → Except FileError String
  | absent why => .error (.absent why)
  | directory => .error .directory
  | bytes content =>
      match String.fromUTF8? content with
      | some text => .ok text
      | none => .error .notUtf8

/-- A place in a tree: the names on the way from the root. -/
abbrev Place := List (List Char)

/-- A tree: its files, and the directories besides those that hold files. -/
structure FileTree where
  files : List (Place × ByteArray)
  directories : List Place

namespace FileTree

/-- Whether a directory is at a place: the tree has it, or has something below it. -/
def hasDirectory
    (tree : FileTree)
    (place : Place) :
    Bool :=
  place = [] || tree.directories.any place.isPrefixOf ||
    tree.files.any (fun file => place.isPrefixOf file.1.dropLast)

/-- What is at a place. -/
def stateAt
    (tree : FileTree)
    (place : Place) :
    FileState :=
  match tree.files.lookup place with
  | some content => .bytes content
  | none =>
      if tree.hasDirectory place then .directory
      else .absent .missing

/-- The length of a name that no longer name may have, in bytes. -/
def maxNameLength : Nat :=
  255

/-- The length of a path that no longer path may have, in bytes. -/
def maxPathLength : Nat :=
  4095

/-- The length of a text in bytes. -/
def byteLength (text : List Char) : Nat :=
  text.foldl (fun length c => length + c.utf8Size) 0

/--
What some parts of a path lead to from a place. An empty part and a single dot
stay at a directory, and two dots go back to the one that holds it.
-/
def follow
    (tree : FileTree) :
    (parts : List (List Char)) →
    (place : Place) →
    FileState
  | [], place => tree.stateAt place
  | part :: parts, place =>
      match tree.stateAt place with
      | .directory =>
          if part = [] || part = ['.'] then tree.follow parts place
          else if part = ['.', '.'] then tree.follow parts place.dropLast
          else if maxNameLength < byteLength part then
            .absent .nameTooLong
          else tree.follow parts (place ++ [part])
      | .bytes _ => .absent .notDirectory
      | .absent why => .absent why

/-- What a path leads to from a directory, or from the root if it begins with a slash. -/
def find
    (tree : FileTree)
    (here : Place)
    (path : String) :
    FileState :=
  let chars := path.toList
  if chars = [] then .absent .missing
  else if maxPathLength < byteLength chars then .absent .nameTooLong
  else if chars.head? = some '/' then
    tree.follow (Text.splitOn '/' chars) []
  else
    tree.follow (Text.splitOn '/' chars) here

end FileTree

end AccessTopology.CommandLine
