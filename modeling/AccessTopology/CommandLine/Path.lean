import AccessTopology.Text.Search

namespace AccessTopology.CommandLine

/-!
# File paths

What the command line needs to know of a path: its components, and the
extension of the file it names.
-/

/--
The components of a path. A single dot counts only at the start, and an empty
part only there too, where it stands for the root.
-/
def components (path : String) : List (List Char) :=
  match Text.splitOn '/' path.toList with
  | [] => []
  | [[]] => []
  | first :: rest =>
      first :: rest.filter (fun part => part ≠ [] && part ≠ ['.'])

/-- The text after the last dot, unless the text begins with its only dot or has none. -/
def extensionOf (name : List Char) : Option (List Char) :=
  let extension := (name.reverse.takeWhile (· ≠ '.')).reverse
  if extension.length + 1 < name.length then some extension else none

/-- The extension of the file that a path names. -/
def extension? (path : String) : Option (List Char) :=
  match (components path).getLast? with
  | some name => if name = "..".toList then none else extensionOf name
  | none => none

end AccessTopology.CommandLine
