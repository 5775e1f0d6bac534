import LoadTest.Table

/-!
# LoadTest.Directory

The directory that the program works in: texts under names. **There are no other directories,** so a path
leads to a file only if it has no further parts; writing anywhere else fails.
-/

namespace LoadTest

/-- Texts under names. -/
structure Directory where
  files : Table String
  deriving Inhabited

namespace Directory

/-- The characters of a path without steps that stay in the directory. -/
def dropHere : List Char → List Char
  | '.' :: '/' :: rest => dropHere rest
  | cs => cs

/-- The name of the file that a path leads to. -/
def name? (path : String) : Option String :=
  let name := dropHere path.toList
  if name.isEmpty ∨ name = ['.'] ∨ name = ['.', '.'] ∨ '/' ∈ name then none
  else some (String.ofList name)

/-- The text of a file. -/
def read? (directory : Directory) (path : String) : Option String := do
  directory.files.find? (← name? path)

/-- The directory with a text in a file. -/
def write? (directory : Directory) (path text : String) : Option Directory := do
  pure ⟨directory.files.insert (← name? path) text⟩

end Directory

end LoadTest
