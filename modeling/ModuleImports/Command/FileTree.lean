/-!
# Command/FileTree — a directory and what is in it

A `FileTree` is the working directory as a list of files.  Directories are where the files are, and
`readText?` finds a file by a relative path, step by step as an operating system would: every step
but the last one has to lead to a directory, and nothing outside the tree can be seen.
-/

namespace ModuleImports.Command

/-- The files of a directory, each with the names on the way to it and its content. -/
structure FileTree where
  files : List (List String × ByteArray)

namespace FileTree

/-- The names in a path.  A repeated or final slash makes an empty one. -/
def steps (path : String) : List String :=
  (path.toList.splitOn '/').map String.ofList

/-- The tree of some files, each with its path. -/
def ofPaths (files : List (String × ByteArray)) : FileTree :=
  ⟨files.map fun (path, content) =>
    ((steps path).filter fun name => !name.isEmpty && name != ".", content)⟩

/-- What the file at a place holds. -/
def content? (t : FileTree) (place : List String) : Option ByteArray :=
  (t.files.find? (·.1 == place)).map Prod.snd

/-- The tree itself is a directory, and so is every place on the way to a file. -/
def isDirectory (t : FileTree) (place : List String) : Bool :=
  place.isEmpty || t.files.any fun f => place.isPrefixOf f.1 && place.length < f.1.length

/-- The place that a step leads to, from a place. -/
def step? (t : FileTree) (place : List String) (name : String) : Option (List String) :=
  if !t.isDirectory place then none
  else if name.isEmpty || name == "." then some place
  else if name == ".." then if place.isEmpty then none else some place.dropLast
  else some (place ++ [name])

/-- What the file at a path holds.  A path that starts with a slash leaves the tree. -/
def read? (t : FileTree) (path : String) : Option ByteArray :=
  if path.startsWith "/" then none
  else do t.content? (← (steps path).foldlM t.step? [])

/-- **The text in the file at a path**, if there is a file and it holds a text in UTF-8. -/
def readText? (t : FileTree) (path : String) : Option String := do
  String.fromUTF8? (← t.read? path)

end FileTree

end ModuleImports.Command
