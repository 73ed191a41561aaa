import TraceProfile.Assoc
import TraceProfile.Files.Access
import TraceProfile.Files.Path
import TraceProfile.Text.Split

/-!
# File trees

A file tree holds directories and files under one directory, from which all paths start. A path
is followed name by name, and every name on the way must lead to a directory. Around the tree
there are directories in which nothing is known to be; what is put there is out of sight.
-/

namespace TraceProfile

/-- The names that lead from the top of a tree to a file or directory. -/
abbrev Place := List String

/-- Where a path leads. -/
inductive Spot where
  /-- A place in the tree. -/
  | inside (place : Place)
  /-- A directory around the tree. -/
  | around
  /-- A name in a directory around the tree. -/
  | beyond
  deriving DecidableEq, Repr

/-- The most bytes of a name. -/
def nameLimit : Nat := 255

/-- The most bytes of a path. -/
def pathLimit : Nat := 4095

/-- Directories and files under a directory. -/
structure FileTree where
  /-- The directories other than the top. -/
  directories : List Place
  /-- The files with their contents. -/
  files : List (Place × List UInt8)

namespace FileTree

/-- The tree without any file. -/
def empty : FileTree := ⟨[], []⟩

/-- There is a directory at a place. -/
def isDirectory (tree : FileTree) (place : Place) : Bool :=
  place.isEmpty || tree.directories.contains place

/-- There is a directory at a spot. -/
def hasDirectory (tree : FileTree) : Spot → Bool
  | .inside place => tree.isDirectory place
  | .around => true
  | .beyond => false

/-- The content of the file at a place. -/
def content? (tree : FileTree) (place : Place) : Option (List UInt8) := tree.files.lookup place

/-- The tree with a directory at a place and directories on the way to it. -/
def addDirectory (tree : FileTree) (place : Place) : FileTree :=
  let way := (List.range (place.length + 1)).map place.take
  { tree with directories := tree.directories ++ way.filter (!tree.isDirectory ·) }

/-- The tree with a file at a place. -/
def put (tree : FileTree) (place : Place) (content : List UInt8) : FileTree :=
  { tree with files := Assoc.insert place content tree.files }

/-- Where a name leads to from a directory of a tree. -/
def enter (place : Place) (name : String) : Except Failure Spot :=
  if nameLimit < name.utf8ByteSize then .error .nameTooLong
  else if name = "" ∨ name = "." then .ok (.inside place)
  else if name = ".." then
    .ok (if place.isEmpty then .around else .inside place.dropLast)
  else .ok (.inside (place ++ [name]))

/-- Where a name leads to from a spot. -/
def follow (tree : FileTree) (spot : Spot) (name : String) : Except Failure Spot :=
  match spot with
  | .inside place =>
    if tree.isDirectory place then enter place name
    else if (tree.content? place).isSome then .error .fileOnPath
    else .error .noFile
  | .around =>
    if nameLimit < name.utf8ByteSize then .error .nameTooLong
    else if name = "" ∨ name = "." ∨ name = ".." then .ok .around
    else .ok .beyond
  | .beyond => .error .noFile

/-- Where a path leads. There may be nothing yet at its end. -/
def locate (tree : FileTree) (path : String) : Except Failure Spot :=
  (Path.parts path).foldlM tree.follow (if Path.isRooted path then .around else .inside [])

/-- The bytes of the file at a path. A path that is too long leads to no file. -/
def read? (tree : FileTree) (path : String) : Option (List UInt8) :=
  if pathLimit < path.utf8ByteSize then none
  else
    match tree.locate path with
    | .ok (.inside place) => tree.content? place
    | _ => none

/-- The spot where the file of a path is or can be made. A path with a slash at its end asks for
a directory. -/
def target (tree : FileTree) (path : String) : Except Failure Spot := do
  if path.toList.contains '\x00' then throw .nulInPath
  if pathLimit < path.utf8ByteSize then throw .nameTooLong
  let spot ← tree.locate (String.ofList (Text.trimEnd (· == '/') path.toList))
  if path.endsWith "/" || tree.hasDirectory spot then throw .directoryInPlace
  pure spot

/-- The file at a spot is given a content that depends on its old one. -/
def update (tree : FileTree) (spot : Spot) (content : List UInt8 → List UInt8) : FileTree :=
  match spot with
  | .inside place => tree.put place (content ((tree.content? place).getD []))
  | _ => tree

/-- Text is put at the end of a file. -/
def append (path text : String) (tree : FileTree) : Except Failure Unit × FileTree :=
  match tree.target path with
  | .error f => (.error f, tree)
  | .ok spot => (.ok (), tree.update spot fun content => content ++ text.toUTF8.toList)

/-- Text becomes the content of a file. -/
def write (path text : String) (tree : FileTree) : Except Failure Unit × FileTree :=
  match tree.target path with
  | .error f => (.error f, tree)
  | .ok spot => (.ok (), tree.update spot fun _ => text.toUTF8.toList)

/-- The time in a tree, where it stands still. -/
def stamp : String := "1970-01-01 00:00:00,000"

/-- The files of a tree that an earlier tree does not have. -/
def newFiles (before tree : FileTree) : List (Place × List UInt8) :=
  tree.files.filter fun file => (before.content? file.1).isNone

end FileTree

instance : FileAccess (StateM FileTree) where
  read? path := do return (← get).read? path
  append path text := modifyGet (FileTree.append path text)
  write path text := modifyGet (FileTree.write path text)
  stamp := return FileTree.stamp

end TraceProfile
