import TraceProfile.Text.Split

/-!
# Paths

Paths are texts whose parts slashes separate. They are taken apart as text; only `normalize`
gives the parts a meaning, and that without looking at any directory.
-/

namespace TraceProfile.Path

/-- The parts between the slashes. -/
def parts (path : String) : List String := (path.toList.splitOn '/').map String.ofList

/-- What follows the last slash. -/
def fileName (path : String) : String := (parts path).getLastD ""

/-- The path of a file name in a directory. -/
def join (directory name : String) : String :=
  if directory.isEmpty || directory.endsWith "/" then directory ++ name
  else directory ++ "/" ++ name

/-- The characters before the last point, if a character other than a point comes before it. -/
def stemList (name : List Char) : List Char :=
  match Text.cutList? '.' name.reverse with
  | none => name
  | some (_, before) => if before.all (· == '.') then name else before.reverse

/-- A path without the extension of its file name. -/
def withoutExtension (path : String) : String :=
  let name := fileName path
  let extension := name.length - (stemList name.toList).length
  String.ofList (path.toList.take (path.length - extension))

/-- A file name without its extension. -/
def stem (path : String) : String := withoutExtension (fileName path)

/-- The parts of a path with every step back taken against the step before it. A step back from
the top of a rooted path leads nowhere. -/
def normalizeParts (rooted : Bool) : List String → List String → List String
  | done, [] => done.reverse
  | done, part :: rest =>
    if part = "" ∨ part = "." then normalizeParts rooted done rest
    else if part = ".." then
      match done with
      | last :: before =>
        if last = ".." then normalizeParts rooted (part :: done) rest
        else normalizeParts rooted before rest
      | [] => normalizeParts rooted (if rooted then [] else [part]) rest
    else normalizeParts rooted (part :: done) rest

/-- A path that starts at the root. -/
def isRooted (path : String) : Bool := path.startsWith "/"

/-- A path in its shortest form. -/
def normalize (path : String) : String :=
  (if isRooted path then "/" else "") ++
    "/".intercalate (normalizeParts (isRooted path) [] (parts path))

end TraceProfile.Path
