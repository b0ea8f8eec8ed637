/-! # Paths

The parts of a path that stand between its slashes.  Empty parts and single dots do not count, but
for a dot at the start.  Main definitions: `Path.fileName?` and `Path.withFileName`. -/

namespace KnittingPattern.Path

/-- A part that leads nowhere else. -/
def isIdle (name : String) : Bool := name = "" || name = "."

/-- What a path starts with before its first part: the root, or a dot. -/
def root (path : String) : String :=
  if path.startsWith "/" then "/"
  else if path = "." ∨ path.startsWith "./" then "."
  else ""

/-- The parts of a path up to the last one that counts, that one first. -/
def partsFromLast (names : List String) : List String := names.reverse.dropWhile isIdle

/-- The parts behind the root, the last one first. -/
def parts (path : String) : List String :=
  partsFromLast ((String.ofList (path.toList.drop (root path).length)).splitOn "/")

/-- The last part of a path, if it names a file. -/
def fileName? (path : String) : Option String :=
  match parts path with
  | [] => none
  | name :: _ => if name = ".." then none else some name

/-- A file name without what stands from its last point on; a point at its start does not count. -/
def stem (name : String) : String :=
  match (name.toList.reverse.dropWhile fun c => c ≠ '.') with
  | [] => name
  | [_] => name
  | _ :: cs => String.ofList cs.reverse

/-- The path that leads to a file beside the one of this path, or into the directory of this path if
it names no file. -/
def withFileName (path name : String) : String :=
  let directory :=
    match fileName? path with
    | none => path
    | some _ => root path ++ "/".intercalate (partsFromLast (parts path).tail.reverse).reverse
  if directory = "" ∨ directory.endsWith "/" then directory ++ name else directory ++ "/" ++ name

end KnittingPattern.Path
