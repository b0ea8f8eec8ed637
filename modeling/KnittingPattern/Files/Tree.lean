import KnittingPattern.Files

/-! # A tree of files

A tree of files lists its entries by the names that lead to them from the root, innermost first.
Relative paths start at its current directory.  Main definitions: `FileTree.read`,
`FileTree.write`, and `FileTree.access`, which makes the tree the state of a program. -/

namespace KnittingPattern

inductive FileEntry where
  | text (s : String)
  /-- A file that is not a text. -/
  | bytes
  | directory
deriving DecidableEq

structure FileTree where
  /-- The entries by place; of several at one place the first counts. -/
  entries : List (List String × FileEntry)
  /-- The place of the current directory. -/
  current : List String
deriving DecidableEq

namespace FileTree

/-- A tree that holds an empty current directory. -/
def empty : FileTree := ⟨[(["work"], .directory)], ["work"]⟩

/-- What stands at a place; the root is a directory. -/
def entry? (t : FileTree) (place : List String) : Option FileEntry :=
  match place with
  | [] => some .directory
  | _ => (t.entries.find? fun e => e.1 = place).map Prod.snd

def put (t : FileTree) (place : List String) (entry : FileEntry) : FileTree :=
  ⟨(place, entry) :: t.entries.filter fun e => e.1 ≠ place, t.current⟩

/-- A place is a directory. -/
def enter (t : FileTree) (place : List String) : Except FileError Unit :=
  match t.entry? place with
  | none => .error .notFound
  | some .directory => .ok ()
  | some _ => .error .notDirectory

/-- Follows names from a directory; the last one need not lead to an entry. -/
def follow (t : FileTree) (place : List String) : List String → Except FileError (List String)
  | [] => .ok place
  | name :: names => do
    t.enter place
    if name = "" ∨ name = "." then t.follow place names
    else if name = ".." then t.follow place.tail names
    else if 255 < name.utf8ByteSize then .error .nameTooLong
    else t.follow (name :: place) names

/-- What is wrong with a path in any tree. -/
def refuse? (path : String) : Option FileError :=
  if path.toList.any fun c => c.toNat = 0 then some .nulInPath
  else if path = "" then some .notFound
  else if 4095 < path.utf8ByteSize then some .nameTooLong
  else none

/-- Where a path starts. -/
def origin (t : FileTree) (path : String) : List String :=
  if path.startsWith "/" then [] else t.current

def read (t : FileTree) (path : String) : Except FileError String := do
  if let some e := refuse? path then throw e
  match t.entry? (← t.follow (t.origin path) (path.splitOn "/")) with
  | none => .error .notFound
  | some .directory => .error .isDirectory
  | some .bytes => .error .notText
  | some (.text s) => .ok s

/-- The last name of a path leads to a directory, whatever the tree holds. -/
def endsInDirectory (name : String) : Bool := name = "" || name = "." || name = ".."

/-- Writes a text to a file; the file need not exist, its directory has to.  A tree has room for all
texts, so only to open the file can fail, which leaves the tree as it is. -/
def write (t : FileTree) (path text : String) : Except FileError FileTree := do
  if let some e := refuse? path then throw e
  let names := path.splitOn "/"
  let around := (names.reverse.dropWhile fun n => n = "").tail.reverse
  let directory ← t.follow (t.origin path) around
  t.enter directory
  if endsInDirectory (names.getLastD "") then throw .isDirectory
  let place ← t.follow directory [names.getLastD ""]
  match t.entry? place with
  | some .directory => .error .isDirectory
  | _ => .ok (t.put place (.text text))

/-- Puts an entry at the end of a row of names below a place, with the directories that lead
there. -/
def putBelow (t : FileTree) (place : List String) (entry : FileEntry) : List String → FileTree
  | [] => t.put place entry
  | name :: names =>
    (if (t.entry? place).isSome then t else t.put place .directory).putBelow (name :: place) entry
      names

/-- Puts an entry at a path below the current directory. -/
def add (t : FileTree) (path : String) (entry : FileEntry) : FileTree :=
  t.putBelow t.current entry (path.splitOn "/")

/-- The texts of the files directly in the current directory that are not in another tree or differ
there, by name. -/
def changesSince (t old : FileTree) : List (String × String) :=
  t.entries.filterMap fun e =>
    match e with
    | (name :: place, .text s) =>
      if place = t.current ∧ old.entry? (name :: place) ≠ some (.text s) then some (name, s)
      else none
    | _ => none

/-- A program whose state is a tree of files reads and writes it. -/
def access : FileAccess (StateM FileTree) where
  read path := do return (← get).read path
  write path text := do
    match (← get).write path text with
    | .ok t =>
      set t
      return .ok ()
    | .error e => return .error e

end FileTree
end KnittingPattern
