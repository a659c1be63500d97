/-!
# Files

A directory with the files and directories below it, and the way from a path to one of them. Paths
are relative to the directory, the top. There are directories above the top, up to the root; all
that is known of them is what has been written there.
-/

namespace RoleAudit

/-- Why a file cannot be read or written. -/
inductive FileFault where
  /-- Nothing is there. -/
  | absent
  /-- A file stands where a directory is needed. -/
  | notDirectory
  /-- A directory stands where a file is needed. -/
  | isDirectory
  /-- A name on the way, or the whole path, is too long. -/
  | tooLong
  /-- The path has a character that no path can have. -/
  | badCharacter
  /-- Something else, in words. -/
  | other (reason : String)
  deriving DecidableEq, Repr

/-- The wording of a fault. -/
def FileFault.message : FileFault → String
  | absent => "No such file or directory (os error 2)"
  | notDirectory => "Not a directory (os error 20)"
  | isDirectory => "Is a directory (os error 21)"
  | tooLong => "File name too long (os error 36)"
  | badCharacter => "file name contained an unexpected NUL byte"
  | other reason => reason

/-- Where the names of a place start. -/
inductive Origin where
  /-- So many directories above the top. -/
  | above (levels : Nat)
  /-- At the root. -/
  | root
  deriving DecidableEq, Repr

namespace Origin

/-- The top. -/
def top : Origin := above 0

/-- The directory around it; the root is in itself. -/
def parent : Origin → Origin
  | above levels => above (levels + 1)
  | root => root

end Origin

/-- The place of a file. -/
structure Place where
  /-- Where the names start. -/
  origin : Origin := .top
  /-- The names on the way, the last first. -/
  names : List String := []
  deriving DecidableEq, Repr

namespace Place

/-- The place around a place. -/
def parent : Place → Place
  | ⟨origin, []⟩ => ⟨origin.parent, []⟩
  | ⟨origin, _ :: names⟩ => ⟨origin, names⟩

/-- The place of a name in a directory. -/
def child (place : Place) (name : String) : Place := { place with names := name :: place.names }

end Place

/-- The files and directories below a directory. -/
structure Files where
  /-- The contents of the files. -/
  contents : List (Place × String) := []
  /-- The directories other than those that places start from. -/
  directories : List Place := []
  deriving DecidableEq, Repr

namespace Files

/-- How many bytes a name has at most. -/
def nameLimit : Nat := 255

/-- How many bytes a path has at most. -/
def pathLimit : Nat := 4095

/-- Whether a place is a directory. -/
def isDirectory (f : Files) (place : Place) : Bool :=
  place.names.isEmpty || f.directories.contains place

/-- The contents of the file at a place. -/
def get? (f : Files) (place : Place) : Option String := f.contents.lookup place

/-- What stands in the way at a place that is no directory. -/
def obstacle (f : Files) (place : Place) : FileFault :=
  if (f.get? place).isSome then .notDirectory else .absent

/-- One step of a path, from a directory. -/
def step (f : Files) (place : Place) (name : String) : Except FileFault Place :=
  if !f.isDirectory place then .error (f.obstacle place)
  else if name = "" || name = "." then .ok place
  else if name = ".." then .ok place.parent
  else if nameLimit < name.utf8ByteSize then .error .tooLong
  else .ok (place.child name)

/-- The place that a path leads to. What is there need not exist, but the directories on the way
do. A path with a slash in front starts at the root. -/
def resolve (f : Files) (path : String) : Except FileFault Place :=
  if path.contains '\x00' then .error .badCharacter
  else if pathLimit < path.utf8ByteSize then .error .tooLong
  else
    match path.splitOn "/" with
    | [""] => .error .absent
    | "" :: names => names.foldlM f.step { origin := .root }
    | names => names.foldlM f.step {}

/-- Reads a file. -/
def read (f : Files) (path : String) : Except FileFault String := do
  let place ← f.resolve path
  if f.isDirectory place then .error .isDirectory
  else
    match f.get? place with
    | some text => .ok text
    | none => .error .absent

/-- Puts a text at a place. -/
def put (f : Files) (place : Place) (text : String) : Files :=
  { f with contents := (place, text) :: f.contents.filter (·.1 ≠ place) }

/-- Writes a file, in place of one that is there. -/
def write (f : Files) (path text : String) : Except FileFault Files := do
  let place ← f.resolve path
  if f.isDirectory place then .error .isDirectory
  else .ok (f.put place text)

/-- The directories on the way to the place below the top with the given names, the nearest
first. -/
def around : List String → List Place
  | [] => []
  | [_] => []
  | _ :: rest => { names := rest } :: around rest

/-- The place of a path of plain names below the top. -/
def placeOf (path : String) : Place :=
  { names := ((path.splitOn "/").filter fun name => name ≠ "" && name ≠ ".").reverse }

/-- The files with a directory added, and the directories above it. -/
def withDirectory (f : Files) (path : String) : Files :=
  let place := placeOf path
  { f with directories := f.directories ++ place :: around place.names }

/-- The files with a file added, and the directories above it. -/
def withFile (f : Files) (path text : String) : Files :=
  let place := placeOf path
  { f.put place text with directories := f.directories ++ around place.names }

end Files

end RoleAudit
