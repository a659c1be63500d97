import RoleAudit.Toml.Basic

/-!
# Tables of a document

A document is a list of lines that open tables and set keys. A key is set once. A table has one
header at most. A dotted key may add to tables that only dotted keys or parents of headers made, and
a header may open a table that so far was only the parent of others.
-/

namespace RoleAudit.Toml

/-- The entries of a table. -/
abbrev Entries := List (String × Toml)

/-- Puts a value in place of the one that a key has. -/
def replace (key : String) (value : Toml) : Entries → Entries
  | [] => []
  | (k, v) :: rest => if k = key then (key, value) :: rest else (k, v) :: replace key value rest

/-- Changes the entries of a table on the way down a path. A dotted key goes into tables that have
no header of their own; a header goes into any table but one in braces, and into the last table of
an array of tables. -/
def within (dotted : Bool) (change : TomlTable → Entries → Option Entries) :
    List String → TomlTable → Entries → Option Entries
  | [], origin, entries => change origin entries
  | key :: path, _, entries =>
    match entries.lookup key with
    | none =>
      let origin := if dotted then .dotted else .parent
      (within dotted change path origin []).map fun inner =>
        entries ++ [(key, .table origin inner)]
    | some (.table origin inner) =>
      if origin = .braces || (dotted && origin = .header) then none
      else
        (within dotted change path origin inner).map fun inner =>
          replace key (.table origin inner) entries
    | some (.tables items) =>
      match items.reverse with
      | .table origin inner :: earlier =>
        (within dotted change path origin inner).map fun inner =>
          replace key (.tables (earlier.reverse ++ [.table origin inner])) entries
      | _ => none
    | some _ => none

/-- The last key of a path and the keys before it. -/
def splitPath (path : List String) : List String × String := (path.dropLast, path.getLastD "")

/-- Sets a key, dotted or not, in a table. -/
def setKey (path : List String) (value : Toml) (origin : TomlTable) (entries : Entries) :
    Option Entries :=
  let (parents, key) := splitPath path
  within true (fun origin entries =>
    if (origin = .dotted) = parents.isEmpty then none
    else if (entries.lookup key).isSome then none
    else some (entries ++ [(key, value)])) parents origin entries

/-- Opens the table of a header. -/
def openTable (path : List String) (root : Entries) : Option Entries :=
  let (parents, key) := splitPath path
  within false (fun _ entries =>
    match entries.lookup key with
    | none => some (entries ++ [(key, .table .header [])])
    | some (.table .parent inner) => some (replace key (.table .header inner) entries)
    | some _ => none) parents .header root

/-- Opens one more table of a double header. -/
def openArrayTable (path : List String) (root : Entries) : Option Entries :=
  let (parents, key) := splitPath path
  within false (fun _ entries =>
    match entries.lookup key with
    | none => some (entries ++ [(key, .tables [.table .header []])])
    | some (.tables items) => some (replace key (.tables (items ++ [.table .header []])) entries)
    | some _ => none) parents .header root

/-- A line of a document. -/
inductive Line where
  /-- A header. -/
  | header (path : List String)
  /-- A double header. -/
  | arrayHeader (path : List String)
  /-- A key and its value. -/
  | entry (path : List String) (value : Toml)

/-- A document as far as it is read. -/
structure Draft where
  /-- The entries of the whole document. -/
  root : Entries
  /-- The table that keys are set in. -/
  current : List String

/-- Takes one more line in. -/
def Draft.add (d : Draft) : Line → Option Draft
  | .header path => (openTable path d.root).map fun root => { root, current := path }
  | .arrayHeader path => (openArrayTable path d.root).map fun root => { root, current := path }
  | .entry path value =>
    (within false (setKey path value) d.current .header d.root).map fun root => { d with root }

/-- The entries of a document of some lines. -/
def ofLines (lines : List Line) : Option Entries :=
  (lines.foldlM Draft.add { root := [], current := [] }).map (·.root)

end RoleAudit.Toml
