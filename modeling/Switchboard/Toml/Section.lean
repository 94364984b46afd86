import Switchboard.Toml.Value

/-!
# Sections of a TOML Document

A document is a row of statements: headers, which open a section, and
assignments, which belong to the section opened last. The table they define is
grown statement by statement.

Every table remembers where it comes from, because what may be added to it
depends on that. A table that a header names is closed for assignments from
elsewhere. A table that only lies on the way to a header may get a header of
its own later. A table made by a dotted key takes further dotted keys of the
same section, but no header.

## Main definitions

* `Toml.Statement`: A header or an assignment.
* `Toml.Origin`, `Toml.Node`: Where a table comes from, and a table that is being grown.
* `Toml.assign`: An assignment in a table.
* `Toml.alter`: A change to the table at the end of a path.
* `Toml.ofStatements?`: The table that a document defines.
* `Toml.inline?`: The table that an inline table defines.

## Theorems

* `Toml.replace_keys`: Replacing a member keeps the keys.
-/

namespace Switchboard

namespace Toml

/-- A statement of a document. The last key of a path is split off from the others. -/
inductive Statement where
  /-- The header of a table. -/
  | header (path : List String) (key : String)
  /-- The header of the next table in an array of tables. -/
  | element (path : List String) (key : String)
  | assign (path : List String) (key : String) (value : Toml)

/-- Where a table comes from. -/
inductive Origin where
  | header
  /-- It lies on the way to the table of a header. -/
  | implied
  | dotted
  deriving DecidableEq

/-- A member of a table that is being grown. -/
inductive Node where
  | value (v : Toml)
  | table (origin : Origin) (members : List (String × Node))
  /-- An array of tables, the last of which can still grow. -/
  | tables (earlier : List (List (String × Node))) (last : List (String × Node))

/-- The members with another value for a key that is present. -/
def replace {α : Type} (key : String) (value : α) (members : List (String × α)) :
    List (String × α) :=
  members.map fun m => if m.1 = key then (key, value) else m

theorem replace_keys {α : Type} (key : String) (value : α) (members : List (String × α)) :
    (replace key value members).map (·.1) = members.map (·.1) := by
  simp only [replace, List.map_map]
  apply List.map_congr_left
  intro m _
  by_cases h : m.1 = key <;> simp [h]

/-- Assign a value to the key at the end of a dotted path. -/
def assign (key : String) (v : Toml) :
    (path : List String) → List (String × Node) → Option (List (String × Node))
  | [], members =>
    match members.lookup key with
    | none => some (members ++ [(key, .value v)])
    | some _ => none
  | k :: path, members =>
    match members.lookup k with
    | none => (assign key v path []).map fun inner => members ++ [(k, .table .dotted inner)]
    | some (.table origin inner) =>
      -- The table that gets the key itself has to be one of dotted keys.
      if origin = .header || (path.isEmpty && origin != .dotted) then none
      else (assign key v path inner).map fun inner => replace k (.table origin inner) members
    | some (.tables earlier last) =>
      if path.isEmpty then none
      else (assign key v path last).map fun last => replace k (.tables earlier last) members
    | some (.value _) => none

/-- Change the table at the end of a path of headers. -/
def alter (f : List (String × Node) → Option (List (String × Node))) :
    (path : List String) → List (String × Node) → Option (List (String × Node))
  | [], members => f members
  | k :: path, members =>
    match members.lookup k with
    | none => (alter f path []).map fun inner => members ++ [(k, .table .implied inner)]
    | some (.table origin inner) =>
      (alter f path inner).map fun inner => replace k (.table origin inner) members
    | some (.tables earlier last) =>
      (alter f path last).map fun last => replace k (.tables earlier last) members
    | some (.value _) => none

/-- Open the table of a header. -/
def openTable (key : String) (members : List (String × Node)) : Option (List (String × Node)) :=
  match members.lookup key with
  | none => some (members ++ [(key, .table .header [])])
  | some (.table .implied inner) => some (replace key (.table .header inner) members)
  | some _ => none

/-- Open the next table in an array of tables. -/
def openElement (key : String) (members : List (String × Node)) : Option (List (String × Node)) :=
  match members.lookup key with
  | none => some (members ++ [(key, .tables [] [])])
  | some (.tables earlier last) => some (replace key (.tables (earlier ++ [last]) []) members)
  | some _ => none

/-- A table that is being grown, and the path of the section that is open. -/
structure Draft where
  members : List (String × Node)
  path : List String

/-- Carry out a statement. -/
def Draft.add (d : Draft) : Statement → Option Draft
  | .header path key =>
    (alter (openTable key) path d.members).map fun ms => ⟨ms, path ++ [key]⟩
  | .element path key =>
    (alter (openElement key) path d.members).map fun ms => ⟨ms, path ++ [key]⟩
  | .assign path key v =>
    (alter (assign key v path) d.path d.members).map fun ms => { d with members := ms }

mutual

/-- The value of a member. -/
def Node.toml : Node → Toml
  | .value v => v
  | .table _ members => .table (memberValues members)
  | .tables earlier last => .list (tableValues earlier ++ [.table (memberValues last)])

/-- The values of members. -/
def memberValues : List (String × Node) → List (String × Toml)
  | [] => []
  | (key, node) :: rest => (key, node.toml) :: memberValues rest

/-- The values of tables. -/
def tableValues : List (List (String × Node)) → List Toml
  | [] => []
  | members :: rest => .table (memberValues members) :: tableValues rest

end

/-- The table that the statements of a document define. -/
def ofStatements? (statements : List Statement) : Option (List (String × Toml)) :=
  (statements.foldlM Draft.add ⟨[], []⟩).map fun d => memberValues d.members

/-- The table that the assignments of an inline table define. -/
def inline? (assignments : List (List String × String × Toml)) : Option Toml :=
  (assignments.foldlM (fun members (path, key, v) => assign key v path members) []).map
    fun members => .table (memberValues members)

end Toml

end Switchboard
