import EventFlow.Json.Document

/-!
# Tables in TOML

A document is a tree of tables. A table comes from its own header, from the header of a table
inside it, or from a dotted key, and it may be defined once: a header completes a table that was
only implied, and a dotted key extends only a table that dotted keys made. Headers in double
brackets append a table to a list, and a path through a list leads into its last table.
-/

set_option autoImplicit false

namespace EventFlow.Toml

/-- Where a table comes from. -/
inductive Origin where
  | header
  | implied
  | dotted
deriving DecidableEq

/-- A node of a document. -/
inductive Node where
  | value (d : Document)
  | table (origin : Origin) (entries : List (String × Node))
  /-- Tables appended one after the other; the last is kept apart. -/
  | tables (earlier : List Document) (entries : List (String × Node))

/-- The entries of a table. -/
abbrev Entries := List (String × Node)

namespace Entries

/-- The node under a key. -/
def find? (key : String) (entries : Entries) : Option Node :=
  (List.find? (·.1 == key) entries).map (·.2)

/-- The entries with a node under a key. -/
def put (key : String) (node : Node) (entries : Entries) : Entries :=
  if entries.any (·.1 == key) then
    entries.map fun entry => if entry.1 == key then (key, node) else entry
  else entries ++ [(key, node)]

end Entries

mutual

/-- A node as a document. -/
def Node.document : Node → Document
  | .value d => d
  | .table _ entries => .object (membersOf entries)
  | .tables earlier entries => .array (earlier ++ [.object (membersOf entries)])

/-- The entries of a table as members. -/
def membersOf : List (String × Node) → List (String × Document)
  | [] => []
  | (key, node) :: rest => (key, node.document) :: membersOf rest

end

namespace Entries

/-- The entries with a change made to the table at the end of a path of headers. -/
def within (change : Entries → Option Entries) : List String → Entries → Option Entries
  | [], entries => change entries
  | key :: rest, entries =>
    match entries.find? key with
    | none => (within change rest []).map fun inner => entries.put key (.table .implied inner)
    | some (.value _) => none
    | some (.table origin inner) =>
      (within change rest inner).map fun inner => entries.put key (.table origin inner)
    | some (.tables earlier inner) =>
      (within change rest inner).map fun inner => entries.put key (.tables earlier inner)

/-- The entries with a table defined by its header. -/
def define (key : String) (entries : Entries) : Option Entries :=
  match entries.find? key with
  | none => some (entries.put key (.table .header []))
  | some (.table .implied inner) => some (entries.put key (.table .header inner))
  | some _ => none

/-- The entries with a table appended to a list. -/
def append (key : String) (entries : Entries) : Option Entries :=
  match entries.find? key with
  | none => some (entries.put key (.tables [] []))
  | some (.tables earlier inner) =>
    some (entries.put key (.tables (earlier ++ [.object (membersOf inner)]) []))
  | some _ => none

/-- The entries with a value under a new key. -/
def assign (key : String) (d : Document) (entries : Entries) : Option Entries :=
  match entries.find? key with
  | none => some (entries.put key (.value d))
  | some _ => none

/-- The entries with a value under a dotted key, the last part of which is given apart. The flag
says that the table was made by dotted keys. -/
def assignDotted (last : String) (d : Document) : Bool → List String → Entries → Option Entries
  | dotted, [], entries => if dotted then assign last d entries else none
  | _, key :: rest, entries =>
    match entries.find? key with
    | none =>
      (assignDotted last d true rest []).map fun inner => entries.put key (.table .dotted inner)
    | some (.table .dotted inner) =>
      (assignDotted last d true rest inner).map fun inner =>
        entries.put key (.table .dotted inner)
    | some (.table .implied inner) =>
      (assignDotted last d false rest inner).map fun inner =>
        entries.put key (.table .implied inner)
    | some (.tables earlier inner) =>
      (assignDotted last d false rest inner).map fun inner =>
        entries.put key (.tables earlier inner)
    | some _ => none

/-- The entries with a value under a key, which may be dotted. -/
def assignPath (path : List String) (d : Document) (entries : Entries) : Option Entries :=
  match path.reverse with
  | [] => none
  | [key] => assign key d entries
  | last :: before => assignDotted last d false before.reverse entries

end Entries

end EventFlow.Toml
