import EventFlow.Store.Basic
import EventFlow.Text.Blank

/-!
# Definitions in a store

The same five operations on every table of definitions. A record is kept under its own
identifier: `create` generates one where it is blank, `replace` overrides it, and none of them
touches another record.
-/

set_option autoImplicit false

namespace EventFlow.Store

variable {α : Type} [Definition α]

open Definition

/-- The record under an identifier. -/
def find? (s : Store) (id : String) : Option α := Assoc.find? id (table s.collections)

/-- The collections with a record under its identifier. -/
def put (record : α) (c : Collections) : Collections :=
  setTable (Assoc.insert (id record) record (table c)) c

/-- The collections without the record under an identifier. -/
def without (α : Type) [Definition α] (key : String) (c : Collections) : Collections :=
  setTable (Assoc.erase key (table (α := α) c)) c

/-- The record under its own identifier, or under a fresh one where that is blank. -/
def identified (record : α) (supply : Supply) : α × Supply :=
  if Text.isBlankText (id record) then
    let (fresh, supply) := supply.recordId (idWord α)
    (withId fresh record, supply)
  else (record, supply)

/-- The change that adds a record whose identifier is free. -/
def creation (record : α) : Change α := fun c =>
  match Assoc.find? (id record) (table (α := α) c) with
  | some _ => (.error (.duplicate (collection α) (id record)), c)
  | none => (.ok record, put record c)

/-- Adds a record. -/
def create (s : Store) (record : α) (supply : Supply) : Except StoreError α × Store × Supply :=
  let (record, supply) := identified record supply
  let (answer, s) := s.commit (creation record)
  (answer, s, supply)

/-- The record under an identifier, or the error that there is none. -/
def get (α : Type) [Definition α] (s : Store) (key : String) : Except StoreError α :=
  match s.find? key with
  | some record => .ok record
  | none => .error (.notFound (collection α) key)

/-- Every record, in order of the identifiers. -/
def list (α : Type) [Definition α] (s : Store) : List α := (table s.collections).map (·.2)

/-- The change that edits the record under an identifier, which it keeps. -/
def modification (key : String) (edit : α → α) : Change α := fun c =>
  match Assoc.find? key (table (α := α) c) with
  | some record =>
    let edited := withId key (edit record)
    (.ok edited, setTable (Assoc.insert key edited (table c)) c)
  | none => (.error (.notFound (collection α) key), c)

/-- Edits the record under an identifier. -/
def modify (s : Store) (key : String) (edit : α → α) : Except StoreError α × Store :=
  s.commit (modification key edit)

/-- Puts a record in the place of the one under an identifier. -/
def replace (s : Store) (key : String) (record : α) : Except StoreError α × Store :=
  s.modify key fun _ => record

/-- The change that removes the record under an identifier. -/
def deletion (α : Type) [Definition α] (key : String) : Change α := fun c =>
  match Assoc.find? key (table (α := α) c) with
  | some record => (.ok record, without α key c)
  | none => (.error (.notFound (collection α) key), c)

/-- Removes the record under an identifier; what refers to it stays. -/
def delete (α : Type) [Definition α] (s : Store) (key : String) : Except StoreError α × Store :=
  s.commit (deletion α key)

end EventFlow.Store
