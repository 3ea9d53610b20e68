import EventFlow.Json.Printer
import EventFlow.Json.Reader
import EventFlow.Store.Collections

/-!
# Stores

A store holds the collections in memory; a file-backed one also keeps a snapshot of them. A change
to a file-backed store is made on a copy, written to a temporary file that then takes the place of
the snapshot, and becomes the memory only if both succeed. How each write ends is up to the file
system, so a backing carries the outcomes of the writes to come.
-/

set_option autoImplicit false

namespace EventFlow

/-- Why a store refuses a request. -/
inductive StoreError where
  | notFound (collection id : String)
  | duplicate (collection id : String)
  | notTerminal (id : Uuid)
  | alreadyRecorded (id : Uuid)
  /-- The snapshot could not be written, for the file system's reason. -/
  | snapshotFile (reason : String)
  /-- The snapshot does not hold collections. -/
  | snapshotText
deriving DecidableEq

namespace StoreError

/-- What a caller is told. -/
def message : StoreError → String
  | notFound collection id => s!"{collection} record '{id}' not found"
  | duplicate collection id => s!"{collection} record '{id}' already exists"
  | notTerminal id =>
    let text := id.text
    s!"execution {text} is still running and cannot be recorded"
  | alreadyRecorded id =>
    let text := id.text
    s!"execution {text} is already recorded"
  | snapshotFile reason => s!"snapshot i/o error: {reason}"
  | snapshotText => "snapshot encoding error"

end StoreError

/-- How writing a snapshot ends. -/
inductive WriteOutcome where
  | written
  /-- The temporary file could not be written. -/
  | temporaryFailed (reason : String)
  /-- The temporary file could not take the place of the snapshot. -/
  | renameFailed (reason : String)
deriving DecidableEq

/-- The snapshot file of a store, and how the writes to come will end. -/
structure Backing where
  content : Option String
  /-- The text that was written last, whether or not it took the place of the snapshot. -/
  draft : Option String
  outcomes : Nat → WriteOutcome

/-- What is done to collections: its answer, and the collections as it leaves them, also where it is
refused. -/
abbrev Change (α : Type) := Collections → Except StoreError α × Collections

/-- Collections in memory, and the file that backs them if there is one. -/
structure Store where
  collections : Collections
  backing : Option Backing

namespace Backing

/-- The backing after a text is written, and why it did not take the place of the snapshot if it
did not. -/
def write (text : String) (b : Backing) : Backing × Option String :=
  let later := fun n => b.outcomes (n + 1)
  match b.outcomes 0 with
  | .written => (⟨some text, some text, later⟩, none)
  | .temporaryFailed reason => (⟨b.content, some text, later⟩, some reason)
  | .renameFailed reason => (⟨b.content, some text, later⟩, some reason)

end Backing

namespace Store

/-- An empty store in memory. -/
def inMemory : Store := ⟨.empty, none⟩

/-- The text of the snapshot of collections. -/
def snapshotText (c : Collections) : String := c.document.pretty

/-- The collections that the text of a snapshot holds. -/
def readSnapshot (text : String) : Reading Collections := do
  let d ← Reading.ofOption (Document.read? text)
  Collections.read d

/-- The store on a file, which is empty if the file does not exist. -/
def openFile (b : Backing) (supply : Supply) : Except StoreError (Store × Supply) :=
  match b.content with
  | none => .ok (⟨.empty, some b⟩, supply)
  | some text =>
    match readSnapshot text supply with
    | some (c, supply) => .ok (⟨c, some b⟩, supply)
    | none => .error .snapshotText

/-- The answer of a change, and the store after it. In memory the change is made in place; on a file
it is made on a copy, which becomes the memory only after its snapshot has been written. -/
def commit {α : Type} (s : Store) (change : Change α) : Except StoreError α × Store :=
  match s.backing with
  | none =>
    let (answer, changed) := change s.collections
    (answer, ⟨changed, none⟩)
  | some b =>
    match change s.collections with
    | (.error e, _) => (.error e, s)
    | (.ok answer, copy) =>
      match b.write (snapshotText copy) with
      | (b, none) => (.ok answer, ⟨copy, some b⟩)
      | (b, some reason) => (.error (.snapshotFile reason), ⟨s.collections, some b⟩)

end Store

end EventFlow
