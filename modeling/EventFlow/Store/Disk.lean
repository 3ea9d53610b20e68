import EventFlow.Files.Path
import EventFlow.Files.Tree
import EventFlow.Store.Basic

/-!
# Where stores are kept

A snapshot is written to a temporary file beside its own, and then moved there. How that ends is
up to the files as they are at that moment. A disk ties a store to a world that holds its files:
the world decides how the next writes end, and is changed by what was written. What the disk does
to a store concerns the writes to come alone (`collections_facing`).
-/

set_option autoImplicit false

namespace EventFlow

namespace FileTree

/-- The path of the temporary file of a snapshot. -/
def temporaryPath (path : String) : String := FilePaths.withExtension "tmp" path

/-- How writing a snapshot ends, and the tree after it. -/
def place (path text : String) (t : FileTree) : WriteOutcome × FileTree :=
  match t.write (temporaryPath path) text with
  | .error e => (.temporaryFailed e.message, t)
  | .ok t =>
    match t.move (temporaryPath path) path with
    | .error e => (.renameFailed e.message, t)
    | .ok t => (.written, t)

end FileTree

namespace Store

/-- The store when the writes to come will end in one way. -/
def expecting (outcome : WriteOutcome) (s : Store) : Store :=
  { s with backing := s.backing.map fun b => ⟨b.content, none, fun _ => outcome⟩ }

/-- The text that was written last. -/
def draft? (s : Store) : Option String := s.backing.bind Backing.draft

end Store

/-- What a world has to do with the file of a store. -/
structure Disk (σ : Type) where
  /-- How the next writes end, if that is up to the world. -/
  outcome : σ → Option WriteOutcome
  /-- The world after a text was written. -/
  after : String → σ → σ

namespace Disk

variable {σ : Type}

/-- The disk of a store whose file is no part of the world. -/
def apart : Disk σ := ⟨fun _ => none, fun _ world => world⟩

/-- The disk of a store whose snapshot is at a path of a tree. -/
def tree (path : String) : Disk FileTree :=
  ⟨fun t => some (t.place path "").1, fun text t => (t.place path text).2⟩

/-- The store as the world lets it write. -/
def facing (disk : Disk σ) (world : σ) (s : Store) : Store :=
  match disk.outcome world with
  | none => s
  | some outcome => s.expecting outcome

/-- The world after what a store has written. -/
def settled (disk : Disk σ) (s : Store) (world : σ) : σ :=
  match s.draft? with
  | none => world
  | some text => disk.after text world

theorem collections_facing (disk : Disk σ) (world : σ) (s : Store) :
    (disk.facing world s).collections = s.collections := by
  unfold facing
  split <;> rfl

end Disk

end EventFlow
