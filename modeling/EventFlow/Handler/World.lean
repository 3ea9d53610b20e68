import EventFlow.Handler.Outbox
import EventFlow.Store.Disk

/-!
# The world of the handlers

What handlers change: the outbox, the files, and the calls that scripted handlers keep.
-/

set_option autoImplicit false

namespace EventFlow

/-- What handlers change. -/
structure World where
  outbox : List Message
  files : FileTree
  /-- For each scripted handler the calls it has had. -/
  calls : List (List Invocation)

namespace World

/-- A world in which nothing has happened, over some files. -/
def start (files : FileTree) : World := ⟨[], files, []⟩

/-- The disk of a store whose snapshot is at a path of the files. -/
def disk (path : String) : Disk World :=
  ⟨fun w => (Disk.tree path).outcome w.files,
    fun text w => { w with files := (Disk.tree path).after text w.files }⟩

/-- The messages that wait, and the world without them. -/
def drain (w : World) : List Message × World := (w.outbox, { w with outbox := [] })

end World

/-- A call that takes no time. -/
def Call.atOnce {σ : Type} (world : σ) (supply : Supply) (reply : Except HandlerFailure Json) :
    Call σ := ⟨world, supply, 0, reply⟩

end EventFlow
