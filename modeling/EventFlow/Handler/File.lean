import EventFlow.Files.Path
import EventFlow.Handler.World

/-!
# File actions

A file action appends its template and a line break to a file below a fixed directory. A path that
could lead out of the directory is refused before any file is touched.
-/

set_option autoImplicit false

namespace EventFlow.FileAction

/-- What a file action is to write. -/
structure Order where
  /-- The path as the action gives it. -/
  relative : String
  /-- The path below the handler's directory. -/
  path : String
  line : String
deriving DecidableEq

/-- What an action asks for, or why it is refused. -/
def order (base : String) (a : Action) : Except HandlerFailure Order :=
  match (a.config.get? "path").bind Json.asString? with
  | none => .error (.invalidInput "file action requires config.path")
  | some relative =>
    if FilePaths.staysBelow relative then
      .ok ⟨relative, FilePaths.below base relative, a.template ++ "\n"⟩
    else
      .error (.invalidInput s!"file path '{relative}' must be relative to the output directory")

/-- Writes the line of an order: the directories on the way are made first. -/
def carryOut (o : Order) (t : FileTree) : Except HandlerFailure Json × FileTree :=
  let directory := (FilePaths.parent? o.path).getD ""
  match t.makeDirectories directory with
  | (some e, t) =>
    let text := e.message
    (.error (.failed s!"cannot create {directory}: {text}"), t)
  | (none, t) =>
    match t.append o.path o.line with
    | .error e =>
      let text := e.message
      let path := o.path
      (.error (.failed s!"cannot open {path}: {text}"), t)
    | .ok t =>
      (.ok (.ofMembers [("success", .bool true), ("action", .string "file"),
        ("path", .string o.relative), ("bytes", .ofNat o.line.utf8ByteSize)]), t)

/-- The handler of file actions below a directory. -/
def handler (base : String) : Handler World := fun call supply world =>
  match order base call.action with
  | .error e => .atOnce world supply (.error e)
  | .ok o =>
    let (reply, files) := carryOut o world.files
    .atOnce { world with files } supply reply

end EventFlow.FileAction
