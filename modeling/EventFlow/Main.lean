import EventFlow.CommandLine.Run
import Std.Time.DateTime.Timestamp

/-!
# The program

The command line over the real file system: what an invocation may read is looked up, the
invocation is carried out over it, and what it has changed is written back. Files that turn up
only in the outcome are looked up as well, and then the invocation is carried out anew.
-/

set_option autoImplicit false

namespace EventFlow.CommandLine

/-- Looks at a path. -/
def look (path : String) : IO (Option FileTree.Found) := do
  try
    return some (.file (← IO.FS.readFile path))
  catch
    | .noFileOrDirectory .. => return none
    | _ => return some .directory

/-- The tree with what is found on the way to a path, and there. -/
def lookAlong (tree : FileTree) (path : String) : IO FileTree := do
  let mut tree := tree
  let mut names := FileTree.origin path
  for segment in Text.parts '/' path.toList do
    if segment = FileTree.dots then names := FileTree.up names
    else if !FileTree.stays segment then
      names := names ++ [segment]
      match ← look (FileTree.pathOf names) with
      | none => return tree
      | some .directory => tree := tree.addDirectory names
      | some (.file content) => tree := tree.setContent names content
  return tree

/-- The paths that an invocation names. -/
def Invocation.paths (i : Invocation) : List String :=
  let named := match i.command with
    | .init source => source.toList
    | .exportText _ _ output => output.toList
    | _ => []
  i.config.toList ++ i.store.toList ++ named

/-- The files of a tree that are not in another, or differ there. -/
def changes (before after : FileTree) : List (Names × String) :=
  after.files.filter fun (names, content) => before.content? names != some content

/-- The files of a tree that are no longer in another. -/
def losses (before after : FileTree) : List Names :=
  (before.files.map (·.1)).filter fun names => (after.content? names).isNone

/-- Carries out an invocation over the tree, which grows until it holds every file that counts. -/
partial def carryOut (i : Invocation) (supply : Supply) (known : List Names) (tree : FileTree) :
    IO (FileTree × Outcome) := do
  let outcome := run i tree supply
  let unknown := ((changes tree outcome.files).map (·.1)).filter (!known.contains ·)
  if unknown.isEmpty then return (tree, outcome)
  let tree ← unknown.foldlM (fun tree names => lookAlong tree (FileTree.pathOf names)) tree
  carryOut i supply (known ++ unknown) tree

/-- Writes a file, with the directories on the way to it. -/
def save (names : Names) (content : String) : IO Unit := do
  let path := FileTree.pathOf names
  if let some directory := FilePaths.parent? path then
    if !directory.isEmpty then IO.FS.createDirAll directory
  IO.FS.writeFile path content

/-- A supply that starts from the clock, with identifiers by chance. -/
def freshSupply : IO Supply := do
  let now := (← Std.Time.Timestamp.now).toNanosecondsSinceUnixEpoch.val
  let nanos := (now % 1000000000).toNat
  let clock : Instant := if h : nanos < 2000000000 then ⟨now / 1000000000, nanos, h⟩ else default
  return ⟨clock, ← IO.rand 0 (1 <<< 122)⟩

/-- Carries out an invocation over the file system, and tells how it ends. -/
def perform (i : Invocation) : IO UInt32 := do
  let start ← i.paths.foldlM lookAlong .empty
  let config := (configuration i start).toOption.getD .default
  let start ← lookAlong start config.storePath
  let start ← lookAlong start (FileTree.temporaryPath config.storePath)
  let (tree, outcome) ← carryOut i (← freshSupply) [] start
  IO.sleep (UInt32.ofNat outcome.elapsed)
  for (names, content) in changes tree outcome.files do save names content
  for names in losses tree outcome.files do IO.FS.removeFile (FileTree.pathOf names)
  IO.print outcome.output
  match outcome.failure with
  | none => return 0
  | some f =>
    IO.eprintln (f.report?.getD f.message)
    return UInt32.ofNat f.exitCode

/-- The variables of the environment that stand in for options. -/
def readEnvironment : IO Environment :=
  ["WORKFLOW_CONFIG", "WORKFLOW_STORE", "WORKFLOW_BIND"].filterMapM fun name =>
    return (← IO.getEnv name).map (name, ·)

/-- Carries out what arguments ask for. -/
def performArguments (arguments : List String) : IO UInt32 := do
  let environment ← readEnvironment
  match parse arguments environment with
  | .ok i => perform i
  | .error (.help subject) =>
    IO.print (helpText subject environment)
    return 0
  | .error .version =>
    IO.print versionText
    return 0
  | .error .usage =>
    IO.eprint (helpText none environment)
    return 2

end EventFlow.CommandLine

/-- The program. -/
def main (arguments : List String) : IO UInt32 :=
  EventFlow.CommandLine.performArguments arguments
