import EventFlow.Text.Parts

/-!
# Files and directories

A tree of files is a list of directories and a list of files, each under its names from the
current directory on, or from the root where the first name is a slash. A path is a text of
segments with slashes between them; empty segments and single dots stay where they are, and two
dots lead up. Paths are followed from the left, and everything on the way must be a directory.
-/

set_option autoImplicit false

namespace EventFlow

/-- Why the file system refuses a request. -/
inductive FileError where
  | notFound
  | alreadyExists
  | notADirectory
  | isADirectory
  | nameTooLong
  | nulCharacter
  /-- The end of a path leads to where another path leads. -/
  | busy
deriving DecidableEq

namespace FileError

/-- What the file system says. -/
def message : FileError → String
  | notFound => "No such file or directory (os error 2)"
  | alreadyExists => "File exists (os error 17)"
  | notADirectory => "Not a directory (os error 20)"
  | isADirectory => "Is a directory (os error 21)"
  | nameTooLong => "File name too long (os error 36)"
  | nulCharacter => "file name contained an unexpected NUL byte"
  | busy => "Device or resource busy (os error 16)"

end FileError

/-- The names that lead to a file or a directory. -/
abbrev Names := List (List Char)

/-- Directories, and files with their contents. -/
structure FileTree where
  directories : List Names
  files : List (Names × String)
deriving DecidableEq

namespace FileTree

/-- The tree of an empty current directory. -/
def empty : FileTree := ⟨[], []⟩

/-- The content of a file. -/
def content? (t : FileTree) (names : Names) : Option String :=
  (t.files.find? fun file => file.1 = names).map (·.2)

/-- The names of the root. -/
def root : Names := [['/']]

/-- The names of the directory that a path starts from. -/
def origin (path : String) : Names := if path.startsWith "/" then root else []

/-- The segment that leads up. -/
def dots : List Char := ['.', '.']

/-- The names of the directory above. There are only dots in them above the current directory. -/
def up (here : Names) : Names :=
  if here = root then root
  else if here.all (· == dots) then here ++ [dots]
  else here.dropLast

/-- Whether there is a directory. -/
def isDirectory (t : FileTree) (names : Names) : Bool :=
  names.all (· == dots) || names == root || t.directories.contains names

/-- The tree with a directory. -/
def addDirectory (names : Names) (t : FileTree) : FileTree :=
  { t with directories := t.directories ++ [names] }

/-- The tree with the content of a file. -/
def setContent (names : Names) (content : String) (t : FileTree) : FileTree :=
  { t with files := (t.files.filter fun file => decide (file.1 ≠ names)) ++ [(names, content)] }

/-- Whether a segment of a path stays where it is. -/
def stays (segment : List Char) : Bool := segment.isEmpty || segment == ['.']

/-- The most bytes that a name may have. -/
def longestName : Nat := 255

/-- Where a segment leads to from a directory: into a directory, or up. -/
def enter (t : FileTree) (here : Names) (segment : List Char) : Except FileError Names :=
  if stays segment then .ok here
  else if segment = dots then .ok (up here)
  else if longestName < (String.ofList segment).utf8ByteSize then .error .nameTooLong
  else
    let names := here ++ [segment]
    if t.isDirectory names then .ok names
    else if (t.content? names).isSome then .error .notADirectory
    else .error .notFound

/-- The directory that segments lead to. -/
def walk (t : FileTree) : Names → List (List Char) → Except FileError Names
  | here, [] => .ok here
  | here, segment :: rest =>
    match t.enter here segment with
    | .ok names => t.walk names rest
    | .error e => .error e

/-- The most bytes that a path may have. -/
def longestPath : Nat := 4095

/-- The segments of a path. -/
def segments (path : String) : Except FileError (List (List Char)) :=
  if path.isEmpty then .error .notFound
  else if path.toList.contains '\x00' then .error .nulCharacter
  else if longestPath < path.utf8ByteSize then .error .nameTooLong
  else .ok (Text.parts '/' path.toList)

/-- The tree with all the directories that segments name, as far as they can be made. -/
def makeAll (t : FileTree) : Names → List (List Char) → Option FileError × FileTree
  | _, [] => (none, t)
  | here, segment :: rest =>
    match t.enter here segment with
    | .ok names => t.makeAll names rest
    | .error .notFound =>
      let names := here ++ [segment]
      (t.addDirectory names).makeAll names rest
    | .error .notADirectory =>
      (some (if rest.all stays then .alreadyExists else .notADirectory), t)
    | .error e => (some e, t)

/-- The tree with a directory and all those on the way to it. -/
def makeDirectories (path : String) (t : FileTree) : Option FileError × FileTree :=
  if path.isEmpty then (none, t)
  else match segments path with
    | .ok all => t.makeAll (origin path) all
    | .error e => (some e, t)

/-! ## What is there -/

/-- What a path leads to. -/
inductive Found where
  | directory
  | file (content : String)
deriving DecidableEq

/-- What segments lead to from a directory. -/
def follow (t : FileTree) : Names → List (List Char) → Except FileError Found
  | _, [] => .ok .directory
  | here, segment :: rest =>
    match t.enter here segment with
    | .ok names => t.follow names rest
    | .error e =>
      match rest, t.content? (here ++ [segment]) with
      | [], some content => .ok (.file content)
      | _, _ => .error e

/-- What a path leads to. -/
def find (t : FileTree) (path : String) : Except FileError Found :=
  match segments path with
  | .error e => .error e
  | .ok all => t.follow (origin path) all

/-- The content of the file at a path. -/
def read (t : FileTree) (path : String) : Except FileError String :=
  match t.find path with
  | .error e => .error e
  | .ok .directory => .error .isADirectory
  | .ok (.file content) => .ok content

/-! ## Changes -/

/-- Where a path ends. -/
structure Ending where
  /-- The directory of its last segment. -/
  here : Names
  last : List Char
  /-- Whether slashes follow it. -/
  isClosed : Bool

/-- Whether the last segment of a path gives no name. -/
def Ending.isNameless (e : Ending) : Bool := stays e.last || e.last == dots

/-- Where a path ends, unless it is the root. -/
def ending (t : FileTree) (path : String) : Except FileError (Option Ending) :=
  match segments path with
  | .error e => .error e
  | .ok all =>
    let shown := (all.reverse.dropWhile List.isEmpty).reverse
    match shown.getLast? with
    | none => .ok none
    | some last =>
      (t.walk (origin path) shown.dropLast).map fun here =>
        some ⟨here, last, decide (shown.length < all.length)⟩

/-- The names of what a path ends with, which must not be a directory. -/
def Ending.names (t : FileTree) (e : Ending) : Except FileError Names :=
  if longestName < (String.ofList e.last).utf8ByteSize then .error .nameTooLong
  else
    let names := e.here ++ [e.last]
    if t.isDirectory names then .error .isADirectory else .ok names

/-- The names of the file that a path leads to for writing, whether or not there is one. -/
def target (t : FileTree) (path : String) : Except FileError Names := do
  match ← t.ending path with
  | none => .error .isADirectory
  | some e => if e.isNameless || e.isClosed then .error .isADirectory else e.names t

/-- The tree with the content of the file at a path. -/
def write (path content : String) (t : FileTree) : Except FileError FileTree :=
  (t.target path).map fun names => t.setContent names content

/-- The tree with a text at the end of the file at a path. -/
def append (path text : String) (t : FileTree) : Except FileError FileTree :=
  (t.target path).map fun names => t.setContent names ((t.content? names).getD "" ++ text)

/-- The tree without a file. -/
def remove (names : Names) (t : FileTree) : FileTree :=
  { t with files := t.files.filter fun file => decide (file.1 ≠ names) }

/-- The tree after the file at a path has been moved to another path, where it takes the place of
the file that is there. -/
def move (source destination : String) (t : FileTree) : Except FileError FileTree := do
  let old ← t.target source
  match ← t.ending destination with
  | none => .error .busy
  | some e =>
    if e.isNameless then .error .busy
    else match t.content? old with
      | none => .error .notFound
      | some content =>
        if e.isClosed then .error .notADirectory
        else
          let new ← e.names t
          if new = old then .ok t else .ok ((t.remove old).setContent new content)

/-- The path that names stand for. -/
def pathOf (names : Names) : String :=
  String.ofList (match names with
    | ['/'] :: rest => '/' :: Text.joined '/' rest
    | _ => Text.joined '/' names)

end FileTree

end EventFlow
