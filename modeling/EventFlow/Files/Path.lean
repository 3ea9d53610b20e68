import EventFlow.Text.Parts

/-!
# The text of paths

A path below a directory, the directory that a path is in, and the path beside it that has another
extension, all as they are shown.
-/

set_option autoImplicit false

namespace EventFlow.FilePaths

/-- The path of something below a directory. -/
def below (directory path : String) : String :=
  if directory.isEmpty then path
  else if directory.endsWith "/" then directory ++ path
  else directory ++ "/" ++ path

/-- Whether a path stays below the directory it starts from: it is not empty, does not start at
the root, and never leads up. -/
def staysBelow (path : String) : Bool :=
  match path.toList with
  | [] => false
  | '/' :: _ => false
  | s => !(Text.parts '/' s).contains ['.', '.']

/-- Segments, the last one first, without those at the end of the path that lead nowhere. A single
dot at the start of a relative path is kept. -/
def dropIdle (relative : Bool) : List (List Char) → List (List Char)
  | [] => []
  | [segment] =>
    if segment.isEmpty || (segment == ['.'] && !relative) then [] else [segment]
  | segment :: rest =>
    if segment.isEmpty || segment == ['.'] then dropIdle relative rest else segment :: rest

/-- The directory that a path is in. The root and the empty path are in none. -/
def parent? (path : String) : Option String :=
  let (relative, body) := match path.toList with
    | '/' :: rest => (false, rest)
    | s => (true, s)
  match dropIdle relative (Text.parts '/' body).reverse with
  | [] => none
  | _ :: rest =>
    let kept := Text.joined '/' (dropIdle relative rest).reverse
    some (String.ofList (if relative then kept else '/' :: kept))

/-- A name up to its last dot, unless it starts there. -/
def stem (name : List Char) : List Char :=
  match name.reverse.dropWhile (· != '.') with
  | '.' :: c :: rest => (c :: rest).reverse
  | _ => name

/-- A path whose name has an extension in place of its own, if the path ends with a name. -/
def withExtension (extension path : String) : String :=
  let (start, body) := match path.toList with
    | '/' :: rest => (['/'], rest)
    | s => ([], s)
  match dropIdle start.isEmpty (Text.parts '/' body).reverse with
  | [] => path
  | name :: rest =>
    if name == ['.'] || name == ['.', '.'] then path
    else
      let name := stem name ++ '.' :: extension.toList
      String.ofList (start ++ Text.joined '/' (name :: rest).reverse)

end EventFlow.FilePaths
