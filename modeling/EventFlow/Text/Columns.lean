import EventFlow.Text.Parts

/-!
# Columns

Rows of two texts, of which the second ones start below each other.
-/

set_option autoImplicit false

namespace EventFlow.Text

/-- A text of spaces. -/
def spaces (width : Nat) : String := String.ofList (List.replicate width ' ')

/-- A text with spaces behind it, up to a width. -/
def filled (width : Nat) (text : String) : String := text ++ spaces (width - text.length)

/-- The length of the longest text. -/
def widest (texts : List String) : Nat := texts.foldl (fun width text => max width text.length) 0

/-- A text whose further lines start behind a margin. -/
def hanging (margin : Nat) (text : String) : String :=
  String.intercalate ("\n" ++ spaces margin) ((parts '\n' text.toList).map String.ofList)

/-- Rows of two columns, with two spaces in front of each column. -/
def columns (rows : List (String × String)) : List String :=
  let width := widest (rows.map (·.1))
  rows.map fun (first, second) => "  " ++ filled width first ++ "  " ++ hanging (width + 4) second

end EventFlow.Text
