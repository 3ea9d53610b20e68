import EventFlow.Proofs.Json.Canonical
import EventFlow.Proofs.Text.Digits
import EventFlow.Template.Path

/-!
# Paths reach every part of a value

A part of a value is reached by choosing members and items, one inside the other (`Json.PartAt`). A
path with a dot in it is two paths, followed one after the other (`Json.lookup_append`). So the
names of what is chosen, with dots between them, are the path to the part
(`Json.lookup_reaches_parts`), as long as no name has a dot of its own. A path is followed by
`Json.lookup`, in `EventFlow.Template.Path`.
-/

set_option autoImplicit false

namespace EventFlow

theorem Path.follow_append (v : Json) (keys more : List (List Char)) :
    Path.follow v (keys ++ more) = (Path.follow v keys).bind (Path.follow · more) := by
  induction keys generalizing v with
  | nil => rfl
  | cons key rest ih =>
    simp only [List.cons_append, Path.follow]
    cases Path.child v key with
    | none => rfl
    | some w => exact ih w

namespace Json

/-- The choice of a member of an object or of an item of an array. -/
inductive Choice where
  | member (key : String)
  | item (index : Nat)

namespace Choice

/-- A choice as a path tells it: a key as it is, an index in decimal digits. -/
def text : Choice → String
  | member key => key
  | item index => toString index

/-- The key that is chosen, if it is one, has no dot. -/
def Dotless : Choice → Prop
  | member key => '.' ∉ key.toList
  | item _ => True

/-- `c.Leads v w`: the choice leads from a value to a part right inside. -/
inductive Leads : Choice → Json → Json → Prop where
  | member {key : String} {w : Json} {members : List (String × Json)}
      (among : (key, w) ∈ members) : Leads (.member key) (.object members) w
  | item {index : Nat} {w : Json} {items : List Json} (there : items[index]? = some w) :
      Leads (.item index) (.array items) w

end Choice

/-- `PartAt v choices w`: choices, one inside the other, lead from `v` to its part `w`. -/
inductive PartAt : Json → List Choice → Json → Prop where
  | whole (v : Json) : PartAt v [] v
  | inside {v w u : Json} {c : Choice} {rest : List Choice} (first : c.Leads v w)
      (further : PartAt w rest u) : PartAt v (c :: rest) u

/-- The path that choices are told by. -/
def Choice.path (choices : List Choice) : String := ".".intercalate (choices.map text)

variable {v w u : Json} {c : Choice} {choices : List Choice}

/-! ## Paths one after the other -/

theorem lookup_append (v : Json) (p q : String) :
    v.lookup (p ++ "." ++ q) = (v.lookup p).bind (·.lookup q) := by
  have cut : Path.keys (p ++ "." ++ q).toList = Path.keys p.toList ++ Path.keys q.toList := by
    rw [String.toList_append, String.toList_append, List.append_assoc]
    exact Text.parts_append_separator '.' p.toList q.toList
  rw [lookup, cut, Path.follow_append]
  rfl

/-! ## One choice -/

theorem lookup_of_dotless {key : String} (dotless : '.' ∉ key.toList) :
    v.lookup key = Path.child v key.toList := by
  rw [lookup, Path.keys, Text.parts_eq_singleton dotless, Path.follow]
  cases Path.child v key.toList <;> rfl

theorem Choice.dotless_text (h : c.Dotless) : '.' ∉ c.text.toList := by
  cases c with
  | member key => exact h
  | item index =>
    intro dot
    have digit := Text.isDigit_of_mem_toDigits index '.' (Nat.toList_repr ▸ dot)
    exact absurd digit (by decide)

theorem Choice.Leads.canonical (h : c.Leads v w) (canonical : v.Canonical) : w.Canonical := by
  cases h with
  | member among => exact canonicalMembers_iff.1 canonical.2 _ among
  | item there => exact canonicalItems_iff.1 canonical w (List.mem_of_getElem? there)

/-- The text of a choice is the path to what it leads to. -/
theorem Choice.Leads.lookup_text (h : c.Leads v w) (canonical : v.Canonical) (dotless : c.Dotless) :
    v.lookup c.text = some w := by
  rw [lookup_of_dotless (dotless_text dotless)]
  cases h with
  | @member key w members among =>
    rw [text, Path.child, String.ofList_toList]
    exact Assoc.find?_of_mem canonical.1 among
  | @item index w items there =>
    have digits : (text (.item index)).toList = Nat.toDigits 10 index := Nat.toList_repr
    rw [digits, Path.child, Text.natural?_toDigits]
    exact there

/-! ## Choices one inside the other -/

theorem PartAt.lookup_path (h : PartAt v choices w) (canonical : v.Canonical)
    (some_choice : choices ≠ []) (dotless : ∀ c ∈ choices, c.Dotless) :
    v.lookup (Choice.path choices) = some w := by
  induction h with
  | whole v => exact absurd rfl some_choice
  | @inside v w u c rest first further ih =>
    obtain ⟨here, others⟩ := List.forall_mem_cons.1 dotless
    have found := first.lookup_text canonical here
    cases rest with
    | nil =>
      cases further
      simpa [Choice.path] using found
    | cons next rest =>
      have path : Choice.path (c :: next :: rest) =
          c.text ++ "." ++ Choice.path (next :: rest) := String.intercalate_cons_cons
      rw [path, lookup_append, found]
      exact ih (first.canonical canonical) (List.cons_ne_nil next rest) others

/-- One segment of a path leads to a part right inside. -/
theorem exists_leads_of_child {key : List Char} (found : Path.child v key = some u) :
    ∃ c : Choice, c.Leads v u := by
  unfold Path.child at found
  split at found
  · exact ⟨_, .member (Assoc.mem_of_find? found)⟩
  · obtain ⟨i, -, there⟩ := Option.bind_eq_some_iff.1 found
    exact ⟨_, .item there⟩
  · cases found

/-- What a path leads to is a part of the value. -/
theorem exists_partAt_of_follow {keys : List (List Char)} (found : Path.follow v keys = some w) :
    ∃ choices, choices.length = keys.length ∧ PartAt v choices w := by
  induction keys generalizing v with
  | nil =>
    cases found
    exact ⟨[], rfl, .whole _⟩
  | cons key rest ih =>
    obtain ⟨u, first, further⟩ := Option.bind_eq_some_iff.1 found
    obtain ⟨choices, length, part⟩ := ih further
    obtain ⟨c, leads⟩ := exists_leads_of_child first
    exact ⟨c :: choices, congrArg (· + 1) length, .inside leads part⟩

/-- Of a path made of two, the second leads on from where the first one leads, and nowhere if that
is nowhere. Every part of a value that is inside, under keys without dots, is what the path that
tells its place leads to; and a path leads to nothing else than parts inside. -/
theorem lookup_reaches_parts (v : Json) :
    (∀ p q : String, v.lookup (p ++ "." ++ q) = (v.lookup p).bind (·.lookup q)) ∧
      (v.Canonical → ∀ choices w, PartAt v choices w → choices ≠ [] →
        (∀ c ∈ choices, c.Dotless) → v.lookup (Choice.path choices) = some w) ∧
      ∀ path w, v.lookup path = some w → ∃ choices, choices ≠ [] ∧ PartAt v choices w := by
  refine ⟨lookup_append v, fun canonical choices w part some_choice dotless =>
    part.lookup_path canonical some_choice dotless, ?_⟩
  intro path w found
  obtain ⟨choices, length, part⟩ := exists_partAt_of_follow found
  refine ⟨choices, ?_, part⟩
  rintro rfl
  exact Text.parts_ne_nil '.' path.toList (List.eq_nil_of_length_eq_zero length.symm)

/-- An object with an array in it, and an object without a name in that. -/
def cellar : Json := .object [("", .null), ("racks", .array [.null, .object [("", .object
  [("10", .string "red")])]])]

def bottle : List Choice := [.member "racks", .item 1, .member "", .member "10"]

theorem lookup_reaches_parts_cellar :
    cellar.Canonical ∧ PartAt cellar bottle (.string "red") ∧ bottle ≠ [] ∧
      (∀ c ∈ bottle, c.Dotless) ∧ Choice.path bottle = "racks.1..10" ∧
      cellar.lookup "racks.1..10" = some (.string "red") := by
  have canonical : cellar.Canonical := by
    constructor
    · exact List.pairwise_pair.2 (by decide)
    · simp [CanonicalMembers, Canonical, CanonicalItems, Assoc.Ascending]
  have part : PartAt cellar bottle (.string "red") :=
    .inside (.member (.tail _ (.head _))) (.inside (.item rfl) (.inside (.member (.head _))
      (.inside (.member (.head _)) (.whole _))))
  have dotless : ∀ c ∈ bottle, c.Dotless := by
    simp [bottle, Choice.Dotless]
  have path : Choice.path bottle = "racks.1..10" := by decide
  have found := (lookup_reaches_parts cellar).2.1 canonical bottle _ part (by decide) dotless
  exact ⟨canonical, part, by decide, dotless, path, path ▸ found⟩

end Json

end EventFlow
