import EventFlow.Proofs.Template.Occurrences

/-!
# Interpolated values

`interpolateValue` reaches the strings in a value and nothing else. What is left of a value with its
strings blanked is its `outline`, and `strings` lists them in the order in which they stand; the two
together make up the value. The first stays and each of the second is interpolated, so a path leads
to the interpolation of what it led to before (`lookup_interpolateValue`).
`Template.interpolateValue` is in `EventFlow.Template.Interpolate`, beside
`Template.interpolateAction`.
-/

set_option autoImplicit false

namespace EventFlow

namespace Json

mutual

/-- A value with every string in it blanked; the keys of objects stay. -/
def outline : Json → Json
  | .string _ => .string ""
  | .array items => .array (outlineItems items)
  | .object members => .object (outlineMembers members)
  | other => other

/-- Values with every string in them blanked. -/
def outlineItems : List Json → List Json
  | [] => []
  | v :: rest => outline v :: outlineItems rest

/-- Members with every string in their values blanked. -/
def outlineMembers : List (String × Json) → List (String × Json)
  | [] => []
  | (k, v) :: rest => (k, outline v) :: outlineMembers rest

end

mutual

/-- The strings in a value, in the order in which they stand; a key is none of them. -/
def strings : Json → List String
  | .string s => [s]
  | .array items => stringsOfItems items
  | .object members => stringsOfMembers members
  | _ => []

/-- The strings in values. -/
def stringsOfItems : List Json → List String
  | [] => []
  | v :: rest => strings v ++ stringsOfItems rest

/-- The strings in the values of members. -/
def stringsOfMembers : List (String × Json) → List String
  | [] => []
  | (_, v) :: rest => strings v ++ stringsOfMembers rest

end

end Json

/-- The strings of an action that placeholders may stand in. -/
def Action.strings (a : Action) : List String :=
  a.template :: (a.recipients.flatMap Json.strings ++ a.config.strings)

namespace Template

variable (data : Json)

/-! ## What stays, and what becomes of the strings -/

mutual

theorem outline_interpolateValue : ∀ v, (interpolateValue data v).outline = v.outline
  | .string _ => rfl
  | .array items => congrArg Json.array (outline_interpolateItems items)
  | .object members => congrArg Json.object (outline_interpolateMembers members)
  | .null => rfl
  | .bool _ => rfl
  | .number _ => rfl

theorem outline_interpolateItems :
    ∀ items, Json.outlineItems (interpolateItems data items) = Json.outlineItems items
  | [] => rfl
  | v :: rest => by
    rw [interpolateItems, Json.outlineItems, Json.outlineItems, outline_interpolateValue v,
      outline_interpolateItems rest]

theorem outline_interpolateMembers :
    ∀ members, Json.outlineMembers (interpolateMembers data members) = Json.outlineMembers members
  | [] => rfl
  | (k, v) :: rest => by
    rw [interpolateMembers, Json.outlineMembers, Json.outlineMembers, outline_interpolateValue v,
      outline_interpolateMembers rest]

end

mutual

theorem strings_interpolateValue :
    ∀ v, (interpolateValue data v).strings = v.strings.map fun s => interpolate s data
  | .string _ => rfl
  | .array items => strings_interpolateItems items
  | .object members => strings_interpolateMembers members
  | .null => rfl
  | .bool _ => rfl
  | .number _ => rfl

theorem strings_interpolateItems :
    ∀ items, Json.stringsOfItems (interpolateItems data items) =
      (Json.stringsOfItems items).map fun s => interpolate s data
  | [] => rfl
  | v :: rest => by
    rw [interpolateItems, Json.stringsOfItems, Json.stringsOfItems, List.map_append,
      strings_interpolateValue v, strings_interpolateItems rest]

theorem strings_interpolateMembers :
    ∀ members, Json.stringsOfMembers (interpolateMembers data members) =
      (Json.stringsOfMembers members).map fun s => interpolate s data
  | [] => rfl
  | (k, v) :: rest => by
    rw [interpolateMembers, Json.stringsOfMembers, Json.stringsOfMembers, List.map_append,
      strings_interpolateValue v, strings_interpolateMembers rest]

end

mutual

theorem interpolateValue_eq_self :
    ∀ v : Json, (∀ s ∈ v.strings, Unmoved data s) → interpolateValue data v = v
  | .string s, h => congrArg Json.string (h s List.mem_cons_self).interpolate_eq
  | .array items, h => congrArg Json.array (interpolateItems_eq_self items h)
  | .object members, h => congrArg Json.object (interpolateMembers_eq_self members h)
  | .null, _ => rfl
  | .bool _, _ => rfl
  | .number _, _ => rfl

theorem interpolateItems_eq_self :
    ∀ items, (∀ s ∈ Json.stringsOfItems items, Unmoved data s) →
      interpolateItems data items = items
  | [], _ => rfl
  | v :: rest, h => by
    obtain ⟨first, others⟩ := List.forall_mem_append.1 h
    rw [interpolateItems, interpolateValue_eq_self v first, interpolateItems_eq_self rest others]

theorem interpolateMembers_eq_self :
    ∀ members, (∀ s ∈ Json.stringsOfMembers members, Unmoved data s) →
      interpolateMembers data members = members
  | [], _ => rfl
  | (k, v) :: rest, h => by
    obtain ⟨first, others⟩ := List.forall_mem_append.1 h
    rw [interpolateMembers, interpolateValue_eq_self v first,
      interpolateMembers_eq_self rest others]

end

/-! ## Where a path leads -/

theorem interpolateItems_eq_map (items : List Json) :
    interpolateItems data items = items.map (interpolateValue data) := by
  induction items with
  | nil => rfl
  | cons v rest ih => rw [interpolateItems, List.map_cons, ih]

theorem find?_interpolateMembers (key : String) (members : List (String × Json)) :
    Assoc.find? key (interpolateMembers data members) =
      (Assoc.find? key members).map (interpolateValue data) := by
  induction members with
  | nil => rfl
  | cons member rest ih =>
    obtain ⟨k, v⟩ := member
    rw [interpolateMembers, Assoc.find?, Assoc.find?]
    split
    · rfl
    · exact ih

theorem get?_interpolateValue (key : String) (v : Json) :
    (interpolateValue data v).get? key = (v.get? key).map (interpolateValue data) := by
  cases v with
  | object members => exact find?_interpolateMembers data key members
  | _ => rfl

/-- A value is a text after interpolation if it was one before. -/
theorem interpolateValue_eq_string_iff {data v : Json} {s : String} :
    interpolateValue data v = .string s ↔ ∃ text, v = .string text ∧ s = interpolate text data := by
  cases v <;> simp [interpolateValue, eq_comm]

/-- A key leads to the interpolation of what it led to. -/
theorem child_interpolateValue (v : Json) (key : List Char) :
    Path.child (interpolateValue data v) key =
      (Path.child v key).map (interpolateValue data) := by
  cases v with
  | null => rfl
  | bool b => rfl
  | number n => rfl
  | string s => rfl
  | array items =>
    rw [interpolateValue, Path.child, Path.child, interpolateItems_eq_map, Option.map_bind]
    congr 1
    funext i
    exact List.getElem?_map
  | object members =>
    rw [interpolateValue, Path.child, Path.child]
    exact find?_interpolateMembers data _ members

/-- Keys, one after the other, lead to the interpolation of what they lead to before. -/
theorem follow_interpolateValue (v : Json) (keys : List (List Char)) :
    Path.follow (interpolateValue data v) keys =
      (Path.follow v keys).map (interpolateValue data) := by
  induction keys generalizing v with
  | nil => rfl
  | cons key rest ih =>
    rw [Path.follow, Path.follow, child_interpolateValue]
    cases Path.child v key with
    | none => rfl
    | some w => exact ih w

theorem lookup_interpolateValue (v : Json) (path : String) :
    (interpolateValue data v).lookup path = (v.lookup path).map (interpolateValue data) :=
  follow_interpolateValue data v _

theorem interpolateAction_eq_self {a : Action} (h : ∀ s ∈ a.strings, Unmoved data s) :
    interpolateAction data a = a := by
  obtain ⟨template, others⟩ := List.forall_mem_cons.1 h
  obtain ⟨recipients, config⟩ := List.forall_mem_append.1 others
  have each : a.recipients.map (interpolateValue data) = a.recipients.map id := by
    apply List.map_congr_left
    intro v among
    exact interpolateValue_eq_self data v fun s inside =>
      recipients s (List.mem_flatMap.2 ⟨v, among, inside⟩)
  rw [interpolateAction, template.interpolate_eq, each, List.map_id,
    interpolateValue_eq_self data a.config config]

/-- A path leads in an interpolated value to the interpolation of what it leads to in the value,
and nowhere where it leads nowhere. Only the strings of a value change, each into what it is
interpolated to, and of an action only those of its template, its recipients and its settings. An
action stays as it is if no placeholder in its strings has a value. -/
theorem interpolateValue_keeps_shape :
    (∀ (v : Json) (path : String), (interpolateValue data v).lookup path =
      (v.lookup path).map (interpolateValue data)) ∧
    (∀ v : Json, (interpolateValue data v).outline = v.outline ∧
      (interpolateValue data v).strings = v.strings.map fun s => interpolate s data) ∧
    (∀ a : Action,
      { interpolateAction data a with
        template := a.template, recipients := a.recipients, config := a.config } = a ∧
      (interpolateAction data a).template = interpolate a.template data ∧
      (interpolateAction data a).recipients = a.recipients.map (interpolateValue data) ∧
      (interpolateAction data a).config = interpolateValue data a.config ∧
      ((∀ s ∈ a.strings, Unmoved data s) → interpolateAction data a = a)) :=
  ⟨lookup_interpolateValue data,
    fun v => ⟨outline_interpolateValue data v, strings_interpolateValue data v⟩,
    fun _ => ⟨rfl, rfl, rfl, rfl, interpolateAction_eq_self data⟩⟩

end Template

end EventFlow
