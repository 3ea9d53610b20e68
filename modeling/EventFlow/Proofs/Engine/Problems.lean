import EventFlow.Engine.Validation
import Mathlib.Data.List.Induction
import Mathlib.Data.Prod.Lex

/-!
# The problems of a plan

Validation goes over the entries of a plan once, with the identifiers it has seen and the order
indices of the steps it has looked at. The problems it is to find are said here without this loop,
each with the `Site` it is at (`Plan.Problem`). The loop finds those of one region of sites, and
then those of the next: of a step, part after part (`Plan.inOrder_stepIssues`), and of the plan,
entry after entry (`Plan.inOrder_entryIssues`). So none is left out, and none comes before one at an
earlier site (`Plan.inOrder_issues`). The loop is `Plan.issues`, in `EventFlow.Engine.Validation`.
-/

set_option autoImplicit false

namespace EventFlow

/-- The greatest of some numbers is one of them. -/
instance lawfulOrderMax_uint32 : Std.LawfulOrderMax UInt32 where
  max_eq_or a b := by
    change (if a ≤ b then b else a) = a ∨ (if a ≤ b then b else a) = b
    split
    · exact .inr rfl
    · exact .inl rfl
  max_le_iff a b c := by
    change (if a ≤ b then b else a) ≤ c ↔ a ≤ c ∧ b ≤ c
    split
    · next le => exact ⟨fun h => ⟨UInt32.le_trans le h, h⟩, And.right⟩
    · next gt => exact ⟨fun h => ⟨h, UInt32.le_trans (UInt32.le_of_lt (UInt32.not_le.1 gt)) h⟩,
        And.left⟩

/-! ## Sites -/

/-- The parts of an entry in the order in which they are looked at: whether it leads to a step that
is not listed before, the step's owner, its order index, whether there is anything to run, and what
it refers to. -/
inductive Part where
  | listing
  | owner
  | order
  | content
  | action (n : Nat)
  | condition (n : Nat)
deriving DecidableEq

/-- The rank of a part among those of an entry, and its number among the references. -/
def Part.place : Part → Nat × Nat
  | listing => (0, 0)
  | owner => (1, 0)
  | order => (2, 0)
  | content => (3, 0)
  | action n => (4, n)
  | condition n => (5, n)

/-- A part of an entry of a plan. -/
structure Site where
  index : Nat
  part : Part
deriving DecidableEq

/-- The place of a site in a plan. -/
def Site.place (x : Site) : Nat ×ₗ (Nat ×ₗ Nat) := toLex (x.index, toLex x.part.place)

/-- What concerns an entry comes before what concerns a later one. -/
theorem Site.place_lt_of_index {x y : Site} (h : x.index < y.index) : x.place < y.place :=
  Prod.Lex.toLex_lt_toLex.2 (.inl h)

/-- Within an entry its parts come in the order of their ranks. -/
theorem Site.place_lt_of_rank {i : Nat} {a b : Part} (h : a.place.1 < b.place.1) :
    Site.place ⟨i, a⟩ < Site.place ⟨i, b⟩ :=
  Prod.Lex.toLex_lt_toLex.2 (.inr ⟨rfl, Prod.Lex.toLex_lt_toLex.2 (.inl h)⟩)

/-- Parts of one rank come in the order of their numbers. -/
theorem Site.place_lt_of_number {i : Nat} {a b : Part} (same : a.place.1 = b.place.1)
    (h : a.place.2 < b.place.2) : Site.place ⟨i, a⟩ < Site.place ⟨i, b⟩ :=
  Prod.Lex.toLex_lt_toLex.2 (.inr ⟨rfl, Prod.Lex.toLex_lt_toLex.2 (.inr ⟨same, h⟩)⟩)

namespace Plan

variable {p : Plan} {registered : Registered}

/-! ## Problems -/

/-- `p.First i entry`: the entry at an index, which no earlier one has the identifier of. -/
structure First (p : Plan) (i : Nat) (entry : PlanEntry) : Prop where
  here : p.entries[i]? = some entry
  new : ∀ j < i, ∀ other, p.entries[j]? = some other → other.stepId ≠ entry.stepId

/-- `p.StepAt i s`: the step at an index, where its identifier is listed first. -/
def StepAt (p : Plan) (i : Nat) (s : Step) : Prop :=
  ∃ entry, p.First i entry ∧ entry.step = some s

/-- `p.Problem registered site issue`: there is a problem at a site of a plan. -/
inductive Problem (p : Plan) (registered : Registered) : Site → Issue → Prop
  | repeatedStep {i j : Nat} {entry other : PlanEntry} (here : p.entries[i]? = some entry)
      (before : j < i) (there : p.entries[j]? = some other) (same : other.stepId = entry.stepId) :
      Problem p registered ⟨i, .listing⟩ (.repeatedStep entry.stepId)
  | missingStep {i : Nat} {entry : PlanEntry} (first : p.First i entry)
      (nowhere : entry.step = none) :
      Problem p registered ⟨i, .listing⟩ (.missingStep entry.stepId)
  | foreignStep {i : Nat} {s : Step} (here : p.StepAt i s)
      (other : s.workflowId ≠ p.workflow.id) :
      Problem p registered ⟨i, .owner⟩ (.foreignStep s.id s.workflowId)
  | duplicateOrder {i j : Nat} {s other : Step} (here : p.StepAt i s) (before : j < i)
      (there : p.StepAt j other) (same : other.order = s.order) :
      Problem p registered ⟨i, .order⟩ (.duplicateOrder s.id s.order)
  | orderNotAscending {i j : Nat} {s other : Step} (here : p.StepAt i s)
      (new : ∀ k < i, ∀ s', p.StepAt k s' → s'.order ≠ s.order) (before : j < i)
      (there : p.StepAt j other) (greatest : ∀ k < i, ∀ s', p.StepAt k s' → s'.order ≤ other.order)
      (below : s.order < other.order) :
      Problem p registered ⟨i, .order⟩ (.orderNotAscending s.id s.order other.order)
  | emptyActions {i : Nat} {s : Step} (here : p.StepAt i s)
      (kind : s.kind = .action ∨ s.kind = .parallel) (none : s.actionIds = []) :
      Problem p registered ⟨i, .content⟩ (.emptyStep s.id s.kind)
  | emptyConditions {i : Nat} {s : Step} (here : p.StepAt i s) (kind : s.kind = .condition)
      (none : s.conditionIds = []) :
      Problem p registered ⟨i, .content⟩ (.emptyStep s.id s.kind)
  | missingAction {i n : Nat} {s : Step} {id : String} (here : p.StepAt i s)
      (refers : s.actionIds[n]? = some id) (nowhere : p.action? id = none) :
      Problem p registered ⟨i, .action n⟩ (.missingAction s.id id)
  | unknownActionType {i n : Nat} {s : Step} {id : String} {a : Action} {known : String → Bool}
      (here : p.StepAt i s) (refers : s.actionIds[n]? = some id) (found : p.action? id = some a)
      (given : registered.actionType = some known) (unknown : known a.actionType = false) :
      Problem p registered ⟨i, .action n⟩ (.unknownActionType a.id a.actionType)
  | missingCondition {i n : Nat} {s : Step} {id : String} (here : p.StepAt i s)
      (refers : s.conditionIds[n]? = some id) (nowhere : p.condition? id = none) :
      Problem p registered ⟨i, .condition n⟩ (.missingCondition s.id id)
  | malformedExpression {i n : Nat} {s : Step} {id : String} {c : Condition} {source : String}
      {e : SyntaxError} (here : p.StepAt i s) (refers : s.conditionIds[n]? = some id)
      (found : p.condition? id = some c) (kind : c.kind = .expression source)
      (malformed : Expression.parse source = .error e) :
      Problem p registered ⟨i, .condition n⟩
        (.malformedExpression c.id (ConditionError.malformedExpression source e).message)
  | unknownPredicate {i n : Nat} {s : Step} {id : String} {c : Condition} {predicate : String}
      {config : Json} {known : String → Bool} (here : p.StepAt i s)
      (refers : s.conditionIds[n]? = some id) (found : p.condition? id = some c)
      (kind : c.kind = .externalCheck predicate config)
      (given : registered.predicate = some known) (unknown : known predicate = false) :
      Problem p registered ⟨i, .condition n⟩ (.unknownPredicate c.id predicate)

end Plan

/-! ## Issues in order -/

/-- `InOrder P issues`: the issues that are at some site, all of them and in the order of their
sites, of which none has two. -/
def InOrder (P : Site → Issue → Prop) (issues : List Issue) : Prop :=
  ∃ found : List (Site × Issue), issues = found.map Prod.snd ∧
    found.Pairwise (fun x y => x.1.place < y.1.place) ∧
    ∀ site issue, (site, issue) ∈ found ↔ P site issue

namespace InOrder

variable {P Q : Site → Issue → Prop} {issues others : List Issue}

/-- Issues in order are so for every property that says the same. -/
theorem congr (h : InOrder P issues) (same : ∀ site issue, P site issue ↔ Q site issue) :
    InOrder Q issues := by
  obtain ⟨found, listed, ordered, all⟩ := h
  exact ⟨found, listed, ordered, fun site issue => (all site issue).trans (same site issue)⟩

/-- Where there is no problem there are no issues. -/
theorem nil (none : ∀ site issue, ¬ P site issue) : InOrder P [] :=
  ⟨[], rfl, .nil, fun site issue => by simpa using none site issue⟩

/-- The issue that there is at one site, if there is any. -/
theorem of_mem_iff {site : Site} (short : issues.length ≤ 1)
    (all : ∀ issue, issue ∈ issues ↔ P site issue) (only : ∀ x issue, P x issue → x = site) :
    InOrder P issues := by
  refine ⟨issues.map (site, ·), by simp [Function.comp_def], ?_, fun x issue => ?_⟩
  · match issues, short with
    | [], _ => exact .nil
    | [_], _ => exact List.pairwise_singleton _ _
  · constructor
    · intro h
      obtain ⟨_, listed, same⟩ := List.mem_map.1 h
      cases same
      exact (all issue).1 listed
    · intro h
      obtain rfl := only x issue h
      exact List.mem_map_of_mem ((all issue).2 h)

/-- The issues at some sites, and then those at later ones. -/
theorem append (h : InOrder P issues) (h' : InOrder Q others)
    (later : ∀ x y issue issue', P x issue → Q y issue' → x.place < y.place) :
    InOrder (fun site issue => P site issue ∨ Q site issue) (issues ++ others) := by
  obtain ⟨found, rfl, ordered, all⟩ := h
  obtain ⟨found', rfl, ordered', all'⟩ := h'
  refine ⟨found ++ found', by rw [List.map_append], ?_, fun site issue => ?_⟩
  · exact List.pairwise_append.2 ⟨ordered, ordered', fun x hx y hy =>
      later x.1 y.1 x.2 y.2 ((all _ _).1 hx) ((all' _ _).1 hy)⟩
  · rw [List.mem_append, all, all']

end InOrder

namespace Plan

variable {p : Plan} {registered : Registered}

/-! ## Regions -/

/-- `p.ProblemIn registered region site issue`: there is a problem at a site of a region. -/
def ProblemIn (p : Plan) (registered : Registered) (region : Site → Prop) (site : Site)
    (issue : Issue) : Prop :=
  region site ∧ p.Problem registered site issue

section Regions

variable {region region' : Site → Prop} {issues others : List Issue}

/-- The issues of one site are in order if there is at most one. -/
theorem inOrder_site {site : Site} (short : issues.length ≤ 1)
    (all : ∀ issue, issue ∈ issues ↔ p.Problem registered site issue) :
    InOrder (p.ProblemIn registered (· = site)) issues :=
  .of_mem_iff short (fun issue => (all issue).trans (and_iff_right rfl).symm) fun _ _ h => h.1

/-- Issues of a region are followed by those of a later one. -/
theorem inOrder_append (h : InOrder (p.ProblemIn registered region) issues)
    (h' : InOrder (p.ProblemIn registered region') others)
    (later : ∀ x y, region x → region' y → x.place < y.place) :
    InOrder (p.ProblemIn registered fun x => region x ∨ region' x) (issues ++ others) :=
  (h.append h' fun x y _ _ hx hy => later x y hx.1 hy.1).congr fun _ _ => or_and_right.symm

/-- The problems of references of one sort, one after the other. -/
theorem inOrder_flatMap {i : Nat} {part : Nat → Part} {issuesOf : String → List Issue}
    {ids : List String}
    (increasing : ∀ n m, n < m → Site.place ⟨i, part n⟩ < Site.place ⟨i, part m⟩)
    (each : ∀ n id, ids[n]? = some id →
      InOrder (p.ProblemIn registered (· = ⟨i, part n⟩)) (issuesOf id)) :
    InOrder (p.ProblemIn registered fun x => ∃ n < ids.length, x = ⟨i, part n⟩)
      (ids.flatMap issuesOf) := by
  induction ids using List.reverseRecOn with
  | nil => exact .nil fun _ _ h => by simpa using h.1
  | append_singleton ids id ih =>
    have before := ih fun n id' here => each n id' (by
      rw [List.getElem?_append_left (List.getElem?_eq_some_iff.1 here).1, here])
    have last := each ids.length id List.getElem?_concat_length
    rw [List.flatMap_append, List.flatMap_singleton]
    refine (inOrder_append before last ?_).congr fun x issue => ?_
    · rintro _ _ ⟨n, low, rfl⟩ rfl
      exact increasing n _ low
    · rw [ProblemIn, ProblemIn, List.length_append, List.length_singleton,
        Nat.exists_lt_succ_right]

/-- The problems at an index, and then those at all later ones. -/
theorem inOrder_onward {i : Nat} (h : InOrder (p.ProblemIn registered (·.index = i)) issues)
    (h' : InOrder (p.ProblemIn registered (i + 1 ≤ ·.index)) others) :
    InOrder (p.ProblemIn registered (i ≤ ·.index)) (issues ++ others) := by
  refine (inOrder_append h h' fun x y hx hy => ?_).congr fun x issue => and_congr_left fun _ => ?_
  · exact Site.place_lt_of_index (by omega)
  · omega

end Regions

/-! ## One entry -/

/-- A position has one entry. -/
theorem First.eq {i : Nat} {entry other : PlanEntry} (h : p.First i entry)
    (here : p.entries[i]? = some other) : entry = other :=
  Option.some.inj (h.here.symm.trans here)

/-- A position has one step. -/
theorem StepAt.eq {i : Nat} {s other : Step} (h : p.StepAt i s) (h' : p.StepAt i other) :
    s = other := by
  obtain ⟨entry, first, step⟩ := h
  obtain ⟨entry', first', step'⟩ := h'
  obtain rfl := first.eq first'.here
  exact Option.some.inj (step.symm.trans step')

theorem StepAt.index_lt {i : Nat} {s : Step} (h : p.StepAt i s) : i < p.entries.length := by
  obtain ⟨entry, first, -⟩ := h
  exact (List.getElem?_eq_some_iff.1 first.here).1

theorem Problem.index_lt {site : Site} {issue : Issue} (h : p.Problem registered site issue) :
    site.index < p.entries.length := by
  cases h with
  | repeatedStep here => exact (List.getElem?_eq_some_iff.1 here).1
  | missingStep first => exact (List.getElem?_eq_some_iff.1 first.here).1
  | _ here => exact here.index_lt

section Parts

variable {i n : Nat} {s : Step} {id : String} {before : List UInt32} {issue : Issue}

/-- An identifier of an action gives at most one issue: it is missing or has no handler. -/
theorem length_actionIssues_le (p : Plan) (registered : Registered) (s : Step) (id : String) :
    (p.actionIssues registered s id).length ≤ 1 := by
  unfold actionIssues
  split
  · exact Nat.le_refl 1
  · split <;> simp

/-- The issues of an identifier of an action are the problems at its site. -/
theorem mem_actionIssues_iff (here : p.StepAt i s) (refers : s.actionIds[n]? = some id) :
    issue ∈ p.actionIssues registered s id ↔ p.Problem registered ⟨i, .action n⟩ issue := by
  constructor
  · intro h
    unfold actionIssues at h
    split at h
    · next nowhere =>
      obtain rfl := List.mem_singleton.1 h
      exact .missingAction here refers nowhere
    · next a found =>
      split at h
      · next unknown =>
        obtain rfl := List.mem_singleton.1 h
        obtain ⟨known, given, unknown⟩ := (Option.any_eq_true _ _).1 unknown
        exact .unknownActionType here refers found given (by simpa using unknown)
      · cases h
  · intro h
    cases h with
    | missingAction here' refers' nowhere =>
      cases here.eq here'
      cases refers.symm.trans refers'
      simp [actionIssues, nowhere]
    | unknownActionType here' refers' found given unknown =>
      cases here.eq here'
      cases refers.symm.trans refers'
      simp [actionIssues, found, given, unknown]

/-- An identifier of a condition gives at most one issue. -/
theorem length_conditionReferenceIssues_le (p : Plan) (registered : Registered) (s : Step)
    (id : String) : (p.conditionReferenceIssues registered s id).length ≤ 1 := by
  unfold conditionReferenceIssues
  split
  · exact Nat.le_refl 1
  · unfold conditionIssues
    split
    · exact Nat.zero_le 1
    · split <;> simp
    · split <;> simp

/-- The issues of an identifier of a condition are the problems at its site. -/
theorem mem_conditionReferenceIssues_iff (here : p.StepAt i s)
    (refers : s.conditionIds[n]? = some id) :
    issue ∈ p.conditionReferenceIssues registered s id ↔
      p.Problem registered ⟨i, .condition n⟩ issue := by
  constructor
  · intro h
    unfold conditionReferenceIssues at h
    split at h
    · next nowhere =>
      obtain rfl := List.mem_singleton.1 h
      exact .missingCondition here refers nowhere
    · next c found =>
      unfold conditionIssues at h
      split at h
      · cases h
      · next source kind =>
        split at h
        · cases h
        · next e malformed =>
          obtain rfl := List.mem_singleton.1 h
          exact .malformedExpression here refers found kind malformed
      · next predicate config kind =>
        split at h
        · next unknown =>
          obtain rfl := List.mem_singleton.1 h
          obtain ⟨known, given, unknown⟩ := (Option.any_eq_true _ _).1 unknown
          exact .unknownPredicate here refers found kind given (by simpa using unknown)
        · cases h
  · intro h
    cases h with
    | missingCondition here' refers' nowhere =>
      cases here.eq here'
      cases refers.symm.trans refers'
      simp [conditionReferenceIssues, nowhere]
    | malformedExpression here' refers' found kind malformed =>
      cases here.eq here'
      cases refers.symm.trans refers'
      simp [conditionReferenceIssues, found, conditionIssues, kind, malformed]
    | unknownPredicate here' refers' found kind given unknown =>
      cases here.eq here'
      cases refers.symm.trans refers'
      simp [conditionReferenceIssues, found, conditionIssues, kind, given, unknown]

/-- A step has an owner that it should not have. -/
theorem mem_ownerIssues_iff (here : p.StepAt i s) :
    issue ∈ (if s.workflowId = p.workflow.id then [] else [.foreignStep s.id s.workflowId]) ↔
      p.Problem registered ⟨i, .owner⟩ issue := by
  constructor
  · intro h
    split at h
    · cases h
    · next other =>
      obtain rfl := List.mem_singleton.1 h
      exact .foreignStep here other
  · intro h
    cases h with
    | foreignStep here' other =>
      cases here.eq here'
      simp [other]

/-- A step is empty if its kind asks for identifiers and it has none. -/
theorem isEmptyStep_iff : isEmptyStep s = true ↔
    (s.kind = .action ∨ s.kind = .parallel) ∧ s.actionIds = [] ∨
      s.kind = .condition ∧ s.conditionIds = [] := by
  unfold isEmptyStep
  split <;> simp [*]

/-- A step is empty. -/
theorem mem_contentIssues_iff (here : p.StepAt i s) :
    issue ∈ (if isEmptyStep s then [.emptyStep s.id s.kind] else []) ↔
      p.Problem registered ⟨i, .content⟩ issue := by
  constructor
  · intro h
    split at h
    · next empty =>
      obtain rfl := List.mem_singleton.1 h
      rcases isEmptyStep_iff.1 empty with ⟨kind, none⟩ | ⟨kind, none⟩
      · exact .emptyActions here kind none
      · exact .emptyConditions here kind none
    · cases h
  · intro h
    cases h with
    | emptyActions here' kind none =>
      cases here.eq here'
      rw [if_pos (isEmptyStep_iff.2 (.inl ⟨kind, none⟩))]
      exact List.mem_singleton_self _
    | emptyConditions here' kind none =>
      cases here.eq here'
      rw [if_pos (isEmptyStep_iff.2 (.inr ⟨kind, none⟩))]
      exact List.mem_singleton_self _

/-- `p.Orders i before`: the order indices of the steps before an index. -/
def Orders (p : Plan) (i : Nat) (before : List UInt32) : Prop :=
  ∀ order, order ∈ before ↔ ∃ j < i, ∃ s, p.StepAt j s ∧ s.order = order

theorem length_orderIssues_le (before : List UInt32) (s : Step) :
    (orderIssues before s).length ≤ 1 := by
  unfold orderIssues
  split
  · exact Nat.le_refl 1
  · split
    · split <;> simp
    · exact Nat.zero_le 1

/-- A step has the order number of one before it. -/
theorem mem_orderIssues_iff (here : p.StepAt i s) (orders : p.Orders i before) :
    issue ∈ orderIssues before s ↔ p.Problem registered ⟨i, .order⟩ issue := by
  have new : s.order ∉ before ↔ ∀ k < i, ∀ s', p.StepAt k s' → s'.order ≠ s.order := by
    rw [orders]
    push Not
    rfl
  constructor
  · intro h
    unfold orderIssues at h
    split at h
    · next again =>
      obtain rfl := List.mem_singleton.1 h
      obtain ⟨j, low, other, there, same⟩ := (orders s.order).1 (List.contains_iff_mem.1 again)
      exact .duplicateOrder here low there same
    · next fresh =>
      split at h
      · next previous greatest =>
        split at h
        · next below =>
          obtain rfl := List.mem_singleton.1 h
          obtain ⟨listed, above⟩ := List.max?_eq_some_iff.1 greatest
          obtain ⟨j, low, other, there, rfl⟩ := (orders previous).1 listed
          exact .orderNotAscending here (new.1 (mt List.contains_iff_mem.2 fresh)) low there
            (fun k hk s' hs' => above _ ((orders _).2 ⟨k, hk, s', hs', rfl⟩)) below
        · cases h
      · cases h
  · intro h
    cases h with
    | duplicateOrder here' low there same =>
      cases here.eq here'
      have again := List.contains_iff_mem.2 ((orders s.order).2 ⟨_, low, _, there, same⟩)
      rw [orderIssues, if_pos again]
      exact List.mem_singleton_self _
    | @orderNotAscending _ j _ other here' fresh low there above below =>
      cases here.eq here'
      have greatest : before.max? = some other.order := by
        refine List.max?_eq_some_iff.2 ⟨(orders _).2 ⟨j, low, other, there, rfl⟩, ?_⟩
        intro order listed
        obtain ⟨k, hk, s', hs', rfl⟩ := (orders order).1 listed
        exact above k hk s' hs'
      rw [orderIssues, if_neg (mt List.contains_iff_mem.1 (new.2 fresh)), greatest]
      dsimp only
      rw [if_pos below]
      exact List.mem_singleton_self _

/-- An entry that leads to a step is no problem as it is listed. -/
theorem StepAt.not_problem_listing (here : p.StepAt i s) :
    ¬ p.Problem registered ⟨i, .listing⟩ issue := by
  obtain ⟨entry, first, step⟩ := here
  intro h
  cases h with
  | repeatedStep here' low there same =>
    obtain rfl := first.eq here'
    exact first.new _ low _ there same
  | missingStep first' nowhere =>
    obtain rfl := first.eq first'.here
    rw [step] at nowhere
    cases nowhere

theorem StepAt.action_lt (here : p.StepAt i s) (h : p.Problem registered ⟨i, .action n⟩ issue) :
    n < s.actionIds.length := by
  cases h with
  | missingAction here' refers =>
    cases here.eq here'
    exact (List.getElem?_eq_some_iff.1 refers).1
  | unknownActionType here' refers =>
    cases here.eq here'
    exact (List.getElem?_eq_some_iff.1 refers).1

theorem StepAt.condition_lt (here : p.StepAt i s)
    (h : p.Problem registered ⟨i, .condition n⟩ issue) : n < s.conditionIds.length := by
  cases h with
  | missingCondition here' refers =>
    cases here.eq here'
    exact (List.getElem?_eq_some_iff.1 refers).1
  | malformedExpression here' refers =>
    cases here.eq here'
    exact (List.getElem?_eq_some_iff.1 refers).1
  | unknownPredicate here' refers =>
    cases here.eq here'
    exact (List.getElem?_eq_some_iff.1 refers).1

/-- The problems of a step are reported part after part. -/
theorem inOrder_stepIssues (here : p.StepAt i s) (orders : p.Orders i before) :
    InOrder (p.ProblemIn registered (·.index = i)) (p.stepIssues registered before s) := by
  -- The parts of a step in the order in which they are looked at, each with its own sites.
  have owner : InOrder (p.ProblemIn registered (· = ⟨i, .owner⟩)) _ :=
    inOrder_site (by split <;> simp) fun _ => mem_ownerIssues_iff here
  have order : InOrder (p.ProblemIn registered (· = ⟨i, .order⟩)) _ :=
    inOrder_site (length_orderIssues_le before s) fun _ => mem_orderIssues_iff here orders
  have content : InOrder (p.ProblemIn registered (· = ⟨i, .content⟩)) _ :=
    inOrder_site (by split <;> simp) fun _ => mem_contentIssues_iff here
  have actions : InOrder (p.ProblemIn registered fun x => ∃ n < s.actionIds.length,
      x = ⟨i, .action n⟩) (s.actionIds.flatMap (p.actionIssues registered s)) :=
    inOrder_flatMap (fun _ _ low => Site.place_lt_of_number rfl low) fun n id refers =>
      inOrder_site (length_actionIssues_le p registered s id) fun _ =>
        mem_actionIssues_iff here refers
  have conditions : InOrder (p.ProblemIn registered fun x => ∃ n < s.conditionIds.length,
      x = ⟨i, .condition n⟩) (s.conditionIds.flatMap (p.conditionReferenceIssues registered s)) :=
    inOrder_flatMap (fun _ _ low => Site.place_lt_of_number rfl low) fun n id refers =>
      inOrder_site (length_conditionReferenceIssues_le p registered s id) fun _ =>
        mem_conditionReferenceIssues_iff here refers
  refine (inOrder_append (inOrder_append (inOrder_append (inOrder_append owner order ?_)
    content ?_) actions ?_) conditions ?_).congr fun x issue => and_congr_left fun problem => ?_
  · rintro _ _ rfl rfl
    exact Site.place_lt_of_rank (by decide)
  · rintro _ _ (rfl | rfl) rfl <;> exact Site.place_lt_of_rank (by decide)
  · rintro _ _ ((rfl | rfl) | rfl) ⟨n, -, rfl⟩ <;>
      exact Site.place_lt_of_rank (by simp [Part.place])
  · rintro _ _ (((rfl | rfl) | rfl) | ⟨m, -, rfl⟩) ⟨n, -, rfl⟩ <;>
      exact Site.place_lt_of_rank (by simp [Part.place])
  · constructor
    · rintro ((((rfl | rfl) | rfl) | ⟨n, -, rfl⟩) | ⟨n, -, rfl⟩) <;> rfl
    · obtain ⟨j, part⟩ := x
      rintro rfl
      cases part with
      | listing => exact (here.not_problem_listing problem).elim
      | owner => exact .inl (.inl (.inl (.inl rfl)))
      | order => exact .inl (.inl (.inl (.inr rfl)))
      | content => exact .inl (.inl (.inr rfl))
      | action n => exact .inl (.inr ⟨n, here.action_lt problem, rfl⟩)
      | condition n => exact .inr ⟨n, here.condition_lt problem, rfl⟩

end Parts

/-! ## All entries -/

/-- Every problem is that of an entry as it is listed or that of a step at its index. -/
theorem Problem.listing_or_stepAt {x : Site} {issue : Issue} (h : p.Problem registered x issue) :
    x.part = .listing ∨ ∃ s, p.StepAt x.index s := by
  cases h with
  | repeatedStep => exact .inl rfl
  | missingStep => exact .inl rfl
  | _ here => exact .inr ⟨_, here⟩

/-- An entry that leads to no step of its own has one problem at most. -/
theorem inOrder_entry {i : Nat} {issue : Issue} (nowhere : ∀ s, ¬ p.StepAt i s)
    (only : ∀ other, p.Problem registered ⟨i, .listing⟩ other ↔ other = issue) :
    InOrder (p.ProblemIn registered (·.index = i)) [issue] := by
  have listing : InOrder (p.ProblemIn registered (· = ⟨i, .listing⟩)) [issue] :=
    inOrder_site (Nat.le_refl 1) fun other => List.mem_singleton.trans (only other).symm
  refine listing.congr fun x other => and_congr_left fun problem => ?_
  constructor
  · rintro rfl
    rfl
  · obtain ⟨j, part⟩ := x
    rintro rfl
    rcases problem.listing_or_stepAt with rfl | ⟨s, here⟩
    · rfl
    · exact (nowhere s here).elim

section Listing

variable {i j : Nat} {entry other : PlanEntry}

/-- An identifier that was there before is not the first. -/
theorem First.ne_of_repeated (here : p.entries[i]? = some entry) (low : j < i)
    (there : p.entries[j]? = some other) (same : other.stepId = entry.stepId) (entry' : PlanEntry) :
    ¬ p.First i entry' := by
  intro first
  obtain rfl := first.eq here
  exact first.new j low other there same

/-- A repeated identifier is the only issue of its entry. -/
theorem inOrder_repeated (here : p.entries[i]? = some entry) (low : j < i)
    (there : p.entries[j]? = some other) (same : other.stepId = entry.stepId) :
    InOrder (p.ProblemIn registered (·.index = i)) [.repeatedStep entry.stepId] := by
  have again := First.ne_of_repeated here low there same
  refine inOrder_entry (fun s ⟨entry', first, _⟩ => again entry' first) fun issue =>
    ⟨fun h => ?_, ?_⟩
  · cases h with
    | repeatedStep here' =>
      cases here.symm.trans here'
      rfl
    | missingStep first => exact (again _ first).elim
  · rintro rfl
    exact .repeatedStep here low there same

/-- Where nothing was found there is no step. -/
theorem First.not_stepAt (first : p.First i entry) (missing : entry.step = none) (s : Step) :
    ¬ p.StepAt i s := by
  rintro ⟨entry', first', step⟩
  obtain rfl := first'.eq first.here
  rw [missing] at step
  cases step

/-- A missing step is the only issue of its entry. -/
theorem inOrder_missing (first : p.First i entry) (missing : entry.step = none) :
    InOrder (p.ProblemIn registered (·.index = i)) [.missingStep entry.stepId] := by
  refine inOrder_entry (first.not_stepAt missing) fun issue => ⟨fun h => ?_, ?_⟩
  · cases h with
    | repeatedStep here low there same =>
      exact (First.ne_of_repeated here low there same _ first).elim
    | missingStep first' =>
      obtain rfl := first.eq first'.here
      rfl
  · rintro rfl
    exact .missingStep first missing

end Listing

/-- An entry without a step adds no order number. -/
theorem orders_succ {i : Nat} {before : List UInt32} (h : p.Orders i before)
    (nowhere : ∀ s, ¬ p.StepAt i s) : p.Orders (i + 1) before := by
  intro order
  rw [h order, Nat.exists_lt_succ_right, or_iff_left]
  rintro ⟨s, here, -⟩
  exact nowhere s here

/-- A step adds its order number to those before it. -/
theorem orders_cons {i : Nat} {before : List UInt32} {s : Step} (h : p.Orders i before)
    (here : p.StepAt i s) : p.Orders (i + 1) (s.order :: before) := by
  intro order
  rw [List.mem_cons, h order, Nat.exists_lt_succ_right, or_comm, eq_comm]
  refine or_congr_right ⟨fun same => ⟨s, here, same⟩, ?_⟩
  rintro ⟨s', here', same⟩
  rwa [here.eq here']

/-- The problems of entries are reported entry after entry. -/
theorem inOrder_entryIssues {done rest : List PlanEntry} {seen : List String}
    {before : List UInt32} (split : p.entries = done ++ rest)
    (listed : ∀ id, id ∈ seen ↔ id ∈ done.map PlanEntry.stepId)
    (orders : p.Orders done.length before) :
    InOrder (p.ProblemIn registered (done.length ≤ ·.index))
      (p.entryIssues registered seen before rest) := by
  induction rest generalizing done seen before with
  | nil =>
    refine .nil fun x issue h => ?_
    have inside := h.2.index_lt
    rw [split, List.append_nil] at inside
    exact Nat.not_lt.2 h.1 inside
  | cons entry rest ih =>
    have here : p.entries[done.length]? = some entry := by
      rw [split, List.getElem?_append_right (Nat.le_refl _), Nat.sub_self]
      rfl
    have earlier {j : Nat} (low : j < done.length) : p.entries[j]? = done[j]? := by
      rw [split, List.getElem?_append_left low]
    have next : p.entries = (done ++ [entry]) ++ rest := by
      rw [split, List.append_assoc, List.singleton_append]
    have later {seen : List String} {before : List UInt32}
        (listed : ∀ id, id ∈ seen ↔ id ∈ done.map PlanEntry.stepId ∨ id = entry.stepId)
        (orders : p.Orders (done.length + 1) before) :
        InOrder (p.ProblemIn registered (done.length + 1 ≤ ·.index))
          (p.entryIssues registered seen before rest) := by
      have length : (done ++ [entry]).length = done.length + 1 := List.length_append
      rw [← length] at orders ⊢
      refine ih next (fun id => ?_) orders
      rw [listed, List.map_append, List.mem_append, List.map_singleton, List.mem_singleton]
    -- The entry is listed before, leads nowhere, or leads to a step; what it adds to identifiers
    -- and order indices is what the rest has to be told.
    rw [entryIssues]
    split
    · next again =>
      rw [List.contains_iff_mem, listed] at again
      obtain ⟨other, there, same⟩ := List.mem_map.1 again
      obtain ⟨j, low, there⟩ := List.mem_iff_getElem.1 there
      have there : p.entries[j]? = some other := by
        rw [earlier low, List.getElem?_eq_getElem low, there]
      have nowhere : ∀ s, ¬ p.StepAt done.length s := fun s ⟨entry', first, _⟩ =>
        First.ne_of_repeated here low there same entry' first
      refine inOrder_onward (inOrder_repeated here low there same)
        (later (fun id => ?_) (orders_succ orders nowhere))
      rw [listed, or_iff_left_of_imp]
      rintro rfl
      exact again
    · next fresh =>
      rw [List.contains_iff_mem, listed] at fresh
      have first : p.First done.length entry := by
        refine ⟨here, fun j low other there same => fresh ?_⟩
        rw [earlier low] at there
        exact List.mem_map.2 ⟨other, List.mem_of_getElem? there, same⟩
      have listed' : ∀ id, id ∈ entry.stepId :: seen ↔
          id ∈ done.map PlanEntry.stepId ∨ id = entry.stepId := by
        intro id
        rw [List.mem_cons, listed, or_comm]
      split
      · next missing =>
        exact inOrder_onward (inOrder_missing first missing)
          (later listed' (orders_succ orders (first.not_stepAt missing)))
      · next s step =>
        have at_index : p.StepAt done.length s := ⟨entry, first, step⟩
        exact inOrder_onward (inOrder_stepIssues at_index orders)
          (later listed' (orders_cons orders at_index))

/-- Validation finds every problem of a plan, in the order of the sites. -/
theorem inOrder_issues (p : Plan) (registered : Registered) :
    InOrder (p.Problem registered) (p.issues registered) := by
  have none : p.Orders ([] : List PlanEntry).length [] := fun order => by simp
  refine (inOrder_entryIssues rfl (fun _ => Iff.rfl) none).congr fun x issue => ?_
  exact and_iff_right (Nat.zero_le _)

end Plan

end EventFlow
