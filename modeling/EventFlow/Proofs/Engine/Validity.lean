import EventFlow.Proofs.Engine.Problems

/-!
# What validation decides

A plan is `Plan.Valid` if its steps are there, once and in ascending order, and lack nothing. This
is what the problems of plans are about: a valid plan has none, and one that has none is valid
(`Plan.valid_iff`). Validation finds all of them, so it returns the steps of the valid plans, and of
any other plan every problem there is (`Plan.validate_spec`). `Plan.validate` is in
`EventFlow.Engine.Validation`.
-/

set_option autoImplicit false

namespace EventFlow.Plan

variable {p : Plan} {registered : Registered}

/-- The steps that the entries lead to. -/
def steps (p : Plan) : List Step := p.entries.filterMap PlanEntry.step

/-- Nothing is wrong with a plan: its steps are there, once and in order, each is one of its
workflow and has something to run, and everything that they refer to is there and can be used. -/
structure Valid (p : Plan) (registered : Registered) : Prop where
  distinct : (p.entries.map PlanEntry.stepId).Nodup
  resolved : ∀ entry ∈ p.entries, ∃ s, entry.step = some s
  owned : ∀ s ∈ p.steps, s.workflowId = p.workflow.id
  ascending : (p.steps.map Step.order).Pairwise (· < ·)
  actionsGiven : ∀ s ∈ p.steps, s.kind = .action ∨ s.kind = .parallel → s.actionIds ≠ []
  conditionsGiven : ∀ s ∈ p.steps, s.kind = .condition → s.conditionIds ≠ []
  actions : ∀ s ∈ p.steps, ∀ id ∈ s.actionIds, ∃ a, p.action? id = some a ∧
    ∀ known, registered.actionType = some known → known a.actionType = true
  conditions : ∀ s ∈ p.steps, ∀ id ∈ s.conditionIds, ∃ c, p.condition? id = some c ∧
    (∀ source, c.kind = .expression source → ∃ e, Expression.parse source = .ok e) ∧
    ∀ predicate config, c.kind = .externalCheck predicate config →
      ∀ known, registered.predicate = some known → known predicate = true

/-! ## Valid plans have no problems -/

theorem StepAt.mem_steps {i : Nat} {s : Step} (h : p.StepAt i s) : s ∈ p.steps := by
  obtain ⟨entry, first, step⟩ := h
  exact List.mem_filterMap.2 ⟨entry, List.mem_of_getElem? first.here, step⟩

/-- The order indices ascend over the entries if they do over the steps. -/
theorem ascending_iff (p : Plan) : (p.steps.map Step.order).Pairwise (· < ·) ↔
    ∀ i j : Nat, i < j → ∀ entry other, p.entries[i]? = some entry → p.entries[j]? = some other →
      ∀ s s', entry.step = some s → other.step = some s' → s.order < s'.order := by
  rw [List.pairwise_map, steps, List.pairwise_filterMap, List.pairwise_iff_getElem]
  constructor
  · intro h i j low entry other here there s s' step step'
    obtain ⟨hi, rfl⟩ := List.getElem?_eq_some_iff.1 here
    obtain ⟨hj, rfl⟩ := List.getElem?_eq_some_iff.1 there
    exact h i j hi hj low s step s' step'
  · intro h i j hi hj low s step s' step'
    exact h i j low _ _ (List.getElem?_eq_getElem hi) (List.getElem?_eq_getElem hj) s s' step step'

theorem Valid.lt_of_stepAt (h : p.Valid registered) {i j : Nat} (low : i < j) {s s' : Step}
    (here : p.StepAt i s) (there : p.StepAt j s') : s.order < s'.order := by
  obtain ⟨entry, first, step⟩ := here
  obtain ⟨entry', first', step'⟩ := there
  exact (ascending_iff p).1 h.ascending i j low _ _ first.here first'.here s s' step step'

theorem Valid.not_problem (h : p.Valid registered) (site : Site) (issue : Issue) :
    ¬ p.Problem registered site issue := by
  intro problem
  -- Each kind of problem contradicts the one part of validity that is about it.
  cases problem with
  | @repeatedStep i j entry other here low there same =>
    obtain ⟨hi, rfl⟩ := List.getElem?_eq_some_iff.1 here
    obtain ⟨hj, rfl⟩ := List.getElem?_eq_some_iff.1 there
    have apart := List.pairwise_iff_getElem.1 h.distinct j i (by simpa using hj)
      (by simpa using hi) low
    simp only [List.getElem_map] at apart
    exact apart same
  | missingStep first nowhere =>
    obtain ⟨s, step⟩ := h.resolved _ (List.mem_of_getElem? first.here)
    rw [nowhere] at step
    cases step
  | foreignStep here other => exact other (h.owned _ here.mem_steps)
  | duplicateOrder here low there same =>
    exact UInt32.lt_irrefl _ (same ▸ h.lt_of_stepAt low there here)
  | orderNotAscending here _ low there _ below =>
    exact UInt32.lt_asymm below (h.lt_of_stepAt low there here)
  | emptyActions here kind none => exact h.actionsGiven _ here.mem_steps kind none
  | emptyConditions here kind none => exact h.conditionsGiven _ here.mem_steps kind none
  | missingAction here refers nowhere =>
    obtain ⟨a, found, -⟩ := h.actions _ here.mem_steps _ (List.mem_of_getElem? refers)
    rw [nowhere] at found
    cases found
  | unknownActionType here refers found given unknown =>
    obtain ⟨a, found', known⟩ := h.actions _ here.mem_steps _ (List.mem_of_getElem? refers)
    cases found.symm.trans found'
    rw [known _ given] at unknown
    cases unknown
  | missingCondition here refers nowhere =>
    obtain ⟨c, found, -⟩ := h.conditions _ here.mem_steps _ (List.mem_of_getElem? refers)
    rw [nowhere] at found
    cases found
  | malformedExpression here refers found kind malformed =>
    obtain ⟨c, found', parses, -⟩ := h.conditions _ here.mem_steps _ (List.mem_of_getElem? refers)
    cases found.symm.trans found'
    obtain ⟨e, parsed⟩ := parses _ kind
    rw [malformed] at parsed
    cases parsed
  | unknownPredicate here refers found kind given unknown =>
    obtain ⟨c, found', -, known⟩ := h.conditions _ here.mem_steps _ (List.mem_of_getElem? refers)
    cases found.symm.trans found'
    rw [known _ _ kind _ given] at unknown
    cases unknown

theorem exists_orders (p : Plan) (i : Nat) : ∃ before, p.Orders i before := by
  induction i with
  | zero => exact ⟨[], fun order => by simp⟩
  | succ i ih =>
    obtain ⟨before, orders⟩ := ih
    by_cases here : ∃ s, p.StepAt i s
    · obtain ⟨s, here⟩ := here
      exact ⟨s.order :: before, orders_cons orders here⟩
    · exact ⟨before, orders_succ orders (not_exists.1 here)⟩

/-- Where no order index is used twice and none is below the greatest before it, they ascend. -/
theorem order_lt_of_not_problem (h : ∀ site issue, ¬ p.Problem registered site issue) {i j : Nat}
    (low : j < i) {s other : Step} (there : p.StepAt j other) (here : p.StepAt i s) :
    other.order < s.order := by
  have new : ∀ k < i, ∀ s', p.StepAt k s' → s'.order ≠ s.order := fun k hk s' hs' same =>
    h _ _ (.duplicateOrder here hk hs' same)
  obtain ⟨before, orders⟩ := p.exists_orders i
  have listed : other.order ∈ before := (orders _).2 ⟨j, low, other, there, rfl⟩
  cases greatest : before.max? with
  | none => exact (List.ne_nil_of_mem listed (List.max?_eq_none_iff.1 greatest)).elim
  | some previous =>
    obtain ⟨among, above⟩ := List.max?_eq_some_iff.1 greatest
    obtain ⟨k, hk, last, hlast, rfl⟩ := (orders previous).1 among
    have notBelow : ¬ s.order < last.order := fun below =>
      h _ _ (.orderNotAscending here new hk hlast
        (fun l hl s' hs' => above _ ((orders _).2 ⟨l, hl, s', hs', rfl⟩)) below)
    have le : other.order ≤ s.order :=
      UInt32.le_trans (above _ listed) (UInt32.not_lt.1 notBelow)
    exact UInt32.lt_of_le_of_ne le (new j low other there)

theorem valid_of_not_problem (h : ∀ site issue, ¬ p.Problem registered site issue) :
    p.Valid registered := by
  have first {i : Nat} {entry : PlanEntry} (here : p.entries[i]? = some entry) :
      p.First i entry :=
    ⟨here, fun j low other there same => h _ _ (.repeatedStep here low there same)⟩
  have index {s : Step} (hs : s ∈ p.steps) : ∃ i, p.StepAt i s := by
    obtain ⟨entry, listed, step⟩ := List.mem_filterMap.1 hs
    obtain ⟨i, here⟩ := List.mem_iff_getElem?.1 listed
    exact ⟨i, entry, first here, step⟩
  -- The other way round: where a part of validity is missing, there is a problem of that kind.
  constructor
  case distinct =>
    refine List.pairwise_map.2 (List.pairwise_iff_getElem.2 fun i j hi hj low same => ?_)
    exact h _ _ (.repeatedStep (List.getElem?_eq_getElem hj) low (List.getElem?_eq_getElem hi) same)
  case resolved =>
    intro entry listed
    obtain ⟨i, here⟩ := List.mem_iff_getElem?.1 listed
    exact Option.ne_none_iff_exists'.1 fun nowhere => h _ _ (.missingStep (first here) nowhere)
  case owned =>
    intro s hs
    obtain ⟨i, here⟩ := index hs
    by_contra other
    exact h _ _ (.foreignStep here other)
  case ascending =>
    rw [ascending_iff]
    intro i j low entry other here there s s' step step'
    exact order_lt_of_not_problem h low ⟨entry, first here, step⟩ ⟨other, first there, step'⟩
  case actionsGiven =>
    intro s hs kind none
    obtain ⟨i, here⟩ := index hs
    exact h _ _ (.emptyActions here kind none)
  case conditionsGiven =>
    intro s hs kind none
    obtain ⟨i, here⟩ := index hs
    exact h _ _ (.emptyConditions here kind none)
  case actions =>
    intro s hs id hid
    obtain ⟨i, here⟩ := index hs
    obtain ⟨n, refers⟩ := List.mem_iff_getElem?.1 hid
    cases found : p.action? id with
    | none => exact (h _ _ (.missingAction here refers found)).elim
    | some a =>
      refine ⟨a, rfl, fun known given => ?_⟩
      by_contra unknown
      exact h _ _ (.unknownActionType here refers found given (Bool.eq_false_iff.2 unknown))
  case conditions =>
    intro s hs id hid
    obtain ⟨i, here⟩ := index hs
    obtain ⟨n, refers⟩ := List.mem_iff_getElem?.1 hid
    cases found : p.condition? id with
    | none => exact (h _ _ (.missingCondition here refers found)).elim
    | some c =>
      refine ⟨c, rfl, fun source kind => ?_, fun predicate config kind known given => ?_⟩
      · cases parsed : Expression.parse source with
        | ok e => exact ⟨e, rfl⟩
        | error e => exact (h _ _ (.malformedExpression here refers found kind parsed)).elim
      · by_contra unknown
        exact h _ _ (.unknownPredicate here refers found kind given (Bool.eq_false_iff.2 unknown))

theorem valid_iff : p.Valid registered ↔ ∀ site issue, ¬ p.Problem registered site issue :=
  ⟨Valid.not_problem, valid_of_not_problem⟩

/-- Validation finds nothing in valid plans only. -/
theorem issues_eq_nil_iff : p.issues registered = [] ↔ p.Valid registered := by
  obtain ⟨found, listed, -, all⟩ := p.inOrder_issues registered
  rw [listed, List.map_eq_nil_iff, List.eq_nil_iff_forall_not_mem, valid_iff]
  exact ⟨fun none site issue problem => none _ ((all site issue).2 problem),
    fun none x hx => none x.1 x.2 ((all _ _).1 hx)⟩

/-- The steps of a plan are returned if and only if it is valid. Of any other plan all problems are
returned, in the order in which they are in the plan. -/
theorem validate_spec (p : Plan) (registered : Registered) :
    (∀ ids, p.validate registered = .ok ids ↔
        p.Valid registered ∧ ids = p.entries.map PlanEntry.stepId) ∧
      (¬ p.Valid registered → ∃ issues, p.validate registered = .error issues ∧
        InOrder (p.Problem registered) issues) := by
  rw [← issues_eq_nil_iff]
  unfold validate
  split
  · next none =>
    refine ⟨fun ids => ?_, fun some => (some none).elim⟩
    rw [Except.ok.injEq, and_iff_right none, eq_comm]
  · next some =>
    exact ⟨fun ids => ⟨nofun, fun h => (some h.1).elim⟩,
      fun _ => ⟨_, rfl, p.inOrder_issues registered⟩⟩

end EventFlow.Plan
