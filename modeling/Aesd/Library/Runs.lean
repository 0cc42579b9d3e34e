import Mathlib.Data.List.Infix

/-!
# Runs of a step function

A component that reacts to one input at a time is a step function on states.
This module fixes what a run of it is, what it means for every step of a run to
meet a condition, and the two induction rules the rest of a development uses:
an invariant carried along a run, and a relation carried along two runs.

Nothing here knows what the states or the inputs are.
-/

namespace Runs

universe u v w

variable {State : Type u} {Input : Type v}

/-- The state after a list of inputs, oldest first. -/
def run (step : State → Input → State) (start : State) (inputs : List Input) : State :=
  inputs.foldl step start

@[simp] theorem run_nil (step : State → Input → State) (start : State) :
    run step start [] = start := rfl

@[simp] theorem run_cons (step : State → Input → State) (start : State)
    (input : Input) (inputs : List Input) :
    run step start (input :: inputs) = run step (step start input) inputs := rfl

theorem run_append (step : State → Input → State) (start : State)
    (first second : List Input) :
    run step start (first ++ second) = run step (run step start first) second :=
  List.foldl_append ..

/-- Every step of the run meets the condition, which may look at the state the
step starts from. -/
def Along (step : State → Input → State) (condition : State → Input → Prop) :
    State → List Input → Prop
  | _, [] => True
  | state, input :: inputs =>
      condition state input ∧ Along step condition (step state input) inputs

instance Along.decidable (step : State → Input → State)
    (condition : State → Input → Prop) [∀ state input, Decidable (condition state input)] :
    (start : State) → (inputs : List Input) → Decidable (Along step condition start inputs)
  | _, [] => .isTrue trivial
  | state, input :: inputs =>
      haveI := Along.decidable step condition (step state input) inputs
      inferInstanceAs (Decidable (_ ∧ _))

namespace Along

variable {step : State → Input → State} {condition : State → Input → Prop}

@[simp] theorem nil (start : State) : Along step condition start [] := trivial

@[simp] theorem cons_iff (start : State) (input : Input) (inputs : List Input) :
    Along step condition start (input :: inputs) ↔
      condition start input ∧ Along step condition (step start input) inputs := Iff.rfl

theorem append_iff (start : State) (first second : List Input) :
    Along step condition start (first ++ second) ↔
      Along step condition start first ∧
        Along step condition (run step start first) second := by
  induction first generalizing start with
  | nil => simp
  | cons input inputs ih => simp [ih, and_assoc]

/-- A condition met along a run is met along each of its prefixes. -/
theorem of_prefix {start : State} {inputs whole : List Input}
    (isPrefix : inputs <+: whole) (along : Along step condition start whole) :
    Along step condition start inputs := by
  obtain ⟨rest, rfl⟩ := isPrefix
  exact ((append_iff start inputs rest).mp along).1

theorem mono {other : State → Input → Prop}
    (weaker : ∀ state input, condition state input → other state input)
    {start : State} {inputs : List Input} (along : Along step condition start inputs) :
    Along step other start inputs := by
  induction inputs generalizing start with
  | nil => trivial
  | cons input inputs ih => exact ⟨weaker _ _ along.1, ih along.2⟩

theorem and {other : State → Input → Prop} {start : State} {inputs : List Input}
    (along : Along step condition start inputs) (otherAlong : Along step other start inputs) :
    Along step (fun state input => condition state input ∧ other state input) start inputs := by
  induction inputs generalizing start with
  | nil => trivial
  | cons input inputs ih =>
      exact ⟨⟨along.1, otherAlong.1⟩, ih along.2 otherAlong.2⟩

theorem always {start : State} {inputs : List Input}
    (holds : ∀ state, ∀ input ∈ inputs, condition state input) :
    Along step condition start inputs := by
  induction inputs generalizing start with
  | nil => trivial
  | cons input inputs ih =>
      exact ⟨holds _ _ (by simp), ih fun state other member =>
        holds state other (List.mem_cons_of_mem _ member)⟩

/-- A condition that an invariant implies is met along a run. -/
theorem of_invariant (property : State → Prop) {start : State} {inputs : List Input}
    (initially : property start)
    (kept : ∀ state, ∀ input ∈ inputs, property state →
      condition state input ∧ property (step state input)) :
    Along step condition start inputs := by
  induction inputs generalizing start with
  | nil => trivial
  | cons input inputs ih =>
      obtain ⟨met, next⟩ := kept start input List.mem_cons_self initially
      exact ⟨met, ih next fun state other member =>
        kept state other (List.mem_cons_of_mem _ member)⟩

/-- When every step that meets the condition leaves less to do, a run is not longer than what there
is to do. -/
theorem length_le (left : Nat → State → Prop)
    (decreases : ∀ count state input, left count state → condition state input →
      ∃ fewer < count, left fewer (step state input))
    {start : State} {inputs : List Input} {count : Nat} (initially : left count start)
    (along : Along step condition start inputs) : inputs.length ≤ count := by
  induction inputs generalizing start count with
  | nil => exact Nat.zero_le _
  | cons input inputs ih =>
      obtain ⟨fewer, less, next⟩ := decreases count start input initially along.1
      have rest := ih next along.2
      rw [List.length_cons]
      omega

end Along

/-- The invariant rule: what holds at the start and is kept by every step that
meets the condition holds after the run. -/
theorem invariant {step : State → Input → State} {condition : State → Input → Prop}
    (property : State → Prop)
    (preserved : ∀ state input, property state → condition state input →
      property (step state input))
    {start : State} {inputs : List Input} (initially : property start)
    (along : Along step condition start inputs) :
    property (run step start inputs) := by
  induction inputs generalizing start with
  | nil => exact initially
  | cons input inputs ih => exact ih (preserved _ _ initially along.1) along.2

/-- The invariant rule for a property every step keeps. -/
theorem invariant_always {step : State → Input → State} (property : State → Prop)
    (preserved : ∀ state input, property state → property (step state input))
    {start : State} (inputs : List Input) (initially : property start) :
    property (run step start inputs) := by
  have along : Along step (fun _ _ => True) start inputs := .always fun _ _ _ => trivial
  exact invariant property (fun state input holds _ => preserved state input holds) initially along

/-- The rule for what is settled when it happens: if after each step an event was
there before or its record holds right then, every event of a run has a moment
at which its record holds. -/
theorem exists_moment {step : State → Input → State} {condition : State → Input → Prop}
    (base event record : State → Prop)
    (baseKept : ∀ state input, base state → condition state input → base (step state input))
    (settled : ∀ state input, base state → condition state input → event (step state input) →
      event state ∨ record (step state input))
    {start : State} {inputs : List Input} (based : base start)
    (initially : event start → record start) (along : Along step condition start inputs)
    (happened : event (run step start inputs)) :
    ∃ visited, visited <+: inputs ∧ record (run step start visited) := by
  induction inputs generalizing start with
  | nil => exact ⟨[], List.nil_prefix, initially happened⟩
  | cons input inputs ih =>
      by_cases already : event start
      · exact ⟨[], List.nil_prefix, initially already⟩
      · have fresh : event (step start input) → record (step start input) := fun now =>
          (settled start input based along.1 now).resolve_left already
        obtain ⟨visited, isPrefix, holds⟩ :=
          ih (baseKept start input based along.1) fresh along.2 happened
        exact ⟨input :: visited, (List.prefix_cons_inj input).mpr isPrefix, holds⟩

/-- When a step keeps the property exactly if it meets the condition, the
property holds in every state of a run exactly if every step meets it. -/
theorem forall_prefix_iff {step : State → Input → State}
    {condition : State → Input → Prop} (base property : State → Prop)
    (baseKept : ∀ state input, base state → base (step state input))
    (exactStep : ∀ state input, base state → property state →
      (property (step state input) ↔ condition state input))
    {start : State} (inputs : List Input) (based : base start)
    (initially : property start) :
    (∀ visited, visited <+: inputs → property (run step start visited)) ↔
      Along step condition start inputs := by
  constructor
  · intro everywhere
    induction inputs generalizing start with
    | nil => trivial
    | cons input inputs ih =>
        have first : property (step start input) :=
          everywhere [input] ⟨inputs, rfl⟩
        refine ⟨(exactStep start input based initially).mp first,
          ih (baseKept start input based) first fun visited isPrefix => ?_⟩
        exact everywhere (input :: visited) ((List.prefix_cons_inj input).mpr isPrefix)
  · intro along visited isPrefix
    have both : base (run step start visited) ∧ property (run step start visited) :=
      invariant (fun state => base state ∧ property state)
        (fun state input holds met => ⟨baseKept state input holds.1,
          (exactStep state input holds.1 holds.2).mpr met⟩)
        ⟨based, initially⟩ (along.of_prefix isPrefix)
    exact both.2

/-- The simulation rule: a relation kept by paired steps relates the ends of
paired runs. -/
theorem simulation {Other : Type w} {OtherInput : Type*}
    {step : State → Input → State} {otherStep : Other → OtherInput → Other}
    {related : State → Other → Prop} {matched : Input → OtherInput → Prop}
    {condition : State → Input → Prop} {otherCondition : Other → OtherInput → Prop}
    (preserved : ∀ state other input otherInput, related state other →
      matched input otherInput → condition state input →
      otherCondition other otherInput →
      related (step state input) (otherStep other otherInput))
    {start : State} {otherStart : Other} {inputs : List Input}
    {otherInputs : List OtherInput} (initially : related start otherStart)
    (pairwise : List.Forall₂ matched inputs otherInputs)
    (along : Along step condition start inputs)
    (otherAlong : Along otherStep otherCondition otherStart otherInputs) :
    related (run step start inputs) (run otherStep otherStart otherInputs) := by
  induction pairwise generalizing start otherStart with
  | nil => exact initially
  | cons paired rest ih =>
      exact ih (preserved _ _ _ _ initially paired along.1 otherAlong.1)
        along.2 otherAlong.2

/-! ## Runs with outputs -/

section Traces

variable {Output : Type*} {Spec : Type w} {step : State → Input → Output × State}

/-- The inputs of a run, each with its output. -/
def trace (step : State → Input → Output × State) : State → List Input → List (Input × Output)
  | _, [] => []
  | state, input :: inputs =>
      (input, (step state input).1) :: trace step (step state input).2 inputs

theorem trace_append (step : State → Input → Output × State) (start : State)
    (first second : List Input) :
    trace step start (first ++ second) = trace step start first ++
      trace step (run (fun state input => (step state input).2) start first) second := by
  induction first generalizing start with
  | nil => rfl
  | cons input inputs ih => exact congrArg _ (ih (step start input).2)

theorem map_fst_trace (step : State → Input → Output × State) (start : State)
    (inputs : List Input) : (trace step start inputs).map Prod.fst = inputs := by
  induction inputs generalizing start with
  | nil => rfl
  | cons input inputs ih => exact congrArg _ (ih (step start input).2)

/-- Outputs in other words. -/
theorem map_trace {Word : Type*} (step : State → Input → Output × State)
    (words : Input → Output → Word) (start : State) (inputs : List Input) :
    (trace step start inputs).map (fun event => (event.1, words event.1 event.2)) =
      trace (fun state input => (words input (step state input).1, (step state input).2)) start
        inputs := by
  induction inputs generalizing start with
  | nil => rfl
  | cons input inputs ih => exact congrArg _ (ih (step start input).2)

/-- The rule for a specification with outputs of its own. The limit is a property of the
specification that no step restores. -/
theorem trace_eq_trace {condition : State → Input → Prop} {spec : Spec → Input → Output × Spec}
    (related : State → Spec → Prop) (limit : Spec → Prop)
    (earlier : ∀ state input, limit (spec state input).2 → limit state)
    (stepwise : ∀ state specState input, related state specState → condition state input →
      limit specState → limit (spec specState input).2 →
        (step state input).1 = (spec specState input).1 ∧
          related (step state input).2 (spec specState input).2)
    {start : State} {specStart : Spec} {inputs : List Input} (initially : related start specStart)
    (along : Along (fun state input => (step state input).2) condition start inputs)
    (limited : limit (run (fun state input => (spec state input).2) specStart inputs)) :
    trace step start inputs = trace spec specStart inputs := by
  have unlimited : ∀ inputs state,
      limit (run (fun state input => (spec state input).2) state inputs) → limit state := by
    intro inputs
    induction inputs with
    | nil =>
        intro state holds
        exact holds
    | cons input inputs ih =>
        intro state holds
        exact earlier state input (ih _ holds)
  induction inputs generalizing start specStart with
  | nil => rfl
  | cons input inputs ih =>
      obtain ⟨same, next⟩ := stepwise start specStart input initially along.1
        (unlimited (input :: inputs) _ limited) (unlimited inputs _ limited)
      rw [trace, trace, same, ih next along.2 limited]

end Traces

end Runs
