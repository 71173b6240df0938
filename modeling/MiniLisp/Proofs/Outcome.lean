import MiniLisp.Fault

namespace MiniLisp

/-!
# Laws about outcomes

A law about one run says which faults it may stop with and what holds of its
result.  `Ends` is that law.

Laws about two runs say that both stop with one and the same fault, or that both
give results and these are related.  `SameOutcome` is that relation.  Where the
faults need not be the same, for instance because they show different names,
`Corresponds` says how they are related; most often they are of one kind.

`Ends.bind`, `SameOutcome.bind` and `Corresponds.bind` carry the laws through a
computation step by step.
-/

/-- An outcome that is a fault allowed to happen, or a result with a property. -/
inductive Ends {α : Type} (allowed : Fault → Prop) (good : α → Prop) :
    Except Fault α → Prop where
  | error {fault : Fault} (admissible : allowed fault) : Ends allowed good (.error fault)
  | ok {result : α} (holds : good result) : Ends allowed good (.ok result)

namespace Ends

variable {α β : Type} {allowed : Fault → Prop} {good : α → Prop} {outcome : Except Fault α}

theorem result
    {value : α}
    (ends : Ends allowed good outcome)
    (given : outcome = .ok value) :
    good value := by
  subst given
  cases ends with
  | ok holds =>
      exact holds

theorem fault
    {cause : Fault}
    (ends : Ends allowed good outcome)
    (stopped : outcome = .error cause) :
    allowed cause := by
  subst stopped
  cases ends with
  | error admissible =>
      exact admissible

theorem mono
    {weaker : α → Prop}
    (ends : Ends allowed good outcome)
    (weaken : ∀ value, good value → weaker value) :
    Ends allowed weaker outcome := by
  cases ends with
  | error admissible =>
      exact .error admissible
  | ok holds =>
      exact .ok (weaken _ holds)

theorem allow
    {more : Fault → Prop}
    (ends : Ends allowed good outcome)
    (permit : ∀ fault, allowed fault → more fault) :
    Ends more good outcome := by
  cases ends with
  | error admissible =>
      exact .error (permit _ admissible)
  | ok holds =>
      exact .ok holds

/-- A step that goes on well from every good result goes on well from the outcome. -/
theorem bind
    {after : β → Prop}
    {next : α → Except Fault β}
    (ends : Ends allowed good outcome)
    (continues : ∀ value, good value → Ends allowed after (next value)) :
    Ends allowed after (outcome >>= next) := by
  cases ends with
  | error admissible =>
      exact .error admissible
  | ok holds =>
      exact continues _ holds

/-- Doing something to each of several things goes well if each time does. -/
theorem mapM
    {step : β → Except Fault α}
    {items : List β}
    (each : ∀ item ∈ items, Ends allowed good (step item)) :
    Ends allowed (fun results => ∀ result ∈ results, good result) (items.mapM step) := by
  induction items with
  | nil =>
      exact .ok (by simp)
  | cons item rest inductionHypothesis =>
      rw [List.mapM_cons]
      refine (each item (by simp)).bind fun result holds => ?_
      refine (inductionHypothesis fun other member => each other (by simp [member])).bind ?_
      intro results restHold
      exact .ok (List.forall_mem_cons.mpr ⟨holds, restHold⟩)

/-- Where every fault may happen, a step of which nothing is known may come first. -/
theorem bind_any
    {after : β → Prop}
    {next : α → Except Fault β}
    (first : Except Fault α)
    (continues : ∀ value, Ends (fun _ => True) after (next value)) :
    Ends (fun _ => True) after (first >>= next) := by
  cases first with
  | error fault =>
      exact .error trivial
  | ok value =>
      exact continues value

end Ends

/-- Two outcomes that are one and the same fault, or results that are related. -/
inductive SameOutcome {α β : Type} (related : α → β → Prop) :
    Except Fault α → Except Fault β → Prop where
  | error (fault : Fault) : SameOutcome related (.error fault) (.error fault)
  | ok {first : α} {second : β} (holds : related first second) :
      SameOutcome related (.ok first) (.ok second)

namespace SameOutcome

variable {α β γ δ : Type}

theorem refl
    {related : α → α → Prop}
    (reflexive : ∀ result, related result result)
    (outcome : Except Fault α) :
    SameOutcome related outcome outcome := by
  cases outcome with
  | error fault =>
      exact .error fault
  | ok result =>
      exact .ok (reflexive result)

theorem mono
    {related weaker : α → β → Prop}
    {first : Except Fault α}
    {second : Except Fault β}
    (same : SameOutcome related first second)
    (weaken : ∀ x y, related x y → weaker x y) :
    SameOutcome weaker first second := by
  cases same with
  | error fault =>
      exact .error fault
  | ok holds =>
      exact .ok (weaken _ _ holds)

theorem exists_of_ok_left
    {related : α → β → Prop}
    {outcome : Except Fault β}
    {result : α}
    (same : SameOutcome related (.ok result) outcome) :
    ∃ other, outcome = .ok other ∧ related result other := by
  cases same with
  | ok holds =>
      exact ⟨_, rfl, holds⟩

theorem exists_of_ok_right
    {related : α → β → Prop}
    {outcome : Except Fault α}
    {result : β}
    (same : SameOutcome related outcome (.ok result)) :
    ∃ other, outcome = .ok other ∧ related other result := by
  cases same with
  | ok holds =>
      exact ⟨_, rfl, holds⟩

/-- What holds of the result of the first run may be kept beside the relation. -/
theorem and_ends
    {related : α → β → Prop}
    {allowed : Fault → Prop}
    {good : α → Prop}
    {first : Except Fault α}
    {second : Except Fault β}
    (same : SameOutcome related first second)
    (ends : Ends allowed good first) :
    SameOutcome (fun result other => related result other ∧ good result) first second := by
  cases same with
  | error fault =>
      exact .error fault
  | ok holds =>
      exact .ok ⟨holds, ends.result rfl⟩

/-- Of two runs with the same outcome one stops with a fault if the other does. -/
theorem eq_error_iff
    {related : α → β → Prop}
    {first : Except Fault α}
    {second : Except Fault β}
    (same : SameOutcome related first second)
    (fault : Fault) :
    first = .error fault ↔ second = .error fault := by
  cases same with
  | error other =>
      rw [Except.error.injEq, Except.error.injEq]
  | ok holds =>
      exact ⟨nofun, nofun⟩

/-- Steps that take related results to the same outcome go on from the same outcome. -/
theorem bind
    {related : α → β → Prop}
    {after : γ → δ → Prop}
    {first : Except Fault α}
    {second : Except Fault β}
    {next : α → Except Fault γ}
    {follow : β → Except Fault δ}
    (same : SameOutcome related first second)
    (continues : ∀ x y, related x y → SameOutcome after (next x) (follow y)) :
    SameOutcome after (first >>= next) (second >>= follow) := by
  cases same with
  | error fault =>
      exact .error fault
  | ok holds =>
      exact continues _ _ holds

/-- Steps that lead from a result to what is related to it go on from the first run alone. -/
theorem bind_left
    {related : α → β → Prop}
    {after : γ → β → Prop}
    {first : Except Fault α}
    {second : Except Fault β}
    {next : α → Except Fault γ}
    (same : SameOutcome related first second)
    (continues : ∀ x y, related x y → SameOutcome after (next x) (.ok y)) :
    SameOutcome after (first >>= next) second := by
  cases same with
  | error fault =>
      exact .error fault
  | ok holds =>
      exact continues _ _ holds

/-- Two computations that begin with one and the same step. -/
theorem bind_common
    {after : γ → δ → Prop}
    {next : α → Except Fault γ}
    {follow : α → Except Fault δ}
    (common : Except Fault α)
    (continues : ∀ result, SameOutcome after (next result) (follow result)) :
    SameOutcome after (common >>= next) (common >>= follow) := by
  cases common with
  | error fault =>
      exact .error fault
  | ok result =>
      exact continues result

end SameOutcome

/-- What a fault is, apart from the names, texts and counts that its message shows. -/
inductive FaultKind where
  | unexpectedEnd
  | missingClose
  | numberTooLarge
  | trailingTokens
  | undefinedVariable
  | undefinedFunction
  | notAFunction
  | invalidForm
  | wrongType
  | wrongArity
  | divisionByZero
  | emptyList
  | unrecognized
  | tooDeep
  | tooManyDigits
  deriving Repr, DecidableEq

/-- The kind of a parse error. -/
def ParseError.kind : ParseError → FaultKind
  | .unexpectedEnd => .unexpectedEnd
  | .missingClose => .missingClose
  | .numberTooLarge _ => .numberTooLarge
  | .trailingTokens _ => .trailingTokens

/-- The kind of an evaluation error. -/
def EvalError.kind : EvalError → FaultKind
  | .undefinedVariable _ => .undefinedVariable
  | .undefinedFunction _ => .undefinedFunction
  | .notAFunction _ => .notAFunction
  | .invalidForm _ => .invalidForm
  | .wrongType _ => .wrongType
  | .wrongArity _ _ _ => .wrongArity
  | .divisionByZero => .divisionByZero
  | .emptyList _ => .emptyList
  | .unrecognized _ => .unrecognized

/-- The kind of a fault. -/
def Fault.kind : Fault → FaultKind
  | .parse error => error.kind
  | .eval error => error.kind
  | .tooDeep => .tooDeep
  | .tooManyDigits => .tooManyDigits

/-- Two outcomes that are related faults, or results that are related. -/
inductive Corresponds
    {ε ε' α β : Type}
    (faults : ε → ε' → Prop)
    (related : α → β → Prop) :
    Except ε α → Except ε' β → Prop where
  | error {fault : ε} {other : ε'} (same : faults fault other) :
      Corresponds faults related (.error fault) (.error other)
  | ok {first : α} {second : β} (holds : related first second) :
      Corresponds faults related (.ok first) (.ok second)

namespace Corresponds

variable {ε ε' α β γ δ : Type} {faults : ε → ε' → Prop} {related : α → β → Prop}

theorem refl
    {faults : ε → ε → Prop}
    {related : α → α → Prop}
    (sameFault : ∀ fault, faults fault fault)
    (sameResult : ∀ result, related result result)
    (outcome : Except ε α) :
    Corresponds faults related outcome outcome := by
  cases outcome with
  | error fault =>
      exact .error (sameFault fault)
  | ok result =>
      exact .ok (sameResult result)

theorem mono
    {weaker : α → β → Prop}
    {first : Except ε α}
    {second : Except ε' β}
    (similar : Corresponds faults related first second)
    (weaken : ∀ x y, related x y → weaker x y) :
    Corresponds faults weaker first second := by
  cases similar with
  | error same =>
      exact .error same
  | ok holds =>
      exact .ok (weaken _ _ holds)

/-- Steps that take related results to corresponding outcomes go on from corresponding outcomes. -/
theorem bind
    {after : γ → δ → Prop}
    {first : Except ε α}
    {second : Except ε' β}
    {next : α → Except ε γ}
    {follow : β → Except ε' δ}
    (similar : Corresponds faults related first second)
    (continues : ∀ x y, related x y → Corresponds faults after (next x) (follow y)) :
    Corresponds faults after (first >>= next) (second >>= follow) := by
  cases similar with
  | error same =>
      exact .error same
  | ok holds =>
      exact continues _ _ holds

theorem map
    {after : γ → δ → Prop}
    {first : Except ε α}
    {second : Except ε' β}
    {change : α → γ}
    {alter : β → δ}
    (similar : Corresponds faults related first second)
    (carries : ∀ x y, related x y → after (change x) (alter y)) :
    Corresponds faults after (first.map change) (second.map alter) := by
  cases similar with
  | error same =>
      exact .error same
  | ok holds =>
      exact .ok (carries _ _ holds)

end Corresponds

end MiniLisp
