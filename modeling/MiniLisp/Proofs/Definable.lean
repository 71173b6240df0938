import Mathlib.Data.List.Basic
import MiniLisp.Evaluation
import MiniLisp.Proofs.Outcome

namespace MiniLisp

/-!
# What evaluation can define

Definitions may stand in any argument position, and the bindings they leave go
on to whatever is evaluated next.  `Datum.definable` reads off an expression
which names it can bind where it is evaluated: those of its definitions that
stand neither in the body of a procedure nor in a procedure application.

Evaluation changes bindings at these names only, and what was bound stays bound.
As for lexical scope, the law is proved for one level at a time under the
assumption that the levels below obey it, with a list of names that stays the
same while the bindings go from one argument to the next.
-/

namespace Datum

mutual

/-- The names that evaluating an expression can bind in the bindings it is evaluated in. -/
def definable : Datum → List String
  | .list [.word (.specialForm .definition), .name text, body] => text :: body.definable
  | .list [.word (.specialForm .definition), .list (.name text :: _), _] => [text]
  | .list (.word (.specialForm .conditional) :: args) => definableIn args
  | .list (.word (.arithmetic _) :: args) => definableIn args
  | .list (.word (.comparison _) :: args) => definableIn args
  | .list (.word (.connective _) :: args) => definableIn args
  | .list (.word (.listOperation _) :: args) => definableIn args
  | _ => []

/-- The names that evaluating expressions in turn can bind. -/
def definableIn : List Datum → List String
  | [] => []
  | item :: rest => item.definable ++ definableIn rest

end

theorem definable_subset_definableIn
    {item : Datum}
    {items : List Datum}
    (member : item ∈ items) :
    item.definable ⊆ definableIn items := by
  induction items with
  | nil =>
      cases member
  | cons first rest inductionHypothesis =>
      intro name definable
      rw [definableIn, List.mem_append]
      rcases List.mem_cons.mp member with rfl | inRest
      · exact .inl definable
      · exact .inr (inductionHypothesis inRest definable)

end Datum

/-- Bindings that differ from earlier ones at given names only, and have no name unbound. -/
structure ExtendedBy (names : List String) (before after : Env) : Prop where
  unchanged (name : String) (outside : name ∉ names) : after.get? name = before.get? name
  bound (name : String) (was : (before.get? name).isSome) : (after.get? name).isSome

namespace ExtendedBy

variable {names : List String} {before middle after : Env}

theorem refl (names : List String) (env : Env) : ExtendedBy names env env where
  unchanged _ _ := rfl
  bound _ was := was

theorem trans
    (first : ExtendedBy names before middle)
    (second : ExtendedBy names middle after) :
    ExtendedBy names before after where
  unchanged name outside :=
    (second.unchanged name outside).trans (first.unchanged name outside)
  bound name was := second.bound name (first.bound name was)

theorem mono
    {more : List String}
    (extended : ExtendedBy names before after)
    (included : names ⊆ more) :
    ExtendedBy more before after where
  unchanged name outside := extended.unchanged name fun inside => outside (included inside)
  bound := extended.bound

/-- Binding one of the names is such a change. -/
theorem insert
    (extended : ExtendedBy names before after)
    {name : String}
    (member : name ∈ names)
    (value : Datum) :
    ExtendedBy names before (after.insert name value) where
  unchanged other outside := by
    have different : other ≠ name := by
      rintro rfl
      exact outside member
    rw [Bindings.get?_insert, if_neg different]
    exact extended.unchanged other outside
  bound other was := by
    rw [Bindings.get?_insert]
    split
    · rfl
    · exact extended.bound other was

end ExtendedBy

/-- If there is a result, its bindings differ from given ones at given names only. -/
def Leaves {α : Type} (names : List String) (env : Env) : Except Fault (α × Env) → Prop :=
  Ends (fun _ => True) fun result => ExtendedBy names env result.2

/-- An evaluator that changes bindings only where the expression can define something. -/
def Evaluator.Framed (eval : Evaluator) : Prop :=
  ∀ (expression : Datum) (env : Env), Leaves expression.definable env (eval expression env)

section Forms

variable {eval : Evaluator} {print : Printer} {names : List String} {env : Env}

theorem Evaluator.Framed.leaves
    (framed : eval.Framed)
    {expression : Datum}
    (included : expression.definable ⊆ names)
    {before : Env}
    (extended : ExtendedBy names before env) :
    Leaves names before (eval expression env) :=
  (framed expression env).mono fun _ changed => extended.trans (changed.mono included)

theorem lookUp_leaves (name : String) : Leaves names env (lookUp name env) := by
  unfold lookUp
  split
  · exact .ok (.refl names env)
  · exact .error trivial

theorem evaluateArgs_leaves
    (framed : eval.Framed)
    {args : List Datum}
    (included : ∀ arg ∈ args, arg.definable ⊆ names)
    {before : Env}
    (extended : ExtendedBy names before env) :
    Leaves names before (evaluateArgs eval args env) := by
  induction args generalizing env with
  | nil =>
      exact .ok extended
  | cons arg rest inductionHypothesis =>
      refine (framed.leaves (included arg (by simp)) extended).bind ?_
      rintro ⟨value, next⟩ nextExtended
      have restRun :=
        inductionHypothesis (fun arg member => included arg (by simp [member])) nextExtended
      refine restRun.bind ?_
      rintro ⟨values, final⟩ finalExtended
      exact .ok finalExtended

theorem evaluateUntil_leaves
    (framed : eval.Framed)
    (decisive : Datum → Bool)
    (value : Datum)
    {args : List Datum}
    (included : ∀ arg ∈ args, arg.definable ⊆ names)
    {before : Env}
    (extended : ExtendedBy names before env) :
    Leaves names before (evaluateUntil eval decisive value args env) := by
  induction args generalizing value env with
  | nil =>
      exact .ok extended
  | cons arg rest inductionHypothesis =>
      refine (framed.leaves (included arg (by simp)) extended).bind ?_
      rintro ⟨next, left⟩ leftExtended
      dsimp only at leftExtended ⊢
      split
      · exact .ok leftExtended
      · exact inductionHypothesis next
          (fun arg member => included arg (by simp [member])) leftExtended

theorem evaluateConditional_leaves
    (framed : eval.Framed)
    {condition consequence : Datum}
    {alternative? : Option Datum}
    (conditionIncluded : condition.definable ⊆ names)
    (consequenceIncluded : consequence.definable ⊆ names)
    (alternativeIncluded : ∀ alternative ∈ alternative?, alternative.definable ⊆ names) :
    Leaves names env (evaluateConditional eval condition consequence alternative? env) := by
  refine (framed.leaves conditionIncluded (.refl names env)).bind ?_
  rintro ⟨value, next⟩ nextExtended
  dsimp only at nextExtended ⊢
  split
  · exact framed.leaves consequenceIncluded nextExtended
  · cases alternative? with
    | none =>
        exact .ok nextExtended
    | some alternative =>
        exact framed.leaves (alternativeIncluded alternative rfl) nextExtended

/-- A definition binds its name, over what its value has defined. -/
theorem evaluateDefinition_leaves
    (framed : eval.Framed)
    (target body : Datum) :
    Leaves (Datum.definable (.list [.word (.specialForm .definition), target, body])) env
      (evaluateDefinition eval print target body env) := by
  unfold evaluateDefinition
  split
  · next text =>
      have included : body.definable ⊆ text :: body.definable :=
        fun _ member => List.mem_cons_of_mem text member
      refine (framed.leaves included (.refl _ env)).bind ?_
      rintro ⟨value, next⟩ nextExtended
      exact .ok (nextExtended.insert List.mem_cons_self value)
  · next text params =>
      refine .bind_any _ fun paramNames => ?_
      exact .ok ((ExtendedBy.refl [text] env).insert List.mem_cons_self _)
  · exact .bind_any _ fun text => .error trivial

theorem evaluateSpecialForm_leaves
    (framed : eval.Framed)
    (form : SpecialForm)
    (args : List Datum) :
    Leaves (Datum.definable (.list (.word (.specialForm form) :: args))) env
      (evaluateSpecialForm eval print form args env) := by
  unfold evaluateSpecialForm
  split
  · next condition consequence =>
      exact evaluateConditional_leaves framed
        (Datum.definable_subset_definableIn (by simp))
        (Datum.definable_subset_definableIn (by simp)) (by simp)
  · next condition consequence alternative =>
      refine evaluateConditional_leaves framed
        (Datum.definable_subset_definableIn (by simp))
        (Datum.definable_subset_definableIn (by simp)) ?_
      rintro other ⟨⟩
      exact Datum.definable_subset_definableIn (by simp)
  · exact .error trivial
  · next target body =>
      exact evaluateDefinition_leaves framed target body
  · exact .error trivial
  · next params body =>
      exact .bind_any _ fun paramNames => .ok (.refl _ env)
  · exact .error trivial

theorem evaluateConnective_leaves
    (framed : eval.Framed)
    (op : Connective)
    {args : List Datum}
    (included : ∀ arg ∈ args, arg.definable ⊆ names) :
    Leaves names env (evaluateConnective eval op args env) := by
  unfold evaluateConnective
  split
  · exact evaluateUntil_leaves framed _ _ included (.refl names env)
  · exact evaluateUntil_leaves framed _ _ included (.refl names env)
  · next arg =>
      refine (framed.leaves (included arg (by simp)) (.refl names env)).bind ?_
      rintro ⟨value, next⟩ nextExtended
      exact .ok nextExtended
  · exact .error trivial

theorem evaluateListOperation_leaves
    (framed : eval.Framed)
    (op : ListOperation)
    {args : List Datum}
    (included : ∀ arg ∈ args, arg.definable ⊆ names) :
    Leaves names env (evaluateListOperation eval op args env) := by
  unfold evaluateListOperation
  split
  · exact .error trivial
  · refine (evaluateArgs_leaves framed included (.refl names env)).bind ?_
    rintro ⟨values, next⟩ nextExtended
    exact .bind_any _ fun value => .ok nextExtended

/-- An operation on the numbers that the arguments are leaves the bindings as the arguments do. -/
theorem evaluateNumeric_leaves
    {α : Type}
    (framed : eval.Framed)
    (word : Word)
    (apply : List Number → Except EvalError α)
    (wrap : α → Datum)
    {args : List Datum}
    (included : ∀ arg ∈ args, arg.definable ⊆ names) :
    Leaves names env (do
      let (values, next) ← evaluateArgs eval args env
      let numbers ← liftEval (demandNumbers word values)
      let value ← liftEval (apply numbers)
      .ok (wrap value, next)) := by
  refine (evaluateArgs_leaves framed included (.refl names env)).bind ?_
  rintro ⟨values, next⟩ nextExtended
  exact .bind_any _ fun numbers => .bind_any _ fun value => .ok nextExtended

theorem evaluateForm_leaves
    (framed : eval.Framed)
    (word : Word)
    (args : List Datum) :
    Leaves (Datum.definable (.list (.word word :: args))) env
      (evaluateForm eval print word args env) := by
  have included (arg : Datum) (member : arg ∈ args) :
      arg.definable ⊆ Datum.definableIn args :=
    Datum.definable_subset_definableIn member
  cases word with
  | arithmetic op =>
      exact evaluateNumeric_leaves framed _ (applyArithmetic op) .number included
  | comparison op =>
      exact evaluateNumeric_leaves framed _ (applyComparison op) .bool included
  | connective op =>
      exact evaluateConnective_leaves framed op included
  | listOperation op =>
      exact evaluateListOperation_leaves framed op included
  | specialForm form =>
      exact evaluateSpecialForm_leaves framed form args
  | unassigned word =>
      exact .bind_any _ fun text => .error trivial

end Forms

/-- A call by name gives back the bindings that it began with. -/
theorem evaluateNamedCall_returns_env
    (eval : Evaluator)
    (name : String)
    (args : List Datum)
    (env : Env) :
    Ends (fun _ => True) (fun result => result.2 = env)
      (evaluateNamedCall eval name args env) := by
  unfold evaluateNamedCall
  split
  · exact .error trivial
  · exact .bind_any _ fun value => .ok rfl
  · exact .error trivial

/-- A call of what an expression gives does so too, whatever the expression has defined. -/
theorem evaluateComputedCall_returns_env
    (eval : Evaluator)
    (print : Printer)
    (head : Datum)
    (args : List Datum)
    (env : Env) :
    Ends (fun _ => True) (fun result => result.2 = env)
      (evaluateComputedCall eval print head args env) := by
  refine .bind_any _ ?_
  rintro ⟨value, next⟩
  dsimp only
  split
  · exact .bind_any _ fun result => .ok rfl
  · exact .bind_any _ fun text => .error trivial

/-- One level of evaluation changes only what can be defined if the levels below do. -/
theorem evaluateStep_framed
    {eval : Evaluator}
    (framed : eval.Framed)
    (print : Printer) :
    Evaluator.Framed (evaluateStep eval print) := by
  intro expression env
  have kept {result : Datum × Env} (same : result.2 = env) : ExtendedBy [] env result.2 := by
    rw [same]
    exact .refl [] env
  unfold evaluateStep
  split
  · exact .ok (.refl _ env)
  · exact .ok (.refl _ env)
  · exact lookUp_leaves _
  · exact lookUp_leaves _
  · next word args =>
      exact evaluateForm_leaves framed word args
  · next text args =>
      exact (evaluateNamedCall_returns_env eval text args env).mono fun _ same => kept same
  · next items args =>
      exact (evaluateComputedCall_returns_env eval print (.list items) args env).mono
        fun _ same => kept same
  · exact .bind_any _ fun text => .error trivial

theorem evaluate_framed (limit : Nat) : Evaluator.Framed (evaluate limit) := by
  induction limit with
  | zero =>
      intro expression env
      exact .error trivial
  | succ limit inductionHypothesis =>
      exact evaluateStep_framed inductionHypothesis (Datum.render limit)

/--
Evaluation changes bindings only at names that the expression can define, and
unbinds none.  A call gives back the very bindings that it began with, whatever
its head, its arguments and the body of the procedure define.
-/
theorem evaluate_changes_only_definable
    (limit : Nat)
    (expression value : Datum)
    (env next : Env)
    (run : evaluate limit expression env = .ok (value, next)) :
    (∀ name, name ∉ expression.definable → next.get? name = env.get? name) ∧
      (∀ name, (env.get? name).isSome → (next.get? name).isSome) ∧
      (∀ name args, expression = .list (.name name :: args) → next = env) ∧
      (∀ items args, expression = .list (.list items :: args) → next = env) := by
  have extended := (evaluate_framed limit expression env).result run
  refine ⟨extended.unchanged, extended.bound, ?_, ?_⟩
  · rintro name args rfl
    cases limit with
    | zero =>
        cases run
    | succ below =>
        exact (evaluateNamedCall_returns_env (evaluate below) name args env).result run
  · rintro items args rfl
    cases limit with
    | zero =>
        cases run
    | succ below =>
        exact (evaluateComputedCall_returns_env
          (evaluate below) (Datum.render below) (.list items) args env).result run

/-- The first item defines `x`; the second is a call, so that what its body defines is lost. -/
theorem evaluate_changes_only_definable_call :
    evaluate 4
        (.list
          [.word (.listOperation .enumerate),
           .list [.word (.specialForm .definition), .name "x", .bool false],
           .list
            [.list
              [.word (.specialForm .abstraction),
               .list [],
               .list [.word (.specialForm .definition), .name "y", .name "x"]]]])
        (.ofList [("y", .bool true)]) =
      .ok (.list [.name "x", .name "y"], .ofList [("y", .bool true), ("x", .bool false)]) ∧
    ∀ name, name ∉ ["x"] →
      (Bindings.ofList [("y", Datum.bool true), ("x", .bool false)]).get? name =
        (Bindings.ofList [("y", Datum.bool true)]).get? name := by
  have run :
      evaluate 4
          (.list
            [.word (.listOperation .enumerate),
             .list [.word (.specialForm .definition), .name "x", .bool false],
             .list
              [.list
                [.word (.specialForm .abstraction),
                 .list [],
                 .list [.word (.specialForm .definition), .name "y", .name "x"]]]])
          (.ofList [("y", .bool true)]) =
        .ok (.list [.name "x", .name "y"], .ofList [("y", .bool true), ("x", .bool false)]) := by
    rfl
  exact ⟨run, (evaluate_changes_only_definable 4 _ _ _ _ run).1⟩

end MiniLisp
