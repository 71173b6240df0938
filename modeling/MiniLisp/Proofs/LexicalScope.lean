import MiniLisp.Proofs.Alike

namespace MiniLisp

/-!
# Lexical scope

An expression is evaluated twice, in bindings that agree on the names it
mentions.  Both runs stop with the same fault, or give alike values and leave
bindings that still agree on these names.  The law is proved for one level of
evaluation at a time, under the assumption that the evaluator of the levels
below respects it; induction on the number of levels then gives it for all.

The set of names is kept larger than what the expression at hand mentions, so
that it stays the same while the bindings go from one argument to the next.
-/

/-- Everything that an expression mentions belongs to a set of names. -/
def Datum.Within (expression : Datum) (scope : Set String) : Prop :=
  ∀ name ∈ expression.mentioned, name ∈ scope

theorem Datum.Within.member
    {items : List Datum}
    {scope : Set String}
    (within : (Datum.list items).Within scope)
    {item : Datum}
    (member : item ∈ items) :
    item.Within scope :=
  fun name mentions => within name (mem_mentionedIn.mpr ⟨item, member, mentions⟩)

/-- Results of two runs: alike values, and bindings that agree on a set of names. -/
structure AlikeResults (scope : Set String) (first second : Datum × Env) : Prop where
  value : first.1.Alike second.1
  env : AgreeOn scope first.2 second.2

/-- An evaluator that does not tell bindings apart if they agree on what it is to evaluate. -/
def Evaluator.Respectful (eval : Evaluator) : Prop :=
  ∀ (scope : Set String) (expression : Datum) (left right : Env),
    expression.Within scope →
      AgreeOn scope left right →
        SameOutcome (AlikeResults scope) (eval expression left) (eval expression right)

section Forms

variable {eval : Evaluator} {print : Printer} {scope : Set String} {left right : Env}

theorem lookUp_alike
    (agree : AgreeOn scope left right)
    {name : String}
    (member : name ∈ scope) :
    SameOutcome (AlikeResults scope) (lookUp name left) (lookUp name right) := by
  have found := agree name member
  unfold lookUp
  generalize left.get? name = first at found ⊢
  generalize right.get? name = second at found ⊢
  cases found with
  | none =>
      exact .error _
  | some alike =>
      exact .ok ⟨alike, agree⟩

/-- Arguments are evaluated to alike values, and the bindings go on agreeing. -/
theorem evaluateArgs_alike
    (respectful : eval.Respectful)
    {args : List Datum}
    (within : ∀ arg ∈ args, arg.Within scope)
    (agree : AgreeOn scope left right) :
    SameOutcome
      (fun first second =>
        List.Forall₂ Datum.Alike first.1 second.1 ∧ AgreeOn scope first.2 second.2)
      (evaluateArgs eval args left)
      (evaluateArgs eval args right) := by
  induction args generalizing left right with
  | nil =>
      exact .ok ⟨.nil, agree⟩
  | cons arg rest inductionHypothesis =>
      have headRun := respectful scope arg left right (within arg (by simp)) agree
      refine headRun.bind ?_
      rintro ⟨value, next⟩ ⟨other, follow⟩ ⟨valueAlike, nextAgree⟩
      have restRun :=
        inductionHypothesis (fun arg member => within arg (by simp [member])) nextAgree
      refine restRun.bind ?_
      rintro ⟨values, final⟩ ⟨others, finish⟩ ⟨valuesAlike, finalAgree⟩
      exact .ok ⟨.cons valueAlike valuesAlike, finalAgree⟩

/-- A search for a decisive argument ends at the same argument. -/
theorem evaluateUntil_alike
    (respectful : eval.Respectful)
    {decisive : Datum → Bool}
    (blind : ∀ first second, Datum.Alike first second → decisive first = decisive second)
    {args : List Datum}
    (within : ∀ arg ∈ args, arg.Within scope)
    {first second : Datum}
    (alike : first.Alike second)
    (agree : AgreeOn scope left right) :
    SameOutcome (AlikeResults scope)
      (evaluateUntil eval decisive first args left)
      (evaluateUntil eval decisive second args right) := by
  induction args generalizing first second left right with
  | nil =>
      exact .ok ⟨alike, agree⟩
  | cons arg rest inductionHypothesis =>
      have headRun := respectful scope arg left right (within arg (by simp)) agree
      refine headRun.bind ?_
      rintro ⟨value, next⟩ ⟨other, follow⟩ ⟨valueAlike, nextAgree⟩
      dsimp only at valueAlike nextAgree ⊢
      rw [blind value other valueAlike]
      by_cases stops : decisive other = true
      · rw [if_pos stops, if_pos stops]
        exact .ok ⟨valueAlike, nextAgree⟩
      · rw [if_neg stops, if_neg stops]
        exact inductionHypothesis
          (fun arg member => within arg (by simp [member])) valueAlike nextAgree

theorem evaluateConditional_alike
    (respectful : eval.Respectful)
    {condition consequence : Datum}
    {alternative? : Option Datum}
    (conditionWithin : condition.Within scope)
    (consequenceWithin : consequence.Within scope)
    (alternativeWithin : ∀ alternative ∈ alternative?, alternative.Within scope)
    (agree : AgreeOn scope left right) :
    SameOutcome (AlikeResults scope)
      (evaluateConditional eval condition consequence alternative? left)
      (evaluateConditional eval condition consequence alternative? right) := by
  refine (respectful scope condition left right conditionWithin agree).bind ?_
  rintro ⟨value, next⟩ ⟨other, follow⟩ ⟨valueAlike, nextAgree⟩
  dsimp only at valueAlike nextAgree ⊢
  rw [valueAlike.isTrue_eq]
  by_cases holds : other.isTrue = true
  · rw [if_pos holds, if_pos holds]
    exact respectful scope consequence next follow consequenceWithin nextAgree
  · rw [if_neg holds, if_neg holds]
    cases alternative? with
    | none =>
        exact .ok ⟨.same .nil, nextAgree⟩
    | some alternative =>
        exact respectful scope alternative next follow
          (alternativeWithin alternative rfl) nextAgree

/-- A procedure made in agreeing bindings is alike if they agree on what its body mentions. -/
theorem Datum.Alike.of_agreeOn
    {body : Datum}
    (within : body.Within scope)
    (agree : AgreeOn scope left right)
    (name : Option String)
    (params : List String) :
    Datum.Alike
      (.procedure ⟨name, params, body, left⟩)
      (.procedure ⟨name, params, body, right⟩) :=
  .procedure fun text mentions => agree text (within text mentions)

/-- A definition binds the same name to alike data. -/
theorem evaluateDefinition_alike
    (respectful : eval.Respectful)
    (target : Datum)
    {body : Datum}
    (within : body.Within scope)
    (agree : AgreeOn scope left right) :
    SameOutcome (AlikeResults scope)
      (evaluateDefinition eval print target body left)
      (evaluateDefinition eval print target body right) := by
  unfold evaluateDefinition
  split
  · next text =>
      refine (respectful scope body left right within agree).bind ?_
      rintro ⟨value, next⟩ ⟨other, follow⟩ ⟨valueAlike, nextAgree⟩
      exact .ok ⟨.same _, nextAgree.insert text valueAlike⟩
  · next text params =>
      refine .bind_common _ fun names => ?_
      have closureAlike := Datum.Alike.of_agreeOn within agree (some text) names
      exact .ok ⟨.same _, agree.insert text closureAlike⟩
  · refine .bind_common _ fun text => ?_
    exact .error _

theorem evaluateSpecialForm_alike
    (respectful : eval.Respectful)
    (form : SpecialForm)
    {args : List Datum}
    (within : ∀ arg ∈ args, arg.Within scope)
    (agree : AgreeOn scope left right) :
    SameOutcome (AlikeResults scope)
      (evaluateSpecialForm eval print form args left)
      (evaluateSpecialForm eval print form args right) := by
  unfold evaluateSpecialForm
  split
  · next condition consequence =>
      exact evaluateConditional_alike respectful
        (within condition (by simp)) (within consequence (by simp)) (by simp) agree
  · next condition consequence alternative =>
      exact evaluateConditional_alike respectful
        (within condition (by simp)) (within consequence (by simp))
        (by simpa using within alternative (by simp)) agree
  · exact .error _
  · next target body =>
      exact evaluateDefinition_alike respectful target (within body (by simp)) agree
  · exact .error _
  · next params body =>
      refine .bind_common _ fun names => ?_
      exact .ok ⟨.of_agreeOn (within body (by simp)) agree none names, agree⟩
  · exact .error _

theorem evaluateConnective_alike
    (respectful : eval.Respectful)
    (op : Connective)
    {args : List Datum}
    (within : ∀ arg ∈ args, arg.Within scope)
    (agree : AgreeOn scope left right) :
    SameOutcome (AlikeResults scope)
      (evaluateConnective eval op args left)
      (evaluateConnective eval op args right) := by
  unfold evaluateConnective
  split
  · refine evaluateUntil_alike respectful ?_ within (.same _) agree
    intro first second alike
    rw [alike.isTrue_eq]
  · exact evaluateUntil_alike respectful
      (fun _ _ alike => alike.isTrue_eq) within (.same _) agree
  · next arg =>
      refine (respectful scope arg left right (within arg (by simp)) agree).bind ?_
      rintro ⟨value, next⟩ ⟨other, follow⟩ ⟨valueAlike, nextAgree⟩
      dsimp only at valueAlike nextAgree ⊢
      rw [valueAlike.isTrue_eq]
      exact .ok ⟨.same _, nextAgree⟩
  · exact .error _

theorem SameOutcome.liftEval
    {α : Type}
    {related : α → α → Prop}
    {first second : Except EvalError α}
    (similar : Corresponds Eq related first second) :
    SameOutcome related (MiniLisp.liftEval first) (MiniLisp.liftEval second) := by
  cases similar with
  | error same =>
      rw [same]
      exact .error _
  | ok holds =>
      exact .ok holds

theorem evaluateListOperation_alike
    (respectful : eval.Respectful)
    (op : ListOperation)
    {args : List Datum}
    (within : ∀ arg ∈ args, arg.Within scope)
    (agree : AgreeOn scope left right) :
    SameOutcome (AlikeResults scope)
      (evaluateListOperation eval op args left)
      (evaluateListOperation eval op args right) := by
  unfold evaluateListOperation
  split
  · exact .error _
  · refine (evaluateArgs_alike respectful within agree).bind ?_
    rintro ⟨values, next⟩ ⟨others, follow⟩ ⟨valuesAlike, nextAgree⟩
    refine (SameOutcome.liftEval (Datum.Alike.congruence.applyListOperation op valuesAlike)).bind ?_
    intro value other valueAlike
    exact .ok ⟨valueAlike, nextAgree⟩

/-- The frames of alike procedures called with alike values agree on what the body mentions. -/
theorem Closure.frame_agreeOn
    {procedure : Procedure}
    {env : Env}
    (captured :
      AgreeOn { name | name ∈ procedure.body.mentioned } procedure.env env)
    {values others : List Datum}
    (alike : List.Forall₂ Datum.Alike values others) :
    AgreeOn { name | name ∈ procedure.body.mentioned }
      (procedure.frame values)
      (Closure.frame { procedure with env := env } others) := by
  refine captured.insertAll (List.rel_append ?_ ?_)
  · -- The procedure's own name: the two procedures themselves are alike.
    rw [List.forall₂_map_left_iff, List.forall₂_map_right_iff]
    exact List.forall₂_same.mpr fun name _ => ⟨rfl, .procedure captured⟩
  · exact zip_alike procedure.params alike

/-- Alike procedures give alike results for alike values. -/
theorem applyProcedure_alike
    (respectful : eval.Respectful)
    {procedure : Procedure}
    {env : Env}
    (captured :
      AgreeOn { name | name ∈ procedure.body.mentioned } procedure.env env)
    {values others : List Datum}
    (alike : List.Forall₂ Datum.Alike values others) :
    SameOutcome Datum.Alike
      (applyProcedure eval procedure values)
      (applyProcedure eval { procedure with env := env } others) := by
  unfold applyProcedure
  rw [alike.length_eq]
  by_cases fits : others.length = procedure.params.length
  · rw [if_pos fits, if_pos fits]
    -- The scope changes here: in the body it is what the body mentions.
    have bodyRun :=
      respectful _ procedure.body _ _ (fun _ mentions => mentions)
        (Closure.frame_agreeOn captured alike)
    refine bodyRun.bind fun first second results => ?_
    exact .ok results.value
  · rw [if_neg fits, if_neg fits]
    exact .error _

theorem evaluateCall_alike
    (respectful : eval.Respectful)
    {procedure : Procedure}
    {env : Env}
    (captured :
      AgreeOn { name | name ∈ procedure.body.mentioned } procedure.env env)
    {args : List Datum}
    (within : ∀ arg ∈ args, arg.Within scope)
    (agree : AgreeOn scope left right) :
    SameOutcome Datum.Alike
      (evaluateCall eval procedure args left)
      (evaluateCall eval { procedure with env := env } args right) := by
  refine (evaluateArgs_alike respectful within agree).bind ?_
  rintro ⟨values, next⟩ ⟨others, follow⟩ ⟨valuesAlike, _⟩
  exact applyProcedure_alike respectful captured valuesAlike

/-- A call by name finds alike procedures in agreeing bindings. -/
theorem evaluateNamedCall_alike
    (respectful : eval.Respectful)
    {name : String}
    (member : name ∈ scope)
    {args : List Datum}
    (within : ∀ arg ∈ args, arg.Within scope)
    (agree : AgreeOn scope left right) :
    SameOutcome (AlikeResults scope)
      (evaluateNamedCall eval name args left)
      (evaluateNamedCall eval name args right) := by
  have found := agree name member
  unfold evaluateNamedCall
  generalize left.get? name = first at found ⊢
  generalize right.get? name = second at found ⊢
  cases found with
  | none =>
      exact .error _
  | @some value other alike =>
      cases value with
      | procedure procedure =>
          obtain ⟨env, rfl, captured⟩ := alike.procedure_inv
          refine (evaluateCall_alike respectful captured within agree).bind ?_
          intro result otherResult resultAlike
          exact .ok ⟨resultAlike, agree⟩
      | _ =>
          cases alike <;> exact .error _

theorem evaluateComputedCall_alike
    (respectful : eval.Respectful)
    {head : Datum}
    (headWithin : head.Within scope)
    {args : List Datum}
    (within : ∀ arg ∈ args, arg.Within scope)
    (agree : AgreeOn scope left right) :
    SameOutcome (AlikeResults scope)
      (evaluateComputedCall eval print head args left)
      (evaluateComputedCall eval print head args right) := by
  refine (respectful scope head left right headWithin agree).bind ?_
  rintro ⟨value, next⟩ ⟨other, follow⟩ ⟨alike, nextAgree⟩
  dsimp only at alike nextAgree ⊢
  cases value with
  | procedure procedure =>
      obtain ⟨env, rfl, captured⟩ := alike.procedure_inv
      refine (evaluateCall_alike respectful captured within nextAgree).bind ?_
      -- A call gives back the bindings that it began with, whatever the head bound.
      intro result otherResult resultAlike
      exact .ok ⟨resultAlike, agree⟩
  | _ =>
      cases alike <;> exact .bind_common _ fun _ => .error _

/-- An operation on the numbers that the arguments are respects agreement of bindings. -/
theorem evaluateNumeric_alike
    {α : Type}
    (respectful : eval.Respectful)
    (word : Word)
    (apply : List Number → Except EvalError α)
    (wrap : α → Datum)
    {args : List Datum}
    (within : ∀ arg ∈ args, arg.Within scope)
    (agree : AgreeOn scope left right) :
    SameOutcome (AlikeResults scope)
      (do
        let (values, next) ← evaluateArgs eval args left
        let numbers ← liftEval (demandNumbers word values)
        let value ← liftEval (apply numbers)
        .ok (wrap value, next))
      (do
        let (values, next) ← evaluateArgs eval args right
        let numbers ← liftEval (demandNumbers word values)
        let value ← liftEval (apply numbers)
        .ok (wrap value, next)) := by
  refine (evaluateArgs_alike respectful within agree).bind ?_
  rintro ⟨values, next⟩ ⟨others, follow⟩ ⟨valuesAlike, nextAgree⟩
  dsimp only at valuesAlike nextAgree ⊢
  rw [Datum.Alike.congruence.demandNumbers_eq word valuesAlike]
  refine .bind_common _ fun numbers => .bind_common _ fun value => ?_
  exact .ok ⟨.same _, nextAgree⟩

theorem evaluateForm_alike
    (respectful : eval.Respectful)
    (word : Word)
    {args : List Datum}
    (within : ∀ arg ∈ args, arg.Within scope)
    (agree : AgreeOn scope left right) :
    SameOutcome (AlikeResults scope)
      (evaluateForm eval print word args left)
      (evaluateForm eval print word args right) := by
  cases word with
  | arithmetic op =>
      exact evaluateNumeric_alike respectful _ (applyArithmetic op) .number within agree
  | comparison op =>
      exact evaluateNumeric_alike respectful _ (applyComparison op) .bool within agree
  | connective op =>
      exact evaluateConnective_alike respectful op within agree
  | listOperation op =>
      exact evaluateListOperation_alike respectful op within agree
  | specialForm form =>
      exact evaluateSpecialForm_alike respectful form within agree
  | unassigned _ =>
      exact .bind_common _ fun _ => .error _

/-- One level of evaluation respects agreement of bindings if the levels below do. -/
theorem evaluateStep_respectful
    (respectful : eval.Respectful)
    (print : Printer) :
    Evaluator.Respectful (evaluateStep eval print) := by
  intro scope expression left right within agree
  unfold evaluateStep
  split
  · exact .ok ⟨.same _, agree⟩
  · exact .ok ⟨.same _, agree⟩
  · next word =>
      exact lookUp_alike agree (within word.text (by simp [Datum.mentioned]))
  · next text =>
      exact lookUp_alike agree (within text (by simp [Datum.mentioned]))
  · next word args =>
      exact evaluateForm_alike respectful word
        (fun arg member => within.member (by simp [member])) agree
  · next text args =>
      exact evaluateNamedCall_alike respectful
        (within text (by simp [Datum.mentioned, Datum.mentionedIn]))
        (fun arg member => within.member (by simp [member])) agree
  · next items args =>
      exact evaluateComputedCall_alike respectful (within.member (by simp))
        (fun arg member => within.member (by simp [member])) agree
  · exact .bind_common _ fun _ => .error _

end Forms

/-- Evaluation does not tell bindings apart if they agree on what it is to evaluate. -/
theorem evaluate_respectful (limit : Nat) : Evaluator.Respectful (evaluate limit) := by
  induction limit with
  | zero =>
      intro scope expression left right _ _
      exact .error _
  | succ limit inductionHypothesis =>
      exact evaluateStep_respectful inductionHypothesis (Datum.render limit)

/--
Results of two runs that no text shows to be different: the values, and the data
bound to some names, differ at most in what procedures captured.
-/
structure IndistinctResults (names : List String) (first second : Datum × Env) : Prop where
  value : first.1.Indistinct second.1
  env :
    ∀ name ∈ names,
      Option.Rel Datum.Indistinct (first.2.get? name) (second.2.get? name)

/-- Alike data bound to the names that are looked at have the same texts. -/
theorem AlikeResults.indistinct
    {names : List String}
    {first second : Datum × Env}
    (alike : AlikeResults { name | name ∈ names } first second) :
    IndistinctResults names first second where
  value := alike.value.indistinct
  env := by
    intro name member
    have bound := alike.env name member
    generalize first.2.get? name = value at bound ⊢
    generalize second.2.get? name = other at bound ⊢
    cases bound with
    | none =>
        exact .none
    | some bothAlike =>
        exact .some bothAlike.indistinct

/--
Bindings of names that an expression does not mention cannot be observed: in
bindings that are equal on the names it mentions, evaluation gives the same
fault, or results that no text shows to be different.
-/
theorem evaluate_unmentioned_irrelevant
    (limit : Nat)
    (expression : Datum)
    (left right : Env)
    (agree : ∀ name ∈ expression.mentioned, left.get? name = right.get? name) :
    SameOutcome (IndistinctResults expression.mentioned)
      (evaluate limit expression left)
      (evaluate limit expression right) := by
  have results :=
    evaluate_respectful limit { name | name ∈ expression.mentioned } expression left right
      (fun _ mentions => mentions) (.of_get?_eq agree)
  exact results.mono fun first second alike => alike.indistinct

/-- The two procedures made here capture different bindings: one has `z` and the other has not. -/
theorem evaluate_unmentioned_irrelevant_capture :
    (∀ name ∈ (Datum.list [.word (.specialForm .abstraction), .list [], .name "y"]).mentioned,
      (Bindings.ofList [("y", Datum.bool true), ("z", .nil)]).get? name =
        (Bindings.ofList [("y", Datum.bool true)]).get? name) ∧
    SameOutcome (IndistinctResults ["lambda", "y"])
      (evaluate 2
        (.list [.word (.specialForm .abstraction), .list [], .name "y"])
        (.ofList [("y", .bool true), ("z", .nil)]))
      (evaluate 2
        (.list [.word (.specialForm .abstraction), .list [], .name "y"])
        (.ofList [("y", .bool true)])) := by
  have agree :
      ∀ name ∈ (Datum.list [.word (.specialForm .abstraction), .list [], .name "y"]).mentioned,
        (Bindings.ofList [("y", Datum.bool true), ("z", .nil)]).get? name =
          (Bindings.ofList [("y", Datum.bool true)]).get? name := by
    intro name member
    have listed : name ∈ ["lambda", "y"] := member
    rcases List.mem_pair.mp listed with rfl | rfl <;> rfl
  exact ⟨agree, evaluate_unmentioned_irrelevant 2 _ _ _ agree⟩

end MiniLisp
