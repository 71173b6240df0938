import MiniLisp.Proofs.ParameterNames

namespace MiniLisp

/-!
# Two ways to define a procedure

A procedure can be defined together with its name, or made without one and then
bound to it.  The first finds itself in every frame, and the procedures that its
body makes capture it with the frame.  The second finds there what its name was
bound to where the procedure was made.

If the body does not mention the name, or has it as a parameter, then nothing gets
at what is bound to it, and calls of the two procedures cannot be told apart.
-/

/-- The definition of a procedure together with its name. -/
def namedDefinition (name : String) (params : List String) (body : Datum) : Datum :=
  .list
    [.word (.specialForm .definition),
     .list (.name name :: params.map .name),
     body]

/-- The definition of a name as a procedure that has none of its own. -/
def unnamedDefinition (name : String) (params : List String) (body : Datum) : Datum :=
  .list
    [.word (.specialForm .definition),
     .name name,
     lambdaExpression (params.map .name) body]

section Definitions

variable (name : String) (params : List String) (body : Datum) (env : Env) (limit : Nat)

theorem evaluate_namedDefinition :
    evaluate (limit + 1) (namedDefinition name params body) env =
      .ok (.name name, env.insert name (.procedure ⟨some name, params, body, env⟩)) := by
  change (parameterNames _ (params.map .name) >>= _) = _
  rw [parameterNames_of_names]
  rfl

theorem evaluate_unnamedDefinition :
    evaluate (limit + 2) (unnamedDefinition name params body) env =
      .ok (.name name, env.insert name (.procedure ⟨none, params, body, env⟩)) := by
  change (evaluate (limit + 1) (lambdaExpression (params.map .name) body) env >>= _) = _
  rw [evaluate_lambdaExpression]
  rfl

end Definitions

section Calls

variable
  {eval : Evaluator}
  {name : String}
  {params : List String}
  {body : Datum}
  {env : Env}
  {values others : List Datum}

/-- The frames of the two procedures agree on what their body mentions. -/
theorem frames_agreeOn_of_nonrecursive
    (nonrecursive : name ∈ params ∨ name ∉ body.mentioned)
    (alike : List.Forall₂ Datum.Alike values others)
    (enough : values.length = params.length)
    (env : Env) :
    AgreeOn { text | text ∈ body.mentioned }
      (Closure.frame ⟨some name, params, body, env⟩ values)
      (Closure.frame ⟨none, params, body, env⟩ others) := by
  let self : Datum := .procedure ⟨some name, params, body, env⟩
  change AgreeOn _ ((env.insert name self).insertAll (params.zip values))
    (env.insertAll (params.zip others))
  refine .insertAll_of_elsewhere (zip_alike params alike) (.of_get?_eq ?_)
  -- Elsewhere means that no parameter has the name; so the body does not mention it.
  rintro text ⟨mentioned, notBound⟩
  rw [List.map_fst_zip (Nat.le_of_eq enough.symm)] at notBound
  have different : text ≠ name := by
    rintro rfl
    rcases nonrecursive with isParam | notMentioned
    · exact notBound isParam
    · exact notMentioned mentioned
  rw [Bindings.get?_insert, if_neg different]

/-- The two procedures give alike results for alike values. -/
theorem applyProcedure_of_nonrecursive
    (respectful : eval.Respectful)
    (nonrecursive : name ∈ params ∨ name ∉ body.mentioned)
    (alike : List.Forall₂ Datum.Alike values others) :
    SameOutcome Datum.Alike
      (applyProcedure eval ⟨some name, params, body, env⟩ values)
      (applyProcedure eval ⟨none, params, body, env⟩ others) := by
  unfold applyProcedure
  rw [← alike.length_eq]
  by_cases enough : values.length = params.length
  · rw [if_pos enough, if_pos enough]
    have bodyRun :=
      respectful _ body _ _ (fun _ mentions => mentions)
        (frames_agreeOn_of_nonrecursive nonrecursive alike enough env)
    refine bodyRun.bind fun first second results => ?_
    exact .ok results.value
  · rw [if_neg enough, if_neg enough]
    exact .error _

/-- In the bindings left by the two definitions, calls give alike results. -/
theorem evaluateCall_of_nonrecursive
    (respectful : eval.Respectful)
    (nonrecursive : name ∈ params ∨ name ∉ body.mentioned)
    {args : List Datum}
    (notInArgs : name ∉ Datum.mentionedIn args)
    (first second : Datum) :
    SameOutcome Datum.Alike
      (evaluateCall eval ⟨some name, params, body, env⟩ args (env.insert name first))
      (evaluateCall eval ⟨none, params, body, env⟩ args (env.insert name second)) := by
  have argsWithin (arg : Datum) (member : arg ∈ args) : arg.Within { text | text ≠ name } := by
    rintro _ mentions rfl
    exact notInArgs (Datum.mem_mentionedIn.mpr ⟨arg, member, mentions⟩)
  have agree :
      AgreeOn { text | text ≠ name } (env.insert name first) (env.insert name second) := by
    refine .of_get?_eq fun text different => ?_
    rw [Bindings.get?_insert, Bindings.get?_insert, if_neg different, if_neg different]
  refine (evaluateArgs_alike respectful argsWithin agree).bind fun _ _ results => ?_
  exact applyProcedure_of_nonrecursive respectful nonrecursive results.1

/-- A call by name of a procedure that was bound last. -/
theorem evaluate_call_of_insert
    (procedure : Procedure)
    (args : List Datum)
    (limit : Nat) :
    evaluate (limit + 1) (.list (.name name :: args)) (env.insert name (.procedure procedure)) =
      evaluateCall (evaluate limit) procedure args (env.insert name (.procedure procedure)) >>=
        fun value => .ok (value, env.insert name (.procedure procedure)) := by
  have found :
      (env.insert name (Datum.procedure procedure)).get? name = some (.procedure procedure) := by
    rw [Bindings.get?_insert, if_pos rfl]
  simp only [evaluate, evaluateStep, evaluateNamedCall, found]

end Calls

/--
Both ways to define a procedure agree, unless it is recursive.  Let the body not
mention the name or have it as a parameter, and let the arguments of a call not
mention it.  Then in the bindings left by the two definitions the call stops with
the same fault, or gives values that no text shows to be different.
-/
theorem definitions_agree_of_nonrecursive
    (name : String)
    (params : List String)
    (body : Datum)
    (args : List Datum)
    (env : Env)
    (notInArgs : name ∉ Datum.mentionedIn args)
    (nonrecursive : name ∈ params ∨ name ∉ body.mentioned) :
    ∃ named unnamed,
      (∀ limit,
        evaluate (limit + 1) (namedDefinition name params body) env = .ok (.name name, named)) ∧
      (∀ limit,
        evaluate (limit + 2) (unnamedDefinition name params body) env =
          .ok (.name name, unnamed)) ∧
      ∀ limit,
        SameOutcome (fun first second => first.1.Indistinct second.1)
          (evaluate limit (.list (.name name :: args)) named)
          (evaluate limit (.list (.name name :: args)) unnamed) := by
  refine ⟨_, _, evaluate_namedDefinition name params body env,
    evaluate_unnamedDefinition name params body env, fun limit => ?_⟩
  cases limit with
  | zero =>
      exact .error _
  | succ limit =>
      rw [evaluate_call_of_insert, evaluate_call_of_insert]
      refine (evaluateCall_of_nonrecursive (evaluate_respectful limit) nonrecursive notInArgs
        _ _).bind fun _ _ alike => ?_
      exact .ok alike.indistinct

/--
The body makes a procedure that captures the frame, in which the name stands for
one of the two procedures and is unbound for the other.
-/
theorem definitions_agree_of_nonrecursive_capture :
    let body : Datum := lambdaExpression [] (.name "x")
    "f" ∉ Datum.mentionedIn [.bool true] ∧
      "f" ∉ body.mentioned ∧
      ∃ named unnamed,
        (∀ limit,
          evaluate (limit + 1) (namedDefinition "f" ["x"] body) .empty =
            .ok (.name "f", named)) ∧
        (∀ limit,
          evaluate (limit + 2) (unnamedDefinition "f" ["x"] body) .empty =
            .ok (.name "f", unnamed)) ∧
        ∀ limit,
          SameOutcome (fun first second => first.1.Indistinct second.1)
            (evaluate limit (.list [.name "f", .bool true]) named)
            (evaluate limit (.list [.name "f", .bool true]) unnamed) := by
  intro body
  have notInArgs : "f" ∉ Datum.mentionedIn [.bool true] := by
    decide
  have notInBody : "f" ∉ body.mentioned := by
    decide
  exact ⟨notInArgs, notInBody,
    definitions_agree_of_nonrecursive "f" ["x"] body [.bool true] .empty notInArgs
      (.inr notInBody)⟩

end MiniLisp
