import MiniLisp.Proofs.Definable
import MiniLisp.Proofs.ParameterNames
import MiniLisp.Proofs.Settled

namespace MiniLisp

/-!
# Arguments one by one

A procedure of several parameters can be written as one of the first parameter,
which gives a procedure of the second, and so on.  It is then called with one
argument after the other.

The two calls go different ways.  The first evaluates its arguments in a row, each
in the bindings left by the one before, and binds all parameters at once.  The other
one evaluates every argument in the bindings around the call, and every parameter is
bound in a frame that the next procedure captures.  What arguments define gets
lost on the way, so that only the last one may define something.
-/

/-- A body as nested procedures of one parameter each. -/
def curriedLambda : List String → Datum → Datum
  | [], body => body
  | param :: rest, body => lambdaExpression [.name param] (curriedLambda rest body)

/-- A call with one argument, called with the next one, and so on. -/
def callOneByOne (head : Datum) (args : List Datum) : Datum :=
  args.foldl (fun called arg => .list [called, arg]) head

/-- The value of a body in a frame, beside the bindings of the caller. -/
def bodyRun (body : Datum) (env frame : Env) : Run (Datum × Env) :=
  (evaluation body frame).bind fun result => .pure (result.1, env)

/-- The frame in which each argument, evaluated in the same bindings, is bound to its parameter. -/
def bindOneByOne (env : Env) : List String → List Datum → Env → Run Env
  | param :: params, arg :: args, frame =>
      (evaluation arg env).bind fun result =>
        bindOneByOne env params args (frame.insert param result.1)
  | _, _, frame => .pure frame

/-- A call of a procedure, within any limit. -/
def callRun (procedure : Procedure) (args : List Datum) (env : Env) : Run Datum where
  within limit := evaluateCall (evaluate limit) procedure args env
  cutShort higher := evaluateCall_cutShort (evaluate_cutShort higher) procedure args env

/-- The refusal to call what is no procedure, within any limit. -/
def refusal (head : Datum) : Run (Datum × Env) where
  within limit := head.render limit >>= fun text => failWith (.notAFunction text)
  cutShort higher := (render_cutShort higher head).bind fun _ => .full _

/-- What a call goes on with after its head. -/
def afterHead (head : Datum) (args : List Datum) (env : Env) : Datum × Env → Run (Datum × Env)
  | (.procedure procedure, next) =>
      (callRun procedure args next).bind fun value => .pure (value, env)
  | _ => refusal head

section Calls

variable {items : List Datum} {env : Env}

/-- A call evaluates its head one level below, and goes on with what that gives. -/
theorem evaluation_call_equivalent
    (items args : List Datum)
    (env : Env) :
    (evaluation (.list (.list items :: args)) env).Equivalent
      ((evaluation (.list items) env).bind (afterHead (.list items) args env)) := by
  refine .of_levels 1 0 fun limit => ?_
  change (evaluate limit (.list items) env >>= _) = (evaluate limit (.list items) env >>= _)
  congr
  funext ⟨value, next⟩
  cases value <;> rfl

/-- A call goes on with the procedures that its head is known to give. -/
theorem evaluation_call_of_procedure
    {α : Type}
    (front : Run α)
    {procedure : α → Procedure}
    (gives :
      (evaluation (.list items) env).Equivalent
        (front.bind fun result => .pure (.procedure (procedure result), env)))
    (args : List Datum) :
    (evaluation (.list (.list items :: args)) env).Equivalent
      (front.bind fun result =>
        (callRun (procedure result) args env).bind fun value => .pure (value, env)) := by
  refine (evaluation_call_equivalent items args env).trans ?_
  refine (gives.bind fun _ => .refl _).trans ?_
  simp only [Run.bind_assoc, Run.pure_bind, afterHead]
  exact .refl _

/-- A procedure without a name, made in given bindings. -/
theorem evaluation_lambdaExpression
    (params : List String)
    (body : Datum)
    (env : Env) :
    (evaluation (lambdaExpression (params.map .name) body) env).Equivalent
      (.pure (.procedure ⟨none, params, body, env⟩, env)) :=
  .of_levels 1 0 (evaluate_lambdaExpression params body env)

/-- A procedure of one parameter runs its body with the argument bound to it. -/
theorem callRun_single
    (param : String)
    (body arg : Datum)
    (frame env : Env) :
    ((callRun ⟨none, [param], body, frame⟩ [arg] env).bind fun value => .pure (value, env)) =
      (evaluation arg env).bind fun result => bodyRun body env (frame.insert param result.1) := by
  ext1
  funext limit
  change (evaluateCall (evaluate limit) _ _ env >>= _) = (evaluate limit arg env >>= _)
  rw [evaluateCall, evaluateArgs]
  cases evaluate limit arg env with
  | error fault =>
      rfl
  | ok result =>
      change (evaluate limit body (frame.insert param result.1) >>= _ >>= _) =
        (evaluate limit body (frame.insert param result.1) >>= _)
      cases evaluate limit body (frame.insert param result.1) <;> rfl

/-- A call of a procedure of one parameter that was made in a frame. -/
theorem evaluation_call_single
    {front : Run Env}
    {param : String}
    {body : Datum}
    (gives :
      (evaluation (.list items) env).Equivalent
        (front.bind fun frame => .pure (.procedure ⟨none, [param], body, frame⟩, env)))
    (arg : Datum) :
    (evaluation (.list [.list items, arg]) env).Equivalent
      (front.bind fun frame =>
        (evaluation arg env).bind fun result =>
          bodyRun body env (frame.insert param result.1)) := by
  have called := evaluation_call_of_procedure front gives [arg]
  simp only [callRun_single] at called
  exact called

/-- A body that is a procedure makes it in the frame. -/
theorem bodyRun_lambdaExpression
    (params : List String)
    (body : Datum)
    (env frame : Env) :
    (bodyRun (lambdaExpression (params.map .name) body) env frame).Equivalent
      (.pure (.procedure ⟨none, params, body, frame⟩, env)) :=
  (evaluation_lambdaExpression params body frame).bind fun _ => .refl _

/--
Called one by one, arguments are evaluated in the bindings around the call and bound
to the parameters in turn.  What the head gives is a procedure of the first parameter,
in a frame with the parameters before it.
-/
theorem evaluation_callOneByOne
    (front : Run Env)
    {param : String}
    {params : List String}
    {body : Datum}
    {args : List Datum}
    (sameCount : params.length = args.length)
    (gives :
      (evaluation (.list items) env).Equivalent
        (front.bind fun frame =>
          .pure (.procedure ⟨none, [param], curriedLambda params body, frame⟩, env)))
    (arg : Datum) :
    (evaluation (callOneByOne (.list items) (arg :: args)) env).Equivalent
      (front.bind fun frame =>
        (bindOneByOne env (param :: params) (arg :: args) frame).bind (bodyRun body env)) := by
  induction args generalizing items front param params arg with
  | nil =>
      obtain rfl := List.eq_nil_of_length_eq_zero sameCount
      simp only [bindOneByOne, Run.bind_assoc, Run.pure_bind]
      exact evaluation_call_single gives arg
  | cons next args inductionHypothesis =>
      obtain ⟨second, rest, rfl⟩ := List.exists_cons_of_length_eq_add_one sameCount
      -- The call with the first argument is the head of the call with the others.
      let bound : Run Env :=
        front.bind fun frame =>
          (evaluation arg env).bind fun result => .pure (frame.insert param result.1)
      have givesNext :
          (evaluation (.list [.list items, arg]) env).Equivalent
            (bound.bind fun frame =>
              .pure (.procedure ⟨none, [second], curriedLambda rest body, frame⟩, env)) := by
        refine (evaluation_call_single gives arg).trans ?_
        simp only [bound, Run.bind_assoc, Run.pure_bind]
        exact .bind (.refl _) fun frame => .bind (.refl _) fun result =>
          bodyRun_lambdaExpression [second] (curriedLambda rest body) env _
      have called := inductionHypothesis bound (Nat.succ_injective sameCount) givesNext next
      simp only [bound, bindOneByOne, Run.bind_assoc, Run.pure_bind] at called ⊢
      exact called

end Calls

section Agreement

variable {params : List String} {args : List Datum} {env : Env}

/--
Arguments in a row, evaluated in bindings that nobody tells from those around the
call, make a frame that nobody tells from the one that they make one by one.
-/
theorem frames_agree_of_args
    (limit : Nat)
    (sameCount : params.length = args.length)
    (undefining : ∀ arg ∈ args.dropLast, arg.definable = [])
    {left frame other : Env}
    (around : AgreeOn Set.univ left env)
    (frames : AgreeOn Set.univ frame other) :
    SameOutcome
      (fun result bound =>
        result.1.length = params.length ∧
          AgreeOn Set.univ (frame.insertAll (params.zip result.1)) bound)
      (evaluateArgs (evaluate limit) args left)
      ((bindOneByOne env params args other).within limit) := by
  induction args generalizing params left frame other with
  | nil =>
      obtain rfl := List.eq_nil_of_length_eq_zero sameCount
      exact .ok ⟨rfl, frames⟩
  | cons arg rest inductionHypothesis =>
      obtain ⟨param, params, rfl⟩ := List.exists_cons_of_length_eq_add_one sameCount
      have restCount : params.length = rest.length := Nat.succ_injective sameCount
      have argRun :=
        (evaluate_respectful limit Set.univ arg left env (fun _ _ => trivial) around).and_ends
          (evaluate_framed limit arg left)
      refine argRun.bind ?_
      rintro ⟨value, next⟩ ⟨same, follow⟩ ⟨⟨valueAlike, _⟩, extended⟩
      have framesNext := frames.insert param valueAlike
      cases rest with
      | nil =>
          obtain rfl := List.eq_nil_of_length_eq_zero restCount
          exact .ok ⟨rfl, framesNext⟩
      | cons second rest =>
          obtain ⟨definesNothing, laterDefineNothing⟩ := List.forall_mem_cons.mp undefining
          -- An argument before the last one defines nothing, so the bindings are as before.
          have aroundNext : AgreeOn Set.univ next env := by
            intro name member
            have kept := extended.unchanged name (by rw [definesNothing]; exact List.not_mem_nil)
            rw [kept]
            exact around name member
          refine (inductionHypothesis restCount laterDefineNothing aroundNext
            framesNext).bind_left ?_
          rintro ⟨values, final⟩ bound ⟨enough, agree⟩
          exact .ok ⟨congrArg Nat.succ enough, agree⟩

/-- A call with all arguments and the run with the arguments bound one by one. -/
theorem callRun_same_bindOneByOne
    (sameCount : params.length = args.length)
    (undefining : ∀ arg ∈ args.dropLast, arg.definable = [])
    (body : Datum)
    (env : Env) :
    Run.Same (fun first second => first.1.Indistinct second.1 ∧ first.2 = env ∧ second.2 = env)
      ((callRun ⟨none, params, body, env⟩ args env).bind fun value => .pure (value, env))
      ((bindOneByOne env params args env).bind (bodyRun body env)) := by
  refine .of_within fun limit => ?_
  have everywhere : AgreeOn Set.univ env env := .of_get?_eq fun _ _ => rfl
  have framesRun := frames_agree_of_args limit sameCount undefining everywhere everywhere
  change SameOutcome _
    (evaluateArgs (evaluate limit) args env >>= _ >>= _)
    ((bindOneByOne env params args env).within limit >>= _)
  rw [bind_assoc]
  refine framesRun.bind ?_
  rintro ⟨values, left⟩ frame ⟨enough, agree⟩
  dsimp only at enough agree ⊢
  have bodies := evaluate_respectful limit Set.univ body _ frame (fun _ _ => trivial) agree
  rw [applyProcedure, if_pos enough, bind_assoc]
  refine bodies.bind fun first second results => ?_
  exact .ok ⟨results.value.indistinct, rfl, rfl⟩

/--
A procedure of several parameters, called with all its arguments, and the same
procedure with one parameter after the other, called with one argument after the
other, stop with the same fault or give values that no text shows to be different.
Both leave the bindings as they were.  Of the arguments only the last one may define
something around itself; a parameter may occur more than once.
-/
theorem currying_preserves_meaning
    (params : List String)
    (body : Datum)
    (args : List Datum)
    (env : Env)
    (sameCount : params.length = args.length)
    (someArgs : args ≠ [])
    (undefining : ∀ arg ∈ args.dropLast, arg.definable = []) :
    Run.Same (fun first second => first.1.Indistinct second.1 ∧ first.2 = env ∧ second.2 = env)
      (evaluation (.list (lambdaExpression (params.map .name) body :: args)) env)
      (evaluation (callOneByOne (curriedLambda params body) args) env) := by
  obtain ⟨arg, rest, rfl⟩ := List.exists_cons_of_ne_nil someArgs
  obtain ⟨param, others, rfl⟩ := List.exists_cons_of_length_eq_add_one sameCount
  have allAtOnce :=
    evaluation_call_of_procedure (.pure env)
      (evaluation_lambdaExpression (param :: others) body env) (arg :: rest)
  have oneByOne :=
    evaluation_callOneByOne (.pure env) (Nat.succ_injective sameCount)
      (evaluation_lambdaExpression [param] (curriedLambda others body) env) arg
  exact (callRun_same_bindOneByOne sameCount undefining body env).congr allAtOnce oneByOne

end Agreement

/--
Two parameters of one name, of which the second stands; a last argument that defines
something; and a body that makes a procedure with all this captured.
-/
theorem currying_preserves_meaning_shadowing :
    let body : Datum := lambdaExpression [] (.name "x")
    let args : List Datum :=
      [.bool true, .list [.word (.specialForm .definition), .name "y", .bool false]]
    (∀ arg ∈ args.dropLast, arg.definable = []) ∧
      (evaluation (.list (lambdaExpression [.name "x", .name "x"] body :: args)) .empty).Settles
        (.ok (.procedure ⟨none, [], .name "x", .ofList [("x", .name "y")]⟩, .empty)) ∧
      Run.Same
        (fun first second => first.1.Indistinct second.1 ∧ first.2 = .empty ∧ second.2 = .empty)
        (evaluation (.list (lambdaExpression [.name "x", .name "x"] body :: args)) .empty)
        (evaluation (callOneByOne (curriedLambda ["x", "x"] body) args) .empty) := by
  intro body args
  have undefining : ∀ arg ∈ args.dropLast, arg.definable = [] := by
    intro arg member
    have first : arg ∈ [Datum.bool true] := member
    rw [List.mem_singleton.mp first]
    rfl
  exact ⟨undefining, ⟨nofun, 3, rfl⟩,
    currying_preserves_meaning ["x", "x"] body args .empty rfl nofun undefining⟩

end MiniLisp
