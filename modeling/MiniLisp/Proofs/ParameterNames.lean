import MiniLisp.Proofs.Renaming

namespace MiniLisp

/-!
# Names of parameters

An expression and a renamed version of it are evaluated in bindings that the
renaming relates.  Both runs stop with faults of one kind, or give values that are
renamed versions of each other and leave bindings that are related still.  The law
is proved for one level of evaluation at a time; induction on the number of levels
gives it for all.

It follows that the name of a parameter does not matter: a procedure can be called
with its parameter spelled otherwise, as long as the new name was not in use there.
-/

/-- Faults of one kind; the texts and names that they show may differ. -/
def Fault.SameKind (first second : Fault) : Prop :=
  first.kind = second.kind

/-- Outcomes of an expression and a renamed version: faults of one kind, or related results. -/
abbrev Matching {α : Type} (related : α → α → Prop) (first second : Except Fault α) : Prop :=
  Corresponds Fault.SameKind related first second

theorem Matching.refl
    {α : Type}
    {related : α → α → Prop}
    (sameResult : ∀ result, related result result)
    (outcome : Except Fault α) :
    Matching related outcome outcome :=
  Corresponds.refl (fun fault => (rfl : fault.kind = fault.kind)) sameResult outcome

/-- Results of two runs: renamed versions of a value, and related bindings. -/
structure RenamedResults (renamer : Renamer) (first second : Datum × Env) : Prop where
  value : first.1.Renamed second.1
  env : renamer.Relates first.2 second.2

/-- An evaluator that does not depend on how names are spelled. -/
def Evaluator.Uniform (eval : Evaluator) : Prop :=
  ∀ (renamer : Renamer) (expression : Datum) (left right : Env),
    renamer.Admits expression →
      renamer.Relates left right →
        Matching (RenamedResults renamer)
          (eval expression left)
          (eval (expression.rename renamer.change) right)

/-- A printer that has a text for an expression just if it has one for a renamed version. -/
def Printer.Uniform (print : Printer) : Prop :=
  ∀ (change : String → String) (expression : Datum),
    Matching (fun _ _ => True) (print expression) (print (expression.rename change))

/-- Names take no part in whether an expression can be printed. -/
theorem render_uniform (limit : Nat) : Printer.Uniform (Datum.render limit) := by
  induction limit with
  | zero =>
      intro change expression
      exact .error rfl
  | succ limit inductionHypothesis =>
      intro change expression
      cases expression with
      | list items =>
          have texts :
              Matching (fun _ _ => True) (items.mapM (Datum.render limit))
                ((items.map (Datum.rename change)).mapM (Datum.render limit)) := by
            induction items with
            | nil =>
                exact .ok trivial
            | cons item rest restHypothesis =>
                rw [List.map_cons, List.mapM_cons, List.mapM_cons]
                refine (inductionHypothesis change item).bind fun _ _ _ => ?_
                refine restHypothesis.bind fun _ _ _ => ?_
                exact .ok trivial
          rw [Datum.rename_list, Datum.render, Datum.render]
          exact texts.bind fun _ _ _ => .ok trivial
      | name text =>
          exact .ok trivial
      | _ =>
          exact Matching.refl (fun _ => trivial) _

section Forms

variable {eval : Evaluator} {print : Printer} {renamer : Renamer} {left right : Env}

theorem matching_failWith
    {α : Type}
    {related : α → α → Prop}
    {first second : EvalError}
    (same : first.kind = second.kind) :
    Matching related (failWith first) (failWith second) :=
  .error same

theorem matching_liftEval
    {α : Type}
    {related : α → α → Prop}
    {first second : Except EvalError α}
    (similar : Corresponds Eq related first second) :
    Matching related (liftEval first) (liftEval second) := by
  cases similar with
  | error same =>
      exact matching_failWith (congrArg EvalError.kind same)
  | ok holds =>
      exact .ok holds

theorem lookUp_renamed
    (relates : renamer.Relates left right)
    {text : String}
    (member : text ∈ renamer.scope) :
    Matching (RenamedResults renamer) (lookUp text left) (lookUp (renamer.change text) right) := by
  have found := relates text member
  unfold lookUp
  generalize left.get? text = first at found ⊢
  generalize right.get? (renamer.change text) = second at found ⊢
  cases found with
  | none =>
      exact matching_failWith rfl
  | some renamed =>
      exact .ok ⟨renamed, relates⟩

/-- Arguments are evaluated to renamed versions, and the bindings go on being related. -/
theorem evaluateArgs_renamed
    (uniform : eval.Uniform)
    {args : List Datum}
    (admits : ∀ arg ∈ args, renamer.Admits arg)
    (relates : renamer.Relates left right) :
    Matching
      (fun first second =>
        List.Forall₂ Datum.Renamed first.1 second.1 ∧ renamer.Relates first.2 second.2)
      (evaluateArgs eval args left)
      (evaluateArgs eval (args.map (Datum.rename renamer.change)) right) := by
  induction args generalizing left right with
  | nil =>
      exact .ok ⟨.nil, relates⟩
  | cons arg rest inductionHypothesis =>
      obtain ⟨argAdmits, restAdmits⟩ := List.forall_mem_cons.mp admits
      refine (uniform renamer arg left right argAdmits relates).bind ?_
      rintro ⟨value, next⟩ ⟨other, follow⟩ ⟨valueRenamed, nextRelates⟩
      refine (inductionHypothesis restAdmits nextRelates).bind ?_
      rintro ⟨values, final⟩ ⟨others, finish⟩ ⟨valuesRenamed, finalRelates⟩
      exact .ok ⟨.cons valueRenamed valuesRenamed, finalRelates⟩

/-- A search for a decisive argument ends at the same argument. -/
theorem evaluateUntil_renamed
    (uniform : eval.Uniform)
    {decisive : Datum → Bool}
    (blind : ∀ first second, Datum.Renamed first second → decisive first = decisive second)
    {args : List Datum}
    (admits : ∀ arg ∈ args, renamer.Admits arg)
    {first second : Datum}
    (renamed : first.Renamed second)
    (relates : renamer.Relates left right) :
    Matching (RenamedResults renamer)
      (evaluateUntil eval decisive first args left)
      (evaluateUntil eval decisive second (args.map (Datum.rename renamer.change)) right) := by
  induction args generalizing first second left right with
  | nil =>
      exact .ok ⟨renamed, relates⟩
  | cons arg rest inductionHypothesis =>
      obtain ⟨argAdmits, restAdmits⟩ := List.forall_mem_cons.mp admits
      refine (uniform renamer arg left right argAdmits relates).bind ?_
      rintro ⟨value, next⟩ ⟨other, follow⟩ ⟨valueRenamed, nextRelates⟩
      dsimp only at valueRenamed nextRelates ⊢
      rw [blind value other valueRenamed]
      by_cases stops : decisive other = true
      · rw [if_pos stops, if_pos stops]
        exact .ok ⟨valueRenamed, nextRelates⟩
      · rw [if_neg stops, if_neg stops]
        exact inductionHypothesis restAdmits valueRenamed nextRelates

/-- A parameter list declares names, and a renamed version what they are changed for. -/
theorem parameterNames_renamed
    (printUniform : print.Uniform)
    (change : String → String)
    (params : List Datum) :
    Matching (fun names others => params = names.map .name ∧ others = names.map change)
      (parameterNames print params)
      (parameterNames print (params.map (Datum.rename change))) := by
  induction params with
  | nil =>
      exact .ok ⟨rfl, rfl⟩
  | cons param rest inductionHypothesis =>
      have refused (datum : Datum) {related : List String → List String → Prop} :
          Matching related
            (print datum >>= fun text => failWith (.invalidForm (.badParameter text)))
            (print (datum.rename change) >>= fun text =>
              failWith (.invalidForm (.badParameter text))) :=
        (printUniform change datum).bind fun _ _ _ => matching_failWith rfl
      cases param with
      | name text =>
          refine inductionHypothesis.bind ?_
          rintro names others ⟨rfl, rfl⟩
          exact .ok ⟨rfl, rfl⟩
      | _ =>
          exact refused _

theorem evaluateConditional_renamed
    (uniform : eval.Uniform)
    {condition consequence : Datum}
    (alternative? : Option Datum)
    (conditionAdmits : renamer.Admits condition)
    (consequenceAdmits : renamer.Admits consequence)
    (alternativeAdmits : ∀ alternative ∈ alternative?, renamer.Admits alternative)
    (relates : renamer.Relates left right) :
    Matching (RenamedResults renamer)
      (evaluateConditional eval condition consequence alternative? left)
      (evaluateConditional eval (condition.rename renamer.change)
        (consequence.rename renamer.change)
        (alternative?.map (Datum.rename renamer.change)) right) := by
  refine (uniform renamer condition left right conditionAdmits relates).bind ?_
  rintro ⟨value, next⟩ ⟨other, follow⟩ ⟨valueRenamed, nextRelates⟩
  dsimp only at valueRenamed nextRelates ⊢
  rw [Datum.Renamed.congruence.isTrue_eq valueRenamed]
  by_cases holds : other.isTrue = true
  · rw [if_pos holds, if_pos holds]
    exact uniform renamer consequence next follow consequenceAdmits nextRelates
  · rw [if_neg holds, if_neg holds]
    cases alternative? with
    | none =>
        exact .ok ⟨.same .nil, nextRelates⟩
    | some alternative =>
        exact uniform renamer alternative next follow
          (alternativeAdmits alternative rfl) nextRelates

/-- Where nothing is changed, a definition binds the same name to renamed versions. -/
theorem evaluateDefinition_renamed
    (uniform : eval.Uniform)
    (printUniform : print.Uniform)
    (fixed : ∀ text, renamer.change text = text)
    {target body : Datum}
    (targetAdmits : renamer.Admits target)
    (bodyAdmits : renamer.Admits body)
    (relates : renamer.Relates left right) :
    Matching (RenamedResults renamer)
      (evaluateDefinition eval print target body left)
      (evaluateDefinition eval print target body right) := by
  unfold evaluateDefinition
  split
  · next text =>
      have bodyRun := uniform renamer body left right bodyAdmits relates
      rw [Datum.rename_of_fixed fixed] at bodyRun
      refine bodyRun.bind ?_
      rintro ⟨value, next⟩ ⟨other, follow⟩ ⟨valueRenamed, nextRelates⟩
      exact .ok ⟨.same _, nextRelates.insert fixed text valueRenamed⟩
  · next text params =>
      have namesRun := parameterNames_renamed printUniform renamer.change params
      rw [Datum.map_rename_of_fixed fixed] at namesRun
      refine namesRun.bind ?_
      rintro names _ ⟨rfl, rfl⟩
      have named : text ∈ renamer.scope := (targetAdmits.member (by simp)).name_mem
      have declared (name : String) (member : name ∈ names) : name ∈ renamer.scope :=
        (targetAdmits.member (by simp [member])).name_mem
      have fits : renamer.Fits ⟨some text, names, body, left⟩ := by
        refine ⟨?_, declared, bodyAdmits⟩
        rintro _ ⟨⟩
        exact ⟨named, fixed text⟩
      have renamed := Datum.Renamed.of_relates fits relates
      simp only [Closure.rename, Datum.rename_of_fixed fixed] at renamed
      exact .ok ⟨.same _, relates.insert fixed text renamed⟩
  · refine (Matching.refl (fun _ => rfl) _).bind fun _ _ _ => ?_
    exact matching_failWith rfl

/-- A procedure without a name, made in related bindings. -/
theorem evaluateAbstraction_renamed
    (printUniform : print.Uniform)
    {params : List Datum}
    {body : Datum}
    (paramsAdmit : ∀ param ∈ params, renamer.Admits param)
    (bodyAdmits : renamer.Admits body)
    (relates : renamer.Relates left right) :
    Matching (RenamedResults renamer)
      (evaluateSpecialForm eval print .abstraction [.list params, body] left)
      (evaluateSpecialForm eval print .abstraction
        [.list (params.map (Datum.rename renamer.change)), body.rename renamer.change] right) := by
  refine (parameterNames_renamed printUniform renamer.change params).bind ?_
  rintro names _ ⟨rfl, rfl⟩
  have declared (name : String) (member : name ∈ names) : name ∈ renamer.scope :=
    (paramsAdmit (.name name) (List.mem_map_of_mem member)).name_mem
  have fits : renamer.Fits ⟨none, names, body, left⟩ := ⟨nofun, declared, bodyAdmits⟩
  exact .ok ⟨.of_relates fits relates, relates⟩

theorem evaluateSpecialForm_renamed
    (uniform : eval.Uniform)
    (printUniform : print.Uniform)
    (form : SpecialForm)
    {args : List Datum}
    (admits : ∀ arg ∈ args, renamer.Admits arg)
    (definitions : form = .definition → ∀ text, renamer.change text = text)
    (relates : renamer.Relates left right) :
    Matching (RenamedResults renamer)
      (evaluateSpecialForm eval print form args left)
      (evaluateSpecialForm eval print form (args.map (Datum.rename renamer.change)) right) := by
  cases form with
  | conditional =>
      rcases args with _ | ⟨condition, _ | ⟨consequence, _ | ⟨alternative, _ | ⟨_, _⟩⟩⟩⟩
      · exact matching_failWith rfl
      · exact matching_failWith rfl
      · exact evaluateConditional_renamed uniform none
          (admits condition (by simp)) (admits consequence (by simp)) nofun relates
      · exact evaluateConditional_renamed uniform (some alternative)
          (admits condition (by simp)) (admits consequence (by simp))
          (by simpa using admits alternative (by simp)) relates
      · exact matching_failWith rfl
  | definition =>
      rw [Datum.map_rename_of_fixed (definitions rfl)]
      rcases args with _ | ⟨target, _ | ⟨body, _ | ⟨_, _⟩⟩⟩
      · exact matching_failWith rfl
      · exact matching_failWith rfl
      · exact evaluateDefinition_renamed uniform printUniform (definitions rfl)
          (admits target (by simp)) (admits body (by simp)) relates
      · exact matching_failWith rfl
  | abstraction =>
      rcases args with _ | ⟨target, _ | ⟨body, _ | ⟨_, _⟩⟩⟩
      · exact matching_failWith rfl
      · cases target <;> exact matching_failWith rfl
      · cases target with
        | list params =>
            have paramsAdmit (param : Datum) (member : param ∈ params) : renamer.Admits param :=
              (admits (.list params) (by simp)).member member
            rw [List.map_cons, Datum.rename_list]
            exact evaluateAbstraction_renamed printUniform paramsAdmit
              (admits body (by simp)) relates
        | _ =>
            exact matching_failWith rfl
      · cases target <;> exact matching_failWith rfl

theorem evaluateConnective_renamed
    (uniform : eval.Uniform)
    (op : Connective)
    {args : List Datum}
    (admits : ∀ arg ∈ args, renamer.Admits arg)
    (relates : renamer.Relates left right) :
    Matching (RenamedResults renamer)
      (evaluateConnective eval op args left)
      (evaluateConnective eval op (args.map (Datum.rename renamer.change)) right) := by
  cases op with
  | conjunction =>
      refine evaluateUntil_renamed uniform ?_ admits (.same _) relates
      intro first second renamed
      rw [Datum.Renamed.congruence.isTrue_eq renamed]
  | disjunction =>
      exact evaluateUntil_renamed uniform
        (fun _ _ renamed => Datum.Renamed.congruence.isTrue_eq renamed) admits (.same _) relates
  | negation =>
      rcases args with _ | ⟨arg, _ | ⟨_, _⟩⟩
      · exact matching_failWith rfl
      · refine (uniform renamer arg left right (admits arg (by simp)) relates).bind ?_
        rintro ⟨value, next⟩ ⟨other, follow⟩ ⟨valueRenamed, nextRelates⟩
        dsimp only at valueRenamed nextRelates ⊢
        rw [Datum.Renamed.congruence.isTrue_eq valueRenamed]
        exact .ok ⟨.same _, nextRelates⟩
      · exact matching_failWith rfl

theorem evaluateListOperation_renamed
    (uniform : eval.Uniform)
    (op : ListOperation)
    {args : List Datum}
    (admits : ∀ arg ∈ args, renamer.Admits arg)
    (relates : renamer.Relates left right) :
    Matching (RenamedResults renamer)
      (evaluateListOperation eval op args left)
      (evaluateListOperation eval op (args.map (Datum.rename renamer.change)) right) := by
  unfold evaluateListOperation
  rw [List.length_map]
  split
  · exact matching_failWith rfl
  · refine (evaluateArgs_renamed uniform admits relates).bind ?_
    rintro ⟨values, next⟩ ⟨others, follow⟩ ⟨valuesRenamed, nextRelates⟩
    have applied := Datum.Renamed.congruence.applyListOperation op valuesRenamed
    refine (matching_liftEval applied).bind fun value other valueRenamed => ?_
    exact .ok ⟨valueRenamed, nextRelates⟩

/-- A procedure and a renamed version give renamed versions of a result for related values. -/
theorem applyProcedure_renamed
    (uniform : eval.Uniform)
    {procedure : Procedure}
    {second : Procedure}
    (renamed : Datum.Renamed (.procedure procedure) (.procedure second))
    {values others : List Datum}
    (valuesRenamed : List.Forall₂ Datum.Renamed values others) :
    Matching Datum.Renamed
      (applyProcedure eval procedure values)
      (applyProcedure eval second others) := by
  obtain ⟨renamer, env, same, fits, captured⟩ := renamed.procedure_inv
  cases same
  unfold applyProcedure
  have sameCount : (procedure.rename renamer env).params.length = procedure.params.length :=
    List.length_map _
  rw [← valuesRenamed.length_eq, sameCount]
  by_cases enough : values.length = procedure.params.length
  · rw [if_pos enough, if_pos enough]
    -- The renamer changes here: in the body it is the one of the two procedures.
    have bodyRun := uniform renamer procedure.body _ _ fits.body
      (Renamer.relates_frames fits captured valuesRenamed enough)
    refine bodyRun.bind fun first second results => ?_
    exact .ok results.value
  · rw [if_neg enough, if_neg enough]
    exact matching_failWith rfl

theorem evaluateCall_renamed
    (uniform : eval.Uniform)
    {procedure second : Procedure}
    (renamed : Datum.Renamed (.procedure procedure) (.procedure second))
    {args : List Datum}
    (admits : ∀ arg ∈ args, renamer.Admits arg)
    (relates : renamer.Relates left right) :
    Matching Datum.Renamed
      (evaluateCall eval procedure args left)
      (evaluateCall eval second (args.map (Datum.rename renamer.change)) right) := by
  refine (evaluateArgs_renamed uniform admits relates).bind ?_
  rintro ⟨values, next⟩ ⟨others, follow⟩ ⟨valuesRenamed, _⟩
  exact applyProcedure_renamed uniform renamed valuesRenamed

/-- A call by name finds renamed versions of a procedure in related bindings. -/
theorem evaluateNamedCall_renamed
    (uniform : eval.Uniform)
    {text : String}
    (member : text ∈ renamer.scope)
    {args : List Datum}
    (admits : ∀ arg ∈ args, renamer.Admits arg)
    (relates : renamer.Relates left right) :
    Matching (RenamedResults renamer)
      (evaluateNamedCall eval text args left)
      (evaluateNamedCall eval (renamer.change text)
        (args.map (Datum.rename renamer.change)) right) := by
  have found := relates text member
  unfold evaluateNamedCall
  generalize left.get? text = first at found ⊢
  generalize right.get? (renamer.change text) = second at found ⊢
  cases found with
  | none =>
      exact matching_failWith rfl
  | @some value other renamed =>
      cases value with
      | procedure procedure =>
          obtain ⟨_, _, rfl, -⟩ := renamed.procedure_inv
          refine (evaluateCall_renamed uniform renamed admits relates).bind ?_
          intro result otherResult resultRenamed
          exact .ok ⟨resultRenamed, relates⟩
      | _ =>
          cases renamed <;> exact matching_failWith rfl

/-- A call of what a head gives, for heads that give renamed versions. -/
theorem evaluateComputedCall_renamed
    (uniform : eval.Uniform)
    {head otherHead : Datum}
    (headRun : Matching (RenamedResults renamer) (eval head left) (eval otherHead right))
    (printed : Matching (fun _ _ => True) (print head) (print otherHead))
    {args : List Datum}
    (admits : ∀ arg ∈ args, renamer.Admits arg)
    (relates : renamer.Relates left right) :
    Matching (RenamedResults renamer)
      (evaluateComputedCall eval print head args left)
      (evaluateComputedCall eval print otherHead
        (args.map (Datum.rename renamer.change)) right) := by
  refine headRun.bind ?_
  rintro ⟨value, next⟩ ⟨other, follow⟩ ⟨renamed, nextRelates⟩
  dsimp only at renamed nextRelates ⊢
  have refused {related : Datum × Env → Datum × Env → Prop} :
      Matching related
        (print head >>= fun text => failWith (.notAFunction text))
        (print otherHead >>= fun text => failWith (.notAFunction text)) :=
    printed.bind fun _ _ _ => matching_failWith rfl
  cases value with
  | procedure procedure =>
      obtain ⟨_, _, rfl, -⟩ := renamed.procedure_inv
      refine (evaluateCall_renamed uniform renamed admits nextRelates).bind ?_
      intro result otherResult resultRenamed
      exact .ok ⟨resultRenamed, relates⟩
  | _ =>
      cases renamed <;> exact refused

/-- An operation on the numbers that the arguments are does not depend on names. -/
theorem evaluateNumeric_renamed
    {α : Type}
    (uniform : eval.Uniform)
    (word : Word)
    (apply : List Number → Except EvalError α)
    (wrap : α → Datum)
    {args : List Datum}
    (admits : ∀ arg ∈ args, renamer.Admits arg)
    (relates : renamer.Relates left right) :
    Matching (RenamedResults renamer)
      (do
        let (values, next) ← evaluateArgs eval args left
        let numbers ← liftEval (demandNumbers word values)
        let value ← liftEval (apply numbers)
        .ok (wrap value, next))
      (do
        let (values, next) ← evaluateArgs eval (args.map (Datum.rename renamer.change)) right
        let numbers ← liftEval (demandNumbers word values)
        let value ← liftEval (apply numbers)
        .ok (wrap value, next)) := by
  refine (evaluateArgs_renamed uniform admits relates).bind ?_
  rintro ⟨values, next⟩ ⟨others, follow⟩ ⟨valuesRenamed, nextRelates⟩
  dsimp only at valuesRenamed nextRelates ⊢
  rw [Datum.Renamed.congruence.demandNumbers_eq word valuesRenamed]
  refine (Matching.refl (fun _ => rfl) _).bind ?_
  rintro numbers _ rfl
  refine (Matching.refl (fun _ => rfl) _).bind ?_
  rintro value _ rfl
  exact .ok ⟨.same _, nextRelates⟩

theorem unrecognized_renamed
    (printUniform : print.Uniform)
    {related : Datum × Env → Datum × Env → Prop}
    (change : String → String)
    (expression : Datum) :
    Matching related
      (unrecognized print expression)
      (unrecognized print (expression.rename change)) :=
  (printUniform change expression).bind fun _ _ _ => matching_failWith rfl

theorem evaluateForm_renamed
    (uniform : eval.Uniform)
    (printUniform : print.Uniform)
    {word : Word}
    {args : List Datum}
    (admits : renamer.Admits (.list (.word word :: args)))
    (relates : renamer.Relates left right) :
    Matching (RenamedResults renamer)
      (evaluateForm eval print word args left)
      (evaluateForm eval print word (args.map (Datum.rename renamer.change)) right) := by
  have argsAdmit (arg : Datum) (member : arg ∈ args) : renamer.Admits arg :=
    admits.member (List.mem_cons_of_mem _ member)
  cases word with
  | arithmetic op =>
      exact evaluateNumeric_renamed uniform _ (applyArithmetic op) .number argsAdmit relates
  | comparison op =>
      exact evaluateNumeric_renamed uniform _ (applyComparison op) .bool argsAdmit relates
  | connective op =>
      exact evaluateConnective_renamed uniform op argsAdmit relates
  | listOperation op =>
      exact evaluateListOperation_renamed uniform op argsAdmit relates
  | specialForm form =>
      refine evaluateSpecialForm_renamed uniform printUniform form argsAdmit ?_ relates
      rintro rfl
      exact admits.definitions (by simp [Datum.words, Datum.wordsIn])
  | unassigned word =>
      have refused : Matching (RenamedResults renamer) _ _ :=
        unrecognized_renamed printUniform renamer.change (.list (.word (.unassigned word) :: args))
      rwa [Datum.rename_list] at refused

/-- One level of evaluation does not depend on names if the levels below do not. -/
theorem evaluateStep_uniform
    (uniform : eval.Uniform)
    (printUniform : print.Uniform) :
    Evaluator.Uniform (evaluateStep eval print) := by
  intro renamer expression left right admits relates
  have refused : Matching (RenamedResults renamer) _ _ :=
    unrecognized_renamed printUniform renamer.change expression
  cases expression with
  | nil =>
      exact refused
  | bool value =>
      exact .ok ⟨.same _, relates⟩
  | number value =>
      exact .ok ⟨.same _, relates⟩
  | word reserved =>
      have found := lookUp_renamed relates (admits.within reserved.text (by simp [Datum.mentioned]))
      rwa [renamer.words] at found
  | name text =>
      exact lookUp_renamed relates admits.name_mem
  | procedure closure =>
      exact refused
  | list items =>
      rw [Datum.rename_list] at refused ⊢
      cases items with
      | nil =>
          exact refused
      | cons head args =>
          have headAdmits : renamer.Admits head := admits.member List.mem_cons_self
          have argsAdmit (arg : Datum) (member : arg ∈ args) : renamer.Admits arg :=
            admits.member (List.mem_cons_of_mem _ member)
          cases head with
          | word reserved =>
              exact evaluateForm_renamed uniform printUniform admits relates
          | name text =>
              exact evaluateNamedCall_renamed uniform headAdmits.name_mem argsAdmit relates
          | list items =>
              have headRun := uniform renamer (.list items) left right headAdmits relates
              have printed := printUniform renamer.change (.list items)
              rw [List.map_cons]
              rw [Datum.rename_list] at headRun printed ⊢
              exact evaluateComputedCall_renamed uniform headRun printed argsAdmit relates
          | _ =>
              exact refused

end Forms

/-- Evaluation does not depend on how names are spelled. -/
theorem evaluate_uniform (limit : Nat) : Evaluator.Uniform (evaluate limit) := by
  induction limit with
  | zero =>
      intro renamer expression left right _ _
      exact .error rfl
  | succ limit inductionHypothesis =>
      exact evaluateStep_uniform inductionHypothesis (render_uniform limit)

/-- A procedure with given parameters and a given body, as an expression. -/
def lambdaExpression (params : List Datum) (body : Datum) : Datum :=
  .list [.word (.specialForm .abstraction), .list params, body]

theorem rename_lambdaExpression
    (change : String → String)
    (params : List Datum)
    (body : Datum) :
    (lambdaExpression params body).rename change =
      lambdaExpression (params.map (Datum.rename change)) (body.rename change) := by
  rw [lambdaExpression, Datum.rename_list]
  simp only [List.map_cons, List.map_nil, Datum.rename_list]
  rfl

/-- A list of names declares these names. -/
theorem parameterNames_of_names
    (print : Printer)
    (params : List String) :
    parameterNames print (params.map .name) = .ok params := by
  induction params with
  | nil =>
      rfl
  | cons param rest inductionHypothesis =>
      rw [List.map_cons, parameterNames, inductionHypothesis]
      rfl

/-- One level is enough to make a procedure. -/
theorem evaluate_lambdaExpression
    (params : List String)
    (body : Datum)
    (env : Env)
    (limit : Nat) :
    evaluate (limit + 1) (lambdaExpression (params.map .name) body) env =
      .ok (.procedure ⟨none, params, body, env⟩, env) := by
  change (parameterNames _ (params.map .name) >>= _) = _
  rw [parameterNames_of_names]
  rfl

section Parameters

variable {params : List Datum} {body : Datum} {old new : String}

/-- A procedure and the one with a parameter spelled otherwise are renamed versions. -/
theorem evaluate_lambdaExpression_replaced
    (isParameter : .name old ∈ params)
    (notParameter : .name new ∉ params)
    (notInBody : new ∉ body.mentioned)
    (notReserved : ∀ word : Word, word.text ≠ old)
    (noDefinition : .specialForm .definition ∉ body.words)
    (limit : Nat)
    (env : Env) :
    Matching (RenamedResults .identity)
      (evaluate limit (lambdaExpression params body) env)
      (evaluate limit
        (lambdaExpression (params.map (Datum.rename (replaceName old new)))
          (body.rename (replaceName old new)))
        env) := by
  cases limit with
  | zero =>
      exact .error rfl
  | succ limit =>
      let renamer := Renamer.replace old new notReserved
      refine (parameterNames_renamed (render_uniform limit) renamer.change params).bind ?_
      rintro names _ ⟨rfl, rfl⟩
      have fits : renamer.Fits ⟨none, names, body, env⟩ := by
        refine ⟨nofun, ?_, ?_, ?_⟩
        · rintro name member rfl
          exact notParameter (List.mem_map_of_mem member)
        · rintro text mentions rfl
          exact notInBody mentions
        · intro occurs
          exact absurd occurs noDefinition
      have captured (text : String) (_ : text ∈ renamer.scope) (notParam : text ∉ names) :
          Option.Rel Datum.Renamed (env.get? text) (env.get? (renamer.change text)) := by
        have isOther : text ≠ old := by
          rintro rfl
          obtain ⟨name, member, same⟩ := List.mem_map.mp isParameter
          cases same
          exact notParam member
        have stays : renamer.change text = text := if_neg isOther
        rw [stays]
        exact optionRel_renamed_self _
      exact .ok ⟨.procedure renamer fits captured, Renamer.identity_relates env⟩

/--
The name of a parameter does not matter.  In the parameters and the body of a
procedure one parameter is spelled otherwise throughout, with a name that is
neither a parameter nor mentioned in the body; it may well be bound around the
procedure.  The body has no definitions.  Then a call stops with a fault of the
same kind, or gives a value with the same text.
-/
theorem parameter_names_immaterial
    (isParameter : .name old ∈ params)
    (notParameter : .name new ∉ params)
    (notInBody : new ∉ body.mentioned)
    (notReserved : ∀ word : Word, word.text ≠ old)
    (noDefinition : .specialForm .definition ∉ body.words)
    (limit : Nat)
    (args : List Datum)
    (env : Env) :
    Corresponds
      (fun fault other => fault.kind = other.kind)
      (fun first second => ∀ level, first.1.render level = second.1.render level)
      (evaluate limit (.list (lambdaExpression params body :: args)) env)
      (evaluate limit
        (.list
          (lambdaExpression (params.map (Datum.rename (replaceName old new)))
            (body.rename (replaceName old new)) :: args))
        env) := by
  cases limit with
  | zero =>
      exact .error rfl
  | succ limit =>
      have headRun := evaluate_lambdaExpression_replaced isParameter notParameter notInBody
        notReserved noDefinition limit env
      have printed := render_uniform limit (replaceName old new) (lambdaExpression params body)
      rw [rename_lambdaExpression] at printed
      have argsAdmit (arg : Datum) (_ : arg ∈ args) : Renamer.identity.Admits arg :=
        Renamer.identity_admits arg
      have call := evaluateComputedCall_renamed (evaluate_uniform limit) headRun printed
        argsAdmit (Renamer.identity_relates env)
      rw [Datum.map_rename_of_fixed Renamer.identity_fixed] at call
      exact call.mono fun _ _ results => results.value.render_eq

end Parameters

/--
A parameter that an inner procedure has again, and a name for it that is bound
around the call.
-/
theorem parameter_names_immaterial_inner :
    let inner (text : String) : Datum := lambdaExpression [.name text] (.name text)
    let body (text : String) : Datum :=
      .list [.word (.listOperation .enumerate), .name text, inner text]
    let env : Env := .ofList [("y", .bool false)]
    evaluate 3 (.list [lambdaExpression [.name "x"] (body "x"), .bool true]) env =
        .ok (.list [.bool true, .procedure ⟨none, ["x"], .name "x",
          .ofList [("y", .bool false), ("x", .bool true)]⟩], env) ∧
      Corresponds
        (fun fault other => fault.kind = other.kind)
        (fun first second => ∀ level, first.1.render level = second.1.render level)
        (evaluate 3 (.list [lambdaExpression [.name "x"] (body "x"), .bool true]) env)
        (evaluate 3 (.list [lambdaExpression [.name "y"] (body "y"), .bool true]) env) := by
  intro inner body env
  have notInBody : "y" ∉ (body "x").mentioned := by
    decide
  have notReserved (word : Word) : word.text ≠ "x" := by
    intro same
    have found := Word.ofText?_text word
    rw [same] at found
    cases found
  have noDefinition : .specialForm .definition ∉ (body "x").words := by
    decide
  refine ⟨rfl, ?_⟩
  exact parameter_names_immaterial List.mem_cons_self (by simp) notInBody notReserved noDefinition
    3 [.bool true] env

end MiniLisp
