import MiniLisp.Evaluation

namespace MiniLisp

/-!
# Runs that are cut short

No form handles a fault of its parts.  So if an evaluator, now and then, stops
with one particular fault where another one goes on, then evaluation built on
the first stops with this fault or has the outcome of evaluation built on the
second.
-/

/-- An outcome that is the full one, unless a fault cut it short. -/
inductive CutShort {α : Type} (fault : Fault) : Except Fault α → Except Fault α → Prop where
  | cut (full : Except Fault α) : CutShort fault (.error fault) full
  | full (full : Except Fault α) : CutShort fault full full

namespace CutShort

variable {α β : Type} {fault : Fault}

theorem bind
    {first full : Except Fault α}
    {next fullNext : α → Except Fault β}
    (short : CutShort fault first full)
    (continues : ∀ value, CutShort fault (next value) (fullNext value)) :
    CutShort fault (first >>= next) (full >>= fullNext) := by
  cases short with
  | cut =>
      exact .cut _
  | full =>
      cases first with
      | error other =>
          exact .full _
      | ok value =>
          exact continues value

end CutShort

/-- An evaluator that has the outcomes of another one, unless a fault cuts it short. -/
def Evaluator.CutShort (fault : Fault) (eval full : Evaluator) : Prop :=
  ∀ (expression : Datum) (env : Env),
    MiniLisp.CutShort fault (eval expression env) (full expression env)

/-- A printer that has the texts of another one, unless a fault cuts it short. -/
def Printer.CutShort (fault : Fault) (print full : Printer) : Prop :=
  ∀ expression : Datum, MiniLisp.CutShort fault (print expression) (full expression)

section Forms

variable {fault : Fault} {eval full : Evaluator} {print fullPrint : Printer}

theorem evaluateArgs_cutShort
    (short : eval.CutShort fault full)
    (args : List Datum)
    (env : Env) :
    CutShort fault (evaluateArgs eval args env) (evaluateArgs full args env) := by
  induction args generalizing env with
  | nil =>
      exact .full _
  | cons arg rest inductionHypothesis =>
      refine (short arg env).bind fun first => ?_
      exact (inductionHypothesis first.2).bind fun others => .full _

theorem evaluateUntil_cutShort
    (short : eval.CutShort fault full)
    (decisive : Datum → Bool)
    (value : Datum)
    (args : List Datum)
    (env : Env) :
    CutShort fault
      (evaluateUntil eval decisive value args env)
      (evaluateUntil full decisive value args env) := by
  induction args generalizing value env with
  | nil =>
      exact .full _
  | cons arg rest inductionHypothesis =>
      refine (short arg env).bind fun first => ?_
      dsimp only
      split
      · exact .full _
      · exact inductionHypothesis first.1 first.2

theorem parameterNames_cutShort
    (shortPrint : print.CutShort fault fullPrint)
    (params : List Datum) :
    CutShort fault (parameterNames print params) (parameterNames fullPrint params) := by
  induction params with
  | nil =>
      exact .full _
  | cons param rest inductionHypothesis =>
      cases param with
      | name text =>
          exact inductionHypothesis.bind fun names => .full _
      | _ =>
          exact (shortPrint _).bind fun text => .full _

theorem evaluateConditional_cutShort
    (short : eval.CutShort fault full)
    (condition consequence : Datum)
    (alternative? : Option Datum)
    (env : Env) :
    CutShort fault
      (evaluateConditional eval condition consequence alternative? env)
      (evaluateConditional full condition consequence alternative? env) := by
  refine (short condition env).bind fun first => ?_
  dsimp only
  split
  · exact short consequence first.2
  · cases alternative? with
    | none =>
        exact .full _
    | some alternative =>
        exact short alternative first.2

theorem evaluateDefinition_cutShort
    (short : eval.CutShort fault full)
    (shortPrint : print.CutShort fault fullPrint)
    (target body : Datum)
    (env : Env) :
    CutShort fault
      (evaluateDefinition eval print target body env)
      (evaluateDefinition full fullPrint target body env) := by
  unfold evaluateDefinition
  split
  · exact (short body env).bind fun result => .full _
  · next text params =>
      exact (parameterNames_cutShort shortPrint params).bind fun names => .full _
  · exact (shortPrint target).bind fun text => .full _

theorem evaluateSpecialForm_cutShort
    (short : eval.CutShort fault full)
    (shortPrint : print.CutShort fault fullPrint)
    (form : SpecialForm)
    (args : List Datum)
    (env : Env) :
    CutShort fault
      (evaluateSpecialForm eval print form args env)
      (evaluateSpecialForm full fullPrint form args env) := by
  unfold evaluateSpecialForm
  split
  · exact evaluateConditional_cutShort short _ _ _ env
  · exact evaluateConditional_cutShort short _ _ _ env
  · exact .full _
  · exact evaluateDefinition_cutShort short shortPrint _ _ env
  · exact .full _
  · next params body =>
      exact (parameterNames_cutShort shortPrint params).bind fun names => .full _
  · exact .full _

theorem evaluateConnective_cutShort
    (short : eval.CutShort fault full)
    (op : Connective)
    (args : List Datum)
    (env : Env) :
    CutShort fault (evaluateConnective eval op args env) (evaluateConnective full op args env) := by
  unfold evaluateConnective
  split
  · exact evaluateUntil_cutShort short _ _ args env
  · exact evaluateUntil_cutShort short _ _ args env
  · next arg =>
      exact (short arg env).bind fun result => .full _
  · exact .full _

theorem evaluateListOperation_cutShort
    (short : eval.CutShort fault full)
    (op : ListOperation)
    (args : List Datum)
    (env : Env) :
    CutShort fault
      (evaluateListOperation eval op args env)
      (evaluateListOperation full op args env) := by
  unfold evaluateListOperation
  split
  · exact .full _
  · exact (evaluateArgs_cutShort short args env).bind fun values => .full _

theorem evaluateCall_cutShort
    (short : eval.CutShort fault full)
    (procedure : Procedure)
    (args : List Datum)
    (env : Env) :
    CutShort fault
      (evaluateCall eval procedure args env)
      (evaluateCall full procedure args env) := by
  refine (evaluateArgs_cutShort short args env).bind fun values => ?_
  dsimp only
  unfold applyProcedure
  split
  · exact (short procedure.body _).bind fun result => .full _
  · exact .full _

theorem evaluateNamedCall_cutShort
    (short : eval.CutShort fault full)
    (name : String)
    (args : List Datum)
    (env : Env) :
    CutShort fault
      (evaluateNamedCall eval name args env)
      (evaluateNamedCall full name args env) := by
  unfold evaluateNamedCall
  split
  · exact .full _
  · next procedure found =>
      exact (evaluateCall_cutShort short procedure args env).bind fun value => .full _
  · exact .full _

theorem evaluateComputedCall_cutShort
    (short : eval.CutShort fault full)
    (shortPrint : print.CutShort fault fullPrint)
    (head : Datum)
    (args : List Datum)
    (env : Env) :
    CutShort fault
      (evaluateComputedCall eval print head args env)
      (evaluateComputedCall full fullPrint head args env) := by
  refine (short head env).bind ?_
  rintro ⟨value, next⟩
  dsimp only
  split
  · next procedure =>
      exact (evaluateCall_cutShort short procedure args next).bind fun result => .full _
  · exact (shortPrint head).bind fun text => .full _

theorem evaluateForm_cutShort
    (short : eval.CutShort fault full)
    (shortPrint : print.CutShort fault fullPrint)
    (word : Word)
    (args : List Datum)
    (env : Env) :
    CutShort fault
      (evaluateForm eval print word args env)
      (evaluateForm full fullPrint word args env) := by
  cases word with
  | arithmetic op =>
      exact (evaluateArgs_cutShort short args env).bind fun values => .full _
  | comparison op =>
      exact (evaluateArgs_cutShort short args env).bind fun values => .full _
  | connective op =>
      exact evaluateConnective_cutShort short op args env
  | listOperation op =>
      exact evaluateListOperation_cutShort short op args env
  | specialForm form =>
      exact evaluateSpecialForm_cutShort short shortPrint form args env
  | unassigned word =>
      exact (shortPrint _).bind fun text => .full _

/-- One level of evaluation is cut short only where the levels below are. -/
theorem evaluateStep_cutShort
    (short : eval.CutShort fault full)
    (shortPrint : print.CutShort fault fullPrint) :
    Evaluator.CutShort fault (evaluateStep eval print) (evaluateStep full fullPrint) := by
  intro expression env
  unfold evaluateStep
  split
  · exact .full _
  · exact .full _
  · exact .full _
  · exact .full _
  · exact evaluateForm_cutShort short shortPrint _ _ env
  · exact evaluateNamedCall_cutShort short _ _ env
  · exact evaluateComputedCall_cutShort short shortPrint _ _ env
  · exact (shortPrint _).bind fun text => .full _

end Forms

end MiniLisp
