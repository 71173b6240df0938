import MiniLisp.Evaluation
import MiniLisp.Proofs.Readable

namespace MiniLisp

/-!
# Sound values and bindings

What a program can compute, and what its bindings can hold.  A sound value has no
reserved word in it, its procedures have readable bodies and identifiers for
parameters, and the bindings that they captured are sound in turn: they bind
identifiers to sound values.

A sound evaluator takes a readable expression and sound bindings to a sound
value and sound bindings, or stops with an evaluation error or too deep.  One
level of evaluation is sound if the levels below are, because it evaluates and
prints only parts of the expression, and bodies of sound procedures.
-/

/-- The faults that evaluation is meant to stop with. -/
inductive Fault.OfEvaluation : Fault → Prop where
  | eval (error : EvalError) : OfEvaluation (.eval error)
  | tooDeep : OfEvaluation .tooDeep

/-- A value without reserved words, with identifiers for all names and readable bodies. -/
inductive Datum.Sound : Datum → Prop where
  | nil : Sound .nil
  | bool (value : Bool) : Sound (.bool value)
  | number (value : Number) : Sound (.number value)
  | name {text : String} (identifier : IsIdentifier text) : Sound (.name text)
  | list {items : List Datum} (members : ∀ item ∈ items, Sound item) : Sound (.list items)
  | procedure
      {closure : Procedure}
      (named : ∀ text ∈ closure.name, IsIdentifier text)
      (params : ∀ text ∈ closure.params, IsIdentifier text)
      (body : closure.body.Readable)
      (capturedNames : ∀ text value, closure.env.get? text = some value → IsIdentifier text)
      (capturedValues : ∀ text value, closure.env.get? text = some value → Sound value) :
      Sound (.procedure closure)

/-- Bindings of identifiers to sound values. -/
structure Bindings.Sound (env : Env) : Prop where
  names {text : String} {value : Datum} (bound : env.get? text = some value) : IsIdentifier text
  values {text : String} {value : Datum} (bound : env.get? text = some value) : value.Sound

/-- A procedure that is a sound value. -/
structure Closure.Sound (procedure : Procedure) : Prop where
  named : ∀ text ∈ procedure.name, IsIdentifier text
  params : ∀ text ∈ procedure.params, IsIdentifier text
  body : procedure.body.Readable
  captured : procedure.env.Sound

theorem Datum.sound_procedure_iff
    {procedure : Procedure} :
    (Datum.procedure procedure).Sound ↔ procedure.Sound := by
  constructor
  · intro sound
    cases sound with
    | procedure named params body capturedNames capturedValues =>
        exact ⟨named, params, body, capturedNames _ _, capturedValues _ _⟩
  · intro sound
    exact .procedure sound.named sound.params sound.body
      (fun _ _ bound => sound.captured.names bound)
      (fun _ _ bound => sound.captured.values bound)

namespace Bindings.Sound

variable {env : Env}

theorem empty : Bindings.Sound .empty where
  names := nofun
  values := nofun

theorem insert
    (sound : env.Sound)
    {name : String}
    {value : Datum}
    (identifier : IsIdentifier name)
    (valueSound : value.Sound) :
    (env.insert name value).Sound := by
  have bothSound {other : String} {found : Datum}
      (bound : (env.insert name value).get? other = some found) :
      IsIdentifier other ∧ found.Sound := by
    rw [get?_insert] at bound
    split at bound
    · next same =>
        cases bound
        exact ⟨same ▸ identifier, valueSound⟩
    · exact ⟨sound.names bound, sound.values bound⟩
  exact ⟨fun bound => (bothSound bound).1, fun bound => (bothSound bound).2⟩

theorem insertAll
    (sound : env.Sound)
    {pairs : List (String × Datum)}
    (pairsSound : ∀ pair ∈ pairs, IsIdentifier pair.1 ∧ pair.2.Sound) :
    (env.insertAll pairs).Sound := by
  induction pairs generalizing env with
  | nil =>
      exact sound
  | cons first rest inductionHypothesis =>
      obtain ⟨identifier, valueSound⟩ := pairsSound first (by simp)
      exact inductionHypothesis (sound.insert identifier valueSound)
        fun pair member => pairsSound pair (by simp [member])

end Bindings.Sound

/-- A sound value with sound bindings. -/
structure SoundResult (result : Datum × Env) : Prop where
  value : result.1.Sound
  env : result.2.Sound

/-- An evaluator that takes readable expressions and sound bindings to sound results. -/
def Evaluator.Sound (eval : Evaluator) : Prop :=
  ∀ (expression : Datum) (env : Env),
    expression.Readable → env.Sound → Ends Fault.OfEvaluation SoundResult (eval expression env)

/-- A printer that has a text for every readable expression, unless it is nested too deep. -/
def Printer.Sound (print : Printer) : Prop :=
  ∀ expression : Datum,
    expression.Readable → Ends Fault.OfEvaluation (fun _ => True) (print expression)

theorem render_sound (limit : Nat) : Printer.Sound (Datum.render limit) := by
  intro expression readable
  refine (readable.render_ends limit).allow ?_
  rintro fault rfl
  exact .tooDeep

section Forms

variable {eval : Evaluator} {print : Printer} {env : Env}

theorem ends_failWith
    {α : Type}
    {good : α → Prop}
    (error : EvalError) :
    Ends Fault.OfEvaluation good (failWith error) :=
  .error (.eval error)

theorem ends_liftEval
    {α : Type}
    {good : α → Prop}
    {outcome : Except EvalError α}
    (holds : ∀ result, outcome = .ok result → good result) :
    Ends Fault.OfEvaluation good (liftEval outcome) := by
  cases outcome with
  | error error =>
      exact ends_failWith error
  | ok result =>
      exact .ok (holds result rfl)

theorem lookUp_sound
    (name : String)
    (envSound : env.Sound) :
    Ends Fault.OfEvaluation SoundResult (lookUp name env) := by
  unfold lookUp
  split
  · next value bound =>
      exact .ok ⟨envSound.values bound, envSound⟩
  · exact ends_failWith _

theorem evaluateArgs_sound
    (sound : eval.Sound)
    {args : List Datum}
    (readable : ∀ arg ∈ args, arg.Readable)
    (envSound : env.Sound) :
    Ends Fault.OfEvaluation
      (fun result => (∀ value ∈ result.1, value.Sound) ∧ result.2.Sound)
      (evaluateArgs eval args env) := by
  induction args generalizing env with
  | nil =>
      exact .ok ⟨by simp, envSound⟩
  | cons arg rest inductionHypothesis =>
      refine (sound arg env (readable arg (by simp)) envSound).bind ?_
      rintro ⟨value, next⟩ ⟨valueSound, nextSound⟩
      have restRun :=
        inductionHypothesis (fun arg member => readable arg (by simp [member])) nextSound
      refine restRun.bind ?_
      rintro ⟨values, final⟩ ⟨valuesSound, finalSound⟩
      exact .ok ⟨List.forall_mem_cons.mpr ⟨valueSound, valuesSound⟩, finalSound⟩

theorem evaluateUntil_sound
    (sound : eval.Sound)
    (decisive : Datum → Bool)
    {value : Datum}
    (valueSound : value.Sound)
    {args : List Datum}
    (readable : ∀ arg ∈ args, arg.Readable)
    (envSound : env.Sound) :
    Ends Fault.OfEvaluation SoundResult (evaluateUntil eval decisive value args env) := by
  induction args generalizing value env with
  | nil =>
      exact .ok ⟨valueSound, envSound⟩
  | cons arg rest inductionHypothesis =>
      refine (sound arg env (readable arg (by simp)) envSound).bind ?_
      rintro ⟨next, left⟩ ⟨nextSound, leftSound⟩
      dsimp only at nextSound leftSound ⊢
      split
      · exact .ok ⟨nextSound, leftSound⟩
      · exact inductionHypothesis nextSound
          (fun arg member => readable arg (by simp [member])) leftSound

/-- The names that readable parameters declare are identifiers. -/
theorem parameterNames_sound
    (printSound : print.Sound)
    {params : List Datum}
    (readable : ∀ param ∈ params, param.Readable) :
    Ends Fault.OfEvaluation
      (fun names => ∀ name ∈ names, IsIdentifier name)
      (parameterNames print params) := by
  induction params with
  | nil =>
      exact .ok (by simp)
  | cons param rest inductionHypothesis =>
      have paramReadable := readable param (by simp)
      unfold parameterNames
      split
      · next impossible =>
          cases impossible
      · next text others shape =>
          cases shape
          have restRun := inductionHypothesis fun param member => readable param (by simp [member])
          refine restRun.bind fun names identifiers => ?_
          exact .ok (List.forall_mem_cons.mpr ⟨paramReadable.isIdentifier, identifiers⟩)
      · next other others _ shape =>
          cases shape
          exact (printSound param paramReadable).bind fun text _ => ends_failWith _

theorem evaluateConditional_sound
    (sound : eval.Sound)
    {condition consequence : Datum}
    {alternative? : Option Datum}
    (conditionReadable : condition.Readable)
    (consequenceReadable : consequence.Readable)
    (alternativeReadable : ∀ alternative ∈ alternative?, alternative.Readable)
    (envSound : env.Sound) :
    Ends Fault.OfEvaluation SoundResult
      (evaluateConditional eval condition consequence alternative? env) := by
  refine (sound condition env conditionReadable envSound).bind ?_
  rintro ⟨value, next⟩ ⟨-, nextSound⟩
  dsimp only at nextSound ⊢
  split
  · exact sound consequence next consequenceReadable nextSound
  · cases alternative? with
    | none =>
        exact .ok ⟨.nil, nextSound⟩
    | some alternative =>
        exact sound alternative next (alternativeReadable alternative rfl) nextSound

/-- A definition binds an identifier to a sound value. -/
theorem evaluateDefinition_sound
    (sound : eval.Sound)
    (printSound : print.Sound)
    {target body : Datum}
    (targetReadable : target.Readable)
    (bodyReadable : body.Readable)
    (envSound : env.Sound) :
    Ends Fault.OfEvaluation SoundResult (evaluateDefinition eval print target body env) := by
  unfold evaluateDefinition
  split
  · next text =>
      have identifier := targetReadable.isIdentifier
      refine (sound body env bodyReadable envSound).bind ?_
      rintro ⟨value, next⟩ ⟨valueSound, nextSound⟩
      exact .ok ⟨.name identifier, nextSound.insert identifier valueSound⟩
  · next text params =>
      have identifier : IsIdentifier text := (targetReadable.member (by simp)).isIdentifier
      have paramsReadable (param : Datum) (member : param ∈ params) : param.Readable :=
        targetReadable.member (by simp [member])
      refine (parameterNames_sound printSound paramsReadable).bind fun names identifiers => ?_
      have procedureSound : (Datum.procedure ⟨some text, names, body, env⟩).Sound :=
        Datum.sound_procedure_iff.mpr
          ⟨by simpa using identifier, identifiers, bodyReadable, envSound⟩
      exact .ok ⟨.name identifier, envSound.insert identifier procedureSound⟩
  · exact (printSound target targetReadable).bind fun text _ => ends_failWith _

theorem evaluateSpecialForm_sound
    (sound : eval.Sound)
    (printSound : print.Sound)
    (form : SpecialForm)
    {args : List Datum}
    (readable : ∀ arg ∈ args, arg.Readable)
    (envSound : env.Sound) :
    Ends Fault.OfEvaluation SoundResult (evaluateSpecialForm eval print form args env) := by
  unfold evaluateSpecialForm
  split
  · next condition consequence =>
      exact evaluateConditional_sound sound
        (readable condition (by simp)) (readable consequence (by simp)) (by simp) envSound
  · next condition consequence alternative =>
      exact evaluateConditional_sound sound
        (readable condition (by simp)) (readable consequence (by simp))
        (by simpa using readable alternative (by simp)) envSound
  · exact ends_failWith _
  · next target body =>
      exact evaluateDefinition_sound sound printSound
        (readable target (by simp)) (readable body (by simp)) envSound
  · exact ends_failWith _
  · next params body =>
      have paramsReadable (param : Datum) (member : param ∈ params) : param.Readable :=
        (readable (.list params) (by simp)).member member
      refine (parameterNames_sound printSound paramsReadable).bind fun names identifiers => ?_
      have procedureSound : (Datum.procedure ⟨none, names, body, env⟩).Sound :=
        Datum.sound_procedure_iff.mpr
          ⟨by simp, identifiers, readable body (by simp), envSound⟩
      exact .ok ⟨procedureSound, envSound⟩
  · exact ends_failWith _

theorem evaluateConnective_sound
    (sound : eval.Sound)
    (op : Connective)
    {args : List Datum}
    (readable : ∀ arg ∈ args, arg.Readable)
    (envSound : env.Sound) :
    Ends Fault.OfEvaluation SoundResult (evaluateConnective eval op args env) := by
  unfold evaluateConnective
  split
  · exact evaluateUntil_sound sound _ (.bool true) readable envSound
  · exact evaluateUntil_sound sound _ (.bool false) readable envSound
  · next arg =>
      refine (sound arg env (readable arg (by simp)) envSound).bind ?_
      rintro ⟨value, next⟩ ⟨-, nextSound⟩
      exact .ok ⟨.bool _, nextSound⟩
  · exact ends_failWith _

/-- What is taken from the head and the tail of a sound list is sound. -/
theorem demandPair_map_sound
    {op : ListOperation}
    {value result : Datum}
    (valueSound : value.Sound)
    {part : Datum × List Datum → Datum}
    (partSound : ∀ head tail,
      head.Sound → (∀ item ∈ tail, item.Sound) → (part (head, tail)).Sound)
    (applied : (demandPair op value).map part = .ok result) :
    result.Sound := by
  unfold demandPair at applied
  split at applied
  · next head tail =>
      cases applied
      cases valueSound with
      | list members =>
          obtain ⟨headSound, tailSound⟩ := List.forall_mem_cons.mp members
          exact partSound head tail headSound tailSound
  · cases applied
  · cases applied

theorem applyListOperation_sound
    (op : ListOperation)
    {values : List Datum}
    (valuesSound : ∀ value ∈ values, value.Sound) :
    Ends Fault.OfEvaluation Datum.Sound (liftEval (applyListOperation op values)) := by
  refine ends_liftEval fun result applied => ?_
  unfold applyListOperation at applied
  split at applied
  · cases applied
    exact .list valuesSound
  · next head tail =>
      cases applied
      have headSound := valuesSound head (by simp)
      cases valuesSound (.list tail) (by simp) with
      | list members =>
          exact .list (List.forall_mem_cons.mpr ⟨headSound, members⟩)
  · cases applied
  · next value =>
      exact demandPair_map_sound (valuesSound value (by simp))
        (fun _ _ headSound _ => headSound) applied
  · next value =>
      exact demandPair_map_sound (valuesSound value (by simp))
        (fun _ _ _ tailSound => .list tailSound) applied
  · cases applied

theorem evaluateListOperation_sound
    (sound : eval.Sound)
    (op : ListOperation)
    {args : List Datum}
    (readable : ∀ arg ∈ args, arg.Readable)
    (envSound : env.Sound) :
    Ends Fault.OfEvaluation SoundResult (evaluateListOperation eval op args env) := by
  unfold evaluateListOperation
  split
  · exact ends_failWith _
  · refine (evaluateArgs_sound sound readable envSound).bind ?_
    rintro ⟨values, next⟩ ⟨valuesSound, nextSound⟩
    refine (applyListOperation_sound op valuesSound).bind fun value valueSound => ?_
    exact .ok ⟨valueSound, nextSound⟩

/-- The frame of a sound procedure binds its own name and its parameters, which are identifiers. -/
theorem Closure.frame_sound
    {procedure : Procedure}
    (procedureSound : procedure.Sound)
    {values : List Datum}
    (valuesSound : ∀ value ∈ values, value.Sound) :
    (procedure.frame values).Sound := by
  refine procedureSound.captured.insertAll fun pair member => ?_
  rcases List.mem_append.mp member with own | param
  · obtain ⟨text, isName, rfl⟩ := List.mem_map.mp own
    exact ⟨procedureSound.named text (Option.mem_toList.mp isName),
      Datum.sound_procedure_iff.mpr procedureSound⟩
  · obtain ⟨isParam, isValue⟩ := List.of_mem_zip param
    exact ⟨procedureSound.params _ isParam, valuesSound _ isValue⟩

theorem applyProcedure_sound
    (sound : eval.Sound)
    {procedure : Procedure}
    (procedureSound : procedure.Sound)
    {values : List Datum}
    (valuesSound : ∀ value ∈ values, value.Sound) :
    Ends Fault.OfEvaluation Datum.Sound (applyProcedure eval procedure values) := by
  unfold applyProcedure
  split
  · have bodyRun := sound procedure.body _ procedureSound.body
      (Closure.frame_sound procedureSound valuesSound)
    exact bodyRun.bind fun result resultSound => .ok resultSound.value
  · exact ends_failWith _

theorem evaluateCall_sound
    (sound : eval.Sound)
    {procedure : Procedure}
    (procedureSound : procedure.Sound)
    {args : List Datum}
    (readable : ∀ arg ∈ args, arg.Readable)
    (envSound : env.Sound) :
    Ends Fault.OfEvaluation Datum.Sound (evaluateCall eval procedure args env) := by
  refine (evaluateArgs_sound sound readable envSound).bind ?_
  rintro ⟨values, next⟩ ⟨valuesSound, -⟩
  exact applyProcedure_sound sound procedureSound valuesSound

theorem evaluateNamedCall_sound
    (sound : eval.Sound)
    (name : String)
    {args : List Datum}
    (readable : ∀ arg ∈ args, arg.Readable)
    (envSound : env.Sound) :
    Ends Fault.OfEvaluation SoundResult (evaluateNamedCall eval name args env) := by
  unfold evaluateNamedCall
  split
  · exact ends_failWith _
  · next procedure bound =>
      have procedureSound := Datum.sound_procedure_iff.mp (envSound.values bound)
      refine (evaluateCall_sound sound procedureSound readable envSound).bind ?_
      intro value valueSound
      exact .ok ⟨valueSound, envSound⟩
  · exact ends_failWith _

theorem evaluateComputedCall_sound
    (sound : eval.Sound)
    (printSound : print.Sound)
    {head : Datum}
    (headReadable : head.Readable)
    {args : List Datum}
    (readable : ∀ arg ∈ args, arg.Readable)
    (envSound : env.Sound) :
    Ends Fault.OfEvaluation SoundResult (evaluateComputedCall eval print head args env) := by
  refine (sound head env headReadable envSound).bind ?_
  rintro ⟨value, next⟩ ⟨valueSound, nextSound⟩
  dsimp only at valueSound nextSound ⊢
  split
  · have procedureSound := Datum.sound_procedure_iff.mp valueSound
    refine (evaluateCall_sound sound procedureSound readable nextSound).bind ?_
    intro result resultSound
    exact .ok ⟨resultSound, envSound⟩
  · exact (printSound head headReadable).bind fun text _ => ends_failWith _

/-- An operation on the numbers that the arguments are, with a sound result. -/
theorem evaluateNumeric_sound
    {α : Type}
    (sound : eval.Sound)
    (word : Word)
    (apply : List Number → Except EvalError α)
    {wrap : α → Datum}
    (wrapSound : ∀ value, (wrap value).Sound)
    {args : List Datum}
    (readable : ∀ arg ∈ args, arg.Readable)
    (envSound : env.Sound) :
    Ends Fault.OfEvaluation SoundResult (do
      let (values, next) ← evaluateArgs eval args env
      let numbers ← liftEval (demandNumbers word values)
      let value ← liftEval (apply numbers)
      .ok (wrap value, next)) := by
  have lifted {β : Type} (outcome : Except EvalError β) :
      Ends Fault.OfEvaluation (fun _ => True) (liftEval outcome) :=
    ends_liftEval fun _ _ => trivial
  refine (evaluateArgs_sound sound readable envSound).bind ?_
  rintro ⟨values, next⟩ ⟨-, nextSound⟩
  refine (lifted (demandNumbers word values)).bind fun numbers _ => ?_
  refine (lifted (apply numbers)).bind fun value _ => ?_
  exact .ok ⟨wrapSound value, nextSound⟩

theorem unrecognized_sound
    (printSound : print.Sound)
    {expression : Datum}
    (readable : expression.Readable) :
    Ends Fault.OfEvaluation SoundResult (unrecognized print expression) :=
  (printSound expression readable).bind fun _ _ => ends_failWith _

theorem evaluateForm_sound
    (sound : eval.Sound)
    (printSound : print.Sound)
    {word : Word}
    {args : List Datum}
    (readable : (Datum.list (.word word :: args)).Readable)
    (envSound : env.Sound) :
    Ends Fault.OfEvaluation SoundResult (evaluateForm eval print word args env) := by
  have argsReadable (arg : Datum) (member : arg ∈ args) : arg.Readable :=
    readable.member (by simp [member])
  cases word with
  | arithmetic op =>
      exact evaluateNumeric_sound sound _ (applyArithmetic op) .number argsReadable envSound
  | comparison op =>
      exact evaluateNumeric_sound sound _ (applyComparison op) .bool argsReadable envSound
  | connective op =>
      exact evaluateConnective_sound sound op argsReadable envSound
  | listOperation op =>
      exact evaluateListOperation_sound sound op argsReadable envSound
  | specialForm form =>
      exact evaluateSpecialForm_sound sound printSound form argsReadable envSound
  | unassigned word =>
      exact unrecognized_sound printSound readable

/-- One level of evaluation is sound if the levels below are. -/
theorem evaluateStep_sound
    (sound : eval.Sound)
    (printSound : print.Sound) :
    Evaluator.Sound (evaluateStep eval print) := by
  intro expression env readable envSound
  unfold evaluateStep
  split
  · exact .ok ⟨.bool _, envSound⟩
  · exact .ok ⟨.number _, envSound⟩
  · exact lookUp_sound _ envSound
  · exact lookUp_sound _ envSound
  · exact evaluateForm_sound sound printSound readable envSound
  · next text args =>
      exact evaluateNamedCall_sound sound text
        (fun arg member => readable.member (by simp [member])) envSound
  · next items args =>
      exact evaluateComputedCall_sound sound printSound (readable.member (by simp))
        (fun arg member => readable.member (by simp [member])) envSound
  · exact unrecognized_sound printSound readable

end Forms

/-- Evaluation takes readable expressions and sound bindings to sound results. -/
theorem evaluate_sound (limit : Nat) : Evaluator.Sound (evaluate limit) := by
  induction limit with
  | zero =>
      intro expression env _ _
      exact .error .tooDeep
  | succ limit inductionHypothesis =>
      exact evaluateStep_sound inductionHypothesis (render_sound limit)

end MiniLisp
