import MiniLisp.Proofs.Cutoff
import MiniLisp.Proofs.Soundness

namespace MiniLisp

/-!
# Reachable states

A session starts with no bindings, reads source texts and evaluates their
expressions in turn.  `Reached` are the bindings that it can come to hold.

On the way evaluation comes to other states: it evaluates arguments in the
bindings that earlier arguments left, and bodies of procedures in their frames.
A breakpoint at a state stops a run that comes to it.  `ComesTo` says that a run
cannot get past a breakpoint at the state, whichever others are set; so it speaks
about every state without a second account of what evaluation does.

All these states are sound.  In particular no reserved word is ever bound.
-/

/-- An expression that a source text is, or one of those that it consists of. -/
def ReadsAs (limit : Nat) (source : String) (expression : Datum) : Prop :=
  parse limit source = .ok expression ∨
    ∃ expressions, parseMany limit source = .ok expressions ∧ expression ∈ expressions

theorem ReadsAs.readable
    {limit : Nat}
    {source : String}
    {expression : Datum}
    (read : ReadsAs limit source expression) :
    expression.Readable := by
  rcases read with parsed | ⟨expressions, parsed, member⟩
  · exact ⟨limit, source, parsed⟩
  · exact .of_derivesAll (properTokens_tokenize source) (.of_parseMany parsed) member

/-- The bindings that reading and evaluating expressions in turn can lead to. -/
inductive Reached : Env → Prop where
  | start : Reached .empty
  | evaluated
      {readLimit limit : Nat}
      {source : String}
      {expression value : Datum}
      {env next : Env}
      (before : Reached env)
      (read : ReadsAs readLimit source expression)
      (run : evaluate limit expression env = .ok (value, next)) :
      Reached next

/-- All bindings that a session can come to hold are sound. -/
theorem Reached.sound
    {env : Env}
    (reached : Reached env) :
    env.Sound := by
  induction reached with
  | start =>
      exact .empty
  | evaluated before read run inductionHypothesis =>
      exact ((evaluate_sound _ _ _ read.readable inductionHypothesis).result run).env

/-- Evaluation that stops with a signal as soon as it comes to a breakpoint. -/
def evaluateBreaking
    (breaks : Datum → Env → Bool)
    (signal : Fault) :
    Nat → Datum → Env → Except Fault (Datum × Env)
  | 0, expression, env =>
      if breaks expression env then .error signal else .error .tooDeep
  | limit + 1, expression, env =>
      if breaks expression env then
        .error signal
      else
        evaluateStep (evaluateBreaking breaks signal limit) (Datum.render limit) expression env

/-- A run with breakpoints is the run without them, unless one stops it. -/
theorem evaluateBreaking_cutShort
    (breaks : Datum → Env → Bool)
    (signal : Fault)
    (limit : Nat) :
    Evaluator.CutShort signal (evaluateBreaking breaks signal limit) (evaluate limit) := by
  induction limit with
  | zero =>
      intro expression env
      rw [evaluateBreaking]
      split
      · exact .cut _
      · exact .full _
  | succ limit inductionHypothesis =>
      intro expression env
      rw [evaluateBreaking]
      split
      · exact .cut _
      · exact evaluateStep_cutShort inductionHypothesis (fun _ => .full _) expression env

/--
Evaluating an expression in bindings comes to evaluating an inner one in its
frame: whichever breakpoints are set, if there is one at the inner state then
the run is stopped by a breakpoint.
-/
def ComesTo (limit : Nat) (expression : Datum) (env : Env) (inner : Datum) (frame : Env) : Prop :=
  ∀ (breaks : Datum → Env → Bool) (signal : Fault),
    breaks inner frame = true →
      evaluateBreaking breaks signal limit expression env = .error signal

theorem ComesTo.refl
    (limit : Nat)
    (expression : Datum)
    (env : Env) :
    ComesTo limit expression env expression env := by
  intro breaks signal set
  cases limit with
  | zero =>
      rw [evaluateBreaking, if_pos set]
  | succ limit =>
      rw [evaluateBreaking, if_pos set]

/-- A call whose arguments have values for all parameters comes to the body in its frame. -/
theorem ComesTo.call
    {limit : Nat}
    {name : String}
    {args values : List Datum}
    {env next frame : Env}
    {procedure : Procedure}
    {inner : Datum}
    (found : env.get? name = some (.procedure procedure))
    (evaluated : evaluateArgs (evaluate limit) args env = .ok (values, next))
    (fits : values.length = procedure.params.length)
    (inside : ComesTo limit procedure.body (procedure.frame values) inner frame) :
    ComesTo (limit + 1) (.list (.name name :: args)) env inner frame := by
  intro breaks signal set
  have argsRun :=
    evaluateArgs_cutShort (evaluateBreaking_cutShort breaks signal limit) args env
  have callStops :
      evaluateCall (evaluateBreaking breaks signal limit) procedure args env = .error signal := by
    rw [evaluated] at argsRun
    unfold evaluateCall
    generalize evaluateArgs (evaluateBreaking breaks signal limit) args env = outcome at argsRun ⊢
    cases argsRun with
    | cut =>
        rfl
    | full =>
        change applyProcedure (evaluateBreaking breaks signal limit) procedure values = _
        rw [applyProcedure, if_pos fits, inside breaks signal set]
        rfl
  rw [evaluateBreaking]
  split
  · rfl
  · change evaluateNamedCall (evaluateBreaking breaks signal limit) name args env = _
    simp only [evaluateNamedCall, found, callStops]
    rfl

/-- Breakpoints at unsound states only are never come to from a sound state. -/
theorem evaluateBreaking_sound
    {breaks : Datum → Env → Bool}
    (quiet : ∀ expression env, expression.Readable → env.Sound → breaks expression env = false)
    (signal : Fault)
    (limit : Nat) :
    Evaluator.Sound (evaluateBreaking breaks signal limit) := by
  induction limit with
  | zero =>
      intro expression env readable envSound
      rw [evaluateBreaking, quiet expression env readable envSound]
      exact .error .tooDeep
  | succ limit inductionHypothesis =>
      intro expression env readable envSound
      rw [evaluateBreaking, quiet expression env readable envSound]
      exact evaluateStep_sound inductionHypothesis (render_sound limit)
        expression env readable envSound

/-- A run from a sound state comes to sound states only. -/
theorem ComesTo.sound
    {limit : Nat}
    {expression inner : Datum}
    {env frame : Env}
    (comes : ComesTo limit expression env inner frame)
    (readable : expression.Readable)
    (envSound : env.Sound) :
    inner.Readable ∧ frame.Sound := by
  classical
  by_contra unsound
  let breaks (other : Datum) (bindings : Env) : Bool :=
    decide ¬(other.Readable ∧ bindings.Sound)
  have quiet (other : Datum) (bindings : Env)
      (otherReadable : other.Readable) (bindingsSound : bindings.Sound) :
      breaks other bindings = false := by
    simp [breaks, otherReadable, bindingsSound]
  -- The signal is a fault that a sound evaluator does not stop with.
  have stopped := comes breaks .tooManyDigits (decide_eq_true unsound)
  have ends := evaluateBreaking_sound quiet .tooManyDigits limit expression env readable envSound
  cases ends.fault stopped

/-- Where only identifiers are bound, a reserved word has no value. -/
theorem Bindings.Sound.evaluate_word
    {env : Env}
    (sound : env.Sound)
    (limit : Nat)
    (word : Word) :
    evaluate (limit + 1) (.word word) env = .error (.eval (.undefinedVariable word.text)) := by
  have unbound : env.get? word.text = none := by
    cases bound : env.get? word.text with
    | none =>
        rfl
    | some value =>
        exact absurd rfl ((sound.names bound).notReserved word)
  change lookUp word.text env = _
  rw [lookUp, unbound]
  rfl

/--
In a session that reads and evaluates expressions in turn, the bindings are sound
at all times, and so is every state that evaluation comes to and every result
there.  A reserved word has no value in any of them.  The names that sound
bindings have are those that some source text has as an atom for a name.
-/
theorem reachable_states_sound :
    (∀ text, IsIdentifier text ↔
      (∃ source, .atom text ∈ tokenize source) ∧ Datum.ofAtom text = .ok (.name text)) ∧
    ∀ env, Reached env →
      env.Sound ∧
        ∀ readLimit source expression, ReadsAs readLimit source expression →
          ∀ limit inner frame, ComesTo limit expression env inner frame →
            inner.Readable ∧
              frame.Sound ∧
              (∀ level value next, evaluate level inner frame = .ok (value, next) →
                value.Sound ∧ next.Sound) ∧
              ∀ level word,
                evaluate (level + 1) (.word word) frame =
                  .error (.eval (.undefinedVariable word.text)) := by
  refine ⟨fun text => isIdentifier_iff, fun env reached => ⟨reached.sound, ?_⟩⟩
  intro readLimit source expression read limit inner frame comes
  obtain ⟨readable, frameSound⟩ := comes.sound read.readable reached.sound
  refine ⟨readable, frameSound, ?_, frameSound.evaluate_word⟩
  intro level value next run
  have results := (evaluate_sound level inner frame readable frameSound).result run
  exact ⟨results.value, results.env⟩

/-- The frame of a call has the procedure itself and its parameter; `+` has no value there. -/
theorem reachable_states_sound_call :
    Reached (.ofList [("f", .procedure ⟨some "f", ["x"], .name "x", .empty⟩)]) ∧
    ReadsAs 1 "(f true)" (.list [.name "f", .bool true]) ∧
    ComesTo 2 (.list [.name "f", .bool true])
      (.ofList [("f", .procedure ⟨some "f", ["x"], .name "x", .empty⟩)])
      (.name "x")
      (.ofList [("f", .procedure ⟨some "f", ["x"], .name "x", .empty⟩), ("x", .bool true)]) ∧
    Bindings.Sound
      (.ofList [("f", .procedure ⟨some "f", ["x"], .name "x", .empty⟩), ("x", .bool true)]) ∧
    evaluate 1 (.word (.arithmetic .add))
        (.ofList [("f", .procedure ⟨some "f", ["x"], .name "x", .empty⟩), ("x", .bool true)]) =
      .error (.eval (.undefinedVariable "+")) := by
  have reached :
      Reached (.ofList [("f", .procedure ⟨some "f", ["x"], .name "x", .empty⟩)]) := by
    have read :
        ReadsAs 2 "(define (f x) x)"
          (.list
            [.word (.specialForm .definition), .list [.name "f", .name "x"], .name "x"]) := by
      exact .inl rfl
    exact .evaluated .start read (show evaluate 1 _ _ = .ok (.name "f", _) from rfl)
  have read : ReadsAs 1 "(f true)" (.list [.name "f", .bool true]) := by
    exact .inl rfl
  have comes :
      ComesTo 2 (.list [.name "f", .bool true])
        (.ofList [("f", .procedure ⟨some "f", ["x"], .name "x", .empty⟩)])
        (.name "x")
        (.ofList
          [("f", .procedure ⟨some "f", ["x"], .name "x", .empty⟩), ("x", .bool true)]) := by
    exact .call rfl (show _ = Except.ok ([.bool true], _) from rfl) rfl (.refl 1 _ _)
  have sound := (reachable_states_sound.2 _ reached).2 _ _ _ read _ _ _ comes
  exact ⟨reached, read, comes, sound.2.1, sound.2.2.2 0 (.arithmetic .add)⟩

end MiniLisp
