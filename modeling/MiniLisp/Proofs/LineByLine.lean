import MiniLisp.Proofs.Limit
import MiniLisp.Proofs.SourceFiles

namespace MiniLisp

/-!
# A program line by line

A file is read as a whole before any of it is evaluated.  A session reads and
evaluates one line at a time, answers errors, and goes on.  For lines that are
one expression each, both do the same: they evaluate the same expressions, each
in the bindings that the one before left, up to the first that has no value.

A session may use more levels than the run of the file had: a limit only cuts
off, so what was evaluated within the lower limit is evaluated as before.
-/

/--
Lines that a session processes one after the other, each of which is an
expression with a value.  What a call comes to is what printing the value comes
to, and the next call is made also if that fails.
-/
inductive Processed (limit : Nat) : Session → List String → List Datum → Session → Prop where
  | nil (session : Session) : Processed limit session [] [] session
  | cons
      {session last : Session}
      {line : String}
      {expression value : Datum}
      {env : Env}
      {rest : List String}
      {values : List Datum}
      (read : parse limit line = .ok expression)
      (run : evaluate limit expression session.env = .ok (value, env))
      (outcome : (session.process limit line).result = (value.render limit).mapError .fault)
      (later : Processed limit (session.process limit line).session rest values last) :
      Processed limit session (line :: rest) (value :: values) last

namespace Session

variable {limit : Nat} {session : Session} {line : String} {expression : Datum}

/-- A line with a value advances the bindings; the value is printed after that. -/
theorem process_of_value
    {value : Datum}
    {env : Env}
    (read : parse limit line = .ok expression)
    (run : evaluate limit expression session.env = .ok (value, env)) :
    (session.process limit line).result = (value.render limit).mapError .fault ∧
      (session.process limit line).session = { session with env := env } := by
  simp only [process, evaluateLine, read, run]
  cases value.render limit with
  | error fault =>
      exact ⟨rfl, rfl⟩
  | ok text =>
      exact ⟨rfl, rfl⟩

/-- A line with an evaluation error is answered, and the session stays as it was. -/
theorem process_of_evalError
    {error : EvalError}
    (read : parse limit line = .ok expression)
    (stopped : evaluate limit expression session.env = .error (.eval error)) :
    (session.process limit line).result = .ok ("Error: " ++ error.message) ∧
      (session.process limit line).session = session := by
  simp only [process, evaluateLine, read, stopped]
  exact ⟨rfl, rfl⟩

end Session

section Agreement

variable {limit sessionLimit : Nat} {lines : List String} {expressions : List Datum}

/-- A text with one expression on each line consists of these expressions. -/
theorem parseMany_of_lines
    (read :
      List.Forall₂ (fun line expression => parse limit line = .ok expression)
        lines expressions) :
    parseMany limit ("\n".intercalate lines) = .ok expressions := by
  have each : List.Forall₂ (fun text program => parseMany limit text = .ok program)
      lines (expressions.map fun expression => [expression]) := by
    refine List.forall₂_map_right_iff.mpr (read.imp fun line expression parsed => ?_)
    exact parse_eq_ok_iff_parseMany.mp parsed
  have joined := parseMany_joined_lines each
  rwa [← List.flatMap_def, List.flatMap_singleton'] at joined

/--
Of lines that are one expression each, a session processes all, or those before
one that has no value; the expressions evaluated in turn then have the last value
and the last bindings, or stop where the session was stopped.
-/
theorem processed_or_stopped
    (higher : limit ≤ sessionLimit)
    (read :
      List.Forall₂ (fun line expression => parse limit line = .ok expression)
        lines expressions)
    (session : Session)
    (start : Datum) :
    (∃ values last,
      Processed sessionLimit session lines values last ∧
        evaluateAll limit expressions start session.env =
          .ok (values.getLastD start, last.env)) ∨
    (∃ before line after expression values middle fault,
      lines = before ++ line :: after ∧
        Processed sessionLimit session before values middle ∧
        parse limit line = .ok expression ∧
        evaluate limit expression middle.env = .error fault ∧
        evaluateAll limit expressions start session.env = .error fault) := by
  induction read generalizing session start with
  | nil =>
      exact .inl ⟨[], session, .nil session, rfl⟩
  | @cons line expression rest others parsed _ inductionHypothesis =>
      cases first : evaluate limit expression session.env with
      | error fault =>
          refine .inr ⟨[], line, rest, expression, [], session, fault, rfl, .nil session,
            parsed, first, ?_⟩
          rw [evaluateAll, first]
      | ok left =>
          have sessionRead : parse sessionLimit line = .ok expression :=
            (parse_cutShort higher line).full_ok parsed
          have sessionRun : evaluate sessionLimit expression session.env = .ok left :=
            (evaluate_cutShort higher expression session.env).full_ok first
          obtain ⟨outcome, advanced⟩ := Session.process_of_value sessionRead sessionRun
          have continues :
              evaluateAll limit (expression :: others) start session.env =
                evaluateAll limit others left.1
                  (session.process sessionLimit line).session.env := by
            rw [evaluateAll, first, advanced]
          rw [continues]
          rcases inductionHypothesis (session.process sessionLimit line).session left.1 with
            ⟨values, last, later, evaluated⟩ |
            ⟨before, failing, after, stopping, values, middle, fault, shape, earlier, stops⟩
          · refine .inl ⟨left.1 :: values, last,
              .cons sessionRead sessionRun outcome later, ?_⟩
            rw [evaluated, List.getLastD_cons]
          · exact .inr ⟨line :: before, failing, after, stopping, left.1 :: values, middle, fault,
              congrArg (List.cons line) shape,
              .cons sessionRead sessionRun outcome earlier, stops⟩

end Agreement

/--
A session and the run of a file agree on lines that are one expression each.  If
the file with these lines has a value, then the session processes all lines, comes
to the bindings that the file leaves, and its last value is that of the file.  If
the file stops with an evaluation error, then the session processes the lines
before some line, answers this one with the error, and stays as it was.
-/
theorem session_agrees_with_file
    {limit sessionLimit : Nat}
    (higher : limit ≤ sessionLimit)
    (lines : List String)
    (accepted : ∀ line ∈ lines, ∃ expression, parse limit line = .ok expression)
    (disk : Disk)
    (path : String)
    (held : readSource disk path = .ok ("\n".intercalate lines))
    (session : Session)
    (fresh : session.env = .empty) :
    (∀ value env,
      runFiles limit disk [path] .nil .empty = .ok (value, env) →
        ∃ values last,
          Processed sessionLimit session lines values last ∧
            last.env = env ∧
            values.getLastD .nil = value) ∧
    (∀ error,
      runFiles limit disk [path] .nil .empty = .error (.fault (.eval error)) →
        ∃ before line after values middle,
          lines = before ++ line :: after ∧
            Processed sessionLimit session before values middle ∧
            (middle.process sessionLimit line).result = .ok ("Error: " ++ error.message) ∧
            (middle.process sessionLimit line).session = middle) := by
  choose! expressionOf reads using accepted
  have read : List.Forall₂ (fun line expression => parse limit line = .ok expression)
      lines (lines.map expressionOf) :=
    List.forall₂_map_right_iff.mpr (List.forall₂_same.mpr reads)
  have fileRun : runFiles limit disk [path] .nil .empty =
      (evaluateAll limit (lines.map expressionOf) .nil session.env).mapError .fault := by
    rw [runFiles_eq_evaluateAll (.cons held .nil) (.cons (parseMany_of_lines read) .nil),
      List.flatten_singleton, fresh]
  rw [fileRun]
  rcases processed_or_stopped higher read session .nil with
    ⟨values, last, processed, evaluated⟩ |
    ⟨before, line, after, expression, values, middle, fault, shape, processed, parsed, stops,
      stopped⟩
  · rw [evaluated]
    constructor
    · rintro value env ⟨⟩
      exact ⟨values, last, processed, rfl, rfl⟩
    · rintro error ⟨⟩
  · rw [stopped]
    constructor
    · rintro value env ⟨⟩
    · rintro error ⟨⟩
      refine ⟨before, line, after, values, middle, shape, processed, ?_⟩
      apply Session.process_of_evalError
      · exact (parse_cutShort higher line).full_ok parsed
      · exact (evaluate_cutShort higher expression middle.env).full_eq stops nofun

/-- A program with a value, and one that stops at its second line. -/
theorem session_agrees_with_file_twice :
    let disk : Disk :=
      ⟨[], [(["good"], .file (Text.encode "(define x true)\n(list x)".toList)),
        (["bad"], .file (Text.encode "(define x true)\ny\nx".toList))]⟩
    let session : Session := ⟨.empty, disk, "history"⟩
    (runFiles 2 disk ["good"] .nil .empty =
        .ok (.list [.bool true], .ofList [("x", .bool true)]) ∧
      ∃ values last,
        Processed 9 session ["(define x true)", "(list x)"] values last ∧
          last.env = .ofList [("x", .bool true)] ∧
          values.getLastD .nil = .list [.bool true]) ∧
    (runFiles 2 disk ["bad"] .nil .empty = .error (.fault (.eval (.undefinedVariable "y"))) ∧
      ∃ before line after values middle,
        ["(define x true)", "y", "x"] = before ++ line :: after ∧
          Processed 9 session before values middle ∧
          (middle.process 9 line).result = .ok "Error: Undefined variable: y" ∧
          (middle.process 9 line).session = middle) := by
  intro disk session
  have accepted : ∀ line ∈ ["(define x true)", "(list x)", "y", "x"],
      ∃ expression, parse 2 line = .ok expression := by
    intro line member
    simp only [List.mem_cons, List.not_mem_nil, or_false] at member
    rcases member with rfl | rfl | rfl | rfl
    · exact ⟨_, rfl⟩
    · exact ⟨_, rfl⟩
    · exact ⟨_, rfl⟩
    · exact ⟨_, rfl⟩
  have higher : 2 ≤ 9 := by decide
  have good := session_agrees_with_file higher ["(define x true)", "(list x)"]
    (fun line member => accepted line (by simp at member ⊢; tauto)) disk "good" rfl session rfl
  have bad := session_agrees_with_file higher ["(define x true)", "y", "x"]
    (fun line member => accepted line (by simp at member ⊢; tauto)) disk "bad" rfl session rfl
  exact ⟨⟨rfl, good.1 _ _ rfl⟩, ⟨rfl, bad.2 _ rfl⟩⟩

end MiniLisp
