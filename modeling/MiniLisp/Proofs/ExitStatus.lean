import Mathlib.Data.List.TakeWhile
import MiniLisp.Proofs.Faults
import MiniLisp.Proofs.LineByLine
import MiniLisp.Proofs.Printable
import MiniLisp.Proofs.Utf8

namespace MiniLisp

/-!
# Exit statuses

A call with source files succeeds with the text of their last value on the standard
output, or fails with nothing there.  That is so whatever the files hold and
whether they are there at all: everything that reading and evaluating them can
stop with is reported.

Printing comes after that, and what stops it is not reported.  So a call has an
exit status just if the value of its files is printable.  A few lines are enough
for one that is not: each of them puts the last value into a list.
-/

section Paths

variable {c : Char} {path : String}

/-- The pieces between separators hold nothing new. -/
theorem subset_of_mem_splitOnP
    {α : Type}
    {separates : α → Bool}
    {items piece : List α}
    (member : piece ∈ items.splitOnP separates) :
    piece ⊆ items := by
  induction items generalizing piece with
  | nil =>
      rw [List.splitOnP_nil, List.mem_singleton] at member
      rw [member]
      exact List.Subset.refl []
  | cons item rest inductionHypothesis =>
      rw [List.splitOnP_cons_eq_if_modifyHead] at member
      split at member
      · rcases List.mem_cons.mp member with rfl | later
        · exact List.nil_subset _
        · exact List.subset_cons_of_subset item (inductionHypothesis later)
      · cases pieces : rest.splitOnP separates with
        | nil =>
            rw [pieces] at member
            cases member
        | cons first others =>
            rw [pieces] at member inductionHypothesis
            rcases List.mem_cons.mp member with rfl | later
            · exact List.cons_subset_cons item (inductionHypothesis List.mem_cons_self)
            · exact List.subset_cons_of_subset item
                (inductionHypothesis (List.mem_cons_of_mem first later))

/-- A character of joined texts is one of the separator or of a text. -/
theorem mem_toList_intercalate
    {separator : String}
    {texts : List String}
    (member : c ∈ (separator.intercalate texts).toList) :
    c ∈ separator.toList ∨ ∃ text ∈ texts, c ∈ text.toList := by
  induction texts with
  | nil =>
      cases member
  | cons first rest inductionHypothesis =>
      cases rest with
      | nil =>
          exact .inr ⟨first, List.mem_cons_self, by simpa using member⟩
      | cons second others =>
          rw [String.intercalate_cons_cons, String.toList_append, String.toList_append,
            List.append_assoc, List.mem_append, List.mem_append] at member
          rcases member with inFirst | inSeparator | later
          · exact .inr ⟨first, List.mem_cons_self, inFirst⟩
          · exact .inl inSeparator
          · refine (inductionHypothesis later).imp_right ?_
            rintro ⟨text, isRest, inText⟩
            exact ⟨text, List.mem_cons_of_mem first isRest, inText⟩

/-- The names on a path are spelled with the characters of the path. -/
theorem mem_toList_of_mem_pathNames
    {name : String}
    (onPath : name ∈ pathNames path)
    (member : c ∈ name.toList) :
    c ∈ path.toList := by
  obtain ⟨piece, isPiece, rfl⟩ : ∃ piece ∈ path.toList.splitOnP (· == '/'), _ = name :=
    List.mem_map.mp (List.mem_of_mem_filter (List.mem_of_mem_filter onPath))
  rw [String.toList_ofList] at member
  exact subset_of_mem_splitOnP isPiece member

/-- The shortest spelling of a path has no new characters but slashes and dots. -/
theorem mem_toList_normalPath
    (member : c ∈ (normalPath path).toList) :
    c ∈ path.toList ∨ c = '/' ∨ c = '.' := by
  unfold normalPath at member
  extract_lets slashes root spelling at member
  have rootSlashes (inRoot : c ∈ root.toList) : c = '/' := by
    unfold root at inRoot
    split at inRoot
    · have twice : c ∈ ['/', '/'] := inRoot
      simpa using twice
    · split at inRoot
      · cases inRoot
      · exact List.mem_singleton.mp inRoot
  split at member
  · exact .inr (.inr (List.mem_singleton.mp member))
  · rcases List.mem_append.mp (String.toList_append ▸ member) with inRoot | inNames
    · exact .inr (.inl (rootSlashes inRoot))
    · rcases mem_toList_intercalate inNames with isSlash | ⟨name, onPath, inName⟩
      · exact .inr (.inl (List.mem_singleton.mp isSlash))
      · exact .inl (mem_toList_of_mem_pathNames onPath inName)

/-- Spelling a path shorter brings no null character into it. -/
theorem null_not_mem_normalPath
    (noNull : Char.ofNat 0 ∉ path.toList) :
    Char.ofNat 0 ∉ (normalPath path).toList := by
  intro member
  rcases mem_toList_normalPath member with inPath | isSlash | isDot
  · exact noNull inPath
  · exact absurd isSlash (by decide)
  · exact absurd isDot (by decide)

end Paths

section Arguments

variable {arguments : List String}

theorem classifyAll_of_plain
    (plain : ∀ argument ∈ arguments, argument.toList.head? ≠ some '-') :
    classifyAll arguments = .ok (arguments.map .file) := by
  induction arguments with
  | nil =>
      rfl
  | cons argument rest inductionHypothesis =>
      obtain ⟨first, others⟩ := List.forall_mem_cons.mp plain
      have notDashes : argument ≠ "--" := by
        rintro rfl
        exact first rfl
      have isFile : classify argument = .ok (.file argument) := by
        rw [classify, if_pos (.inl first)]
      rw [classifyAll, if_neg notDashes, isFile, inductionHypothesis others]
      rfl

theorem requestFiles_of_files
    (noDashes : "--" ∉ arguments) :
    requestFiles (arguments.map .file) = .run arguments := by
  have allFiles : ∀ argument ∈ arguments.map Argument.file, argument.isFile = true := by
    simp [Argument.isFile]
  have noneBefore : (arguments.map Argument.file).takeWhile (!·.isFile) = [] := by
    cases arguments <;> rfl
  have fromFirst :
      (arguments.map Argument.file).dropWhile (!·.isFile) = arguments.map Argument.file := by
    cases arguments <;> rfl
  have texts : (arguments.map Argument.file).filterMap Argument.text? = arguments := by
    simp [List.filterMap_map, Function.comp_def, Argument.text?]
  simp only [requestFiles, noneBefore, fromFirst, List.takeWhile_eq_self_iff.mpr allFiles,
    List.dropWhile_eq_nil_iff.mpr allFiles, texts, List.erase_of_not_mem noDashes]
  rfl

/-- Arguments that do not begin with a dash are the files to run. -/
theorem Request.ofArguments_of_plain
    (plain : ∀ argument ∈ arguments, argument.toList.head? ≠ some '-') :
    Request.ofArguments arguments = .run arguments := by
  have noSwitch : (arguments.map Argument.file).findSome? Argument.request? = none := by
    simp [List.findSome?_eq_none_iff, Argument.request?]
  have noDashes : "--" ∉ arguments := by
    intro member
    exact plain "--" member rfl
  rw [Request.ofArguments, classifyAll_of_plain plain]
  simp only [noSwitch, Option.getD_none]
  exact requestFiles_of_files noDashes

end Arguments

section Runs

variable {limit : Nat} {env : Env}

/-- Readable expressions evaluated in turn keep the bindings sound. -/
theorem evaluateAll_sound
    {expressions : List Datum}
    (readable : ∀ expression ∈ expressions, expression.Readable)
    (value : Datum)
    (envSound : env.Sound) :
    Ends Fault.OfEvaluation (fun left => left.2.Sound)
      (evaluateAll limit expressions value env) := by
  induction expressions generalizing value env with
  | nil =>
      exact .ok envSound
  | cons expression rest inductionHypothesis =>
      obtain ⟨first, others⟩ := List.forall_mem_cons.mp readable
      have firstRun := evaluate_sound limit expression env first envSound
      rw [evaluateAll]
      cases run : evaluate limit expression env with
      | error fault =>
          exact .error (firstRun.fault run)
      | ok left =>
          exact inductionHypothesis others left.1 (firstRun.result run).env

/-- A source text stops with a fault of reading or of evaluation, or keeps the bindings sound. -/
theorem runSource_sound
    (source : String)
    (value : Datum)
    (envSound : env.Sound) :
    Ends (fun fault => fault.OfReading ∨ fault.OfEvaluation) (fun left => left.2.Sound)
      (runSource limit source value env) := by
  unfold runSource
  cases read : parseMany limit source with
  | error fault =>
      exact .error (.inl (Reader.ofReading_of_untilEnd read))
  | ok expressions =>
      have readable (expression : Datum) (member : expression ∈ expressions) :
          expression.Readable :=
        ReadsAs.readable (.inr ⟨expressions, read, member⟩)
      exact (evaluateAll_sound readable value envSound).allow fun _ => .inr

/-- Every fault of reading or of evaluation is reported. -/
theorem RunError.exists_report_fault
    {fault : Fault}
    (ofRun : fault.OfReading ∨ fault.OfEvaluation) :
    ∃ text, (RunError.fault fault).report = .ok text := by
  rcases ofRun with ofReading | ofEvaluation
  · cases ofReading with
    | parse error =>
        exact ⟨_, rfl⟩
    | tooDeep =>
        exact ⟨_, rfl⟩
  · cases ofEvaluation with
    | eval error =>
        exact ⟨_, rfl⟩
    | tooDeep =>
        exact ⟨_, rfl⟩

/-- A file that cannot be read as a text is reported, if its path can be asked for at all. -/
theorem exists_report_of_readSource
    {disk : Disk}
    {path : String}
    {error : RunError}
    (noNull : Char.ofNat 0 ∉ path.toList)
    (fails : readSource disk path = .error error) :
    ∃ text, error.report = .ok text := by
  unfold readSource at fails
  rw [if_neg (by simpa using noNull)] at fails
  split at fails
  · cases fails
    exact ⟨_, rfl⟩
  · split at fails
    · cases fails
      exact ⟨_, rfl⟩
    · cases fails

/-- Whatever stops source files is reported. -/
theorem exists_report_of_runFiles
    {disk : Disk}
    {paths : List String}
    (noNull : ∀ path ∈ paths, Char.ofNat 0 ∉ path.toList)
    {value : Datum}
    (envSound : env.Sound)
    {error : RunError}
    (fails : runFiles limit disk paths value env = .error error) :
    ∃ text, error.report = .ok text := by
  induction paths generalizing value env with
  | nil =>
      cases fails
  | cons path rest inductionHypothesis =>
      obtain ⟨first, others⟩ := List.forall_mem_cons.mp noNull
      rw [runFiles] at fails
      split at fails
      · next unread =>
          cases fails
          exact exists_report_of_readSource first unread
      · next source _ =>
          have sourceRun : Ends _ _ (runSource limit source value env) :=
            runSource_sound source value envSound
          split at fails
          · next stopped =>
              cases fails
              exact RunError.exists_report_fault (sourceRun.fault stopped)
          · next run =>
              exact inductionHypothesis others (sourceRun.result run) fails

end Runs

namespace Invocation

/-- What the files of a call come to, with nothing bound at the start. -/
def valueOfFiles
    (limit : Nat)
    (invocation : Invocation)
    (files : List String) :
    Except RunError (Datum × Env) :=
  runFiles limit invocation.disk (files.map normalPath) .nil .empty

/--
A call on source files has told by its exit status what they come to: it succeeded
and printed the text of their last value and nothing else, or it failed and
printed nothing.
-/
def ReportsByStatus
    (limit : Nat)
    (invocation : Invocation)
    (files : List String) :
    Prop :=
  let outcome := invocation.run limit
  (outcome.exit = .ok 0 ∧
    ∃ value env text,
      invocation.valueOfFiles limit files = .ok (value, env) ∧
        value.render limit = .ok text ∧
        outcome.out = text ++ "\n") ∨
  (outcome.exit = .ok 1 ∧
    outcome.out = "" ∧
    ∃ error, invocation.valueOfFiles limit files = .error error)

section Calls

variable {limit : Nat} {invocation : Invocation} {files : List String}

theorem run_eq_evaluateFiles
    (limit : Nat)
    (asked : Request.ofArguments invocation.arguments = .run files)
    (nonempty : files ≠ []) :
    invocation.run limit = invocation.evaluateFiles limit files := by
  obtain ⟨file, rest, rfl⟩ := List.exists_cons_of_ne_nil nonempty
  rw [run, asked]

/-- Files without a value make the call fail with nothing printed. -/
theorem reportsByStatus_of_error
    (asked : Request.ofArguments invocation.arguments = .run files)
    (nonempty : files ≠ [])
    (noNull : ∀ file ∈ files, Char.ofNat 0 ∉ file.toList)
    {error : RunError}
    (stopped : invocation.valueOfFiles limit files = .error error) :
    invocation.ReportsByStatus limit files := by
  have pathsNoNull : ∀ path ∈ files.map normalPath, Char.ofNat 0 ∉ path.toList := by
    intro path member
    obtain ⟨file, isFile, rfl⟩ := List.mem_map.mp member
    exact null_not_mem_normalPath (noNull file isFile)
  obtain ⟨text, reported⟩ := exists_report_of_runFiles pathsNoNull .empty stopped
  have run := run_eq_evaluateFiles limit asked nonempty
  have stops := stopped
  rw [valueOfFiles] at stops
  simp only [evaluateFiles, stops, reported] at run
  refine .inr ⟨?_, ?_, error, stopped⟩
  · rw [run]
  · rw [run]

/-- Files with a value that has a text make the call succeed and print this text. -/
theorem reportsByStatus_of_text
    (asked : Request.ofArguments invocation.arguments = .run files)
    (nonempty : files ≠ [])
    {value : Datum}
    {env : Env}
    {text : String}
    (computed : invocation.valueOfFiles limit files = .ok (value, env))
    (printed : value.render limit = .ok text) :
    invocation.ReportsByStatus limit files := by
  have run := run_eq_evaluateFiles limit asked nonempty
  have value := computed
  rw [valueOfFiles] at value
  simp only [evaluateFiles, value, printed] at run
  refine .inl ⟨?_, _, env, text, computed, printed, ?_⟩
  · rw [run]
  · rw [run]

/-- Files with a value that has no text make the call end without a status. -/
theorem run_of_unprintable
    (asked : Request.ofArguments invocation.arguments = .run files)
    (nonempty : files ≠ [])
    {value : Datum}
    {env : Env}
    {fault : Fault}
    (computed : invocation.valueOfFiles limit files = .ok (value, env))
    (stopped : value.render limit = .error fault) :
    (invocation.run limit).exit = .error (.fault fault) ∧ (invocation.run limit).out = "" := by
  rw [valueOfFiles] at computed
  rw [run_eq_evaluateFiles limit asked nonempty, evaluateFiles]
  simp only [computed, stopped, and_self]

theorem not_reportsByStatus_of_failure
    {failure : Failure}
    (escaped : (invocation.run limit).exit = .error failure) :
    ¬invocation.ReportsByStatus limit files := by
  rintro (⟨succeeded, -⟩ | ⟨failed, -⟩)
  · rw [escaped] at succeeded
    cases succeeded
  · rw [escaped] at failed
    cases failed

end Calls

end Invocation

/--
A call on source files reports by its exit status just if the value of the files,
should they have one, is printable.  Everything else that can happen is reported:
files that are missing, that are directories or no texts, and whatever stops
reading or evaluating them.  A value that is not printable ends the call without
an exit status and without output.
-/
theorem status_reported_iff_printable
    (limit : Nat)
    (invocation : Invocation)
    (files : List String)
    (asked : Request.ofArguments invocation.arguments = .run files)
    (nonempty : files ≠ [])
    (noNull : ∀ file ∈ files, Char.ofNat 0 ∉ file.toList) :
    (invocation.ReportsByStatus limit files ↔
      ∀ value env, invocation.valueOfFiles limit files = .ok (value, env) →
        value.PrintableWithin limit) ∧
    (¬invocation.ReportsByStatus limit files →
      (invocation.run limit).out = "" ∧
        ∃ fault, (invocation.run limit).exit = .error (.fault fault) ∧
          (fault = .tooDeep ∨ fault = .tooManyDigits)) := by
  cases ends : invocation.valueOfFiles limit files with
  | error error =>
      have reports := Invocation.reportsByStatus_of_error asked nonempty noNull ends
      exact ⟨⟨nofun, fun _ => reports⟩, fun escapes => absurd reports escapes⟩
  | ok result =>
      obtain ⟨value, env⟩ := result
      cases printing : value.render limit with
      | ok text =>
          have printable := exists_render_iff.mp ⟨text, printing⟩
          have reports := Invocation.reportsByStatus_of_text asked nonempty ends printing
          refine ⟨⟨?_, fun _ => reports⟩, fun escapes => absurd reports escapes⟩
          rintro - _ _ ⟨⟩
          exact printable
      | error fault =>
          obtain ⟨escaped, silent⟩ := Invocation.run_of_unprintable asked nonempty ends printing
          have reason := (render_ends limit value).fault printing
          refine ⟨?_, fun _ => ⟨silent, fault, escaped, reason⟩⟩
          constructor
          · intro reports
            exact absurd reports (Invocation.not_reportsByStatus_of_failure escaped)
          · intro allPrintable
            obtain ⟨text, printed⟩ := exists_render_iff.mpr (allPrintable value env rfl)
            rw [printing] at printed
            cases printed

/-- A call on one file, the only one there is, with a given text. -/
def callOn (file text : String) : Invocation where
  arguments := [file]
  home := "home"
  history := none
  logLevel := none
  input := ""
  disk := ⟨[], [([file], .file (Text.encode text.toList))]⟩

/-- A file with a value and one without: both are reported. -/
theorem status_reported_iff_printable_twice :
    Request.ofArguments (callOn "good" "(list true)").arguments = .run ["good"] ∧
      Request.ofArguments (callOn "bad" "(").arguments = .run ["bad"] ∧
      (callOn "good" "(list true)").ReportsByStatus 2 ["good"] ∧
      (callOn "bad" "(").ReportsByStatus 2 ["bad"] := by
  have goodAsked : Request.ofArguments (callOn "good" "(list true)").arguments = .run ["good"] :=
    Request.ofArguments_of_plain (by decide)
  have badAsked : Request.ofArguments (callOn "bad" "(").arguments = .run ["bad"] :=
    Request.ofArguments_of_plain (by decide)
  have good := status_reported_iff_printable 2 _ _ goodAsked nofun (by decide)
  have bad := status_reported_iff_printable 2 _ _ badAsked nofun (by decide)
  have computed :
      (callOn "good" "(list true)").valueOfFiles 2 ["good"] =
        .ok (.list [.bool true], .empty) := by
    rfl
  have stopped :
      (callOn "bad" "(").valueOfFiles 2 ["bad"] = .error (.fault (.parse .missingClose)) := by
    rfl
  refine ⟨goodAsked, badAsked, good.1.mpr ?_, bad.1.mpr ?_⟩
  · rw [computed]
    rintro _ _ ⟨⟩
    exact ⟨by decide, nofun⟩
  · rw [stopped]
    nofun

section Nesting

/-- A list in a list, and so on, around an empty one. -/
def nestedList : Nat → Datum
  | 0 => .list []
  | depth + 1 => .list [nestedList depth]

theorem render_nestedList
    {limit depth : Nat}
    (deep : limit ≤ depth) :
    (nestedList depth).render limit = .error .tooDeep := by
  induction limit generalizing depth with
  | zero =>
      rfl
  | succ limit inductionHypothesis =>
      obtain ⟨inside, rfl⟩ := Nat.exists_eq_add_one_of_ne_zero (Nat.ne_zero_of_lt deep)
      have stopped := inductionHypothesis (Nat.le_of_succ_le_succ deep)
      rw [nestedList, Datum.render, List.mapM_cons, stopped]
      rfl

/-- Lines that put a list into a list a number of times, and ask for what has come of it. -/
def nestingLines (count : Nat) : List String :=
  "(define x (list))" :: (List.replicate count "(define x (list x))" ++ ["x"])

/-- The definition of a variable as a list of given expressions. -/
def listDefinition (items : List Datum) : Datum :=
  .list [.word (.specialForm .definition), .name "x",
    .list (.word (.listOperation .enumerate) :: items)]

theorem evaluate_listDefinition_self
    (limit : Nat)
    {env : Env}
    {value : Datum}
    (bound : env.get? "x" = some value) :
    evaluate (limit + 3) (listDefinition [.name "x"]) env =
      .ok (.name "x", env.insert "x" (.list [value])) := by
  have inner : evaluate (limit + 1) (.name "x") env = .ok (value, env) := by
    simp only [evaluate, evaluateStep, lookUp, bound]
  have args : evaluateArgs (evaluate (limit + 1)) [.name "x"] env = .ok ([value], env) := by
    rw [evaluateArgs, inner]
    rfl
  change (evaluateListOperation (evaluate (limit + 1)) .enumerate [.name "x"] env >>= fun left =>
    Except.ok (Datum.name "x", left.2.insert "x" left.1)) = _
  simp only [evaluateListOperation, args]
  rfl

/-- Every further definition puts the value into one more list. -/
theorem evaluateAll_nesting
    (limit count depth : Nat)
    (value : Datum)
    {env : Env}
    (bound : env.get? "x" = some (nestedList depth)) :
    ∃ left,
      evaluateAll (limit + 3) (List.replicate count (listDefinition [.name "x"]) ++ [.name "x"])
        value env = .ok (nestedList (depth + count), left) := by
  induction count generalizing depth value env with
  | zero =>
      refine ⟨env, ?_⟩
      simp only [List.replicate_zero, List.nil_append, evaluateAll, evaluate, evaluateStep, lookUp,
        bound, Nat.add_zero]
  | succ count inductionHypothesis =>
      have next : (env.insert "x" (.list [nestedList depth])).get? "x" =
          some (nestedList (depth + 1)) := by
        rw [Bindings.get?_insert, if_pos rfl, nestedList]
      rw [List.replicate_succ, List.cons_append, evaluateAll, evaluate_listDefinition_self _ bound,
        Nat.add_comm count, ← Nat.add_assoc]
      exact inductionHypothesis (depth + 1) _ next

/-- Each line is one expression. -/
theorem parse_nestingLines
    (limit count : Nat) :
    List.Forall₂ (fun line expression => parse (limit + 3) line = .ok expression)
      (nestingLines count)
      (listDefinition [] ::
        (List.replicate count (listDefinition [.name "x"]) ++ [.name "x"])) := by
  have higher : 2 ≤ limit + 3 := Nat.le_add_left 2 (limit + 1)
  have start : parse 2 "(define x (list))" = .ok (listDefinition []) := by
    rfl
  have wrap : parse 2 "(define x (list x))" = .ok (listDefinition [.name "x"]) := by
    rfl
  have ask : parse 2 "x" = .ok (.name "x") := by
    rfl
  refine .cons ((parse_cutShort higher _).full_ok start) ?_
  induction count with
  | zero =>
      exact .cons ((parse_cutShort higher _).full_ok ask) .nil
  | succ count inductionHypothesis =>
      exact .cons ((parse_cutShort higher _).full_ok wrap) inductionHypothesis

theorem callOn_readSource
    (text : String) :
    readSource (callOn "deep.lisp" text).disk "deep.lisp" = .ok text := by
  have read : (callOn "deep.lisp" text).disk.read "deep.lisp" =
      .ok (Text.encode text.toList) := by
    rfl
  have noNull : "deep.lisp".toList.contains (Char.ofNat 0) = false := by
    decide
  rw [readSource, noNull]
  simp only [read, Text.decode_encode, String.ofList_toList]
  rfl

/-- The value of the lines is nested as often as they say. -/
theorem valueOfFiles_nesting
    (limit count : Nat) :
    ∃ env,
      (callOn "deep.lisp" ("\n".intercalate (nestingLines count))).valueOfFiles (limit + 3)
        ["deep.lisp"] = .ok (nestedList count, env) := by
  have path : ["deep.lisp"].map normalPath = ["deep.lisp"] := by
    rfl
  have started : evaluate (limit + 3) (listDefinition []) .empty =
      .ok (.name "x", .ofList [("x", nestedList 0)]) := by
    rfl
  have bound : Bindings.get? (.ofList [("x", nestedList 0)]) "x" = some (nestedList 0) := by
    rfl
  obtain ⟨env, run⟩ := evaluateAll_nesting limit count 0 (.name "x") bound
  refine ⟨env, ?_⟩
  rw [Invocation.valueOfFiles, path,
    runFiles_cons (callOn_readSource _) (parseMany_of_lines (parse_nestingLines limit count)),
    evaluateAll, started]
  simp only [run, Nat.zero_add]
  rfl

end Nesting

/-- Three thousand lists in one another are too many to print, and the call does not report. -/
theorem deep_value_escapes :
    let invocation := callOn "deep.lisp" ("\n".intercalate (nestingLines 3000))
    (invocation.run standardLimit).exit = .error (.fault .tooDeep) ∧
      ¬invocation.ReportsByStatus standardLimit ["deep.lisp"] := by
  intro invocation
  obtain ⟨env, computed⟩ := valueOfFiles_nesting 497 3000
  have asked : Request.ofArguments invocation.arguments = .run ["deep.lisp"] :=
    Request.ofArguments_of_plain (show ∀ argument ∈ ["deep.lisp"], _ by decide)
  have stopped : (nestedList 3000).render standardLimit = .error .tooDeep :=
    render_nestedList (by decide)
  obtain ⟨escaped, -⟩ := Invocation.run_of_unprintable asked nofun computed stopped
  exact ⟨escaped, Invocation.not_reportsByStatus_of_failure escaped⟩

end MiniLisp
