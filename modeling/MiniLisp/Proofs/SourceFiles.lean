import Mathlib.Data.List.Forall2
import Mathlib.Tactic.Choose
import MiniLisp.CommandLine
import MiniLisp.Proofs.Grammar
import MiniLisp.Proofs.Tokenization

namespace MiniLisp

/-!
# Programs in several files

A file that can be read contributes its expressions.  Files one after the other
contribute theirs in turn, and a file that holds the contents of all of them on
lines of their own contributes the same expressions.  So it does not matter how
a program is split over files, and a blank file does not matter at all.
-/

/-- Texts on lines of their own have the expressions of each text in turn. -/
theorem parseMany_joined_lines
    {limit : Nat}
    {texts : List String}
    {programs : List (List Datum)}
    (read :
      List.Forall₂ (fun text program => parseMany limit text = .ok program) texts programs) :
    parseMany limit ("\n".intercalate texts) = .ok programs.flatten := by
  have tokens : tokenize ("\n".intercalate texts) = texts.flatMap tokenize :=
    tokenize_intercalate_blank (c := '\n') (by decide) texts
  rw [parseMany_eq_ok_iff, tokens]
  clear tokens
  induction read with
  | nil =>
      exact ⟨Nat.zero_le limit, .nil⟩
  | cons first _ inductionHypothesis =>
      obtain ⟨firstShallow, firstDerived⟩ := parseMany_eq_ok_iff.mp first
      obtain ⟨restShallow, restDerived⟩ := inductionHypothesis
      rw [List.flatten_cons, List.flatMap_cons, Datum.nestingIn_append]
      exact ⟨Nat.max_le.mpr ⟨firstShallow, restShallow⟩, firstDerived.append restDerived⟩

/-- A blank text has no expressions. -/
theorem parseMany_of_blank
    {text : String}
    (blank : ∀ c ∈ text.toList, Text.isBlank c = true)
    (limit : Nat) :
    parseMany limit text = .ok [] := by
  rw [parseMany, tokenize_of_blank blank]
  rfl

/-- Two sequences of expressions are evaluated as one, the second where the first has left off. -/
theorem evaluateAll_append
    (limit : Nat)
    (first second : List Datum)
    (value : Datum)
    (env : Env) :
    evaluateAll limit (first ++ second) value env =
      evaluateAll limit first value env >>= fun left =>
        evaluateAll limit second left.1 left.2 := by
  induction first generalizing value env with
  | nil =>
      rfl
  | cons expression rest inductionHypothesis =>
      rw [List.cons_append, evaluateAll, evaluateAll]
      cases evaluate limit expression env with
      | error fault =>
          rfl
      | ok left =>
          exact inductionHypothesis left.1 left.2

/-- A file that can be read contributes the expressions of its text. -/
theorem runFiles_cons
    {limit : Nat}
    {disk : Disk}
    {path content : String}
    {program : List Datum}
    (held : readSource disk path = .ok content)
    (read : parseMany limit content = .ok program)
    (rest : List String)
    (value : Datum)
    (env : Env) :
    runFiles limit disk (path :: rest) value env =
      (evaluateAll limit program value env).mapError .fault >>= fun left =>
        runFiles limit disk rest left.1 left.2 := by
  rw [runFiles, held]
  simp only [runSource, read]
  cases evaluateAll limit program value env with
  | error fault =>
      rfl
  | ok left =>
      rfl

/-- Files that can be read are run as the expressions of their texts in turn. -/
theorem runFiles_eq_evaluateAll
    {limit : Nat}
    {disk : Disk}
    {paths contents : List String}
    {programs : List (List Datum)}
    (held :
      List.Forall₂ (fun path content => readSource disk path = .ok content) paths contents)
    (read :
      List.Forall₂ (fun text program => parseMany limit text = .ok program) contents programs)
    (value : Datum)
    (env : Env) :
    runFiles limit disk paths value env =
      (evaluateAll limit programs.flatten value env).mapError .fault := by
  induction held generalizing programs value env with
  | nil =>
      cases read with
      | nil =>
          rfl
  | cons first _ inductionHypothesis =>
      cases read with
      | cons firstRead restRead =>
          rw [runFiles_cons first firstRead, List.flatten_cons, evaluateAll_append]
          cases evaluateAll limit _ value env with
          | error fault =>
              rfl
          | ok left =>
              exact inductionHypothesis restRead left.1 left.2

/-- Of two lists of files, the second is run where the first has left off. -/
theorem runFiles_append
    (limit : Nat)
    (disk : Disk)
    (first second : List String)
    (value : Datum)
    (env : Env) :
    runFiles limit disk (first ++ second) value env =
      runFiles limit disk first value env >>= fun left =>
        runFiles limit disk second left.1 left.2 := by
  induction first generalizing value env with
  | nil =>
      rfl
  | cons path rest inductionHypothesis =>
      rw [List.cons_append, runFiles, runFiles]
      cases readSource disk path with
      | error error =>
          rfl
      | ok content =>
          simp only
          cases runSource limit content value env with
          | error fault =>
              rfl
          | ok left =>
              exact inductionHypothesis left.1 left.2

/-- A blank file contributes nothing. -/
theorem runFiles_cons_of_blank
    {disk : Disk}
    {path content : String}
    (held : readSource disk path = .ok content)
    (blank : ∀ c ∈ content.toList, Text.isBlank c = true)
    (limit : Nat)
    (rest : List String)
    (value : Datum)
    (env : Env) :
    runFiles limit disk (path :: rest) value env = runFiles limit disk rest value env :=
  runFiles_cons held (parseMany_of_blank blank limit) rest value env

/--
It does not matter how a program is split over files.  Files with texts that each
can be read on its own are run as one file with these texts on lines of their
own: both give the same value and the same bindings, or the same error.  A blank
file changes nothing, wherever it stands among the others.
-/
theorem runFiles_split_irrelevant
    (limit : Nat)
    (disk : Disk) :
    (∀ (paths contents : List String) (otherDisk : Disk) (joined : String),
      List.Forall₂ (fun path content => readSource disk path = .ok content) paths contents →
        (∀ content ∈ contents, ∃ program, parseMany limit content = .ok program) →
          readSource otherDisk joined = .ok ("\n".intercalate contents) →
            ∀ value env,
              runFiles limit disk paths value env =
                runFiles limit otherDisk [joined] value env) ∧
    (∀ (before after : List String) (path content : String),
      readSource disk path = .ok content →
        (∀ c ∈ content.toList, Text.isBlank c = true) →
          ∀ value env,
            runFiles limit disk (before ++ path :: after) value env =
              runFiles limit disk (before ++ after) value env) := by
  constructor
  · intro paths contents otherDisk joined held accepted whole value env
    choose! program reads using accepted
    have read : List.Forall₂ (fun text program => parseMany limit text = .ok program)
        contents (contents.map program) :=
      List.forall₂_map_right_iff.mpr (List.forall₂_same.mpr reads)
    have wholeRead := parseMany_joined_lines read
    rw [runFiles_eq_evaluateAll held read,
      runFiles_eq_evaluateAll (.cons whole .nil) (.cons wholeRead .nil), List.flatten_singleton]
  · intro before after path content held blank value env
    rw [runFiles_append, runFiles_append]
    simp only [runFiles_cons_of_blank held blank]

/-- A definition, a file with nothing but a line feed in it, and a use of what was defined. -/
theorem runFiles_split_irrelevant_three :
    let disk : Disk :=
      ⟨[], [(["a"], .file (Text.encode "(define x true)".toList)),
        (["b"], .file (Text.encode "\n".toList)),
        (["c"], .file (Text.encode "x".toList)),
        (["all"], .file (Text.encode "(define x true)\n\n\nx".toList))]⟩
    runFiles 2 disk ["a", "c"] .nil .empty = .ok (.bool true, .ofList [("x", .bool true)]) ∧
      runFiles 2 disk ["a", "b", "c"] .nil .empty = runFiles 2 disk ["all"] .nil .empty ∧
      runFiles 2 disk ["a", "c", "b"] .nil .empty = runFiles 2 disk ["a", "c"] .nil .empty := by
  intro disk
  obtain ⟨split, blankFile⟩ := runFiles_split_irrelevant 2 disk
  have first : readSource disk "a" = .ok "(define x true)" := rfl
  have second : readSource disk "b" = .ok "\n" := rfl
  have third : readSource disk "c" = .ok "x" := rfl
  have whole : readSource disk "all" = .ok "(define x true)\n\n\nx" := rfl
  have accepted : ∀ content ∈ ["(define x true)", "\n", "x"],
      ∃ program, parseMany 2 content = .ok program := by
    intro content member
    simp only [List.mem_cons, List.not_mem_nil, or_false] at member
    rcases member with rfl | rfl | rfl
    · exact ⟨_, rfl⟩
    · exact ⟨_, rfl⟩
    · exact ⟨_, rfl⟩
  have blank : ∀ c ∈ "\n".toList, Text.isBlank c = true := by
    intro c member
    have feed : c ∈ ['\n'] := member
    rw [List.mem_singleton.mp feed]
    decide
  refine ⟨rfl, ?_, ?_⟩
  · exact split _ _ disk "all" (.cons first (.cons second (.cons third .nil))) accepted whole
      .nil .empty
  · exact blankFile ["a", "c"] [] "b" _ second blank .nil .empty

end MiniLisp
