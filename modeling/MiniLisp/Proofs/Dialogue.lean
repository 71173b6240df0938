import MiniLisp.Proofs.Turn

namespace MiniLisp

/-!
# What a session keeps of its lines

Of all lines that are entered, only those that are evaluated with success and the
command to reset change the bindings of a session.  All others leave no trace but
in the history, so that a session goes on the same if they are left out: the
bindings are the same, and so is every answer but the history itself.

Two runs are compared turn by turn.  Their sessions have the same bindings, and
disks that have grown from the same one by additions to the history.
-/

/-- The bindings after events: lines that are not blank count, up to the end of the session. -/
def bindingsAfter (limit : Nat) (env : Env) (events : List Event) : Env :=
  let lines := (events.map Event.entered).filter fun line => line ≠ ""
  (lines.takeWhile fun line => !endsSession line).foldl (bindingsAfterLine limit) env

/-- Events that count for nothing: no line, a command that only shows something, a failing line. -/
inductive Unseen (limit : Nat) (env : Env) : Event → Prop where
  /-- A blank line, or an interruption. -/
  | blank
      {event : Event}
      (nothing : event.entered = "") :
      Unseen limit env event
  | display
      {event : Event}
      (command : event.entered ∈ [":help", ":clear", ":cls", ":history"]) :
      Unseen limit env event
  | unreadable
      {event : Event}
      {fault : Fault}
      (notCommand : event.entered ∉ commandLines)
      (fails : parse limit event.entered = .error fault) :
      Unseen limit env event
  | failing
      {event : Event}
      {expression : Datum}
      {fault : Fault}
      (notCommand : event.entered ∉ commandLines)
      (read : parse limit event.entered = .ok expression)
      (fails : evaluate limit expression env = .error fault) :
      Unseen limit env event

/-- Whether all events at some positions count for nothing where they are entered. -/
def Omissible (limit : Nat) (env : Env) (events : List Event) (dropped : Nat → Bool) : Prop :=
  ∀ index, dropped index = true →
    ∃ event,
      events[index]? = some event ∧
        Unseen limit (bindingsAfter limit env (events.take index)) event

/-- A list without what stands at some of its positions. -/
def leaveOut {α : Type} (dropped : Nat → Bool) : List α → List α
  | [] => []
  | item :: rest =>
      let others := leaveOut (fun index => dropped (index + 1)) rest
      if dropped 0 then others else item :: others

/-- Events with what was put out after each; at last the input ends. -/
def answered
    (events : List Event)
    (outputs : List (List Output)) :
    List (Option Event × List Output) :=
  (events.map some ++ [none]).zip outputs

/-- Answers other than to the command that shows the history. -/
def withoutHistory
    (answers : List (Option Event × List Output)) :
    List (Option Event × List Output) :=
  answers.filter fun answer => answer.1.map Event.entered ≠ some ":history"

section Dropping

variable {α : Type} {dropped : Nat → Bool}

theorem leaveOut_cons_of_dropped
    (drops : dropped 0 = true)
    (item : α)
    (rest : List α) :
    leaveOut dropped (item :: rest) = leaveOut (fun index => dropped (index + 1)) rest := by
  simp only [leaveOut, drops, ↓reduceIte]

theorem leaveOut_cons_of_kept
    (keeps : dropped 0 = false)
    (item : α)
    (rest : List α) :
    leaveOut dropped (item :: rest) =
      item :: leaveOut (fun index => dropped (index + 1)) rest := by
  simp only [leaveOut, keeps, Bool.false_eq_true, ↓reduceIte]

end Dropping

theorem answered_cons
    (event : Event)
    (rest : List Event)
    (output : List Output)
    (outputs : List (List Output)) :
    answered (event :: rest) (output :: outputs) = (some event, output) :: answered rest outputs :=
  rfl

theorem answered_of_no_output
    (events : List Event) :
    answered events [] = [] :=
  List.zip_nil_right

theorem withoutHistory_cons_congr
    {event : Event}
    {output other : List Output}
    {answers others : List (Option Event × List Output)}
    (same : event.entered ≠ ":history" → other = output)
    (sameRest : withoutHistory others = withoutHistory answers) :
    withoutHistory ((some event, other) :: others) =
      withoutHistory ((some event, output) :: answers) := by
  by_cases shown : event.entered = ":history"
  · simpa [withoutHistory, shown] using sameRest
  · rw [same shown]
    simpa [withoutHistory, shown] using sameRest

/-- Events that count for nothing keep the bindings, and the session goes on after them. -/
theorem Unseen.keeps
    {limit : Nat}
    {env : Env}
    {event : Event}
    (unseen : Unseen limit env event) :
    bindingsAfterLine limit env event.entered = env ∧ endsSession event.entered = false := by
  cases unseen with
  | blank nothing =>
      rw [nothing]
      exact ⟨rfl, rfl⟩
  | display command =>
      simp only [List.mem_cons, List.not_mem_nil, or_false] at command
      rcases command with shown | shown | shown | shown
      · rw [shown]
        exact ⟨rfl, rfl⟩
      · rw [shown]
        exact ⟨rfl, rfl⟩
      · rw [shown]
        exact ⟨rfl, rfl⟩
      · rw [shown]
        exact ⟨rfl, rfl⟩
  | unreadable notCommand fails =>
      refine ⟨?_, endsSession_of_not_command notCommand⟩
      simp only [bindingsAfterLine, notCommand, fails, ↓reduceIte]
  | failing notCommand read fails =>
      refine ⟨?_, endsSession_of_not_command notCommand⟩
      simp only [bindingsAfterLine, notCommand, read, fails, ↓reduceIte]

section Bindings

variable {limit : Nat} {env : Env} {event : Event} {rest : List Event}

theorem bindingsAfter_cons_of_ends
    (ends : endsSession event.entered = true) :
    bindingsAfter limit env (event :: rest) = env := by
  have something : event.entered ≠ "" := by
    intro nothing
    rw [nothing] at ends
    cases ends
  simp [bindingsAfter, something, ends]

/-- Unless the session ends, a first event leaves its bindings to the others. -/
theorem bindingsAfter_cons
    (goesOn : endsSession event.entered = false) :
    bindingsAfter limit env (event :: rest) =
      bindingsAfter limit (bindingsAfterLine limit env event.entered) rest := by
  by_cases nothing : event.entered = ""
  · -- A blank line is passed over, and would leave the bindings as they are.
    have unchanged : bindingsAfterLine limit env event.entered = env := by
      rw [nothing]
      rfl
    rw [unchanged]
    simp [bindingsAfter, nothing]
  · simp [bindingsAfter, nothing, goesOn]

end Bindings

namespace Omissible

variable {limit : Nat} {env : Env} {event : Event} {rest : List Event} {dropped : Nat → Bool}

/-- The end of the input is no event. -/
theorem keeps_end
    (omissible : Omissible limit env [] dropped) :
    dropped 0 = false := by
  apply Bool.eq_false_iff.mpr
  intro drops
  obtain ⟨event, found, -⟩ := omissible 0 drops
  cases found

theorem head
    (omissible : Omissible limit env (event :: rest) dropped)
    (drops : dropped 0 = true) :
    Unseen limit env event := by
  obtain ⟨found, same, unseen⟩ := omissible 0 drops
  cases same
  exact unseen

theorem keeps_exit
    (omissible : Omissible limit env (event :: rest) dropped)
    (ends : endsSession event.entered = true) :
    dropped 0 = false := by
  apply Bool.eq_false_iff.mpr
  intro drops
  have goesOn := (omissible.head drops).keeps.2
  rw [ends] at goesOn
  cases goesOn

theorem tail
    (omissible : Omissible limit env (event :: rest) dropped)
    (goesOn : endsSession event.entered = false) :
    Omissible limit (bindingsAfterLine limit env event.entered) rest
      (fun index => dropped (index + 1)) := by
  intro index drops
  obtain ⟨found, same, unseen⟩ := omissible (index + 1) drops
  rw [List.take_succ_cons, bindingsAfter_cons goesOn] at unseen
  exact ⟨found, same, unseen⟩

end Omissible

namespace Session

section Histories

variable {limit : Nat} {env : Env} {history : String} {base disk : Disk} {place : Place}
  {content : List UInt8} {event : Event} {goesOn : Bool}

/-- Where the history has a file, a line is added to it without a word and then handled. -/
theorem exists_turn_of_target
    (grown : base.Grown history disk)
    (target : base.Target history place content)
    (something : event.entered ≠ "")
    (limit : Nat)
    (env : Env) :
    ∃ text,
      text ≠ [] ∧
        turn limit ⟨env, disk, history⟩ event =
          handle limit ⟨env, base.put place (.file (content ++ Text.encode text)), history⟩
            event.entered := by
  obtain ⟨earlier, added⟩ := grown.append_of_target target (event.entered.toList ++ ['\n'])
  refine ⟨earlier ++ (event.entered.toList ++ ['\n']), by simp, ?_⟩
  rw [turn_of_entered something]
  simp only [appendHistory, Disk.addHistory, added]
  rfl

/-- Whether the history can be shown does not depend on the lines that were added to it. -/
theorem handle_history_of_target
    {text : List Char}
    (target : base.Target history place content)
    (nonempty : text ≠ [])
    (shown :
      (handle limit ⟨env, base.put place (.file (content ++ Text.encode text)), history⟩
        ":history").result = .ok goesOn)
    (other : List Char) :
    (handle limit ⟨env, base.put place (.file (content ++ Text.encode other)), history⟩
      ":history").result = .ok goesOn := by
  rw [(handle_history limit _).2, loadHistory_of_read (target.read_put _)] at shown ⊢
  cases decoded : Text.decodeStream historyWindow (content ++ Text.encode text) with
  | error malformed =>
      rw [decoded] at shown
      cases shown
  | ok chars =>
      obtain ⟨others, otherDecoded⟩ := Text.decodeStream_append_encode nonempty decoded other
      rw [decoded] at shown
      rw [otherDecoded]
      exact shown

end Histories

/-- Sessions that differ at most in what was added to the history on the same disk. -/
inductive Parallel (base : Disk) : Session → Session → Prop where
  | intro
      {env : Env}
      {history : String}
      {disk otherDisk : Disk}
      (grown : base.Grown history disk)
      (otherGrown : base.Grown history otherDisk) :
      Parallel base ⟨env, disk, history⟩ ⟨env, otherDisk, history⟩

namespace Parallel

variable {limit : Nat} {base : Disk} {first second : Session} {event : Event} {goesOn : Bool}

theorem env_eq
    (parallel : Parallel base first second) :
    second.env = first.env := by
  cases parallel with
  | intro grown otherGrown =>
      rfl

/-- An event that counts for nothing can be left out on one side. -/
theorem turn_left
    (parallel : Parallel base first second)
    (unseen : Unseen limit first.env event) :
    Parallel base (first.turn limit event).session second := by
  cases parallel with
  | @intro env history disk otherDisk grown otherGrown =>
      obtain ⟨⟨next, left, grownOn⟩, -⟩ := turn_spec limit ⟨env, disk, history⟩ event grown
      rw [left, unseen.keeps.1]
      exact .intro grownOn otherGrown

/-- An event on both sides keeps the sessions apart in their histories only. -/
theorem turn_both
    (parallel : Parallel base first second)
    (limit : Nat)
    (event : Event) :
    Parallel base (first.turn limit event).session (second.turn limit event).session := by
  cases parallel with
  | @intro env history disk otherDisk grown otherGrown =>
      obtain ⟨⟨next, left, grownOn⟩, -⟩ := turn_spec limit ⟨env, disk, history⟩ event grown
      obtain ⟨⟨otherNext, otherLeft, otherGrownOn⟩, -⟩ :=
        turn_spec limit ⟨env, otherDisk, history⟩ event otherGrown
      rw [left, otherLeft]
      exact .intro grownOn otherGrownOn

/--
A turn that does not fail on one side does not fail on the other, and puts out the
same unless it shows the history.
-/
theorem turn_agrees
    (parallel : Parallel base first second)
    (finished : (first.turn limit event).result = .ok goesOn) :
    (second.turn limit event).result = .ok goesOn ∧
      (event.entered ≠ ":history" →
        (second.turn limit event).output = (first.turn limit event).output) := by
  by_cases nothing : event.entered = ""
  · obtain ⟨output, turned⟩ := exists_turn_of_blank nothing limit
    rw [turned] at finished ⊢
    rw [turned]
    exact ⟨finished, fun _ => rfl⟩
  cases parallel with
  | @intro env history disk otherDisk grown otherGrown =>
      by_cases hasTarget : ∃ place content, base.Target history place content
      · obtain ⟨place, content, target⟩ := hasTarget
        obtain ⟨text, nonempty, turned⟩ := exists_turn_of_target grown target nothing limit env
        obtain ⟨other, -, otherTurned⟩ :=
          exists_turn_of_target otherGrown target nothing limit env
        rw [turned] at finished ⊢
        rw [otherTurned]
        by_cases shown : event.entered = ":history"
        · rw [shown] at finished ⊢
          exact ⟨handle_history_of_target target nonempty finished other, absurd rfl⟩
        · obtain ⟨output, result, -, handled⟩ := exists_handle_eq shown limit env
          rw [handled] at finished ⊢
          rw [handled]
          exact ⟨finished, fun _ => rfl⟩
      · -- Nothing could ever be added to the history, so both sessions are the same.
        rw [grown.eq_of_no_target hasTarget] at finished ⊢
        rw [otherGrown.eq_of_no_target hasTarget]
        exact ⟨finished, fun _ => rfl⟩

end Parallel

/-- A session that ends without a failure, with what it puts out each time it asks for a line. -/
inductive Completes (limit : Nat) :
    Session → List Event → List (List Output) → Session → Prop where
  | inputEnds (session : Session) : Completes limit session [] [[.write ""]] session
  | exit
      {session : Session}
      {event : Event}
      {rest : List Event}
      (stops : (session.turn limit event).result = .ok false) :
      Completes limit session (event :: rest) [(session.turn limit event).output]
        (session.turn limit event).session
  | goOn
      {session last : Session}
      {event : Event}
      {rest : List Event}
      {outputs : List (List Output)}
      (goesOn : (session.turn limit event).result = .ok true)
      (later : Completes limit (session.turn limit event).session rest outputs last) :
      Completes limit session (event :: rest) ((session.turn limit event).output :: outputs) last

namespace Completes

variable {limit : Nat} {session last : Session} {events : List Event}
  {outputs : List (List Output)}

theorem turns_eq
    (completes : Completes limit session events outputs last) :
    session.turns limit events = (outputs, last, .ok ()) := by
  induction completes with
  | inputEnds session =>
      rfl
  | exit stops =>
      simp only [turns, stops]
  | goOn goesOn _ inductionHypothesis =>
      simp only [turns, goesOn, inductionHypothesis]

theorem run_eq
    (completes : Completes limit session events outputs last) :
    session.run limit events = ⟨[.write greeting], outputs, last, .ok ()⟩ := by
  simp only [run, completes.turns_eq]

/-- A run without a failure completes. -/
theorem of_turns
    (finished : (session.turns limit events).2.2 = .ok ()) :
    ∃ outputs last, Completes limit session events outputs last := by
  induction events generalizing session with
  | nil =>
      exact ⟨_, _, .inputEnds session⟩
  | cons event rest inductionHypothesis =>
      cases turned : (session.turn limit event).result with
      | error failure =>
          simp only [turns, turned] at finished
          cases finished
      | ok goesOn =>
          cases goesOn with
          | false =>
              exact ⟨_, _, .exit turned⟩
          | true =>
              simp only [turns, turned] at finished
              obtain ⟨outputs, last, later⟩ := inductionHypothesis finished
              exact ⟨_, _, .goOn turned later⟩

/-- The bindings at the end are those that the lines leave one after the other. -/
theorem env_eq
    (completes : Completes limit session events outputs last) :
    last.env = bindingsAfter limit session.env events := by
  induction completes with
  | inputEnds session =>
      rfl
  | @exit session event rest stops =>
      have ends : endsSession event.entered = true := endsSession_of_turn stops
      rw [turn_env, bindingsAfterLine_of_ends ends, bindingsAfter_cons_of_ends ends]
  | @goOn session last event rest outputs goesOn later inductionHypothesis =>
      have continues : endsSession event.entered = false := endsSession_of_turn goesOn
      rw [inductionHypothesis, turn_env, bindingsAfter_cons continues]

/--
A session completes without the events that count for nothing: it comes to the
same bindings, and the events that stay are answered as before.
-/
theorem exists_leaveOut
    {base : Disk}
    {other : Session}
    {dropped : Nat → Bool}
    (completes : Completes limit session events outputs last)
    (parallel : Parallel base session other)
    (omissible : Omissible limit session.env events dropped) :
    ∃ others final,
      Completes limit other (leaveOut dropped events) others final ∧
        final.env = last.env ∧
        withoutHistory (answered (leaveOut dropped events) others) =
          withoutHistory (leaveOut dropped (answered events outputs)) := by
  -- The other session runs behind: it takes a turn only for the events that it keeps.
  induction completes generalizing other dropped with
  | inputEnds session =>
      refine ⟨_, _, .inputEnds other, parallel.env_eq, ?_⟩
      change _ = withoutHistory (leaveOut dropped ((none, [.write ""]) :: []))
      rw [leaveOut_cons_of_kept omissible.keeps_end]
      rfl
  | @exit session event rest stops =>
      have keeps : dropped 0 = false := omissible.keeps_exit (endsSession_of_turn stops)
      obtain ⟨otherStops, sameOutput⟩ := parallel.turn_agrees stops
      rw [leaveOut_cons_of_kept keeps]
      refine ⟨_, _, .exit otherStops, (parallel.turn_both limit event).env_eq, ?_⟩
      rw [answered_cons, answered_cons, answered_of_no_output, answered_of_no_output,
        leaveOut_cons_of_kept keeps]
      exact withoutHistory_cons_congr sameOutput rfl
  | @goOn session last event rest outputs goesOn later inductionHypothesis =>
      have omissibleLater := omissible.tail (endsSession_of_turn goesOn)
      rw [← turn_env] at omissibleLater
      cases drops : dropped 0 with
      | true =>
          rw [answered_cons, leaveOut_cons_of_dropped drops, leaveOut_cons_of_dropped drops]
          exact inductionHypothesis (parallel.turn_left (omissible.head drops)) omissibleLater
      | false =>
          obtain ⟨otherGoesOn, sameOutput⟩ := parallel.turn_agrees goesOn
          obtain ⟨others, final, otherLater, sameEnv, sameLater⟩ :=
            inductionHypothesis (parallel.turn_both limit event) omissibleLater
          rw [answered_cons, leaveOut_cons_of_kept drops, leaveOut_cons_of_kept drops]
          refine ⟨_, final, .goOn otherGoesOn otherLater, sameEnv, ?_⟩
          rw [answered_cons]
          exact withoutHistory_cons_congr sameOutput sameLater

end Completes

end Session

/--
Lines that fail are invisible in a session, as are blank lines, interruptions and
commands that only show something.  If a session ends without a failure, then its
bindings are those that its lines leave one after the other.  Without any of the
events that count for nothing it comes to the same bindings, and answers all other
events as before, except where it shows the history.
-/
theorem failing_lines_invisible
    (limit : Nat)
    (session : Session)
    (events : List Event)
    (finishes : (session.run limit events).result = .ok ()) :
    (session.run limit events).session.env = bindingsAfter limit session.env events ∧
      ∀ dropped : Nat → Bool,
        Omissible limit session.env events dropped →
          (session.run limit (leaveOut dropped events)).result = .ok () ∧
            (session.run limit (leaveOut dropped events)).session.env =
              (session.run limit events).session.env ∧
            withoutHistory
                (answered (leaveOut dropped events)
                  (session.run limit (leaveOut dropped events)).turns) =
              withoutHistory
                (leaveOut dropped (answered events (session.run limit events).turns)) := by
  obtain ⟨outputs, last, completes⟩ := Session.Completes.of_turns finishes
  rw [completes.run_eq]
  refine ⟨completes.env_eq, ?_⟩
  intro dropped omissible
  obtain ⟨others, final, otherCompletes, sameEnv, sameAnswers⟩ :=
    completes.exists_leaveOut (.intro .unchanged .unchanged) omissible
  rw [otherCompletes.run_eq]
  exact ⟨rfl, sameEnv, sameAnswers⟩

/-- A line that cannot be read, an interruption and an undefined name, between lines that count. -/
theorem failing_lines_invisible_three :
    let session : Session := ⟨.empty, ⟨[], []⟩, "history"⟩
    let shorter : List Event :=
      [.line "(define x true)", .line ":history", .line "x", .line ":q"]
    let events : List Event :=
      [.line "(define x true)", .line "(list x", .interrupt, .line " y ", .line ":history",
        .line "x", .line ":q"]
    (session.run 9 events).result = .ok () ∧
      (session.run 9 events).session.env = .ofList [("x", .bool true)] ∧
      (session.run 9 shorter).session.env = .ofList [("x", .bool true)] ∧
      withoutHistory (answered shorter (session.run 9 shorter).turns) =
        withoutHistory
          (leaveOut (fun index => 1 ≤ index && index ≤ 3)
            (answered events (session.run 9 events).turns)) := by
  intro session shorter events
  have finishes : (session.run 9 events).result = .ok () := by
    simp only [session, events]
    rfl
  have left : bindingsAfter 9 session.env events = .ofList [("x", .bool true)] := by
    simp only [session, events]
    rfl
  have omissible :
      Omissible 9 session.env events (fun index => 1 ≤ index && index ≤ 3) := by
    intro index drops
    simp only [Bool.and_eq_true, decide_eq_true_eq] at drops
    obtain rfl | rfl | rfl : index = 1 ∨ index = 2 ∨ index = 3 := by omega
    · have cut : parse 9 (Event.line "(list x").entered = .error (.parse .missingClose) := rfl
      exact ⟨_, rfl, .unreadable (by decide) cut⟩
    · exact ⟨_, rfl, .blank rfl⟩
    · have read : parse 9 (Event.line " y ").entered = .ok (.name "y") := rfl
      have fails : evaluate 9 (.name "y") (.ofList [("x", .bool true)]) =
          .error (.eval (.undefinedVariable "y")) := rfl
      exact ⟨_, rfl, .failing (by decide) read fails⟩
  have shortened : leaveOut (fun index => 1 ≤ index && index ≤ 3) events = shorter := rfl
  obtain ⟨bindings, without⟩ := failing_lines_invisible 9 session events finishes
  obtain ⟨-, sameEnv, sameAnswers⟩ := without _ omissible
  rw [left] at bindings
  rw [shortened] at sameEnv sameAnswers
  exact ⟨finishes, bindings, sameEnv.trans bindings, sameAnswers⟩

end MiniLisp
