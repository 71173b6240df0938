import MiniLisp.Proofs.HistoryFile
import MiniLisp.Session

namespace MiniLisp

/-!
# One turn of a session

What a line does to a session depends on the bindings alone, unless the line shows
the history.  It leaves bindings, and may end the session; before that it is added
to the history, which changes nothing on the disk but the history file.
-/

/-- The line that is entered, without the blanks around it; an interruption enters nothing. -/
def Event.entered : Event → String
  | .interrupt => ""
  | .line text => String.ofList (Text.trim text.toList)

/-- The lines that are commands. -/
def commandLines : List String :=
  [":exit", ":q", ":clear", ":cls", ":history", ":help", ":reset"]

/-- Whether a line ends the session. -/
def endsSession (line : String) : Bool :=
  line = ":exit" || line = ":q"

/-- The bindings that a line leaves. -/
def bindingsAfterLine (limit : Nat) (env : Env) (line : String) : Env :=
  if line ∈ commandLines then
    if line = ":reset" then .empty else env
  else
    match parse limit line with
    | .error _ => env
    | .ok expression =>
        match evaluate limit expression env with
        | .error _ => env
        | .ok (_, next) => next

theorem mem_commandLines
    {line : String} :
    line ∈ commandLines ↔
      line = ":exit" ∨ line = ":q" ∨ line = ":clear" ∨ line = ":cls" ∨ line = ":history" ∨
        line = ":help" ∨ line = ":reset" := by
  simp [commandLines]

theorem Command.ofLine?_eq_none
    {line : String}
    (notCommand : line ∉ commandLines) :
    Command.ofLine? line = none := by
  simp only [mem_commandLines, not_or] at notCommand
  simp [ofLine?, notCommand]

theorem endsSession_of_not_command
    {line : String}
    (notCommand : line ∉ commandLines) :
    endsSession line = false := by
  simp only [mem_commandLines, not_or] at notCommand
  simp [endsSession, notCommand]

theorem bindingsAfterLine_of_ends
    {line : String}
    (ends : endsSession line = true)
    (limit : Nat)
    (env : Env) :
    bindingsAfterLine limit env line = env := by
  simp only [endsSession, Bool.or_eq_true, decide_eq_true_eq] at ends
  rcases ends with rfl | rfl
  · rfl
  · rfl

namespace Session

/-- A line that is no command is processed by the bindings alone, whatever the disk. -/
theorem exists_process_eq
    {line : String}
    (notCommand : line ∉ commandLines)
    (limit : Nat)
    (env : Env) :
    ∃ output outcome, ∀ disk history,
      process limit ⟨env, disk, history⟩ line =
        ⟨output, ⟨bindingsAfterLine limit env line, disk, history⟩, outcome⟩ := by
  simp only [process, evaluateLine, bindingsAfterLine, notCommand, ↓reduceIte]
  cases parse limit line with
  | error fault =>
      simp only
      cases answerFault? fault with
      | none =>
          exact ⟨_, _, fun _ _ => rfl⟩
      | some text =>
          exact ⟨_, _, fun _ _ => rfl⟩
  | ok expression =>
      simp only
      cases evaluate limit expression env with
      | error fault =>
          simp only
          cases answerFault? fault with
          | none =>
              exact ⟨_, _, fun _ _ => rfl⟩
          | some text =>
              exact ⟨_, _, fun _ _ => rfl⟩
      | ok left =>
          simp only
          cases left.1.render limit with
          | error fault =>
              exact ⟨_, _, fun _ _ => rfl⟩
          | ok text =>
              exact ⟨_, _, fun _ _ => rfl⟩

/-- What a line can result in: a failure, or that the session ends or goes on as it should. -/
def Answers (line : String) (result : Except Failure Bool) : Prop :=
  result = .ok (!endsSession line) ∨ ∃ failure, result = .error failure

/-- All lines but the command that shows the history are handled by the bindings alone. -/
theorem exists_handle_eq
    {line : String}
    (notHistory : line ≠ ":history")
    (limit : Nat)
    (env : Env) :
    ∃ output result, Answers line result ∧ ∀ disk history,
      handle limit ⟨env, disk, history⟩ line =
        ⟨output, ⟨bindingsAfterLine limit env line, disk, history⟩, result⟩ := by
  by_cases command : line ∈ commandLines
  · rcases mem_commandLines.mp command with rfl | rfl | rfl | rfl | rfl | rfl | rfl
    · exact ⟨_, _, .inl rfl, fun _ _ => rfl⟩
    · exact ⟨_, _, .inl rfl, fun _ _ => rfl⟩
    · exact ⟨_, _, .inl rfl, fun _ _ => rfl⟩
    · exact ⟨_, _, .inl rfl, fun _ _ => rfl⟩
    · exact absurd rfl notHistory
    · exact ⟨_, _, .inl rfl, fun _ _ => rfl⟩
    · exact ⟨_, _, .inl rfl, fun _ _ => rfl⟩
  · obtain ⟨output, outcome, processed⟩ := exists_process_eq command limit env
    simp only [handle, Command.ofLine?_eq_none command, processed, Answers,
      endsSession_of_not_command command]
    cases outcome with
    | error failure =>
        exact ⟨_, _, .inr ⟨failure, rfl⟩, fun _ _ => rfl⟩
    | ok text =>
        exact ⟨output ++ [.write text], .ok true, .inl rfl, fun _ _ => rfl⟩

theorem loadHistory_session
    (session : Session) :
    session.loadHistory.session = session := by
  unfold loadHistory
  split
  · split
    · rfl
    · rfl
  · rfl
  · rfl

/-- Showing the history leaves the session as it is, and fails only where loading fails. -/
theorem handle_history
    (limit : Nat)
    (session : Session) :
    (session.handle limit ":history").session = session ∧
      (session.handle limit ":history").result =
        session.loadHistory.result.map fun _ => true := by
  have handled : session.handle limit ":history" =
      session.showHistory.andThen fun next _ => .pure next true := rfl
  have unchanged := session.loadHistory_session
  rw [handled]
  simp only [showHistory, Reply.andThen]
  cases session.loadHistory.result with
  | error failure =>
      exact ⟨unchanged, rfl⟩
  | ok entries =>
      exact ⟨unchanged, rfl⟩

/-- A history that can be opened is loaded if it is text. -/
theorem loadHistory_of_read
    {session : Session}
    {bytes : List UInt8}
    (opened : session.disk.read session.history = .ok bytes) :
    session.loadHistory.result =
      ((Text.decodeStream historyWindow bytes).map historyEntries).mapError .malformed := by
  simp only [loadHistory, opened]
  cases Text.decodeStream historyWindow bytes with
  | error malformed =>
      rfl
  | ok text =>
      rfl

/-- A line is added to the history, or a warning says why not; nothing else changes. -/
theorem exists_appendHistory_eq
    {base : Disk}
    {session : Session}
    (grown : base.Grown session.history session.disk)
    (line : String) :
    ∃ output disk,
      session.appendHistory line = ⟨output, { session with disk := disk }, .ok ()⟩ ∧
        base.Grown session.history disk := by
  unfold appendHistory
  split
  · next disk added =>
      exact ⟨[], disk, rfl, grown.append added⟩
  · exact ⟨_, session.disk, rfl, grown⟩

/-- Handling a line changes the bindings and nothing else. -/
theorem handle_spec
    (limit : Nat)
    (session : Session)
    (line : String) :
    (session.handle limit line).session =
        { session with env := bindingsAfterLine limit session.env line } ∧
      Answers line (session.handle limit line).result := by
  by_cases shown : line = ":history"
  · subst shown
    obtain ⟨unchanged, outcome⟩ := session.handle_history limit
    refine ⟨unchanged, ?_⟩
    rw [outcome]
    cases session.loadHistory.result with
    | error failure =>
        exact .inr ⟨failure, rfl⟩
    | ok entries =>
        exact .inl rfl
  · obtain ⟨output, result, answers, handled⟩ := exists_handle_eq shown limit session.env
    have reply := handled session.disk session.history
    rw [reply]
    exact ⟨rfl, answers⟩

theorem exists_turn_of_blank
    {event : Event}
    (nothing : event.entered = "")
    (limit : Nat) :
    ∃ output, ∀ session : Session, session.turn limit event = ⟨output, session, .ok true⟩ := by
  cases event with
  | interrupt =>
      exact ⟨[.write interruptNotice], fun _ => rfl⟩
  | line text =>
      have blank : String.ofList (Text.trim text.toList) = "" := nothing
      exact ⟨[], fun session => by simp only [turn, enter, blank, ↓reduceIte, Reply.pure]⟩

theorem turn_of_entered
    {event : Event}
    (something : event.entered ≠ "")
    (limit : Nat)
    (session : Session) :
    session.turn limit event =
      (session.appendHistory event.entered).andThen fun next _ =>
        next.handle limit event.entered := by
  cases event with
  | interrupt =>
      exact absurd rfl something
  | line text =>
      exact if_neg something

/-- What a turn leaves: the bindings of its line, and a disk on which the history may have grown. -/
theorem turn_spec
    {base : Disk}
    (limit : Nat)
    (session : Session)
    (event : Event)
    (grown : base.Grown session.history session.disk) :
    (∃ disk,
      (session.turn limit event).session =
          ⟨bindingsAfterLine limit session.env event.entered, disk, session.history⟩ ∧
        base.Grown session.history disk) ∧
      Answers event.entered (session.turn limit event).result := by
  by_cases nothing : event.entered = ""
  · obtain ⟨output, turned⟩ := exists_turn_of_blank nothing limit
    rw [turned, nothing]
    exact ⟨⟨session.disk, rfl, grown⟩, .inl rfl⟩
  · obtain ⟨output, disk, added, grownOn⟩ := exists_appendHistory_eq grown event.entered
    obtain ⟨left, answers⟩ := handle_spec limit { session with disk := disk } event.entered
    rw [turn_of_entered nothing, added]
    exact ⟨⟨disk, left, grownOn⟩, answers⟩

theorem turn_env
    (limit : Nat)
    (session : Session)
    (event : Event) :
    (session.turn limit event).session.env =
      bindingsAfterLine limit session.env event.entered := by
  obtain ⟨⟨disk, left, -⟩, -⟩ := turn_spec limit session event .unchanged
  rw [left]

/-- The session ends with the lines that say so, and with no others. -/
theorem endsSession_of_turn
    {limit : Nat}
    {session : Session}
    {event : Event}
    {goesOn : Bool}
    (finished : (session.turn limit event).result = .ok goesOn) :
    endsSession event.entered = !goesOn := by
  obtain ⟨-, answered | ⟨failure, failed⟩⟩ := turn_spec limit session event .unchanged
  · rw [answered] at finished
    cases finished
    simp
  · rw [failed] at finished
    cases finished

end Session

end MiniLisp
