import MiniLisp.Proofs.Lines
import MiniLisp.Proofs.Turn

namespace MiniLisp

/-!
# What a session records

Every line that is entered goes to the history before it is handled, whatever comes
of it.  So the history file has at the end what it had at the beginning and then all
lines in order, up to the one with which the session stopped.

Lines are recorded as they are entered, and are read back as they were recorded:
nothing that is read, at whatever moment, differs from what was added so far.
-/

/-- The lines that an event adds to the history: its own, unless it is blank. -/
def Event.recordedLines (event : Event) : List String :=
  if event.entered = "" then [] else [event.entered]

namespace Event

variable {event : Event}

/-- A line is trimmed when it is entered, and an entry unless it is blank or broken. -/
theorem isEntry_entered
    (something : event.entered ≠ "")
    (unbroken : Text.IsUnbroken event.entered.toList) :
    IsEntry event.entered := by
  refine ⟨something, ?_, unbroken⟩
  cases event with
  | interrupt =>
      exact absurd rfl something
  | line text =>
      simp only [entered, String.toList_ofList, Text.trim_trim]

theorem isEntry_of_mem_recordedLines
    {line : String}
    (unbroken : Text.IsUnbroken event.entered.toList)
    (member : line ∈ event.recordedLines) :
    IsEntry line := by
  rw [recordedLines] at member
  split at member
  · cases member
  · next something =>
      rw [List.mem_singleton.mp member]
      exact isEntry_entered something unbroken

end Event

namespace Session

/--
The lines that a session comes to read: all up to the first one that ends it, or
whose handling fails.
-/
def linesRead (limit : Nat) (session : Session) : List Event → List String
  | [] => []
  | event :: rest =>
      let reply := session.turn limit event
      match reply.result with
      | .error _ => event.recordedLines
      | .ok _ =>
          if endsSession event.entered then
            event.recordedLines
          else
            event.recordedLines ++ reply.session.linesRead limit rest

/-- The moments of a run, with the lines that were recorded up to each of them. -/
inductive Moment (limit : Nat) : Session → List Event → List String → Session → Prop where
  | prompt (session : Session) (events : List Event) : Moment limit session events [] session
  /-- A line was recorded, and is going to be handled. -/
  | handling
      {session : Session}
      {event : Event}
      {rest : List Event}
      (something : event.entered ≠ "") :
      Moment limit session (event :: rest) [event.entered]
        (session.appendHistory event.entered).session
  /-- The session was ended, or handling a line failed. -/
  | stopped
      {session : Session}
      {event : Event}
      {rest : List Event}
      (stops : (session.turn limit event).result ≠ .ok true) :
      Moment limit session (event :: rest) event.recordedLines (session.turn limit event).session
  | later
      {session moment : Session}
      {event : Event}
      {rest : List Event}
      {lines : List String}
      (goesOn : (session.turn limit event).result = .ok true)
      (after : Moment limit (session.turn limit event).session rest lines moment) :
      Moment limit session (event :: rest) (event.recordedLines ++ lines) moment

/-- The history of a session is the file at a path, with a text in it; a missing file has none. -/
structure HasHistory (path : String) (place : Place) (text : List Char) (session : Session) :
    Prop where
  path_eq : session.history = path
  target : session.disk.Target path place (Text.encode text)

namespace HasHistory

variable {path : String} {place : Place} {text : List Char} {session : Session}

/-- What a history holds is read as its last entries. -/
theorem loadHistory_eq
    (has : HasHistory path place text session) :
    session.loadHistory = .pure session (historyEntries text) := by
  have decoded : Text.decodeStream historyWindow (Text.encode text) = .ok text :=
    Text.decodeStream_eq_ok_iff.mpr (Text.decodes_encode text)
  obtain ⟨rfl, target⟩ := has
  rcases target.read with opened | ⟨missing, empty⟩
  · simp only [loadHistory, opened, decoded]
  · have nothing : text = [] := by
      rw [empty] at decoded
      cases decoded
      rfl
    rw [nothing]
    simp only [loadHistory, missing]
    rfl

/-- A line is added to the history with a line feed. -/
theorem appendHistory
    (has : HasHistory path place text session)
    (line : String) :
    (session.appendHistory line).result = .ok () ∧
      HasHistory path place (text ++ recorded [line]) (session.appendHistory line).session := by
  obtain ⟨rfl, target⟩ := has
  have added : session.disk.addHistory session.history line = _ :=
    target.append (Text.encode (line.toList ++ ['\n']))
  have longer : Text.encode text ++ Text.encode (line.toList ++ ['\n']) =
      Text.encode (text ++ recorded [line]) := by
    simp [Text.encode, recorded]
  rw [longer] at added
  simp only [Session.appendHistory, added]
  exact ⟨rfl, rfl, target.put _⟩

/-- An event adds its line to the history, if it has one. -/
theorem turn
    (has : HasHistory path place text session)
    (limit : Nat)
    (event : Event) :
    HasHistory path place (text ++ recorded event.recordedLines)
      (session.turn limit event).session := by
  by_cases nothing : event.entered = ""
  · obtain ⟨output, turned⟩ := exists_turn_of_blank nothing limit
    rw [turned, Event.recordedLines, if_pos nothing]
    simpa [recorded] using has
  · obtain ⟨added, hasLine⟩ := has.appendHistory event.entered
    rw [turn_of_entered nothing, Event.recordedLines, if_neg nothing]
    simp only [Reply.andThen, added]
    rw [(handle_spec limit _ event.entered).1]
    exact ⟨hasLine.path_eq, hasLine.target⟩

/-- At every moment, the history has the lines that were recorded so far. -/
theorem moment
    {limit : Nat}
    {events : List Event}
    {lines : List String}
    {moment : Session}
    (has : HasHistory path place text session)
    (occurs : Moment limit session events lines moment) :
    HasHistory path place (text ++ recorded lines) moment := by
  induction occurs generalizing text with
  | prompt session events =>
      simpa [recorded] using has
  | handling something =>
      exact (has.appendHistory _).2
  | stopped stops =>
      exact has.turn limit _
  | later goesOn after inductionHypothesis =>
      rw [recorded_append, ← List.append_assoc]
      exact inductionHypothesis (has.turn limit _)

end HasHistory

namespace Moment

variable {limit : Nat} {session : Session} {events : List Event}

/-- The end of a run is a moment of it, when all lines are recorded that were read. -/
theorem of_turns
    (limit : Nat)
    (session : Session)
    (events : List Event) :
    Moment limit session events (session.linesRead limit events)
      (session.turns limit events).2.1 := by
  induction events generalizing session with
  | nil =>
      exact .prompt session []
  | cons event rest inductionHypothesis =>
      cases turned : (session.turn limit event).result with
      | error failure =>
          simp only [linesRead, turns, turned]
          exact .stopped (by simp [turned])
      | ok goesOn =>
          have ends : endsSession event.entered = !goesOn := endsSession_of_turn turned
          cases goesOn with
          | false =>
              simp only [linesRead, turns, turned, ends]
              exact .stopped (by simp [turned])
          | true =>
              simp only [linesRead, turns, turned, ends]
              exact .later turned (inductionHypothesis _)

/-- All lines that are recorded are entries, if none of them is broken. -/
theorem isEntry
    {lines : List String}
    {moment : Session}
    (occurs : Moment limit session events lines moment)
    (unbroken : ∀ event ∈ events, Text.IsUnbroken event.entered.toList) :
    ∀ line ∈ lines, IsEntry line := by
  induction occurs with
  | prompt session events =>
      simp
  | handling something =>
      obtain ⟨first, -⟩ := List.forall_mem_cons.mp unbroken
      intro line member
      rw [List.mem_singleton.mp member]
      exact Event.isEntry_entered something first
  | stopped stops =>
      obtain ⟨first, -⟩ := List.forall_mem_cons.mp unbroken
      intro line member
      exact Event.isEntry_of_mem_recordedLines first member
  | later goesOn after inductionHypothesis =>
      obtain ⟨first, others⟩ := List.forall_mem_cons.mp unbroken
      intro line member
      rcases List.mem_append.mp member with inFirst | inLater
      · exact Event.isEntry_of_mem_recordedLines first inFirst
      · exact inductionHypothesis others line inLater

end Moment

end Session

/--
The history file is faithful.  If it is missing, or holds text that is empty or ends
with a line end, and no line that is entered is broken, then after a run it holds the
old text and then each line that was read, with a line feed, in order.  At every
moment, the history is loaded as the last hundred of the old lines that are not
blank, trimmed, and of the lines recorded so far, just as they were recorded.
-/
theorem history_is_faithful
    (limit : Nat)
    (session : Session)
    (events : List Event)
    (place : Place)
    (old : List Char)
    (target : session.disk.Target session.history place (Text.encode old))
    (terminated : Text.IsTerminated old)
    (unbroken : ∀ event ∈ events, Text.IsUnbroken event.entered.toList) :
    (session.run limit events).session.disk.Target session.history place
        (Text.encode (old ++ recorded (session.linesRead limit events))) ∧
      ∀ lines moment,
        Session.Moment limit session events lines moment →
          moment.loadHistory = .pure moment ((trimmedLines old ++ lines).rtake 100) := by
  have has : session.HasHistory session.history place old := ⟨rfl, target⟩
  constructor
  · exact (has.moment (.of_turns limit session events)).target
  · intro lines moment occurs
    rw [(has.moment occurs).loadHistory_eq, historyEntries_eq,
      trimmedLines_append_recorded terminated (occurs.isEntry unbroken)]

/--
The old line is ended by a carriage return.  The next line has a separator of lines in
front of it and a control character for the next line in it, neither of which ends a
line; the last one is never read.
-/
theorem history_is_faithful_separators :
    let session : Session :=
      ⟨.empty, ⟨[], [(["history"], .file (Text.encode "a\r".toList))]⟩, "history"⟩
    let events : List Event :=
      [.line "\u2028x\u0085y ", .interrupt, .line ":q", .line "z"]
    let last := (session.run 9 events).session
    session.disk.Target session.history ["history"] (Text.encode "a\r".toList) ∧
      session.linesRead 9 events = ["x\u0085y", ":q"] ∧
      last.disk.Target session.history ["history"]
        (Text.encode "a\rx\u0085y\n:q\n".toList) ∧
      last.loadHistory = .pure last ["a", "x\u0085y", ":q"] := by
  intro session events last
  have target : session.disk.Target session.history ["history"] (Text.encode "a\r".toList) := by
    simp only [session]
    exact ⟨rfl, rfl, .inl rfl⟩
  have terminated : Text.IsTerminated "a\r".toList := .inr (.inr rfl)
  have unbroken : ∀ event ∈ events, Text.IsUnbroken event.entered.toList := by
    intro event member
    simp only [events, List.mem_cons, List.not_mem_nil, or_false] at member
    rcases member with rfl | rfl | rfl | rfl
    · exact ⟨by decide, by decide⟩
    · exact ⟨by decide, by decide⟩
    · exact ⟨by decide, by decide⟩
    · exact ⟨by decide, by decide⟩
  have read : session.linesRead 9 events = ["x\u0085y", ":q"] := by
    simp only [session, events]
    rfl
  obtain ⟨file, loaded⟩ :=
    history_is_faithful 9 session events ["history"] _ target terminated unbroken
  have lastLoaded := loaded _ last (.of_turns 9 session events)
  rw [read] at file lastLoaded
  exact ⟨target, read, file, lastLoaded⟩

end MiniLisp
