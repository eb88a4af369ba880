import DebugLink.LineBuffer
import DebugLink.Session.Tracker
import DebugLink.Source

/-! A session with a debugger: octets come from a source, are cut into lines, and each line is
taken by the tracker. Reading goes on only while the caller has not had enough, so what is not
asked for stays where it is. Every step of reading uses up octets, pieces or stored failures of
the source, or octets of the line buffer; that is why reading ends. -/

namespace DebugLink

structure Session where
  tracker : Tracker := {}
  source : Source
  lines : LineBuffer := {}
  /-- The session has been started. -/
  attached : Bool := false

/-- How one look for a record ended. -/
inductive PollOutcome where
  | found
  | pending
  | closed
deriving DecidableEq, Repr

def PollOutcome.name : PollOutcome → String
  | .found => "found"
  | .pending => "pending"
  | .closed => "closed"

/-- How a wait for a record ended. -/
inductive WaitEnd where
  | found
  /-- Somebody asked for it to stop. -/
  | stopped
  | closed
  | timedOut
  /-- It has not: no time was set, and nothing is there to read though the debugger is. -/
  | blocked
deriving DecidableEq, Repr

namespace Session

/-- A session over a source and a sink. -/
def connect (source : Source) (sink : Sink) (settings : Settings := {}) : Session :=
  { source, tracker := { desk := { sink }, settings } }

def desk (s : Session) : Desk := s.tracker.desk

def withDesk (s : Session) (d : Desk) : Session :=
  { s with tracker := { s.tracker with desk := d } }

def isClosed (s : Session) : Bool := s.desk.closed

def isRunning (s : Session) : Bool := !s.desk.closed && s.source.isAlive

def markClosed (s : Session) : Session := s.withDesk { s.desk with closed := true }

def notice (s : Session) (n : Notice) : Session := { s with tracker := s.tracker.notice n }

/-- Does something at the desk that has an outcome. -/
def atDesk (s : Session) (f : Desk → α × Desk) : α × Session :=
  ((f s.desk).1, s.withDesk (f s.desk).2)

/-! ### Reading -/

/-- Bounds how much more reading can do. -/
def unread (s : Session) : Nat := 2 * s.source.unread + s.lines.octets.length

/-- Moves octets from the source into the line buffer, and says whether it moved any. A source
that is over or fails closes the session. -/
def fill (s : Session) : Bool × Session :=
  if s.isClosed then (false, s)
  else
    match s.source.ready s.desk.sink.written with
    | (.error reason, source) => (false, ({ s with source }.notice (.waitFailed reason)).markClosed)
    | (.ok false, source) => (false, { s with source })
    | (.ok true, source) =>
      match source.read (max s.tracker.settings.chunkSize 1) with
      | (.error reason, source) =>
        (false, ({ s with source }.notice (.readFailed reason)).markClosed)
      | (.ok .pending, source) => (false, { s with source })
      | (.ok .closed, source) => (false, { s with source }.markClosed)
      | (.ok (.data octets), source) => (true, { s with source, lines := s.lines.push octets })

theorem fill_unread {s t : Session} (h : s.fill = (true, t)) : t.unread < s.unread := by
  unfold fill at h
  split at h
  · simp at h
  · split at h
    · simp at h
    · simp at h
    · rename_i source hready
      have ready : source.unread ≤ s.source.unread := by
        simpa [hready] using s.source.ready_unread s.desk.sink.written
      split at h
      · simp at h
      · simp at h
      · simp at h
      · rename_i octets source' hread
        simp only [Prod.mk.injEq, true_and] at h
        obtain ⟨less, nonempty⟩ := Source.read_eq_data hread
        have : 0 < octets.length := List.length_pos_iff.mpr (nonempty (by omega))
        subst h
        simp only [unread, LineBuffer.push, List.length_append]
        omega

theorem unread_of_next_none {s : Session} {rest : LineBuffer}
    (h : s.lines.next = (none, rest)) : unread { s with lines := rest } = s.unread :=
  congrArg (2 * s.source.unread + ·.length) (LineBuffer.next?_of_next_none h).2

/-- Reads records, after those already got, until there are enough of them or nothing more can be
read now. Whether there are enough is asked before every step. -/
def readWhile (enough : List Message → Bool) (got : List Message) (s : Session) :
    List Message × Session :=
  if enough got then (got, s)
  else
    match hline : s.lines.next with
    | (some line, rest) =>
      have := LineBuffer.next?_length (LineBuffer.next?_of_next_some hline)
      let (m, tracker) := s.tracker.takeLine line
      readWhile enough (got ++ m.toList) { s with tracker, lines := rest }
    | (none, rest) =>
      match hfill : fill { s with lines := rest } with
      | (true, t) =>
        have := unread_of_next_none hline ▸ fill_unread hfill
        readWhile enough got t
      | (false, t) => (got, t)
termination_by s.unread
decreasing_by
  · simp only [unread]
    omega
  · assumption

/-- Everything that can be read now. -/
def read (s : Session) : List Message × Session := s.readWhile (fun _ => false) []

/-- At most so many records; the lines after them stay in the buffer. -/
def readAtMost (s : Session) (limit : Nat) : List Message × Session :=
  s.readWhile (fun got => limit ≤ got.length) []

/-! ### Waiting -/

/-- Whether a record is the one waited for. With no token given, any is. -/
def isTarget (target : Option Token) (m : Message) : Bool := target.isNone || m.token == target

/-- Reads up to the first record that is waited for. -/
def poll (s : Session) (target : Option Token) : PollOutcome × Session :=
  let (got, s) := s.readWhile (fun got => got.getLast?.any (isTarget target)) []
  if got.getLast?.any (isTarget target) then (.found, s)
  else if s.isClosed then (.closed, s)
  else (.pending, s)

/-- Takes the request to stop, so that it stops one wait only. -/
def takeStop (s : Session) (target : Option Token) : Session :=
  s.withDesk ({ s.desk with stopRequested := false }.notice (.waitStopped target))

/-- Rounds of polling until the record is there. A request to stop is looked at before each round.
A round that reads nothing is followed by more of the same: until the time is over, if one is set,
and for good otherwise. -/
def waitRounds (target : Option Token) (timed : Bool) (s : Session) : WaitEnd × Session :=
  if s.desk.stopRequested then (.stopped, s.takeStop target)
  else
    match s.poll target with
    | (.found, t) => (.found, t)
    | (.closed, t) => (.closed, t)
    | (.pending, t) =>
      if t.unread < s.unread then waitRounds target timed t
      else (if timed then .timedOut else .blocked, t)
termination_by s.unread

/-- Waits for a record with a token, or for any record. -/
def waitFor (s : Session) (target : Option Token) : WaitEnd × Session := waitRounds target false s

/-- Waits for so many milliseconds at most. With no time at all, only a request to stop is taken
note of. -/
def waitForAtMost (s : Session) (target : Option Token) (milliseconds : Nat) :
    WaitEnd × Session :=
  if milliseconds = 0 then
    if s.desk.stopRequested then (.stopped, s.takeStop target) else (.timedOut, s)
  else waitRounds target true s

/-! ### Exchanges -/

/-- Sets a breakpoint on `main`. A session can be started once. -/
def start (s : Session) : Except LinkError Token × Session :=
  if s.attached then (.error .alreadyStarted, s)
  else
    match s.atDesk (·.insertBreakpoint "main") with
    | (.ok token, s) => (.ok token, { s with attached := true })
    | (.error e, s) => (.error e, s)

/-- Points the input and output of the program at a terminal. -/
def useTerminal (s : Session) (path : String) : Except LinkError Token × Session :=
  s.atDesk (·.sendPlain ("-inferior-tty-set " ++ path))

/-- What asking for console output comes to. -/
inductive Answer where
  | text (text : String)
  | failed (error : LinkError)
  /-- The result has not come, and nothing is there to read though the debugger is. -/
  | blocked
deriving DecidableEq, Repr

/-- The console text that was collected for a command, among some events. -/
def collectedText (token : Token) (events : List Event) : String :=
  String.join (events.filterMap fun
    | .collected t text => if t = token then some text else none
    | _ => none)

/-- The answer that a wait for a command's result leaves once it is over. -/
def answerOf (s : Session) (token : Token) (seen : Nat) : WaitEnd → Answer
  | .found => .text (collectedText token (s.desk.journal.toList.drop seen))
  | _ => .failed (if s.isClosed then .closed else .waitStopped (some token))

/-- What comes of an exchange by how the wait for its result ended. Text that comes later no longer
concerns the command. As long as the wait goes on, so does the exchange. -/
def conclude (s : Session) (token : Token) (seen : Nat) : WaitEnd → Answer × Session
  | .blocked => (.blocked, s)
  | ended =>
    let s := s.withDesk (s.desk.clearOnConsole token)
    (s.answerOf token seen ended, s)

/-- Sends a command for its console output and waits for its result. -/
def ask (s : Session) (query : String) : Answer × Session :=
  match s.atDesk (·.send query .nothing (some .collect)) with
  | (.error e, s) => (.failed e, s)
  | (.ok token, s) =>
    let (ended, t) := s.waitFor (some token)
    t.conclude token s.desk.journal.size ended

end Session

end DebugLink
