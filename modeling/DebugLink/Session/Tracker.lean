import DebugLink.Session.Desk

/-! What a session makes of the lines it receives. Each accepted record takes effect by its class:
results move commands on, notices fill the tables, stops call breakpoint handlers and set the
target going again, console text finds the latest command. Handlers act on the desk only, so the
tables and the state of execution follow from the records alone. -/

namespace DebugLink

/-- What the debugger last told of the execution of its program. -/
inductive ExecState where
  | running
  | stopped
  | other (what : String)
deriving DecidableEq, Repr

namespace ExecState

def ofText : String → ExecState
  | "running" => .running
  | "stopped" => .stopped
  | what => .other what

def text : ExecState → String
  | .running => "running"
  | .stopped => "stopped"
  | .other what => what

end ExecState

/-- How a session goes about its work. -/
structure Settings where
  /-- Whether the target is set going again after a stop at a breakpoint. -/
  resumes : Bool := true
  /-- How many octets one read may bring; a read always may bring one. -/
  chunkSize : Nat := 4096
deriving DecidableEq, Repr

/-- Someone who is told of every change to the tables. -/
structure ChangeSubscriber where
  id : Nat
  react : Change → Reaction

/-- Someone who is shown every record of one class. -/
structure RecordSubscriber where
  id : Nat
  kind : Kind
  react : Message → Reaction

structure Tracker where
  desk : Desk := {}
  settings : Settings := {}
  execState : Option ExecState := none
  breakpoints : BreakpointTable := {}
  threadGroups : ThreadGroupTable := {}
  stopHandlers : Dict UInt32 (StopHandler Reaction) := ∅
  /-- In the order of their subscription, like those for records. -/
  changeSubscribers : List ChangeSubscriber := []
  recordSubscribers : List RecordSubscriber := []

/-- What came of a record. -/
inductive Verdict where
  | handled
  /-- The record says nothing that a session keeps. -/
  | ignored
  | failed (error : LinkError)
deriving DecidableEq, Repr

namespace Tracker

def log (t : Tracker) (e : Event) : Tracker := { t with desk := t.desk.log e }

def notice (t : Tracker) (n : Notice) : Tracker := t.log (.noticed n)

def perform (t : Tracker) (r : Reaction) : Tracker := { t with desk := t.desk.perform r }

/-! ### Changes to the tables -/

def announce (t : Tracker) (change : Change) : Tracker :=
  t.changeSubscribers.foldl (fun t s => (t.log (.changed s.id change)).perform (s.react change)) t

/-- Merges what is reported of a breakpoint and tells of the change. -/
def mergeBreakpoint (t : Tracker) (info : Fields) : Verdict × Tracker :=
  match t.breakpoints.merge info with
  | .error e => (.failed e, t)
  | .ok (b, breakpoints) => (.handled, { t with breakpoints }.announce (.breakpoint b))

/-- Takes over an update of the thread groups, if it succeeded, and tells of the change. -/
def updateThreadGroup (t : Tracker) :
    Except LinkError (ThreadGroup × ThreadGroupTable) → Verdict × Tracker
  | .error e => (.failed e, t)
  | .ok (g, threadGroups) => (.handled, { t with threadGroups }.announce (.threadGroup g))

/-! ### Results -/

/-- The number under which a result says that a breakpoint was inserted. -/
def insertedNumber? (record : Record) : Option String :=
  ((record.get? "bkpt").bind (·.get? "number")).bind Value.text?

/-- Gives the stops at an inserted breakpoint to a handler, or to none. -/
def installHandler (t : Tracker) (token : Token) (record : Record)
    (handler : Option (StopHandler Reaction)) : Verdict × Tracker :=
  match insertedNumber? record with
  | none => (.handled, t.notice (.unnumbered token record))
  | some number =>
    match Breakpoint.parentNumber number with
    | .error e => (.failed e, t)
    | .ok n =>
      (.handled, { t with
        stopHandlers := match handler with
          | some h => t.stopHandlers.insert n h
          | none => t.stopHandlers.erase n })

/-- Hands a result to a handler. The handler is out of the table while it is called, and is given
back to its command afterwards. -/
def handResult (t : Tracker) (token : Token) (record : Record)
    (react : Token → Record → Reaction) : Tracker :=
  let t := (t.log (.result token record)).perform (react token record)
  { t with desk := t.desk.restoreOnResult token (.call react) }

/-- Does what was to happen when the command has a result. -/
def followResult (t : Tracker) (token : Token) (record : Record) :
    OnResult Reaction → Verdict × Tracker
  | .nothing => (.handled, t)
  | .call react => (.handled, t.handResult token record react)
  | .install handler => t.installHandler token record handler

/-- Merges the breakpoint that a result describes, if it does. A failure to merge outweighs what
came of the result before. -/
def mergeResult (record : Record) : Verdict × Tracker → Verdict × Tracker
  | (verdict, t) =>
    match record.get? "bkpt" with
    | some (.tuple info) =>
      match t.mergeBreakpoint info with
      | (.failed e, t) => (.failed e, t)
      | (_, t) => (verdict, t)
    | _ => (verdict, t)

def onResult (t : Tracker) (token : Option Token) (record : Record) : Verdict × Tracker :=
  match CommandState.ofResult? record.what with
  | none => (.ignored, t)
  | some state =>
    match token with
    | none => (.failed (.unknownToken none), t)
    | some token =>
      match t.desk.commands.find? token with
      | none => (.failed (.unknownToken (some token)), t)
      | some command =>
        mergeResult record
          ({ t with desk := (t.desk.setState token state).clearOnResult token }.followResult token
            record command.onResult)

/-! ### Stops -/

/-- Hands a stop to the handler of its breakpoint. -/
def handStop (t : Tracker) (number : String) (args : Fields) : Verdict × Tracker :=
  match Breakpoint.parentNumber number with
  | .error e => (.failed e, t)
  | .ok n =>
    match t.stopHandlers.find? n with
    | none => (.failed (.unhandledBreakpoint n), t)
    | some handler => (.handled, (t.log (.stop handler.name n args)).perform (handler.react n args))

/-- Sets the target going again after a stop at a breakpoint, handled or not. -/
def resumeAfter (t : Tracker) (number : String) : Tracker :=
  if t.settings.resumes && !t.desk.closed then
    match t.desk.resume with
    | (.ok _, desk) => { t with desk }
    | (.error e, desk) => { t with desk }.notice (.resumeFailed number e)
  else t

def onExec (t : Tracker) (record : Record) : Verdict × Tracker :=
  let t := { t with execState := some (ExecState.ofText record.what) }
  if record.what = "stopped" then
    match record.text? "bkptno" with
    | none => (.handled, t)
    | some number =>
      let (verdict, t) := t.handStop number record.args
      (verdict, t.resumeAfter number)
  else (.handled, t)

/-! ### Notices -/

/-- A text that a record must have. -/
def need (record : Record) (key : String) : Except LinkError String :=
  match record.text? key with
  | some s => .ok s
  | none => .error (.missingField record.what key)

/-- The update of the thread groups that a notice stands for, if it stands for one. -/
def threadGroupUpdate? (groups : ThreadGroupTable) (record : Record) :
    Option (Except LinkError (ThreadGroup × ThreadGroupTable)) :=
  match record.what with
  | "thread-group-added" => some do
    return groups.add (← need record "id")
  | "thread-group-started" => some do
    let id ← need record "id"
    groups.start id (← need record "pid")
  | "thread-created" => some do
    let id ← need record "group-id"
    groups.addThread id (← need record "id")
  | "library-loaded" => some do
    let id ← need record "thread-group"
    groups.loadLibrary id (← need record "id") record.args
  | _ => none

def onNotify (t : Tracker) (record : Record) : Verdict × Tracker :=
  match threadGroupUpdate? t.threadGroups record with
  | some update => t.updateThreadGroup update
  | none =>
    if record.what = "breakpoint-created" ∨ record.what = "breakpoint-modified" then
      match record.get? "bkpt" with
      | some (.tuple info) => t.mergeBreakpoint info
      | _ => (.failed (.missingField record.what "bkpt"), t)
    else (.ignored, t)

/-! ### Streams -/

/-- Hands console text to the handler of a command. The handler is out of the table while it is
called, and is given back to its command afterwards. -/
def handConsole (t : Tracker) (token : Token) (record : Record) (handler : OnConsole Reaction) :
    Tracker :=
  let t := { t with desk := t.desk.clearOnConsole token }
  let t := match handler with
    | .call react => (t.log (.console token record)).perform (react token record)
    | .collect => t.log (.collected token record.what)
  { t with desk := t.desk.restoreOnConsole token handler }

/-- Console text carries no token of its own; it belongs to the latest command in view. -/
def onConsole (t : Tracker) (record : Record) : Tracker :=
  match t.desk.commands.last? with
  | none => t.notice (.consoleUnclaimed record.what)
  | some (token, command) =>
    match command.onConsole with
    | none => t.notice (.consoleUnhandled token record.what)
    | some handler => t.handConsole token record handler

/-! ### Records and lines -/

/-- Lets a record take effect. -/
def apply (t : Tracker) (m : Message) : Verdict × Tracker :=
  match m.record.kind with
  | .result => t.onResult m.token m.record
  | .execAsync => t.onExec m.record
  | .notifyAsync => t.onNotify m.record
  | .consoleStream => (.handled, t.onConsole m.record)
  | .terminator => (.handled, t)
  | .statusAsync | .targetStream | .logStream =>
    (.ignored, t.notice (.unattended m.record.kind m.record.what))

/-- Lets a record take effect and notes what came of it. Failures end here. -/
def dispatch (t : Tracker) (m : Message) : Tracker :=
  match t.apply m with
  | (.handled, t) => t
  | (.ignored, t) => t.notice (.ignored m)
  | (.failed e, t) => t.notice (.failed m e)

/-- Shows a record to those who asked for its class. -/
def present (t : Tracker) (m : Message) : Tracker :=
  t.recordSubscribers.foldl (fun t s =>
    if s.kind = m.record.kind then (t.log (.shown s.id m)).perform (s.react m) else t) t

/-- Takes an accepted record: first its effects, then those who are shown it. -/
def take (t : Tracker) (m : Message) : Tracker := ((t.log (.received m)).dispatch m).present m

/-- Takes a line. Blank lines count for nothing, and malformed ones only for a notice. -/
def takeLine (t : Tracker) (line : String) : Option Message × Tracker :=
  if Text.allBlank line then (none, t)
  else
    match Message.ofLine line with
    | .error flaw => (none, t.notice (.malformed flaw))
    | .ok m => (some m, t.take m)

/-! ### Subscriptions -/

/-- How many subscriptions there are; the next one gets this number. -/
def subscriptions (t : Tracker) : Nat := t.changeSubscribers.length + t.recordSubscribers.length

def onChange (t : Tracker) (react : Change → Reaction) : Nat × Tracker :=
  (t.subscriptions,
    { t with changeSubscribers := t.changeSubscribers ++ [⟨t.subscriptions, react⟩] })

def onRecord (t : Tracker) (kind : Kind) (react : Message → Reaction) : Nat × Tracker :=
  (t.subscriptions,
    { t with recordSubscribers := t.recordSubscribers ++ [⟨t.subscriptions, kind, react⟩] })

end Tracker

end DebugLink
