import DebugLink.Prompt.Transcript
import DebugLink.Proofs.Session.Sending

/-! A dialogue in turns. Each line that is obeyed is a turn: the command that its instruction stands
for goes out first, if there is one, and whatever is read until the next line is asked for comes
after it. So what the debugger gets to hear in a dialogue is told turn by turn. Reading, waiting and
asking may come to anything that they can come to while more comes from the far end
(`World.Sound`). -/

namespace DebugLink.Prompt

/-! ### What can come of a moment -/

/-- The session is read, waited with and asked as it can be. -/
structure Moment.Sound (m : Moment) : Prop where
  read (s : Session) : s.Hears (m.read s).1 (m.read s).2
  await (token : Token) (s : Session) :
    ∃ signals, s.Waits (some token) true signals (m.await token s).1 (m.await token s).2
  ask (query : String) (s : Session) : s.Asks query (m.ask query s).1 (m.ask query s).2

abbrev World.Sound (world : World) : Prop := ∀ n, (world n).Sound

/-- Nothing comes from elsewhere. -/
theorem Moment.sound_of_alone (terminal : Except String Terminal) :
    ({ terminal } : Moment).Sound where
  read := Session.hears_read
  await token s := by
    obtain ⟨signals, -, waits⟩ := Session.waits_waitForAtMost (some token) resultTime s
    exact ⟨signals, waits⟩
  ask query s := s.asks_ask query

/-- Before anything else is read or waited for, the far end comes to be this one. -/
def Moment.after (m : Moment) (source : Source) : Moment :=
  { m with
    read := fun s => m.read { s with source }
    await := fun token s => m.await token { s with source }
    farEnd := fun _ => source }

theorem Moment.Sound.after {m : Moment} (sound : m.Sound) (source : Source) :
    (m.after source).Sound where
  read s := .farEnd source (sound.read { s with source })
  await token s := by
    obtain ⟨signals, waits⟩ := sound.await token { s with source }
    exact ⟨signals, .farEnd source waits⟩
  ask := sound.ask

/-- The command that an instruction has sent to a debugger that was not started here, given what
comes of opening a terminal. -/
def Instruction.command? (terminal : Except String Terminal) : Instruction → Option String
  | .raw text => some text
  | .breakAt location => some ("-break-insert " ++ location)
  | .resume => some "-exec-continue"
  | .run => some "-exec-run"
  | .finish none => some "-exec-return"
  | .finish (some value) => some ("-exec-return " ++ value)
  | .interrupt => some "-exec-interrupt"
  | .console query => some query
  | .terminal => terminal.toOption.map ("-inferior-tty-set " ++ ·.path)
  | .breakpoints | .threadGroups | .state | .pump | .forget _ | .help | .quit => none

/-- The command that a line has sent. -/
def commandOfLine? (terminal : Except String Terminal) (line : String) : Option String :=
  (Instruction.ofLine line).bind (·.command? terminal)

/-- The line that is meant by what the line editor answers, if it is one. A dialogue ends with a line
that could not be kept, unless it is blank. -/
def Entry.line? : Entry → Option String
  | .line typed unkept =>
    let line := Text.trim typed
    if line.isEmpty || unkept.isNone then some line else none
  | .interrupted | .ended | .failed _ => none

namespace Dialogue

/-! ### What the steps of a dialogue send -/

/-- From one moment of a dialogue to the other these commands are given, and then no more. -/
structure Sends (resumes : Bool) (commands : List String) (d e : Dialogue) : Prop where
  started : e.started = d.started
  session : d.session.Sends resumes commands e.session

variable {resumes : Bool} {commands : List String} {d e f : Dialogue}

theorem Sends.trans (first : Sends resumes commands d e) (second : Sends resumes [] e f) :
    Sends resumes commands d f :=
  ⟨second.started.trans first.started, first.session.trans second.session⟩

/-- What is shown makes no difference. -/
theorem sends_show (d : Dialogue) (screen : Screen) : Sends resumes [] d { d with screen } :=
  ⟨rfl, .refl d.session⟩

theorem sends_follow (d : Dialogue) {s : Session} (sends : d.session.Sends resumes commands s) :
    Sends resumes commands d (d.follow s) := ⟨rfl, sends⟩

theorem sends_forget (d : Dialogue) (token : Token) : Sends resumes [] d (d.forget token) :=
  (d.sends_follow (d.session.sends_forget token)).trans (sends_show _ _)

/-- Whatever comes after a command that has gone out, it is to send nothing. -/
theorem sends_sending (d : Dialogue) {send : Desk → Except LinkError Token × Desk}
    {next : Dialogue → Token → Dialogue}
    (sent : d.session.Sends resumes commands (d.session.atDesk send).2)
    (after : ∀ e token, Sends resumes [] e (next e token)) :
    Sends resumes commands d (d.sending send next) := by
  unfold sending
  split
  · rename_i outcome
    rw [outcome] at sent
    exact (d.sends_follow sent).trans (after _ _)
  · rename_i outcome
    rw [outcome] at sent
    exact (d.sends_follow sent).trans (sends_show _ _)

theorem sends_catchUp (world : World) (d : Dialogue) : Sends resumes [] d (d.catchUp world) :=
  d.sends_follow (d.session.sends_farEnd _)

section sound
variable {world : World} (sound : world.Sound)
include sound

theorem sends_pump (d : Dialogue) : Sends resumes [] d (d.pump world).2 :=
  d.sends_follow ((Session.robust_sends d.session).hears ((sound d.moment).read d.session)
    (.refl d.session))

theorem sends_awaitResult (d : Dialogue) (token : Token) :
    Sends resumes [] d (d.awaitResult world token).2 := by
  obtain ⟨signals, waits⟩ := (sound d.moment).await token d.session
  have waited : d.session.Sends resumes [] ((d.now world).await token d.session).2 :=
    (Session.robust_sends d.session).waits waits (.refl d.session)
  unfold awaitResult
  split
  · rename_i outcome
    rw [outcome] at waited
    exact (d.sends_follow waited).trans (sends_pump sound _)
  · rename_i outcome
    rw [outcome] at waited
    exact (d.sends_follow waited).trans (sends_show _ _)

theorem sends_exchange (d : Dialogue) (text : String) :
    Sends resumes [text] d (d.exchange world (·.sendPlain text)) :=
  d.sends_sending (d.session.sends_send text ⟨trivial, nofun⟩) (sends_awaitResult sound)

theorem sends_setBreakpoint (d : Dialogue) (location : String) :
    Sends resumes ["-break-insert " ++ location] d (d.setBreakpoint world location) := by
  refine d.sends_sending (d.session.sends_send _ ⟨fun _ _ => rfl, nofun⟩) fun e token => ?_
  have awaited : Sends resumes [] e (e.awaitResult world token).2 :=
    sends_awaitResult sound e token
  split
  · rename_i outcome
    rw [outcome] at awaited
    exact awaited
  · rename_i outcome
    rw [outcome] at awaited
    split <;> exact awaited.trans (sends_show _ _)

theorem sends_ask (d : Dialogue) (query : String) :
    Sends resumes [query] d (d.ask world query).2 := by
  have asked : d.session.Sends resumes [query] ((d.now world).ask query d.session).2 :=
    Session.sends_of_asks ((sound d.moment).ask query d.session)
  unfold ask
  split
  · rename_i outcome
    rw [outcome] at asked
    have after := d.sends_follow asked
    split
    · exact after.trans (sends_show _ _)
    · exact after
  · rename_i outcome
    rw [outcome] at asked
    exact (d.sends_follow asked).trans (sends_show _ _)
  · rename_i outcome
    rw [outcome] at asked
    exact d.sends_follow asked

/-- If no terminal can be opened, nothing is sent. -/
theorem sends_redirect (d : Dialogue) :
    Sends resumes (Instruction.command? (d.now world).terminal .terminal).toList d
      (d.redirect world) := by
  unfold redirect Instruction.command?
  cases (d.now world).terminal with
  | error reason => exact d.sends_show _
  | ok terminal =>
    refine d.sends_sending (d.session.sends_send _ ⟨trivial, nofun⟩) fun e token => ?_
    have told : Sends resumes [] e
        (e.print ["Inferior I/O redirected to " ++ terminal.path]) := e.sends_show _
    exact told.trans (sends_awaitResult sound _ token)

/-- An instruction has its command sent, if it stands for one, and no other. -/
theorem sends_obey (d : Dialogue) (connected : d.started = false) (i : Instruction) :
    Sends resumes (i.command? (d.now world).terminal).toList d (d.obey world i).2 := by
  cases i with
  | raw text => exact sends_exchange sound d text
  | breakAt location => exact sends_setBreakpoint sound d location
  | resume => exact sends_exchange sound d "-exec-continue"
  | run => exact sends_exchange sound d "-exec-run"
  | finish value => cases value <;> exact sends_exchange sound d _
  | interrupt =>
    rw [obey, interrupt, connected]
    exact sends_exchange sound d "-exec-interrupt"
  | console query => exact sends_ask sound d query
  | terminal => exact sends_redirect sound d
  | pump => exact (sends_pump sound d).trans (sends_show _ _)
  | forget token => exact d.sends_forget token
  | breakpoints | threadGroups | state | help | quit => exact d.sends_show _

theorem sends_heed (d : Dialogue) (connected : d.started = false) (line : String) :
    Sends resumes (commandOfLine? (d.now world).terminal line).toList d
      (d.heed world line).2 := by
  unfold heed commandOfLine?
  cases Instruction.ofLine line with
  | none => exact d.sends_show _
  | some i => exact sends_obey sound d connected i

theorem sends_obeyLine {line : String} {course : Course}
    (obeyed : d.obeyLine world line = (course, e)) (connected : d.started = false) :
    Sends resumes (commandOfLine? (d.now world).terminal line).toList d e := by
  have heeded : Sends resumes (commandOfLine? (d.now world).terminal line).toList d
      (d.heed world line).2 := sends_heed sound d connected line
  unfold obeyLine at obeyed
  split at obeyed
  · rename_i outcome
    rw [outcome] at heeded
    have after := heeded.trans (sends_catchUp world _)
    dsimp only at obeyed
    split at obeyed
    · cases obeyed
      exact after
    · cases obeyed
      exact after.trans (sends_show _ _)
  · rename_i outcome
    rw [outcome] at heeded
    cases obeyed
    exact heeded

end sound

/-! ### Turns -/

/-- What has come of a line that was obeyed. -/
structure Turn where
  before : Dialogue
  line : String
  course : Course
  after : Dialogue

/-- The command that the line has sent. -/
def Turn.command? (world : World) (t : Turn) : Option String :=
  commandOfLine? (t.before.now world).terminal t.line

/-- The records that were received in a turn. -/
def Turn.heard (t : Turn) : List Message := t.before.session.heard t.after.session

/-- What is sent in a turn: the command of the line, and then the answers to what is heard. -/
def Turn.texts (world : World) (resumes : Bool) (t : Turn) : List String :=
  (t.command? world).toList ++ t.heard.flatMap (·.answers resumes)

/-- The turns of a dialogue. -/
def turns (world : World) (d : Dialogue) : List Entry → List Turn
  | [] => []
  | entry :: entries =>
    match entry.line? with
    | none => []
    | some line =>
      if line.isEmpty then turns world d.prompt entries
      else
        let (course, e) := d.prompt.obeyLine world line
        ⟨d.prompt, line, course, e⟩ :: if course = .goesOn then turns world e entries else []

/-- The lines that are meant by what the line editor answers, up to what ends the dialogue, without
blank ones. -/
def meant : List Entry → List String
  | [] => []
  | entry :: entries =>
    match entry.line? with
    | none => []
    | some line => if line.isEmpty then meant entries else line :: meant entries

/-- How a dialogue goes on from some moment: what the line editor answers from there on, the turns
that this comes to, and how far it gets. -/
inductive Goes (world : World) : Dialogue → List Entry → List Turn → Course → Dialogue → Prop
  | waiting (d : Dialogue) : Goes world d [] [] .goesOn d.prompt
  | finished (d : Dialogue) (screen : Screen) {entry : Entry} (entries : List Entry) (code : Nat) :
      entry.line? = none → Goes world d (entry :: entries) [] (.ended code) { d with screen }
  | blank {d e : Dialogue} {entry : Entry} {line : String} {entries : List Entry}
      {turns : List Turn} {course : Course} :
      entry.line? = some line → line.isEmpty = true → Goes world d.prompt entries turns course e →
      Goes world d (entry :: entries) turns course e
  | onward {d e f : Dialogue} {entry : Entry} {line : String} {entries : List Entry}
      {turns : List Turn} {course : Course} :
      entry.line? = some line → line.isEmpty = false →
      d.prompt.obeyLine world line = (.goesOn, e) → Goes world e entries turns course f →
      Goes world d (entry :: entries) (⟨d.prompt, line, .goesOn, e⟩ :: turns) course f
  | ending {d e : Dialogue} {entry : Entry} {line : String} (entries : List Entry)
      {course : Course} :
      entry.line? = some line → line.isEmpty = false →
      d.prompt.obeyLine world line = (course, e) → course ≠ .goesOn →
      Goes world d (entry :: entries) [⟨d.prompt, line, course, e⟩] course e

theorem goes (world : World) (d : Dialogue) (entries : List Entry) :
    Goes world d entries (d.turns world entries) (d.converse world entries).1
      (d.converse world entries).2 := by
  induction entries generalizing d with
  | nil => exact .waiting d
  | cons entry entries ih =>
    cases entry with
    | interrupted | ended | failed _ => exact .finished d _ entries 0 rfl
    | line typed unkept =>
      unfold turns converse
      by_cases empty : (Text.trim typed).isEmpty = true
      · have meaning : (Entry.line typed unkept).line? = some (Text.trim typed) := by
          simp [Entry.line?, empty]
        simp only [meaning, empty, if_true]
        exact .blank meaning empty (ih d.prompt)
      · cases unkept with
        | some reason =>
          have meaning : (Entry.line typed (some reason)).line? = none := by
            simp [Entry.line?, empty]
          simp only [meaning, empty]
          exact .finished d _ entries 1 meaning
        | none =>
          have meaning : (Entry.line typed).line? = some (Text.trim typed) := by
            simp [Entry.line?]
          have filled : (Text.trim typed).isEmpty = false := Bool.eq_false_iff.mpr empty
          simp only [meaning, filled]
          cases outcome : d.prompt.obeyLine world (Text.trim typed) with
          | mk course e =>
            cases course with
            | goesOn => exact .onward meaning filled outcome (ih e)
            | ended code => exact .ending entries meaning filled outcome nofun
            | stuck => exact .ending entries meaning filled outcome nofun

/-! ### The lines that are obeyed -/

section lines
variable {world : World} {entries : List Entry} {turns : List Turn} {course : Course}

theorem course_ask (world : World) (d : Dialogue) (query : String) :
    (d.ask world query).1 = .goesOn ∨ (d.ask world query).1 = .stuck := by
  unfold ask
  split
  · exact .inl rfl
  · exact .inl rfl
  · exact .inr rfl

/-- Only the instruction to end ends a dialogue, and only a question can leave it stuck. -/
theorem course_obey (world : World) (d : Dialogue) (i : Instruction) :
    i = .quit ∧ (d.obey world i).1 = .ended 0 ∨
      i ≠ .quit ∧ ((d.obey world i).1 = .goesOn ∨ (d.obey world i).1 = .stuck) := by
  cases i with
  | quit => exact .inl ⟨rfl, rfl⟩
  | console query => exact .inr ⟨nofun, d.course_ask world query⟩
  | _ => exact .inr ⟨nofun, .inl rfl⟩

theorem course_heed (world : World) (d : Dialogue) (line : String) :
    Instruction.ofLine line = some .quit ∧ (d.heed world line).1 = .ended 0 ∨
      Instruction.ofLine line ≠ some .quit ∧
        ((d.heed world line).1 = .goesOn ∨ (d.heed world line).1 = .stuck) := by
  unfold heed
  cases Instruction.ofLine line with
  | none => exact .inr ⟨nofun, .inl rfl⟩
  | some i => simpa using course_obey world d i

/-- A dialogue goes on after a line unless it was told to end, or the debugger is found to have
exited, or an answer is waited for that does not come. -/
theorem course_obeyLine {line : String} {course : Course}
    (obeyed : d.obeyLine world line = (course, e)) :
    course = .goesOn ↔
      Instruction.ofLine line ≠ some .quit ∧ e.session.isRunning = true ∧ course ≠ .stuck := by
  have heeded := course_heed world d line
  unfold obeyLine at obeyed
  split at obeyed
  · rename_i outcome
    rw [outcome] at heeded
    dsimp only at obeyed
    split at obeyed
    · rename_i running
      cases obeyed
      simpa [running] using heeded
    · rename_i exited
      cases obeyed
      exact ⟨nofun, fun going => absurd going.2.1 exited⟩
  · rename_i other outcome
    cases obeyed
    rw [outcome] at heeded
    rcases heeded with ⟨quits, ended⟩ | ⟨-, going | stuck⟩
    · exact ⟨fun going => absurd (ended.symm.trans going) nofun, fun h => absurd quits h.1⟩
    · exact (other going).elim
    · exact ⟨fun going => absurd (stuck.symm.trans going) nofun, fun h => absurd stuck h.2.2⟩

theorem Goes.obeyed (goes : Goes world d entries turns course e) :
    ∀ t ∈ turns, t.before.obeyLine world t.line = (t.course, t.after) := by
  induction goes with
  | waiting _ | finished _ _ _ _ _ => exact List.forall_mem_nil _
  | blank _ _ _ ih => exact ih
  | onward _ _ outcome _ ih => exact List.forall_mem_cons.mpr ⟨outcome, ih⟩
  | ending _ _ _ outcome _ => exact List.forall_mem_singleton.mpr outcome

theorem Goes.goesOn (goes : Goes world d entries turns course e) :
    ∀ t ∈ turns.dropLast, t.course = .goesOn := by
  induction goes with
  | waiting _ | finished _ _ _ _ _ | ending _ _ _ _ _ => exact List.forall_mem_nil _
  | blank _ _ _ ih => exact ih
  | @onward d e f entry line entries turns course _ _ _ rest ih =>
    cases turns with
    | nil => exact List.forall_mem_nil _
    | cons t turns => exact List.forall_mem_cons.mpr ⟨rfl, ih⟩

/-- The lines that are meant are obeyed in their order, all of them unless the dialogue is over
before. -/
theorem Goes.meant (goes : Goes world d entries turns course e) :
    turns.map (·.line) <+: meant entries ∧ (turns.map (·.line) = meant entries ∨
      ∃ t, turns.getLast? = some t ∧ t.course ≠ .goesOn) := by
  induction goes with
  | waiting _ => exact ⟨List.prefix_rfl, .inl rfl⟩
  | finished _ _ _ _ meaning =>
    unfold Dialogue.meant
    rw [meaning]
    exact ⟨List.prefix_rfl, .inl rfl⟩
  | blank meaning empty _ ih =>
    unfold Dialogue.meant
    rw [meaning]
    simpa [empty] using ih
  | onward meaning filled _ _ ih =>
    unfold Dialogue.meant
    rw [meaning]
    obtain ⟨first, all | ⟨t, last, ended⟩⟩ := ih
    · simpa [filled] using ⟨first, .inl all⟩
    · simpa [filled] using ⟨first, .inr ⟨t, by simp [List.getLast?_cons, last], ended⟩⟩
  | ending entries meaning filled _ ended =>
    unfold Dialogue.meant
    rw [meaning]
    simp [filled, ended]

end lines

/-! ### What is sent in a dialogue -/

/-- What is true of a number of turns from one moment to the other. -/
structure Accounts (world : World) (resumes : Bool) (turns : List Turn) (s t : Session) :
    Prop where
  unbroken : t.desk.Unbroken → s.desk.Unbroken
  hears : received t.desk.journal = received s.desk.journal ++ turns.flatMap (·.heard)
  tally {texts : List String} : t.desk.Unbroken →
    (∀ turn ∈ turns, turn.command? world ≠ none →
      turn.before.session.isClosed = false) →
    s.Tally resumes texts →
    t.Tally resumes (texts ++ turns.flatMap (·.texts world resumes))

variable {world : World}

theorem Accounts.nil (s : Session) : Accounts world resumes [] s s := by
  refine ⟨id, (List.append_nil _).symm, fun _ _ tally => ?_⟩
  rw [List.flatMap_nil, List.append_nil]
  exact tally

theorem Accounts.cons {t : Turn} {turns : List Turn} {s : Session}
    (sends : Sends resumes (t.command? world).toList t.before t.after)
    (rest : Accounts world resumes turns t.after.session s) :
    Accounts world resumes (t :: turns) t.before.session s := by
  refine ⟨sends.session.unbroken ∘ rest.unbroken, ?_, fun {texts} unbroken opened before => ?_⟩
  · rw [rest.hears, sends.session.hears, List.flatMap_cons, List.append_assoc]
    rfl
  · obtain ⟨first, opened⟩ := List.forall_mem_cons.mp opened
    have after := rest.tally unbroken opened
      (sends.session.tally (rest.unbroken unbroken) (fun some => first (by simpa using some)) before)
    rw [List.flatMap_cons, Turn.texts, Turn.heard]
    simpa only [List.append_assoc] using after

theorem Goes.accounts (sound : world.Sound) {entries : List Entry} {turns : List Turn}
    {course : Course} (goes : Goes world d entries turns course e) (connected : d.started = false) :
    Accounts world resumes turns d.session e.session := by
  induction goes with
  | waiting d => exact .nil d.session
  | finished d _ _ _ _ => exact .nil d.session
  | blank _ _ _ ih => exact ih connected
  | onward _ _ outcome _ ih =>
    have obeyed : Sends resumes _ _ _ := sends_obeyLine sound outcome connected
    exact .cons obeyed (ih (obeyed.started.trans connected))
  | ending _ _ _ outcome _ => exact .cons (sends_obeyLine sound outcome connected) (.nil _)

end Dialogue

end DebugLink.Prompt
