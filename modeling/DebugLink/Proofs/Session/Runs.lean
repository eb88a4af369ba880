import DebugLink.Proofs.Session.Calls
import DebugLink.Proofs.Session.Operations

/-! Runs of a session. A run is made of moves: a line is taken off the buffer, the buffer is filled,
something happens at the far end, or somebody does something at the desk; every operation of a
session comes down to moves. Along with the session a run keeps its history, which no move looks
at: the records that were received, the commands that were sent, and those that were forgotten,
whoever did it. Statements about all runs relate the session to its history, and `Kept` is what such
a relation has to withstand. -/

namespace DebugLink

/-- Something that matters to the commands of a session. -/
inductive Happening where
  | received (m : Message)
  /-- A command was sent, and its sender was told this token. -/
  | sent (token : Token) (text : String) (onResult : OnResult Reaction)
  /-- A send failed, which spent this token. -/
  | failed (token : Token)
  | forgot (token : Token)

/-- What has happened, the latest first. -/
abbrev History := List Happening

/-! ### What is added to a history -/

namespace History

/-- A send comes to a token, or is refused, or fails. -/
def sending (h : History) (d : Desk) (text : String) (onResult : OnResult Reaction)
    (onConsole : Option (OnConsole Reaction)) : History :=
  match (d.send text onResult onConsole).1 with
  | .ok token => .sent token text onResult :: h
  | .error _ => if d.closed then h else .failed d.nextToken :: h

/-- A handler does what it does, step by step. -/
def performing : Reaction → Desk → History → History
  | .done, _, h => h
  | .send text onResult onConsole next, d, h =>
    let (outcome, e) := d.send text onResult onConsole
    performing (next outcome) (e.log (.did (.sent outcome)))
      (h.sending d text onResult onConsole)
  | .forget token next, d, h =>
    let (tracked, e) := d.forget token
    performing (next tracked) (e.log (.did (.forgot tracked))) (.forgot token :: h)
  | .stop next, d, h => performing next (d.requestStop.log (.did .askedToStop)) h
  | .look next, d, h =>
    performing (next d.view) (d.log (.did (.looked d.view.closed d.view.commands))) h

/-- Whoever is called does what is to be done; the target is sent on its way. -/
def calling (t : Tracker) (h : History) : Call → History
  | .resume => h.sending t.desk "-exec-continue" .nothing none
  | c => performing c.reaction (t.reach c).desk h

def callingAll : Tracker → History → List Call → History
  | _, h, [] => h
  | t, h, c :: cs => callingAll (t.call c) (calling t h c) cs

/-- A record is received, and those whom it concerns are called. That taking it comes to this is
`Tracker.agrees_take`. -/
def taking (t : Tracker) (h : History) (m : Message) : History :=
  callingAll (t.settle m) (.received m :: h) (t.callsOn m)

def takingLine (t : Tracker) (h : History) (line : String) : History :=
  match accepted? line with
  | some m => taking t h m
  | none => h

end History

/-! ### How histories grow -/

namespace History

section grow
variable {P : History → Prop}
  (sent : ∀ {token text onResult h}, P h → P (.sent token text onResult :: h))
  (failed : ∀ {token h}, P h → P (.failed token :: h))
include sent failed

theorem sending_grows (d : Desk) (text : String) (onResult : OnResult Reaction)
    (onConsole : Option (OnConsole Reaction)) {h : History} (hh : P h) :
    P (h.sending d text onResult onConsole) := by
  unfold sending
  split
  · exact sent hh
  · split
    · exact hh
    · exact failed hh

variable (forgot : ∀ {token h}, P h → P (.forgot token :: h))
include forgot

theorem performing_grows (r : Reaction) (d : Desk) {h : History} (hh : P h) :
    P (h.performing r d) := by
  induction r, d using Desk.perform_induction generalizing h with
  | done d => exact hh
  | send text onResult onConsole next d ih =>
    exact ih (sending_grows sent failed d text onResult onConsole hh)
  | forget token next d ih => exact ih (forgot hh)
  | stop next d ih => exact ih hh
  | look next d ih => exact ih hh

theorem calling_grows (t : Tracker) (c : Call) {h : History} (hh : P h) :
    P (h.calling t c) := by
  cases c with
  | resume => exact sending_grows sent failed _ _ _ _ hh
  | result _ _ _ | stop _ _ _ | console _ _ _ | announce _ _ | present _ _ =>
    exact performing_grows sent failed forgot _ _ hh

theorem callingAll_grows (t : Tracker) (cs : List Call) {h : History} (hh : P h) :
    P (h.callingAll t cs) := by
  induction cs generalizing t h with
  | nil => exact hh
  | cons c cs ih => exact ih (t.call c) (calling_grows sent failed forgot t c hh)

/-- Calls add sends and forgets to the history, after the record itself. -/
theorem taking_grows (t : Tracker) {h : History} {m : Message} (hm : P (.received m :: h)) :
    P (h.taking t m) := callingAll_grows sent failed forgot (t.settle m) (t.callsOn m) hm

end grow

/-- What sends and forgets leave alone, a record changes by itself. -/
theorem taking_of_ignoring {α : Type} {f : History → α}
    (sent : ∀ token text onResult h, f (.sent token text onResult :: h) = f h)
    (failed : ∀ token h, f (.failed token :: h) = f h)
    (forgot : ∀ token h, f (.forgot token :: h) = f h) (t : Tracker) (h : History) (m : Message) :
    f (h.taking t m) = f (.received m :: h) :=
  taking_grows (P := fun g => f g = f (.received m :: h)) (fun same => (sent _ _ _ _).trans same)
    (fun same => (failed _ _).trans same) (fun same => (forgot _ _).trans same) t rfl

theorem sending_of_ignoring {α : Type} {f : History → α}
    (sent : ∀ token text onResult h, f (.sent token text onResult :: h) = f h)
    (failed : ∀ token h, f (.failed token :: h) = f h) (h : History) (d : Desk) (text : String)
    (onResult : OnResult Reaction) (onConsole : Option (OnConsole Reaction)) :
    f (h.sending d text onResult onConsole) = f h :=
  sending_grows (P := fun g => f g = f h) (fun same => (sent _ _ _ _).trans same)
    (fun same => (failed _ _).trans same) d text onResult onConsole rfl

/-- The records of a history, in the order in which they were received. -/
def records : History → List Message
  | [] => []
  | .received m :: h => records h ++ [m]
  | .sent .. :: h | .failed _ :: h | .forgot _ :: h => records h

/-- The texts of the commands that were sent, in the order in which they were sent. -/
def sends : History → List (Token × String)
  | [] => []
  | .sent token text _ :: h => sends h ++ [(token, text)]
  | .received _ :: h | .failed _ :: h | .forgot _ :: h => sends h

theorem records_append (g h : History) : records (g ++ h) = h.records ++ g.records := by
  induction g with
  | nil => exact (List.append_nil _).symm
  | cons x g ih =>
    cases x with
    | received m => rw [List.cons_append, records, records, ih, List.append_assoc]
    | sent _ _ _ | failed _ | forgot _ => exact ih

theorem records_takingLine (t : Tracker) (h : History) (line : String) :
    (h.takingLine t line).records = h.records ++ (accepted? line).toList := by
  unfold takingLine
  cases accepted? line with
  | none => exact (List.append_nil _).symm
  | some m => exact taking_of_ignoring (fun _ _ _ _ => rfl) (fun _ _ => rfl) (fun _ _ => rfl) t h m

theorem suffix_takingLine (t : Tracker) (h : History) (line : String) :
    h <:+ h.takingLine t line := by
  unfold takingLine
  cases accepted? line with
  | none => exact List.suffix_rfl
  | some m =>
    exact taking_grows (P := (h <:+ ·)) (fun grown => grown.trans (List.suffix_cons _ _))
      (fun grown => grown.trans (List.suffix_cons _ _))
      (fun grown => grown.trans (List.suffix_cons _ _)) t (List.suffix_cons _ _)

end History

/-! ### Runs -/

/-- One step of a run. -/
inductive Move where
  /-- The first line is taken off the buffer, or the buffer is searched for one in vain. -/
  | takeLine
  | fill
  | takeStop (target : Option Token)
  /-- Whatever happens at the far end: the source has changed. -/
  | farEnd (source : Source)
  | attach
  | send (text : String) (onResult : OnResult Reaction) (onConsole : Option (OnConsole Reaction))
  | forget (token : Token)
  | clearOnConsole (token : Token)
  | requestStop
  | onChange (react : Change → Reaction)
  | onRecord (kind : Kind) (react : Message → Reaction)

/-- A session and what has happened in it. -/
structure Chronicle where
  session : Session
  history : History := []

namespace Chronicle

def tracker (c : Chronicle) : Tracker := c.session.tracker

def withTracker (c : Chronicle) (t : Tracker) : Chronicle :=
  { c with session := { c.session with tracker := t } }

def step (c : Chronicle) : Move → Chronicle
  | .takeLine =>
    match c.session.lines.next with
    | (some line, rest) => ⟨c.session.afterLine line rest, c.history.takingLine c.tracker line⟩
    | (none, rest) => { c with session := { c.session with lines := rest } }
  | .fill => { c with session := c.session.fill.2 }
  | .takeStop target => { c with session := c.session.takeStop target }
  | .farEnd source => { c with session := { c.session with source } }
  | .attach => { c with session := { c.session with attached := true } }
  | .send text onResult onConsole =>
    ⟨(c.session.atDesk (·.send text onResult onConsole)).2,
      c.history.sending c.session.desk text onResult onConsole⟩
  | .forget token => ⟨(c.session.atDesk (·.forget token)).2, .forgot token :: c.history⟩
  | .clearOnConsole token =>
    { c with session := c.session.withDesk (c.session.desk.clearOnConsole token) }
  | .requestStop => { c with session := c.session.withDesk c.session.desk.requestStop }
  | .onChange react => c.withTracker (c.tracker.onChange react).2
  | .onRecord kind react => c.withTracker (c.tracker.onRecord kind react).2

def run (c : Chronicle) (moves : List Move) : Chronicle := moves.foldl step c

theorem run_append (c : Chronicle) (moves more : List Move) :
    c.run (moves ++ more) = (c.run moves).run more := List.foldl_append

/-- Nothing that has happened is ever taken back. -/
theorem suffix_step (c : Chronicle) (move : Move) : c.history <:+ (c.step move).history := by
  cases move with
  | takeLine =>
    unfold step
    dsimp only
    split
    · exact History.suffix_takingLine _ _ _
    · exact List.suffix_rfl
  | send text onResult onConsole =>
    exact History.sending_grows (P := (c.history <:+ ·))
      (fun grown => grown.trans (List.suffix_cons _ _))
      (fun grown => grown.trans (List.suffix_cons _ _)) _ _ _ _ List.suffix_rfl
  | forget token => exact List.suffix_cons _ _
  | _ => exact List.suffix_rfl

theorem received_fill (s : Session) :
    received s.fill.2.desk.journal = received s.desk.journal := by
  unfold Session.fill
  split
  · rfl
  · split
    · exact received_push_of_quiet _ rfl
    · rfl
    · split
      · exact received_push_of_quiet _ rfl
      · rfl
      · rfl
      · rfl

theorem records_step {c : Chronicle} (hc : c.history.records = received c.session.desk.journal)
    (move : Move) :
    (c.step move).history.records = received (c.step move).session.desk.journal := by
  cases move with
  | takeLine =>
    unfold step
    dsimp only
    split
    · rename_i line rest _
      have taken := c.session.tracker.received_takeLine line
      rw [History.records_takingLine, hc]
      exact taken.symm
    · exact hc
  | fill => exact hc.trans (received_fill c.session).symm
  | takeStop target => exact hc.trans (received_push_of_quiet _ rfl).symm
  | send text onResult onConsole =>
    have unsent := History.sending_of_ignoring (f := History.records) (fun _ _ _ _ => rfl)
      (fun _ _ => rfl) c.history c.session.desk text onResult onConsole
    exact unsent.trans (hc.trans (c.session.desk.received_send text onResult onConsole).symm)
  | farEnd _ | attach | forget _ | clearOnConsole _ | requestStop | onChange _ | onRecord _ _ =>
    exact hc

/-- The records of a history are those that the session notes as received. -/
theorem records_run {c : Chronicle} (hc : c.history.records = received c.session.desk.journal)
    (moves : List Move) :
    (c.run moves).history.records = received (c.run moves).session.desk.journal := by
  induction moves generalizing c with
  | nil => exact hc
  | cons move moves ih => exact ih (records_step hc move)

end Chronicle

/-- A run of a session from its beginning. -/
def Session.chronicle (source : Source) (sink : Sink) (settings : Settings) (moves : List Move) :
    Chronicle :=
  ({ session := .connect source sink settings } : Chronicle).run moves

/-! ### Operations as moves -/

namespace Chronicle

/-- Some run leads from here to a session. -/
def Reaches (c : Chronicle) (s : Session) : Prop := ∃ moves, (c.run moves).session = s

theorem reaches_self (c : Chronicle) : c.Reaches c.session := ⟨[], rfl⟩

theorem Reaches.step {c : Chronicle} {s t : Session} (hs : c.Reaches s) (move : Move)
    (moved : ∀ d : Chronicle, d.session = s → (d.step move).session = t) : c.Reaches t := by
  obtain ⟨moves, hm⟩ := hs
  refine ⟨moves ++ [move], ?_⟩
  rw [run_append]
  exact moved (c.run moves) hm

/-- Each step that operations are made of is a move. -/
theorem enduring_reaches (c : Chronicle) : Session.Enduring c.Reaches where
  line {s line rest} hs hl := by
    refine hs.step .takeLine ?_
    rintro d rfl
    simp only [step, hl]
  vain {s rest} hs hn := by
    refine hs.step .takeLine ?_
    rintro d rfl
    simp only [step, hn]
  fill hs _ := hs.step .fill (by rintro d rfl; rfl)
  stop target hs := hs.step (.takeStop target) (by rintro d rfl; rfl)
  attach hs _ := hs.step .attach (by rintro d rfl; rfl)
  send text onResult onConsole hs :=
    hs.step (.send text onResult onConsole) (by rintro d rfl; rfl)
  forget token hs := hs.step (.forget token) (by rintro d rfl; rfl)
  clearOnConsole token hs := hs.step (.clearOnConsole token) (by rintro d rfl; rfl)
  requestStop hs := hs.step .requestStop (by rintro d rfl; rfl)
  onChange react hs := hs.step (.onChange react) (by rintro d rfl; rfl)
  onRecord kind react hs := hs.step (.onRecord kind react) (by rintro d rfl; rfl)

/-- Every operation comes down to moves. -/
theorem reaches_act (c : Chronicle) (operation : Operation) :
    c.Reaches (c.session.act operation) := by
  cases operation with
  | farEnd source => exact ⟨[.farEnd source], rfl⟩
  | _ => exact c.enduring_reaches.act _ rfl c.reaches_self

/-- Whatever is done with a session, some run does it. -/
theorem reaches_foldl_act (c : Chronicle) (operations : List Operation) :
    c.Reaches (operations.foldl Session.act c.session) := by
  induction operations generalizing c with
  | nil => exact c.reaches_self
  | cons operation operations ih =>
    obtain ⟨moves, hm⟩ := c.reaches_act operation
    obtain ⟨more, hr⟩ := ih (c.run moves)
    refine ⟨moves ++ more, ?_⟩
    rw [run_append, hr, hm]
    rfl

end Chronicle

/-! ### What every move keeps -/

/-- Whatever is done at the desk and whatever record is received, the relation between tracker and
history is kept. -/
structure Lasting (I : Tracker → History → Prop) : Prop where
  quiet {t u : Tracker} {h : History} : Tracker.Agrees Event.isCall t u → I t h → I u h
  close {t : Tracker} {h : History} :
    I t h → I { t with desk := { t.desk with closed := true } } h
  onChange {t : Tracker} {h : History} (react : Change → Reaction) :
    I t h → I (t.onChange react).2 h
  onRecord {t : Tracker} {h : History} (kind : Kind) (react : Message → Reaction) :
    I t h → I (t.onRecord kind react).2 h
  clearOnConsole {t : Tracker} {h : History} (token : Token) :
    I t h → I { t with desk := t.desk.clearOnConsole token } h
  send {t : Tracker} {h : History} (text : String) (onResult : OnResult Reaction)
    (onConsole : Option (OnConsole Reaction)) :
    I t h → I { t with desk := (t.desk.send text onResult onConsole).2 }
      (h.sending t.desk text onResult onConsole)
  forget {t : Tracker} {h : History} (token : Token) :
    I t h → I { t with desk := (t.desk.forget token).2 } (.forgot token :: h)
  take {t : Tracker} {h : History} (m : Message) : I t h → I (t.take m) (h.taking t m)

namespace Lasting

variable {I : Tracker → History → Prop} (lasting : Lasting I)
include lasting

theorem notice {t : Tracker} {h : History} (n : Notice) (ht : I t h) : I (t.notice n) h :=
  lasting.quiet (t.agrees_notice n).symm ht

theorem takeLine {t : Tracker} {h : History} (line : String) (ht : I t h) :
    I (t.takeLine line).2 (h.takingLine t line) := by
  unfold Tracker.takeLine History.takingLine accepted?
  split
  · exact ht
  · split
    · rename_i flaw hm
      rw [hm]
      exact lasting.notice _ ht
    · rename_i m hm
      rw [hm]
      exact lasting.take m ht

theorem fill {s : Session} {h : History} (hs : I s.tracker h) : I s.fill.2.tracker h := by
  unfold Session.fill
  split
  · exact hs
  · split
    · exact lasting.close (lasting.notice _ hs)
    · exact hs
    · split
      · exact lasting.close (lasting.notice _ hs)
      · exact hs
      · exact lasting.close hs
      · exact hs

theorem takeStop {s : Session} {h : History} (target : Option Token) (hs : I s.tracker h) :
    I (s.takeStop target).tracker h := by
  have unasked : Tracker.Agrees Event.isCall s.tracker
      { s.tracker with desk := { s.tracker.desk with stopRequested := false } } := ⟨rfl, rfl⟩
  exact lasting.notice _ (lasting.quiet unasked hs)

theorem step {c : Chronicle} (hc : I c.tracker c.history) (move : Move) :
    I (c.step move).tracker (c.step move).history := by
  cases move with
  | takeLine =>
    unfold Chronicle.step
    dsimp only
    split
    · exact lasting.takeLine _ hc
    · exact hc
  | fill => exact lasting.fill hc
  | takeStop target => exact lasting.takeStop target hc
  | farEnd source => exact hc
  | attach => exact hc
  | send text onResult onConsole => exact lasting.send text onResult onConsole hc
  | forget token => exact lasting.forget token hc
  | clearOnConsole token => exact lasting.clearOnConsole token hc
  | requestStop =>
    have asked : Tracker.Agrees Event.isCall c.tracker
        { c.tracker with desk := c.tracker.desk.requestStop } := ⟨rfl, rfl⟩
    exact lasting.quiet asked hc
  | onChange react => exact lasting.onChange react hc
  | onRecord kind react => exact lasting.onRecord kind react hc

theorem run {c : Chronicle} (hc : I c.tracker c.history) (moves : List Move) :
    I (c.run moves).tracker (c.run moves).history := by
  induction moves generalizing c with
  | nil => exact hc
  | cons move moves ih => exact ih (lasting.step hc move)

/-- What holds at the beginning holds in every run. -/
theorem chronicle {source : Source} {sink : Sink} {settings : Settings}
    (start : I (Session.connect source sink settings).tracker []) (moves : List Move) :
    I (Session.chronicle source sink settings moves).tracker
      (Session.chronicle source sink settings moves).history :=
  lasting.run (c := { session := .connect source sink settings }) start moves

end Lasting

/-! ### What every step of a move keeps -/

/-- What a command is and what its results have made of it. -/
structure Standing where
  text : String
  state : CommandState
  /-- The handler to which its first result is to give the stops at a breakpoint. -/
  awaited : Option (Option (StopHandler Reaction))

/-- The handler that a command has for the stops at the breakpoint it inserts. -/
def OnResult.awaited : OnResult Reaction → Option (Option (StopHandler Reaction))
  | .install handler => some handler
  | _ => none

def Command.standing (c : Command) : Standing := ⟨c.text, c.state, c.onResult.awaited⟩

/-- A relation that has nothing to do with the past, nor with what handlers have gone through, nor
with the handlers that commands have for their results and their console text. Of a record it need
only withstand the settling. -/
structure Kept (I : Tracker → History → Prop) : Prop where
  bare {t u : Tracker} {h : History} : t.bare = u.bare → I t h → I u h
  close {t : Tracker} {h : History} :
    I t h → I { t with desk := { t.desk with closed := true } } h
  subscribe {t : Tracker} {h : History} (changeSubscribers : List ChangeSubscriber)
    (recordSubscribers : List RecordSubscriber) :
    I t h → I { t with changeSubscribers, recordSubscribers } h
  revise {t : Tracker} {h : History} (token : Token) {f : Command → Command} :
    (∀ c, (f c).standing = c.standing) → I t h →
      I { t with desk := { t.desk with commands := t.desk.commands.modify token f } } h
  send {t : Tracker} {h : History} (text : String) (onResult : OnResult Reaction)
    (onConsole : Option (OnConsole Reaction)) :
    I t h → I { t with desk := (t.desk.send text onResult onConsole).2 }
      (h.sending t.desk text onResult onConsole)
  forget {t : Tracker} {h : History} (token : Token) :
    I t h → I { t with desk := (t.desk.forget token).2 } (.forgot token :: h)
  settle {t : Tracker} {h : History} (m : Message) : I t h → I (t.settle m) (.received m :: h)

namespace Kept

variable {I : Tracker → History → Prop} (kept : Kept I)
include kept

theorem clearOnConsole {t : Tracker} {h : History} (token : Token) (ht : I t h) :
    I { t with desk := t.desk.clearOnConsole token } h :=
  kept.revise token (fun _ => rfl) ht

theorem fresh {t u : Tracker} {h : History} (same : t.fresh = u.fresh) (ht : I t h) : I u h :=
  kept.bare (Tracker.bare_of_fresh same) ht

theorem log {t : Tracker} {h : History} (e : Event) (ht : I t h) : I (t.log e) h :=
  kept.bare (t.bare_log e).symm ht

theorem perform (r : Reaction) {t : Tracker} {h : History} (ht : I t h) :
    I (t.perform r) (h.performing r t.desk) := by
  generalize hd : t.desk = d
  have performed : I { t with desk := Desk.perform r d } (h.performing r d) := by
    replace ht : I { t with desk := d } h := by
      rw [← hd]
      exact ht
    clear hd
    -- Each step of the reaction goes on from the desk, and the history, that the one before left.
    induction r, d using Desk.perform_induction generalizing h with
    | done d => exact ht
    | send text onResult onConsole next d ih =>
      exact ih (kept.log _ (kept.send text onResult onConsole ht))
    | forget token next d ih => exact ih (kept.log _ (kept.forget token ht))
    | stop next d ih =>
      have asked : I { t with desk := d.requestStop } h :=
        kept.fresh (t := { t with desk := d }) rfl ht
      exact ih (kept.log _ asked)
    | look next d ih => exact ih (kept.log _ ht)
  rw [Tracker.perform, hd]
  exact performed

theorem call (c : Call) {t : Tracker} {h : History} (ht : I t h) :
    I (t.call c) (h.calling t c) := by
  cases c with
  | resume => exact kept.send _ _ _ ht
  | stop _ _ _ | announce _ _ | present _ _ => exact kept.perform _ (kept.log _ ht)
  | result token record react =>
    refine kept.revise token (fun command => ?_) (kept.perform _ (kept.log _ ht))
    cases h : command.onResult <;> simp [Command.standing, OnResult.awaited, h]
  | console token record handler =>
    have cleared := kept.clearOnConsole token ht
    cases handler with
    | call react =>
      have logged := kept.log (.console token record) cleared
      exact kept.revise token (fun _ => rfl) (kept.perform (react token record) logged)
    | collect =>
      have logged := kept.log (.collected token record.what) cleared
      exact kept.revise token (fun _ => rfl) logged

theorem callAll (cs : List Call) {t : Tracker} {h : History} (ht : I t h) :
    I (t.callAll cs) (h.callingAll t cs) := by
  induction cs generalizing t h with
  | nil => exact ht
  | cons c cs ih => exact ih (kept.call c ht)

/-- Such a relation withstands the calls as well. -/
theorem lasting : Lasting I where
  quiet agrees := kept.fresh agrees.fresh
  close := kept.close
  onChange _ := kept.subscribe _ _
  onRecord _ _ := kept.subscribe _ _
  clearOnConsole := kept.clearOnConsole
  send := kept.send
  forget := kept.forget
  take {t _} m ht :=
    kept.fresh (t.agrees_take m).fresh.symm (kept.callAll (t.callsOn m) (kept.settle m ht))

end Kept

end DebugLink
