import DebugLink.Proofs.Session.Commands
import DebugLink.Proofs.Session.Handlers

/-! The ledger of a run. Beside the records, sends and forgets of its history, a ledger says who was
called for each record and who it was that sent a command, with which handlers, when console text
ceased to concern a command, and when the connection ended. What it has in common with the history
is the history. As long as tokens last it is the same ledger that is kept if every handler stays in
its place, as `Tracker.agrees_take_in_place` allows. -/

namespace DebugLink

/-- What goes into a ledger. -/
inductive Entry where
  | received (m : Message)
  /-- Somebody was called for the record received last. -/
  | called (c : Call)
  /-- A command was sent by somebody who was called, or else by the caller of the session. -/
  | sent (sender : Option Call) (token : Token) (text : String) (onResult : OnResult Reaction)
      (onConsole : Option (OnConsole Reaction))
  /-- A send failed, which was the end of the connection. -/
  | failed (sender : Option Call) (token : Token) (text : String)
  | forgot (token : Token)
  /-- Console text no longer concerns the command, whose caller has his answer. -/
  | silenced (token : Token)
  /-- The debugger has gone, or can no longer be heard. -/
  | closed

/-- What has been entered, the latest first. -/
abbrev Ledger := List Entry

namespace Ledger

/-! ### What is entered -/

/-- A send comes to a token, or is refused, or fails. -/
def sending (l : Ledger) (sender : Option Call) (d : Desk) (text : String)
    (onResult : OnResult Reaction) (onConsole : Option (OnConsole Reaction)) : Ledger :=
  match (d.send text onResult onConsole).1 with
  | .ok token => .sent sender token text onResult onConsole :: l
  | .error _ => if d.closed then l else .failed sender d.nextToken text :: l

/-- Somebody who was called does what he does, step by step. -/
def performing (sender : Call) : Reaction → Desk → Ledger → Ledger
  | .done, _, l => l
  | .send text onResult onConsole next, d, l =>
    let (outcome, e) := d.send text onResult onConsole
    performing sender (next outcome) (e.log (.did (.sent outcome)))
      (l.sending (some sender) d text onResult onConsole)
  | .forget token next, d, l =>
    let (tracked, e) := d.forget token
    performing sender (next tracked) (e.log (.did (.forgot tracked))) (.forgot token :: l)
  | .stop next, d, l => performing sender next (d.requestStop.log (.did .askedToStop)) l
  | .look next, d, l =>
    performing sender (next d.view) (d.log (.did (.looked d.view.closed d.view.commands))) l

/-- Whoever is called does what is to be done, at the desk where that is done; the target is sent on
its way. -/
def acting (d : Desk) (l : Ledger) : Call → Ledger
  | .resume => sending (.called .resume :: l) (some .resume) d "-exec-continue" .nothing none
  | c => performing c c.reaction d (.called c :: l)

def calling (t : Tracker) (l : Ledger) (c : Call) : Ledger := acting (t.reach c).desk l c

def callingAll : Tracker → Ledger → List Call → Ledger
  | _, l, [] => l
  | t, l, c :: cs => callingAll (t.call c) (calling t l c) cs

/-- A record is received, and those whom it concerns are called. -/
def taking (t : Tracker) (l : Ledger) (m : Message) : Ledger :=
  callingAll (t.settle m) (.received m :: l) (t.callsOn m)

def takingLine (t : Tracker) (l : Ledger) (line : String) : Ledger :=
  match accepted? line with
  | some m => taking t l m
  | none => l

/-- What one step of a run enters. -/
def stepping (s : Session) (l : Ledger) : Move → Ledger
  | .takeLine =>
    match s.lines.next with
    | (some line, _) => l.takingLine s.tracker line
    | (none, _) => l
  | .fill => if s.fill.2.isClosed && !s.isClosed then .closed :: l else l
  | .send text onResult onConsole => l.sending none s.desk text onResult onConsole
  | .forget token => .forgot token :: l
  | .clearOnConsole token => .silenced token :: l
  | .takeStop _ | .farEnd _ | .attach | .requestStop | .onChange _ | .onRecord _ _ => l

/-! ### What is read off a ledger -/

/-- Those who were called, in their order. -/
def calls : Ledger → List Call
  | [] => []
  | .called c :: l => calls l ++ [c]
  | _ :: l => calls l

/-- What the records bring one after the other, each by what was entered before it. -/
def gather {α : Type} (f : Ledger → Message → List α) : Ledger → List α
  | [] => []
  | .received m :: l => gather f l ++ f l m
  | _ :: l => gather f l

end Ledger

/-- What an entry says of the commands of the session. -/
def Entry.happening? : Entry → Option Happening
  | .received m => some (.received m)
  | .sent _ token text onResult _ => some (.sent token text onResult)
  | .failed _ token _ => some (.failed token)
  | .forgot token => some (.forgot token)
  | .called _ | .silenced _ | .closed => none

/-- The history of the run. -/
def Ledger.history (l : Ledger) : History := l.filterMap Entry.happening?

/-- What a run enters after what was entered before. -/
def Chronicle.ledger : Chronicle → Ledger → List Move → Ledger
  | _, l, [] => l
  | c, l, move :: moves => ledger (c.step move) (l.stepping c.session move) moves

/-- The ledger of a run of a session from its beginning. -/
def Session.ledger (source : Source) (sink : Sink) (settings : Settings) (moves : List Move) :
    Ledger :=
  ({ session := .connect source sink settings } : Chronicle).ledger [] moves

/-! ### How ledgers grow -/

/-- The ways in which a send can go, with the desk and the ledger that it leaves. -/
inductive Ledger.Sending (l : Ledger) (sender : Option Call) (d : Desk) (text : String)
    (onResult : OnResult Reaction) (onConsole : Option (OnConsole Reaction)) :
    Except LinkError Token × Desk → Ledger → Prop
  | refused : d.closed = true → Sending l sender d text onResult onConsole (.error .closed, d) l
  | went (sink : Sink) :
      d.closed = false →
      d.sink.write (Utf8.encode (Desk.commandLine d.nextToken text)) = (none, sink) →
      Sending l sender d text onResult onConsole
        (.ok d.nextToken, { d with
          issued := d.issued + 1
          sink
          commands := d.commands.insert d.nextToken ⟨text, .pending, onResult, onConsole⟩ })
        (.sent sender d.nextToken text onResult onConsole :: l)
  | failed (failure : SinkFailure) (sink : Sink) :
      d.closed = false →
      d.sink.write (Utf8.encode (Desk.commandLine d.nextToken text)) = (some failure, sink) →
      Sending l sender d text onResult onConsole
        (.error .closed, { d with
          issued := d.issued + 1
          sink
          commands :=
            (d.commands.insert d.nextToken ⟨text, .pending, onResult, onConsole⟩).erase
              d.nextToken
          closed := true }.notice (.sendFailed d.nextToken text failure.message))
        (.failed sender d.nextToken text :: l)

theorem Ledger.sends (l : Ledger) (sender : Option Call) (d : Desk) (text : String)
    (onResult : OnResult Reaction) (onConsole : Option (OnConsole Reaction)) :
    Sending l sender d text onResult onConsole (d.send text onResult onConsole)
      (l.sending sender d text onResult onConsole) := by
  unfold sending
  cases hc : d.closed with
  | true =>
    rw [Desk.send_of_closed hc]
    exact .refused hc
  | false =>
    cases hw : d.sink.write (Utf8.encode (Desk.commandLine d.nextToken text)) with
    | mk failure sink =>
      cases failure with
      | none =>
        rw [Desk.send_of_write hc hw]
        exact .went sink hc hw
      | some failure =>
        rw [Desk.send_of_failure hc hw]
        exact .failed failure sink hc hw

/-- What comes of what somebody does who is called. -/
inductive Entry.DeedOf (c : Call) : Entry → Prop
  | sent (token : Token) (text : String) (onResult : OnResult Reaction)
      (onConsole : Option (OnConsole Reaction)) :
      DeedOf c (.sent (some c) token text onResult onConsole)
  | failed (token : Token) (text : String) : DeedOf c (.failed (some c) token text)
  | forgot (token : Token) : DeedOf c (.forgot token)

namespace Ledger

section grow
variable {P : Ledger → Prop}

theorem sending_grows {c : Call} (deed : ∀ x l, x.DeedOf c → P l → P (x :: l)) (d : Desk)
    (text : String) (onResult : OnResult Reaction) (onConsole : Option (OnConsole Reaction))
    {l : Ledger} (hl : P l) : P (l.sending (some c) d text onResult onConsole) := by
  have sent := l.sends (some c) d text onResult onConsole
  generalize d.send text onResult onConsole = sending,
    l.sending (some c) d text onResult onConsole = k at sent ⊢
  cases sent with
  | refused _ => exact hl
  | went _ _ _ => exact deed _ l (.sent _ _ _ _) hl
  | failed _ _ _ _ => exact deed _ l (.failed _ _) hl

theorem performing_grows {c : Call} (deed : ∀ x l, x.DeedOf c → P l → P (x :: l)) (r : Reaction)
    (d : Desk) {l : Ledger} (hl : P l) : P (l.performing c r d) := by
  induction r, d using Desk.perform_induction generalizing l with
  | done d => exact hl
  | send text onResult onConsole next d ih =>
    exact ih (sending_grows deed d text onResult onConsole hl)
  | forget token next d ih => exact ih (deed _ l (.forgot token) hl)
  | stop next d ih => exact ih hl
  | look next d ih => exact ih hl

theorem acting_grows {c : Call} (deed : ∀ x l, x.DeedOf c → P l → P (x :: l)) (d : Desk)
    {l : Ledger} (called : P (.called c :: l)) : P (l.acting d c) := by
  cases c with
  | resume => exact sending_grows deed d _ _ _ called
  | result _ _ _ | stop _ _ _ | console _ _ _ | announce _ _ | present _ _ =>
    exact performing_grows deed _ d called

/-- Whoever is called, what he does is entered after that he was called. -/
theorem callingAll_grows {cs : List Call} (called : ∀ c ∈ cs, ∀ l, P l → P (.called c :: l))
    (deed : ∀ c ∈ cs, ∀ x l, x.DeedOf c → P l → P (x :: l)) (t : Tracker) {l : Ledger}
    (hl : P l) : P (l.callingAll t cs) := by
  induction cs generalizing t l with
  | nil => exact hl
  | cons c cs ih =>
    exact ih (fun c hc => called c (List.mem_cons_of_mem _ hc))
      (fun c hc => deed c (List.mem_cons_of_mem _ hc)) (t.call c)
      (acting_grows (deed c List.mem_cons_self) _ (called c List.mem_cons_self l hl))

end grow

theorem calls_deed {c : Call} {x : Entry} (deed : x.DeedOf c) (l : Ledger) :
    calls (x :: l) = l.calls := by
  cases deed <;> rfl

theorem gather_deed {α : Type} (f : Ledger → Message → List α) {c : Call} {x : Entry}
    (deed : x.DeedOf c) (l : Ledger) : gather f (x :: l) = l.gather f := by
  cases deed <;> rfl

theorem calls_callingAll (t : Tracker) (l : Ledger) (cs : List Call) :
    (l.callingAll t cs).calls = l.calls ++ cs := by
  induction cs generalizing t l with
  | nil => exact (List.append_nil _).symm
  | cons c cs ih =>
    have first : (l.calling t c).calls = l.calls ++ [c] :=
      acting_grows (P := fun k => k.calls = l.calls ++ [c])
        (fun _ k deed same => (k.calls_deed deed).trans same) (t.reach c).desk rfl
    rw [callingAll, ih, first, List.append_assoc, List.singleton_append]

section gather
variable {α β : Type} {f g : Ledger → Message → List α}

theorem gather_congr {l : Ledger}
    (same : ∀ {before m}, .received m :: before <:+ l → f before m = g before m) :
    l.gather f = l.gather g := by
  induction l with
  | nil => rfl
  | cons x l ih =>
    have rest : gather f l = gather g l := ih fun h => same (h.trans (List.suffix_cons x l))
    cases x with
    | received m => rw [gather, gather, rest, same List.suffix_rfl]
    | _ => exact rest

theorem map_gather (h : α → β) (l : Ledger) :
    (l.gather f).map h = l.gather fun before m => (f before m).map h := by
  induction l with
  | nil => rfl
  | cons x l ih =>
    cases x with
    | received m => rw [gather, gather, List.map_append, ih]
    | _ => exact ih

theorem filter_gather (p : α → Bool) (l : Ledger) :
    (l.gather f).filter p = l.gather fun before m => (f before m).filter p := by
  induction l with
  | nil => rfl
  | cons x l ih =>
    cases x with
    | received m => rw [gather, gather, List.filter_append, ih]
    | _ => exact ih

/-- What the records bring, one of them brings. -/
theorem exists_of_mem_gather {x : α} {l : Ledger} (hx : x ∈ l.gather f) :
    ∃ before m, before <:+ l ∧ x ∈ f before m := by
  induction l with
  | nil => cases hx
  | cons y l ih =>
    have later : x ∈ gather f l → ∃ before m, before <:+ y :: l ∧ x ∈ f before m := by
      intro hx
      obtain ⟨before, m, part, brought⟩ := ih hx
      exact ⟨before, m, part.trans (List.suffix_cons y l), brought⟩
    cases y with
    | received m =>
      rcases List.mem_append.mp hx with hx | hx
      · exact later hx
      · exact ⟨l, m, List.suffix_cons _ l, hx⟩
    | _ => exact later hx

end gather

/-- For a record those are called whom it concerns, and nobody else. -/
theorem calls_taking (t : Tracker) (l : Ledger) (m : Message) :
    (l.taking t m).calls = l.calls ++ t.callsOn m :=
  calls_callingAll (t.settle m) (.received m :: l) (t.callsOn m)

theorem gather_taking {α : Type} (f : Ledger → Message → List α) (t : Tracker) (l : Ledger)
    (m : Message) : (l.taking t m).gather f = l.gather f ++ f l m :=
  callingAll_grows (P := fun k => k.gather f = l.gather f ++ f l m) (fun _ _ _ same => same)
    (fun _ _ _ k deed same => (k.gather_deed f deed).trans same) (t.settle m) rfl

/-- The entries that a record brings come after those that were made before, and nobody who is
called for it can silence a command. -/
theorem exists_news_taking (t : Tracker) (l : Ledger) (m : Message) :
    ∃ news, l.taking t m = news ++ .received m :: l ∧ ∀ token, .silenced token ∉ news := by
  refine callingAll_grows
    (P := fun k => ∃ news, k = news ++ .received m :: l ∧ ∀ token, .silenced token ∉ news)
    ?_ ?_ (t.settle m) ⟨[], rfl, fun _ => List.not_mem_nil⟩
  · rintro c _ _ ⟨news, rfl, unsilenced⟩
    exact ⟨.called c :: news, rfl, fun token => by simp [unsilenced token]⟩
  · rintro c _ x _ deed ⟨news, rfl, unsilenced⟩
    refine ⟨x :: news, rfl, fun token hm => ?_⟩
    rcases List.mem_cons.mp hm with rfl | hm
    · cases deed
    · exact unsilenced token hm

end Ledger

/-! ### The history of a run -/

namespace Ledger

theorem history_sending (l : Ledger) (sender : Option Call) (d : Desk) (text : String)
    (onResult : OnResult Reaction) (onConsole : Option (OnConsole Reaction)) :
    (l.sending sender d text onResult onConsole).history =
      l.history.sending d text onResult onConsole := by
  unfold sending History.sending
  cases (d.send text onResult onConsole).1 with
  | ok token => rfl
  | error e => cases d.closed <;> rfl

theorem history_performing (c : Call) (r : Reaction) (d : Desk) (l : Ledger) :
    (l.performing c r d).history = l.history.performing r d := by
  induction r, d using Desk.perform_induction generalizing l with
  | done d => rfl
  | send text onResult onConsole next d ih =>
    have sent := history_sending l (some c) d text onResult onConsole
    exact (ih _).trans (congrArg _ sent)
  | forget token next d ih => exact ih (.forgot token :: l)
  | stop next d ih => exact ih l
  | look next d ih => exact ih l

theorem history_calling (t : Tracker) (l : Ledger) (c : Call) :
    (l.calling t c).history = l.history.calling t c := by
  cases c with
  | resume => exact history_sending _ _ _ _ _ _
  | result _ _ _ | stop _ _ _ | console _ _ _ | announce _ _ | present _ _ =>
    exact history_performing _ _ _ _

theorem history_callingAll (t : Tracker) (l : Ledger) (cs : List Call) :
    (l.callingAll t cs).history = l.history.callingAll t cs := by
  induction cs generalizing t l with
  | nil => rfl
  | cons c cs ih => rw [callingAll, History.callingAll, ih, history_calling]

theorem history_takingLine (t : Tracker) (l : Ledger) (line : String) :
    (l.takingLine t line).history = l.history.takingLine t line := by
  unfold takingLine History.takingLine
  cases accepted? line with
  | none => rfl
  | some m => exact history_callingAll (t.settle m) (.received m :: l) (t.callsOn m)

theorem history_stepping {c : Chronicle} {l : Ledger} (same : l.history = c.history)
    (move : Move) : (l.stepping c.session move).history = (c.step move).history := by
  cases move with
  | takeLine =>
    unfold stepping Chronicle.step
    cases c.session.lines.next with
    | mk line rest =>
      cases line with
      | some line =>
        have taken := history_takingLine c.tracker l line
        rw [same] at taken
        exact taken
      | none => exact same
  | fill =>
    unfold stepping
    dsimp only
    split
    · exact same
    · exact same
  | send text onResult onConsole =>
    have sent := l.history_sending none c.session.desk text onResult onConsole
    rw [same] at sent
    exact sent
  | forget token => exact congrArg (.forgot token :: ·) same
  | takeStop _ | farEnd _ | attach | clearOnConsole _ | requestStop | onChange _ | onRecord _ _ =>
    exact same

end Ledger

theorem Chronicle.history_ledger {c : Chronicle} {l : Ledger} (same : l.history = c.history)
    (moves : List Move) : (c.ledger l moves).history = (c.run moves).history := by
  induction moves generalizing c l with
  | nil => exact same
  | cons move moves ih => exact ih (Ledger.history_stepping same move)

/-- A ledger enters what its run has for a history. -/
theorem Session.history_ledger (source : Source) (sink : Sink) (settings : Settings)
    (moves : List Move) :
    (Session.ledger source sink settings moves).history =
      (Session.chronicle source sink settings moves).history :=
  Chronicle.history_ledger (c := { session := .connect source sink settings }) rfl moves

/-! ### Handlers in their places -/

theorem Tabled.numbered {t : Tracker} {h : History} (tabled : Tabled t h) : t.desk.Numbered := by
  intro token there
  by_cases old : token ∈ h.given
  · exact Token.number_le_of_mem_first (tabled.given ▸ old)
  · rw [contains_eq_isSome tabled, History.standing?_of_ungiven old] at there
    cases there

namespace Ledger

/-- Somebody is called, and every handler stays in its place. -/
def visiting (t : Tracker) (l : Ledger) (c : Call) : Ledger := acting (t.noted c).desk l c

def visitingAll : Tracker → Ledger → List Call → Ledger
  | _, l, [] => l
  | t, l, c :: cs => visitingAll (t.visit c) (visiting t l c) cs

theorem callingAll_append (t : Tracker) (l : Ledger) (cs ds : List Call) :
    l.callingAll t (cs ++ ds) = (l.callingAll t cs).callingAll (t.callAll cs) ds := by
  induction cs generalizing t l with
  | nil => rfl
  | cons c cs ih => exact ih (t.call c) (l.calling t c)

theorem visitingAll_append (t : Tracker) (l : Ledger) (cs ds : List Call) :
    l.visitingAll t (cs ++ ds) = (l.visitingAll t cs).visitingAll (t.visitAll cs) ds := by
  induction cs generalizing t l with
  | nil => rfl
  | cons c cs ih => exact ih (t.visit c) (l.visiting t c)

section revise
variable {d : Desk} {k : Token} (f : Command → Command)

theorem sending_revise (old : k.number ≤ d.issued) (l : Ledger) (sender : Option Call)
    {text : String} {onResult : OnResult Reaction} {onConsole : Option (OnConsole Reaction)}
    (few : (d.send text onResult onConsole).2.issued < UInt64.size) :
    l.sending sender (d.revise k f) text onResult onConsole =
      l.sending sender d text onResult onConsole := by
  unfold sending
  rw [Desk.send_revise f old few]
  rfl

/-- Somebody does the same, whatever is changed of the handlers of a command that was sent
before. -/
theorem performing_revise (unseen : ∀ token c, (f c).info token = c.info token) (c : Call)
    (r : Reaction) (old : k.number ≤ d.issued)
    (few : (Desk.perform r d).issued < UInt64.size) (l : Ledger) :
    l.performing c r (d.revise k f) = l.performing c r d := by
  induction r, d using Desk.perform_induction generalizing l with
  | done d => rfl
  | send text onResult onConsole next d ih =>
    have later := d.issued_le_send text onResult onConsole
    have less : (d.send text onResult onConsole).2.issued < UInt64.size :=
      Nat.lt_of_le_of_lt (Desk.doings_perform _ (Desk.log _ _)).moves.issued_le few
    rw [performing, performing, sending_revise f old l (some c) less, Desk.send_revise f old less]
    exact ih (Nat.le_trans old later) few _
  | forget token next d ih =>
    rw [performing, performing, Desk.forget_revise]
    exact ih old few _
  | stop next d ih => exact ih old few l
  | look next d ih =>
    rw [performing, performing, Desk.view_revise f unseen]
    exact ih old few l

end revise

theorem callingAll_eq_visitingAll {cs : List Call} (plain : ∀ c ∈ cs, c.isOfCommand = false)
    (t : Tracker) (l : Ledger) : l.callingAll t cs = l.visitingAll t cs := by
  induction cs generalizing t l with
  | nil => rfl
  | cons c cs ih =>
    have first : t.call c = t.visit c ∧ t.reach c = t.noted c := by
      cases c with
      | result _ _ _ | console _ _ _ => cases plain _ List.mem_cons_self
      | resume | stop _ _ _ | announce _ _ | present _ _ => exact ⟨rfl, rfl⟩
    rw [callingAll, visitingAll, calling, visiting, first.1, first.2]
    exact ih (fun d hd => plain d (List.mem_cons_of_mem _ hd)) _ _

/-- Those who are called do the same whether the handler among them is in its place or not. -/
theorem callingAll_hands {t u : Tracker} {m : Message} {cs : List Call} (hands : t.Hands m cs u)
    (numbered : t.desk.Numbered) (few : ((t.settle m).callAll cs).desk.issued < UInt64.size)
    (l : Ledger) : l.callingAll (t.settle m) cs = l.visitingAll u cs := by
  cases hands with
  | @result token command react there its =>
    obtain ⟨_, _, _, _, _, settled⟩ := t.settle_eq m
    have old : token.number ≤ (t.settle m).desk.issued := by
      rw [settled]
      exact numbered.number_le there
    exact (performing_revise (d := (t.settle m).desk.log (.result token m.record)) _
      (Command.info_restoreOnResult _) _ (react token m.record) old few _).symm
  | @console token command handler there its unmoved =>
    have old : token.number ≤ t.desk.issued := numbered.number_le there
    rw [unmoved] at few ⊢
    cases handler with
    | call react =>
      have called := Tracker.call_console old there its few
      exact performing_revise (d := t.desk.log (.console token m.record))
        (fun c => { c with onConsole := none }) (fun _ _ => rfl) _ (react token m.record) old
        (congrArg (·.desk.issued) called ▸ few) _
    | collect => rfl
  | others plain => exact callingAll_eq_visitingAll plain _ l

/-- As long as tokens last, the same is entered if every handler stays in its place. -/
theorem taking_eq_visitingAll {t : Tracker} (numbered : t.desk.Numbered) {m : Message}
    (few : ((t.settle m).callAll (t.callsOn m)).desk.issued < UInt64.size) (l : Ledger) :
    l.taking t m = visitingAll (t.settleInPlace m) (.received m :: l) (t.callsOn m) := by
  have plain : ∀ c ∈ t.changeCalls (t.change? m) ++ t.subscriberCalls m,
      c.isOfCommand = false := fun _ => Tracker.isOfCommand_of_subscribed
  unfold taking
  rw [Tracker.callsOn, List.append_assoc] at few ⊢
  rw [Tracker.callAll_append] at few
  have before := Nat.lt_of_le_of_lt (Tracker.moves_callAll _ _).issued_le few
  rw [callingAll_append, visitingAll_append, callingAll_hands (t.hands m) numbered before,
    (t.hands m).callAll_eq numbered before, callingAll_eq_visitingAll plain]

end Ledger

end DebugLink
