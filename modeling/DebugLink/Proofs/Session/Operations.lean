import DebugLink.Proofs.Session.Moves
import DebugLink.Proofs.Session.Reading

/-! What can be asked of a session, as one type of operations. Each of them is made of the steps of
reading and waiting and of a few doings at the desk, so a property of sessions that withstands these
(`Enduring`) withstands every operation, apart from what happens at the far end. -/

namespace DebugLink

/-- What can be asked of a session. -/
inductive Operation where
  | send (text : String) (onResult : OnResult Reaction) (onConsole : Option (OnConsole Reaction))
  | addBreakpoint (location : String) (handler : Option (StopHandler Reaction))
  | insertBreakpoint (location : String) (onResult : OnResult Reaction)
  | resume (onResult : OnResult Reaction)
  | run (onResult : OnResult Reaction)
  | finish (value : Option String) (onResult : OnResult Reaction)
  | interrupt (onResult : OnResult Reaction)
  | request (r : Request) (onResult : OnResult Reaction)
  | start
  | useTerminal (path : String)
  | ask (query : String)
  | forget (token : Token)
  | requestStop
  | onChange (react : Change → Reaction)
  | onRecord (kind : Kind) (react : Message → Reaction)
  | read
  | readAtMost (limit : Nat)
  | poll (target : Option Token)
  | waitFor (target : Option Token)
  | waitForAtMost (target : Option Token) (milliseconds : Nat)
  | farEnd (source : Source)

def Session.act (s : Session) : Operation → Session
  | .send text onResult onConsole => (s.atDesk (·.send text onResult onConsole)).2
  | .addBreakpoint location handler => (s.atDesk (·.addBreakpoint location handler)).2
  | .insertBreakpoint location onResult => (s.atDesk (·.insertBreakpoint location onResult)).2
  | .resume onResult => (s.atDesk (·.resume onResult)).2
  | .run onResult => (s.atDesk (·.run onResult)).2
  | .finish value onResult => (s.atDesk (·.finish value onResult)).2
  | .interrupt onResult => (s.atDesk (·.interrupt onResult)).2
  | .request r onResult => (s.atDesk (·.request r onResult)).2
  | .start => s.start.2
  | .useTerminal path => (s.useTerminal path).2
  | .ask query => (s.ask query).2
  | .forget token => (s.atDesk (·.forget token)).2
  | .requestStop => s.withDesk s.desk.requestStop
  | .onChange react => { s with tracker := (s.tracker.onChange react).2 }
  | .onRecord kind react => { s with tracker := (s.tracker.onRecord kind react).2 }
  | .read => s.read.2
  | .readAtMost limit => (s.readAtMost limit).2
  | .poll target => (s.poll target).2
  | .waitFor target => (s.waitFor target).2
  | .waitForAtMost target milliseconds => (s.waitForAtMost target milliseconds).2
  | .farEnd source => { s with source }

/-- The operation is the session's own and nothing that happens at the far end. -/
def Operation.isOwn : Operation → Bool
  | .farEnd _ => false
  | _ => true

namespace Session

/-- Neither a step of reading or waiting nor anything done at the desk changes that the property
holds. -/
structure Enduring (P : Session → Prop) : Prop extends Stable P where
  /-- A session is attached only when a command has just gone out. -/
  attach {s : Session} : P s → s.isClosed = false → P { s with attached := true }
  send {s : Session} (text : String) (onResult : OnResult Reaction)
    (onConsole : Option (OnConsole Reaction)) :
    P s → P (s.atDesk (·.send text onResult onConsole)).2
  forget {s : Session} (token : Token) : P s → P (s.atDesk (·.forget token)).2
  clearOnConsole {s : Session} (token : Token) :
    P s → P (s.withDesk (s.desk.clearOnConsole token))
  requestStop {s : Session} : P s → P (s.withDesk s.desk.requestStop)
  onChange {s : Session} (react : Change → Reaction) :
    P s → P { s with tracker := (s.tracker.onChange react).2 }
  onRecord {s : Session} (kind : Kind) (react : Message → Reaction) :
    P s → P { s with tracker := (s.tracker.onRecord kind react).2 }

/-- The end of an exchange takes the collector away, if it does anything. -/
theorem conclude_keeps {P : Session → Prop} {s : Session} (token : Token) (seen : Nat)
    (ended : WaitEnd) (held : P s) (cleared : P (s.withDesk (s.desk.clearOnConsole token))) :
    P (s.conclude token seen ended).2 := by
  cases ended with
  | blocked => exact held
  | found | stopped | closed | timedOut => exact cleared

/-- Nothing else is changed by it. -/
theorem conclude_unmoved (s : Session) (token : Token) (seen : Nat) (ended : WaitEnd) :
    (s.conclude token seen ended).2.desk.journal = s.desk.journal ∧
      (s.conclude token seen ended).2.desk.issued = s.desk.issued ∧
      (s.conclude token seen ended).2.lines = s.lines :=
  conclude_keeps (P := fun t => t.desk.journal = s.desk.journal ∧ t.desk.issued = s.desk.issued ∧
    t.lines = s.lines) token seen ended ⟨rfl, rfl, rfl⟩ ⟨rfl, rfl, rfl⟩

namespace Enduring

variable {P : Session → Prop} (h : Enduring P)
include h

theorem start {s : Session} (hs : P s) : P s.start.2 := by
  have sent := h.send ("-break-insert " ++ "main") .nothing none hs
  unfold Session.start Desk.insertBreakpoint Desk.sendPlain
  split
  · exact hs
  · split
    · rename_i outcome
      rw [outcome] at sent
      obtain ⟨sent', rfl⟩ := Prod.mk.inj outcome
      exact h.attach sent (Desk.opened_of_sent (Prod.ext sent' rfl))
    · rename_i outcome
      rw [outcome] at sent
      exact sent

theorem ask (query : String) {s : Session} (hs : P s) : P (s.ask query).2 := by
  have sent := h.send query .nothing (some .collect) hs
  unfold Session.ask
  split
  · rename_i outcome
    rw [outcome] at sent
    exact sent
  · rename_i token t outcome
    rw [outcome] at sent
    have waited := h.waitFor (some token) sent
    exact conclude_keeps token _ _ waited (h.clearOnConsole token waited)

/-- Such a property withstands every operation of the session's own. -/
theorem act (operation : Operation) (own : operation.isOwn = true) {s : Session} (hs : P s) :
    P (s.act operation) := by
  cases operation with
  | farEnd source => cases own
  | send text onResult onConsole => exact h.send text onResult onConsole hs
  | addBreakpoint _ _ | insertBreakpoint _ _ | resume _ | run _ | finish _ _ | interrupt _
  | request _ _ | useTerminal _ => exact h.send _ _ _ hs
  | start => exact h.start hs
  | ask query => exact h.ask query hs
  | forget token => exact h.forget token hs
  | requestStop => exact h.requestStop hs
  | onChange react => exact h.onChange react hs
  | onRecord kind react => exact h.onRecord kind react hs
  | read => exact h.read hs
  | readAtMost limit => exact h.readAtMost limit hs
  | poll target => exact h.poll target hs
  | waitFor target => exact h.waitFor target hs
  | waitForAtMost target milliseconds => exact h.waitForAtMost target milliseconds hs

end Enduring

end Session

end DebugLink
