import DebugLink.Proofs.Session.Ledger

/-! What holds of every ledger. Statements about who is called in a run, and about what comes of it,
relate the tracker to the ledger of the run. `Recorded` is what such a relation has to withstand in
a run. If it has nothing to do with the past, the calls for a record are one with everything else
that is done at the desk; then `Booked` is enough for a relation to which the handlers of commands
are nothing, and `Placed` for one that has to do with them. The latter holds as long as tokens last,
since a command that is given the token of another one gets its handlers, too. -/

namespace DebugLink

/-! ### What every step keeps -/

/-- Filling the buffer leaves the tracker alone, unless it ends the connection. -/
theorem Session.tracker_fill (s : Session) :
    s.fill.2.tracker = s.tracker ∨
      s.isClosed = false ∧ ∃ t, Tracker.Agrees Event.isCall s.tracker t ∧
        s.fill.2.tracker = { t with desk := { t.desk with closed := true } } := by
  unfold fill
  split
  · exact .inl rfl
  · rename_i opened
    have opened : s.isClosed = false := by simpa using opened
    split
    · exact .inr ⟨opened, _, (s.tracker.agrees_notice _).symm, rfl⟩
    · exact .inl rfl
    · split
      · exact .inr ⟨opened, _, (s.tracker.agrees_notice _).symm, rfl⟩
      · exact .inl rfl
      · exact .inr ⟨opened, s.tracker, .refl _, rfl⟩
      · exact .inl rfl

/-- Whatever is done at the desk, the relation between tracker and ledger is kept. -/
structure AtDesk (I : Tracker → Ledger → Prop) : Prop where
  quiet {t u : Tracker} {l : Ledger} : Tracker.Agrees Event.isCall t u → I t l → I u l
  close {t : Tracker} {l : Ledger} :
    I t l → I { t with desk := { t.desk with closed := true } } (.closed :: l)
  subscribe {t : Tracker} {l : Ledger} (changeSubscribers : List ChangeSubscriber)
    (recordSubscribers : List RecordSubscriber) :
    I t l → I { t with changeSubscribers, recordSubscribers } l
  silence {t : Tracker} {l : Ledger} (token : Token) :
    I t l → I { t with desk := t.desk.clearOnConsole token } (.silenced token :: l)
  send {t : Tracker} {l : Ledger} (text : String) (onResult : OnResult Reaction)
    (onConsole : Option (OnConsole Reaction)) :
    I t l → I { t with desk := (t.desk.send text onResult onConsole).2 }
      (l.sending none t.desk text onResult onConsole)
  forget {t : Tracker} {l : Ledger} (token : Token) :
    I t l → I { t with desk := (t.desk.forget token).2 } (.forgot token :: l)

/-- And whatever record is received, it is kept. -/
structure Recorded (I : Tracker → Ledger → Prop) : Prop extends AtDesk I where
  take {t : Tracker} {l : Ledger} (m : Message) : I t l → I (t.take m) (l.taking t m)

namespace Recorded

variable {I : Tracker → Ledger → Prop} (recorded : Recorded I)
include recorded

theorem notice {t : Tracker} {l : Ledger} (n : Notice) (ht : I t l) : I (t.notice n) l :=
  recorded.quiet (t.agrees_notice n).symm ht

theorem takeLine {t : Tracker} {l : Ledger} (line : String) (ht : I t l) :
    I (t.takeLine line).2 (l.takingLine t line) := by
  unfold Tracker.takeLine Ledger.takingLine accepted?
  split
  · exact ht
  · split
    · rename_i flaw hm
      rw [hm]
      exact recorded.notice _ ht
    · rename_i m hm
      rw [hm]
      exact recorded.take m ht

theorem fill {s : Session} {l : Ledger} (hs : I s.tracker l) :
    I s.fill.2.tracker (l.stepping s .fill) := by
  unfold Ledger.stepping
  obtain same | ⟨opened, t, agrees, ended⟩ := s.tracker_fill
  · have still : s.fill.2.isClosed = s.isClosed := congrArg (·.desk.closed) same
    rw [same, still, Bool.and_not_self, if_neg (by decide)]
    exact hs
  · have closed : s.fill.2.isClosed = true := congrArg (·.desk.closed) ended
    rw [ended, closed, opened, Bool.not_false, Bool.and_true, if_pos rfl]
    exact recorded.close (recorded.quiet agrees hs)

theorem takeStop {s : Session} {l : Ledger} (target : Option Token) (hs : I s.tracker l) :
    I (s.takeStop target).tracker l := by
  have unasked : Tracker.Agrees Event.isCall s.tracker
      { s.tracker with desk := { s.tracker.desk with stopRequested := false } } := ⟨rfl, rfl⟩
  exact recorded.notice _ (recorded.quiet unasked hs)

theorem step {c : Chronicle} {l : Ledger} (hc : I c.tracker l) (move : Move) :
    I (c.step move).tracker (l.stepping c.session move) := by
  cases move with
  | takeLine =>
    unfold Chronicle.step Ledger.stepping
    cases c.session.lines.next with
    | mk line rest =>
      cases line with
      | some line => exact recorded.takeLine line hc
      | none => exact hc
  | fill => exact recorded.fill hc
  | takeStop target => exact recorded.takeStop target hc
  | farEnd source => exact hc
  | attach => exact hc
  | send text onResult onConsole => exact recorded.send text onResult onConsole hc
  | forget token => exact recorded.forget token hc
  | clearOnConsole token => exact recorded.silence token hc
  | requestStop =>
    have asked : Tracker.Agrees Event.isCall c.tracker
        { c.tracker with desk := c.tracker.desk.requestStop } := ⟨rfl, rfl⟩
    exact recorded.quiet asked hc
  | onChange react => exact recorded.subscribe _ _ hc
  | onRecord kind react => exact recorded.subscribe _ _ hc

theorem run {c : Chronicle} {l : Ledger} (hc : I c.tracker l) (moves : List Move) :
    I (c.run moves).tracker (c.ledger l moves) := by
  induction moves generalizing c l with
  | nil => exact hc
  | cons move moves ih => exact ih (recorded.step hc move)

/-- What holds at the beginning holds in every run. -/
theorem chronicle {source : Source} {sink : Sink} {settings : Settings}
    (start : I (Session.connect source sink settings).tracker []) (moves : List Move) :
    I (Session.chronicle source sink settings moves).tracker
      (Session.ledger source sink settings moves) :=
  recorded.run (c := { session := .connect source sink settings }) start moves

end Recorded

/-! ### As long as tokens last -/

/-- The relation need not hold once more tokens were given out than there are. -/
def WhileTokensLast (I : Tracker → Ledger → Prop) (t : Tracker) (l : Ledger) : Prop :=
  t.desk.issued < UInt64.size → I t l

theorem Tracker.issued_le_take (t : Tracker) (m : Message) :
    t.desk.issued ≤ (t.take m).desk.issued := (t.doings_take m).moves.issued_le

/-- For a record it can be assumed then that tokens last until it is taken. -/
theorem AtDesk.recorded {I : Tracker → Ledger → Prop} (atDesk : AtDesk I)
    (take : ∀ {t l} m, I t l → (t.take m).desk.issued < UInt64.size → I (t.take m) (l.taking t m)) :
    Recorded (WhileTokensLast I) where
  quiet {t u _} agrees ht few := by
    have issued : t.desk.issued = u.desk.issued := congrArg (·.desk.issued) agrees.fresh
    exact atDesk.quiet agrees (ht (issued ▸ few))
  close ht few := atDesk.close (ht few)
  subscribe changes records ht few := atDesk.subscribe changes records (ht few)
  silence token ht few := atDesk.silence token (ht few)
  send {t _} text onResult onConsole ht few :=
    atDesk.send text onResult onConsole
      (ht (Nat.lt_of_le_of_lt (t.desk.issued_le_send text onResult onConsole) few))
  forget token ht few := atDesk.forget token (ht few)
  take {t _} m ht few := take m (ht (Nat.lt_of_le_of_lt (t.issued_le_take m) few)) few

/-! ### What has nothing to do with the past -/

/-- A relation that has nothing to do with the past, nor with what handlers have gone through, and
takes no notice of who is called. -/
structure Written (I : Tracker → Ledger → Prop) : Prop where
  bare {t u : Tracker} {l : Ledger} : t.bare = u.bare → I t l → I u l
  close {t : Tracker} {l : Ledger} :
    I t l → I { t with desk := { t.desk with closed := true } } (.closed :: l)
  subscribe {t : Tracker} {l : Ledger} (changeSubscribers : List ChangeSubscriber)
    (recordSubscribers : List RecordSubscriber) :
    I t l → I { t with changeSubscribers, recordSubscribers } l
  called {t : Tracker} {l : Ledger} (c : Call) : I t l → I t (.called c :: l)
  silence {t : Tracker} {l : Ledger} (token : Token) :
    I t l → I { t with desk := t.desk.clearOnConsole token } (.silenced token :: l)
  send {t : Tracker} {l : Ledger} (sender : Option Call) (text : String)
    (onResult : OnResult Reaction) (onConsole : Option (OnConsole Reaction)) :
    I t l → I { t with desk := (t.desk.send text onResult onConsole).2 }
      (l.sending sender t.desk text onResult onConsole)
  forget {t : Tracker} {l : Ledger} (token : Token) :
    I t l → I { t with desk := (t.desk.forget token).2 } (.forgot token :: l)

namespace Written

variable {I : Tracker → Ledger → Prop} (written : Written I)
include written

theorem fresh {t u : Tracker} {l : Ledger} (same : t.fresh = u.fresh) (ht : I t l) : I u l :=
  written.bare (Tracker.bare_of_fresh same) ht

theorem log {t : Tracker} {l : Ledger} (e : Event) (ht : I t l) : I (t.log e) l :=
  written.bare (t.bare_log e).symm ht

theorem atDesk : AtDesk I where
  quiet agrees := written.fresh agrees.fresh
  close := written.close
  subscribe := written.subscribe
  silence := written.silence
  send := written.send none
  forget := written.forget

theorem perform (c : Call) (r : Reaction) {t : Tracker} {l : Ledger} (ht : I t l) :
    I (t.perform r) (l.performing c r t.desk) := by
  generalize hd : t.desk = d
  have performed : I { t with desk := Desk.perform r d } (l.performing c r d) := by
    replace ht : I { t with desk := d } l := by
      rw [← hd]
      exact ht
    clear hd
    -- Each step goes on from the desk, and the ledger, that the one before left.
    induction r, d using Desk.perform_induction generalizing l with
    | done d => exact ht
    | send text onResult onConsole next d ih =>
      exact ih (written.log _ (written.send (some c) text onResult onConsole ht))
    | forget token next d ih => exact ih (written.log _ (written.forget token ht))
    | stop next d ih =>
      have asked : I { t with desk := d.requestStop } l :=
        written.bare (t := { t with desk := d }) rfl ht
      exact ih (written.log _ asked)
    | look next d ih => exact ih (written.log _ ht)
  rw [Tracker.perform, hd]
  exact performed

theorem act (c : Call) {t : Tracker} {l : Ledger} (ht : I t l) :
    I (t.act c) (l.acting t.desk c) := by
  have called := written.called c ht
  cases c with
  | resume => exact written.send _ _ _ _ called
  | result _ _ _ | stop _ _ _ | console _ _ _ | announce _ _ | present _ _ =>
    exact written.perform _ _ called

end Written

/-- To the relation the handlers of commands are nothing. Of a record it need only withstand the
settling. -/
structure Booked (I : Tracker → Ledger → Prop) : Prop extends Written I where
  revise {t : Tracker} {l : Ledger} (token : Token) (f : Command → Command) :
    I t l → I { t with desk := t.desk.revise token f } l
  settle {t : Tracker} {l : Ledger} (m : Message) : I t l → I (t.settle m) (.received m :: l)

namespace Booked

variable {I : Tracker → Ledger → Prop} (booked : Booked I)
include booked

theorem call (c : Call) {t : Tracker} {l : Ledger} (ht : I t l) :
    I (t.call c) (l.calling t c) := by
  have reached : I (t.reach c) l := by
    cases c with
    | resume => exact ht
    | console token record handler =>
      have cleared := booked.revise token (fun c => { c with onConsole := none }) ht
      cases handler <;> exact booked.log _ cleared
    | result _ _ _ | stop _ _ _ | announce _ _ | present _ _ => exact booked.log _ ht
  have acted := booked.act c reached
  cases c with
  | result token _ _ | console token _ _ => exact booked.revise token _ acted
  | resume | stop _ _ _ | announce _ _ | present _ _ => exact acted

theorem callAll (cs : List Call) {t : Tracker} {l : Ledger} (ht : I t l) :
    I (t.callAll cs) (l.callingAll t cs) := by
  induction cs generalizing t l with
  | nil => exact ht
  | cons c cs ih => exact ih (booked.call c ht)

/-- Such a relation withstands the calls as well. -/
theorem recorded : Recorded I where
  toAtDesk := booked.atDesk
  take {t _} m ht :=
    booked.fresh (t.agrees_take m).fresh.symm (booked.callAll (t.callsOn m) (booked.settle m ht))

end Booked

/-- The relation has to do with the handlers of commands, and by it tokens in view were given out.
Of a record it need only withstand the settling in place. -/
structure Placed (I : Tracker → Ledger → Prop) : Prop extends Written I where
  numbered {t : Tracker} {l : Ledger} : I t l → t.desk.Numbered
  settle {t : Tracker} {l : Ledger} (m : Message) :
    I t l → I (t.settleInPlace m) (.received m :: l)

namespace Placed

variable {I : Tracker → Ledger → Prop} (placed : Placed I)
include placed

theorem visit (c : Call) {t : Tracker} {l : Ledger} (ht : I t l) :
    I (t.visit c) (l.visiting t c) := by
  have noted : I (t.noted c) l := by
    unfold Tracker.noted
    cases c.event? with
    | none => exact ht
    | some e => exact placed.log e ht
  exact placed.act c noted

theorem visitAll (cs : List Call) {t : Tracker} {l : Ledger} (ht : I t l) :
    I (t.visitAll cs) (l.visitingAll t cs) := by
  induction cs generalizing t l with
  | nil => exact ht
  | cons c cs ih => exact ih (placed.visit c ht)

theorem take (m : Message) {t : Tracker} {l : Ledger} (ht : I t l)
    (few : (t.take m).desk.issued < UInt64.size) : I (t.take m) (l.taking t m) := by
  have issued : (t.take m).desk.issued = ((t.settle m).callAll (t.callsOn m)).desk.issued :=
    congrArg (·.desk.issued) (t.agrees_take m).fresh
  rw [Ledger.taking_eq_visitingAll (placed.numbered ht) (issued ▸ few)]
  exact placed.fresh (Tracker.agrees_take_in_place (placed.numbered ht) few).fresh.symm
    (placed.visitAll (t.callsOn m) (placed.settle m ht))

/-- Such a relation withstands the calls as well, as long as tokens last. -/
theorem recorded : Recorded (WhileTokensLast I) := placed.atDesk.recorded fun m => placed.take m

end Placed

/-! ### Who is called in a run -/

/-- Of those who are called the ones that count are the ones whom the records bring, by what was
entered before them; and all who are called show in the journal. -/
structure Announced {α : Type} (I : Tracker → Ledger → Prop) (counts : Call → Option α)
    (brings : Ledger → Message → List α) (t : Tracker) (l : Ledger) : Prop where
  base : I t l
  events : t.callEvents = l.calls.filterMap Call.event?
  calls : l.calls.filterMap counts = l.gather brings

section Announced
variable {α : Type} {I : Tracker → Ledger → Prop} {counts : Call → Option α}
  {brings : Ledger → Message → List α}

theorem Announced.sending {t : Tracker} {l : Ledger}
    (announced : Announced I counts brings t l) (sender : Option Call) (d : Desk) (text : String)
    (onResult : OnResult Reaction) (onConsole : Option (OnConsole Reaction)) :
    (l.sending sender d text onResult onConsole).calls = l.calls ∧
      (l.sending sender d text onResult onConsole).calls.filterMap counts =
        (l.sending sender d text onResult onConsole).gather brings := by
  have sent := l.sends sender d text onResult onConsole
  generalize d.send text onResult onConsole = outcome,
    l.sending sender d text onResult onConsole = k at sent ⊢
  cases sent <;> exact ⟨rfl, announced.calls⟩

/-- Whoever was called was called for a record, by what had happened before it. -/
theorem Announced.exists_brings {t : Tracker} {l : Ledger} {c : Call} {x : α}
    (announced : Announced I counts brings t l) (called : c ∈ l.calls) (its : counts c = some x) :
    ∃ before m, before <:+ l ∧ x ∈ brings before m := by
  have counted : x ∈ l.calls.filterMap counts := List.mem_filterMap.mpr ⟨c, called, its⟩
  rw [announced.calls] at counted
  exact Ledger.exists_of_mem_gather counted

/-- If it is so for one record whatever came before, it is so for all the records of a run. -/
theorem Placed.announced (placed : Placed I)
    (one : ∀ {t l}, I t l → t.desk.issued < UInt64.size → ∀ m,
      (t.callsOn m).filterMap counts = brings l m) :
    Recorded (WhileTokensLast (Announced I counts brings)) := by
  refine AtDesk.recorded ?_ ?_
  · constructor
    case quiet =>
      exact fun agrees announced => ⟨placed.fresh agrees.fresh announced.base,
        agrees.events.symm.trans announced.events, announced.calls⟩
    case close =>
      exact fun announced => ⟨placed.close announced.base, announced.events, announced.calls⟩
    case subscribe =>
      exact fun changes records announced =>
        ⟨placed.subscribe changes records announced.base, announced.events, announced.calls⟩
    case silence =>
      exact fun token announced =>
        ⟨placed.silence token announced.base, announced.events, announced.calls⟩
    case forget =>
      exact fun token announced =>
        ⟨placed.forget token announced.base, announced.events, announced.calls⟩
    case send =>
      intro t l text onResult onConsole announced
      obtain ⟨same, calls⟩ := announced.sending none t.desk text onResult onConsole
      refine ⟨placed.send none text onResult onConsole announced.base, ?_, calls⟩
      rw [same, ← announced.events]
      exact t.desk.callEvents_send text onResult onConsole
  · intro t l m announced few
    have before := Nat.lt_of_le_of_lt (t.issued_le_take m) few
    refine ⟨placed.take m announced.base few, ?_, ?_⟩
    · rw [t.callEvents_take, Ledger.calls_taking, List.filterMap_append, announced.events]
    · rw [Ledger.calls_taking, Ledger.gather_taking, List.filterMap_append, announced.calls,
        one announced.base before]

end Announced

end DebugLink
