import DebugLink.Proofs.Breakpoint
import DebugLink.Proofs.Session.Taking
import DebugLink.Proofs.ThreadGroup

/-! What a record says, apart from whom it is handed to. Settling a record moves its command on,
installs a handler, or changes the tables and the state of execution; nobody is called and nothing
is sent. The operations of a tracker are measured against this: up to their notices, and with the
calls left out, they settle. -/

namespace DebugLink

/-- The events in which somebody is called, or something is collected for somebody. -/
def Event.isCall : Event → Bool
  | .result .. | .console .. | .collected .. | .stop .. | .changed .. | .shown .. => true
  | _ => false

/-- Puts a value under a key, or leaves the key out where there is none. -/
def Dict.assign {κ α : Type} [Ord κ] [Std.TransOrd κ] (d : Dict κ α) (key : κ) :
    Option α → Dict κ α
  | some value => d.insert key value
  | none => d.erase key

/-! ### What records say -/

/-- The state that a record brings about for the command with a token. -/
def Message.outcome? (m : Message) (token : Token) : Option CommandState :=
  if m.record.kind = .result ∧ m.token = some token then CommandState.ofResult? m.record.what
  else none

theorem Message.outcome?_of_kind {m : Message} (h : m.record.kind ≠ .result) (token : Token) :
    m.outcome? token = none := if_neg fun both => h both.1

namespace Breakpoint

/-- A number before its first point, if it is one of 32 bits. -/
def major? (number : String) : Option UInt32 :=
  (Decimal.readUInt32 (String.ofList (number.toList.takeWhile (· != '.')))).toOption

theorem toOption_parentNumber (number : String) :
    (parentNumber number).toOption = major? number := by
  unfold parentNumber major? splitNumber
  cases Decimal.readUInt32 (String.ofList (number.toList.takeWhile (· != '.'))) <;> rfl

end Breakpoint

namespace Record

/-- The fields of the breakpoint that a record describes. -/
def breakpoint? (r : Record) : Option Fields := (r.get? "bkpt").bind Value.fields?

theorem breakpoint?_of_tuple {r : Record} {info : Fields} (h : r.get? "bkpt" = some (.tuple info)) :
    r.breakpoint? = some info := by
  rw [breakpoint?, h]
  rfl

theorem breakpoint?_of_not_tuple {r : Record}
    (h : ∀ info, r.get? "bkpt" = some (.tuple info) → False) : r.breakpoint? = none := by
  unfold breakpoint?
  cases hr : r.get? "bkpt" with
  | none => rfl
  | some v =>
    cases v with
    | tuple info => exact (h info hr).elim
    | const _ | list _ => rfl

/-- The breakpoint that a result says was inserted. -/
def inserted? (r : Record) : Option UInt32 :=
  (r.breakpoint?.bind (·.text? "number")).bind Breakpoint.major?

/-- The breakpoint at which a record says that the target has stopped. -/
def stoppedAt? (r : Record) : Option String :=
  if r.what = "stopped" then r.text? "bkptno" else none

end Record

/-- The news of a thread group that a notice brings, if it has all the texts for it. -/
def GroupNews.ofRecord? (r : Record) : Option GroupNews :=
  match r.what with
  | "thread-group-added" => do return .added (← r.text? "id")
  | "thread-group-started" => do return .started (← r.text? "id") (← r.text? "pid")
  | "thread-created" => do return .threadCreated (← r.text? "group-id") (← r.text? "id")
  | "library-loaded" => do
    return .libraryLoaded (← r.text? "thread-group") (← r.text? "id") r.args
  | _ => none

namespace ThreadGroupTable

/-- What there is to tell after some news, unless they cannot be true. -/
def change? (t : ThreadGroupTable) (news : GroupNews) : Option Change :=
  (t.apply news).toOption.map (.threadGroup ·.1)

end ThreadGroupTable

namespace BreakpointTable

/-- What there is to tell after a report, unless it has no number. -/
def change? (t : BreakpointTable) (info : Fields) : Option Change :=
  (t.merge info).toOption.map (.breakpoint ·.1)

end BreakpointTable

/-! ### Settling -/

/-- What a notice says of breakpoints. -/
def Record.noticed? (r : Record) : Option Fields :=
  if r.what = "breakpoint-created" ∨ r.what = "breakpoint-modified" then r.breakpoint? else none

namespace Tracker

/-- Takes over a report of a breakpoint, if there is one. -/
def report (t : Tracker) (info : Option Fields) : Tracker :=
  { t with breakpoints := (info.map t.breakpoints.absorb).getD t.breakpoints }

/-- Takes over news of a thread group, if there are any. -/
def hearOf (t : Tracker) (news : Option GroupNews) : Tracker :=
  { t with threadGroups := (news.map t.threadGroups.absorb).getD t.threadGroups }

/-- Gives the stops at an inserted breakpoint away, if that is what was to happen. -/
def install (t : Tracker) (record : Record) : OnResult Reaction → Tracker
  | .install handler =>
    match record.inserted? with
    | some number => { t with stopHandlers := t.stopHandlers.assign number handler }
    | none => t
  | _ => t

/-- Moves the command with a token on to a state, if it is in view. -/
def settleResult (t : Tracker) (token : Token) (state : CommandState) (record : Record) : Tracker :=
  match t.desk.commands.find? token with
  | some command =>
    ({ t with desk := (t.desk.setState token state).clearOnResult token }.install record
      command.onResult).report record.breakpoint?
  | none => t

/-- Takes over what a record says, and calls nobody. -/
def settle (t : Tracker) (m : Message) : Tracker :=
  match m.record.kind with
  | .result =>
    match CommandState.ofResult? m.record.what, m.token with
    | some state, some token => t.settleResult token state m.record
    | _, _ => t
  | .execAsync => { t with execState := some (ExecState.ofText m.record.what) }
  | .notifyAsync => (t.hearOf (GroupNews.ofRecord? m.record)).report m.record.noticed?
  | _ => t

theorem install_eq (t : Tracker) (record : Record) (onResult : OnResult Reaction) :
    ∃ stopHandlers, t.install record onResult = { t with stopHandlers } := by
  unfold install
  split
  · split
    · exact ⟨_, rfl⟩
    · exact ⟨_, rfl⟩
  · exact ⟨_, rfl⟩

theorem settleResult_eq (t : Tracker) (token : Token) (state : CommandState) (record : Record) :
    ∃ commands breakpoints stopHandlers, t.settleResult token state record =
      { t with desk := { t.desk with commands }, breakpoints, stopHandlers } := by
  unfold settleResult
  split
  · rename_i command _
    obtain ⟨_, installed⟩ := install_eq
      { t with desk := (t.desk.setState token state).clearOnResult token } record command.onResult
    rw [installed]
    exact ⟨_, _, _, rfl⟩
  · exact ⟨_, _, _, rfl⟩

/-- Settling changes the commands, the tables and the state of execution, and nothing else. -/
theorem settle_eq (t : Tracker) (m : Message) :
    ∃ commands execState breakpoints threadGroups stopHandlers, t.settle m =
      { t with
        desk := { t.desk with commands }
        execState, breakpoints, threadGroups, stopHandlers } := by
  unfold settle
  split
  · split
    · rename_i state token _ _
      obtain ⟨_, _, _, settled⟩ := t.settleResult_eq token state m.record
      rw [settled]
      exact ⟨_, _, _, _, _, rfl⟩
    · exact ⟨_, _, _, _, _, rfl⟩
  · exact ⟨_, _, _, _, _, rfl⟩
  · exact ⟨_, _, _, _, _, rfl⟩
  · exact ⟨_, _, _, _, _, rfl⟩

/-- The ways in which a record can be settled. -/
inductive Settles (t : Tracker) (m : Message) : Tracker → Prop
  | result (token : Token) (state : CommandState) :
      m.record.kind = .result → m.token = some token → m.outcome? token = some state →
      Settles t m (t.settleResult token state m.record)
  | exec :
      m.record.kind = .execAsync →
      Settles t m { t with execState := some (ExecState.ofText m.record.what) }
  | notify :
      m.record.kind = .notifyAsync →
      Settles t m ((t.hearOf (GroupNews.ofRecord? m.record)).report m.record.noticed?)
  | nothing :
      (∀ token, m.outcome? token = none) → m.record.kind ≠ .execAsync →
      m.record.kind ≠ .notifyAsync → Settles t m t

theorem settles (t : Tracker) (m : Message) : t.Settles m (t.settle m) := by
  unfold settle
  split
  · rename_i hk
    have other : m.record.kind ≠ .execAsync ∧ m.record.kind ≠ .notifyAsync := by simp [hk]
    split
    · rename_i state token hs ht
      refine .result token state hk ht ?_
      rw [Message.outcome?, if_pos ⟨hk, ht⟩, hs]
    · rename_i nothing
      refine .nothing (fun token => ?_) other.1 other.2
      unfold Message.outcome?
      split
      · rename_i ht
        cases hs : CommandState.ofResult? m.record.what with
        | none => rfl
        | some state => exact (nothing state token hs ht.2).elim
      · rfl
  · rename_i hk
    exact .exec hk
  · rename_i hk
    exact .notify hk
  · rename_i result exec notify
    exact .nothing (Message.outcome?_of_kind result) exec notify

/-! ### The operations of a tracker, without their notices -/

theorem moves_settle (t : Tracker) (m : Message) : t.desk.Moves (t.settle m).desk := by
  have settled := t.settles m
  generalize t.settle m = u at settled ⊢
  cases settled with
  | result token state _ _ _ =>
    unfold settleResult
    split
    · rename_i command _
      obtain ⟨_, installed⟩ := install_eq
        { t with desk := (t.desk.setState token state).clearOnResult token } m.record
        command.onResult
      rw [installed]
      exact (Desk.Moves.none.revise token _).revise token _
    · exact .none
  | exec _ | notify _ | nothing _ _ _ => exact .none

theorem agrees_notice (t : Tracker) (n : Notice) : Agrees Event.isCall (t.notice n) t :=
  t.agrees_log rfl rfl

theorem insertedNumber?_eq (record : Record) :
    insertedNumber? record = record.breakpoint?.bind (·.text? "number") := by
  unfold insertedNumber? Record.breakpoint? Fields.text? Value.get?
  cases record.get? "bkpt" with
  | none => rfl
  | some v => cases v <;> rfl

theorem agrees_installHandler (t : Tracker) (token : Token) (record : Record)
    (handler : Option (StopHandler Reaction)) :
    Agrees Event.isCall (t.installHandler token record handler).2
      (t.install record (.install handler)) := by
  unfold installHandler install Record.inserted?
  rw [insertedNumber?_eq]
  cases record.breakpoint?.bind (·.text? "number") with
  | none => exact t.agrees_notice _
  | some number =>
    rw [Option.bind_some, ← Breakpoint.toOption_parentNumber]
    dsimp only
    cases Breakpoint.parentNumber number with
    | error e => exact .refl t
    | ok n => cases handler <;> exact .refl _

/-- How an update of the thread groups comes out of the news that a notice brings. -/
def Brings (groups : ThreadGroupTable) (news : Option GroupNews)
    (update : Except LinkError (ThreadGroup × ThreadGroupTable)) : Prop :=
  match news with
  | some news => update = groups.apply news
  | none => ∃ e, update = .error e

theorem brings_of_need (groups : ThreadGroupTable) (r : Record) (key : String)
    (news : String → GroupNews) :
    Brings groups (do return news (← r.text? key)) (do groups.apply (news (← need r key))) := by
  unfold need
  cases r.text? key with
  | none => exact ⟨_, rfl⟩
  | some s => rfl

theorem brings_of_needs (groups : ThreadGroupTable) (r : Record) (first second : String)
    (news : String → String → GroupNews) :
    Brings groups (do return news (← r.text? first) (← r.text? second)) (do
      let s ← need r first
      groups.apply (news s (← need r second))) := by
  have rest := fun s => brings_of_need groups r second (news s)
  cases hf : r.text? first with
  | none =>
    unfold need
    rw [hf]
    exact ⟨_, rfl⟩
  | some s =>
    have found : need r first = .ok s := by rw [need, hf]
    rw [found]
    exact rest s

theorem threadGroupUpdate?_brings (groups : ThreadGroupTable) (r : Record) :
    (∃ update, threadGroupUpdate? groups r = some update ∧
      Brings groups (GroupNews.ofRecord? r) update ∧ r.noticed? = none) ∨
    (threadGroupUpdate? groups r = none ∧ GroupNews.ofRecord? r = none) := by
  unfold threadGroupUpdate?
  split
  · rename_i hw
    refine .inl ⟨_, rfl, ?_, by simp [Record.noticed?, hw]⟩
    simp only [GroupNews.ofRecord?, hw]
    exact brings_of_need groups r "id" .added
  · rename_i hw
    refine .inl ⟨_, rfl, ?_, by simp [Record.noticed?, hw]⟩
    simp only [GroupNews.ofRecord?, hw]
    exact brings_of_needs groups r "id" "pid" .started
  · rename_i hw
    refine .inl ⟨_, rfl, ?_, by simp [Record.noticed?, hw]⟩
    simp only [GroupNews.ofRecord?, hw]
    exact brings_of_needs groups r "group-id" "id" .threadCreated
  · rename_i hw
    refine .inl ⟨_, rfl, ?_, by simp [Record.noticed?, hw]⟩
    simp only [GroupNews.ofRecord?, hw]
    exact brings_of_needs groups r "thread-group" "id" (.libraryLoaded · · r.args)
  · rename_i added started threadCreated libraryLoaded
    refine .inr ⟨rfl, ?_⟩
    unfold GroupNews.ofRecord?
    split
    · exact (added ‹_›).elim
    · exact (started ‹_›).elim
    · exact (threadCreated ‹_›).elim
    · exact (libraryLoaded ‹_›).elim
    · rfl

end Tracker

end DebugLink
