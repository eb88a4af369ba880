import DebugLink.Proofs.Session.Commands

/-! What the tables of a session come from. The state of execution, the breakpoints and the thread
groups are what the records make of them one after the other, in the order in which they were
received. Of the commands they depend only in one point: what a result says of a breakpoint counts
if its command was in view when the result was received. -/

namespace DebugLink

/-- What a record says of the state of execution. -/
def Message.execState? (m : Message) : Option ExecState :=
  if m.record.kind = .execAsync then some (ExecState.ofText m.record.what) else none

/-- The news of a thread group that a record brings. -/
def Message.news? (m : Message) : Option GroupNews :=
  if m.record.kind = .notifyAsync then GroupNews.ofRecord? m.record else none

namespace History

/-- What a record says of a breakpoint, if that counts. -/
def report? (h : History) (m : Message) : Option Fields :=
  match m.record.kind with
  | .result => do
    let token ← m.token
    let _ ← m.outcome? token
    let _ ← h.standing? token
    m.record.breakpoint?
  | .notifyAsync => m.record.noticed?
  | _ => none

/-- What was said of breakpoints, in the order in which it was said. -/
def reports : History → List Fields
  | [] => []
  | .received m :: h => reports h ++ (report? h m).toList
  | .sent .. :: h | .failed _ :: h | .forgot _ :: h => reports h

theorem filterMap_records_received {α : Type} (f : Message → Option α) (h : History) (m : Message) :
    (records (.received m :: h)).filterMap f = h.records.filterMap f ++ (f m).toList := by
  rw [records, List.filterMap_append]
  cases hf : f m <;> simp [hf]

/-- Sends and forgets report nothing. -/
theorem reports_append_of_no_records {g : History} (none : g.records = []) (h : History) :
    reports (g ++ h) = h.reports := by
  induction g with
  | nil => rfl
  | cons x g ih =>
    cases x with
    | received m => simp [records] at none
    | sent _ _ _ | failed _ | forgot _ => exact ih none

end History

/-- The tables are what the records of a history have made of them. -/
structure Followed (t : Tracker) (h : History) : Prop where
  tabled : Tabled t h
  execState : t.execState = (h.records.filterMap Message.execState?).getLast?
  breakpoints : t.breakpoints = h.reports.foldl BreakpointTable.absorb {}
  threadGroups :
    t.threadGroups = (h.records.filterMap Message.news?).foldl ThreadGroupTable.absorb {}

/-! ### One record -/

theorem execState_settle (t : Tracker) (m : Message) :
    (t.settle m).execState = m.execState?.or t.execState := by
  have idle : m.record.kind ≠ .execAsync → t.execState = m.execState?.or t.execState := by
    intro hk
    rw [Message.execState?, if_neg hk, Option.none_or]
  have settled := t.settles m
  generalize t.settle m = u at settled
  cases settled with
  | result token state hk _ _ =>
    obtain ⟨_, _, _, settled⟩ := t.settleResult_eq token state m.record
    rw [settled]
    exact idle (by simp [hk])
  | exec hk => rw [Message.execState?, if_pos hk, Option.some_or]
  | notify hk => exact idle (by simp [hk])
  | nothing _ hk _ => exact idle hk

theorem threadGroups_settle (t : Tracker) (m : Message) :
    (t.settle m).threadGroups = m.news?.toList.foldl ThreadGroupTable.absorb t.threadGroups := by
  have idle : m.record.kind ≠ .notifyAsync →
      t.threadGroups = m.news?.toList.foldl ThreadGroupTable.absorb t.threadGroups := by
    intro hk
    rw [Message.news?, if_neg hk]
    rfl
  have settled := t.settles m
  generalize t.settle m = u at settled
  cases settled with
  | result token state hk _ _ =>
    obtain ⟨_, _, _, settled⟩ := t.settleResult_eq token state m.record
    rw [settled]
    exact idle (by simp [hk])
  | exec hk => exact idle (by simp [hk])
  | notify hk =>
    rw [Message.news?, if_pos hk]
    cases h : GroupNews.ofRecord? m.record <;> rfl
  | nothing _ _ hk => exact idle hk

/-- A result counts if its command is in view, and then whatever else comes of it. -/
theorem breakpoints_settleResult {t : Tracker} {h : History} (tabled : Tabled t h) {m : Message}
    {token : Token} {state : CommandState} (hk : m.record.kind = .result)
    (ht : m.token = some token) (outcome : m.outcome? token = some state) :
    (t.settleResult token state m.record).breakpoints =
      (h.report? m).toList.foldl BreakpointTable.absorb t.breakpoints := by
  have said : h.report? m = (h.standing? token).bind fun _ => m.record.breakpoint? := by
    unfold History.report?
    rw [hk, ht]
    simp only [Option.bind_eq_bind, Option.bind_some, outcome]
  have standing := tabled.standing token
  unfold Tracker.standing? at standing
  rw [said, ← standing, Tracker.settleResult]
  cases t.desk.commands.find? token with
  | none => rfl
  | some command =>
    obtain ⟨_, installed⟩ := Tracker.install_eq
      { t with desk := (t.desk.setState token state).clearOnResult token } m.record
      command.onResult
    dsimp only [Option.map_some, Option.bind_some]
    rw [installed]
    cases m.record.breakpoint? <;> rfl

theorem breakpoints_settle {t : Tracker} {h : History} (tabled : Tabled t h) (m : Message) :
    (t.settle m).breakpoints = (h.report? m).toList.foldl BreakpointTable.absorb t.breakpoints := by
  have settled := t.settles m
  generalize t.settle m = u at settled
  cases settled with
  | result token state hk ht outcome => exact breakpoints_settleResult tabled hk ht outcome
  | exec hk =>
    have said : h.report? m = none := by rw [History.report?, hk]
    rw [said]
    rfl
  | notify hk =>
    have said : h.report? m = m.record.noticed? := by rw [History.report?, hk]
    rw [said]
    cases m.record.noticed? <;> rfl
  | nothing none _ hk =>
    have said : h.report? m = .none := by
      unfold History.report?
      split
      · cases m.token with
        | none => rfl
        | some token =>
          simp only [Option.bind_eq_bind, Option.bind_some, none, Option.bind_none]
      · exact absurd ‹_› hk
      · rfl
    rw [said]
    rfl

/-! ### All records -/

theorem kept_followed : Kept Followed where
  bare {t u _} same followed := by
    have execState : t.execState = u.execState := congrArg (·.execState) same
    have breakpoints : t.breakpoints = u.breakpoints := congrArg (·.breakpoints) same
    have threadGroups : t.threadGroups = u.threadGroups := congrArg (·.threadGroups) same
    exact ⟨kept_tabled.bare same followed.tabled, execState ▸ followed.execState,
      breakpoints ▸ followed.breakpoints, threadGroups ▸ followed.threadGroups⟩
  close followed := { followed with tabled := kept_tabled.close followed.tabled }
  subscribe changes records followed :=
    { followed with tabled := kept_tabled.subscribe changes records followed.tabled }
  revise token _ same followed :=
    { followed with tabled := kept_tabled.revise token same followed.tabled }
  send {t h} text onResult onConsole followed := by
    have records := History.sending_of_ignoring (f := History.records) (fun _ _ _ _ => rfl)
      (fun _ _ => rfl) h t.desk text onResult onConsole
    have reports := History.sending_of_ignoring (f := History.reports) (fun _ _ _ _ => rfl)
      (fun _ _ => rfl) h t.desk text onResult onConsole
    exact ⟨kept_tabled.send text onResult onConsole followed.tabled, records ▸ followed.execState,
      reports ▸ followed.breakpoints, records ▸ followed.threadGroups⟩
  forget token followed := { followed with tabled := kept_tabled.forget token followed.tabled }
  settle {t h} m followed := by
    refine ⟨kept_tabled.settle m followed.tabled, ?_, ?_, ?_⟩
    · rw [execState_settle, followed.execState, History.filterMap_records_received,
        List.getLast?_append]
      cases m.execState? <;> rfl
    · rw [breakpoints_settle followed.tabled, followed.breakpoints, History.reports,
        List.foldl_append]
    · rw [threadGroups_settle, followed.threadGroups, History.filterMap_records_received,
        List.foldl_append]

/-- In every run the state of execution is the last one that a record told of, and the breakpoints
and thread groups are what was reported of them put together in the order of the records, where a
report that makes no sense is passed over. Results count as reports of a breakpoint if their command
was in view. Whatever receives no record leaves all three as they are. -/
theorem tables_are_what_the_records_make (source : Source) (sink : Sink) (settings : Settings)
    (moves : List Move) :
    let c := Session.chronicle source sink settings moves
    let t := c.tracker
    let records := received t.desk.journal
    t.execState = (records.filterMap Message.execState?).getLast? ∧
      t.breakpoints = c.history.reports.foldl BreakpointTable.absorb {} ∧
      t.threadGroups = (records.filterMap Message.news?).foldl ThreadGroupTable.absorb {} ∧
      c.history.records = records ∧
      ∀ move, received (c.step move).tracker.desk.journal = records →
        (c.step move).tracker.execState = t.execState ∧
        (c.step move).tracker.breakpoints = t.breakpoints ∧
        (c.step move).tracker.threadGroups = t.threadGroups := by
  intro c t records
  have followed : Followed t c.history :=
    kept_followed.lasting.chronicle ⟨tabled_connect source sink settings, rfl, rfl, rfl⟩ moves
  have noted : c.history.records = records := Chronicle.records_run rfl moves
  refine ⟨noted ▸ followed.execState, followed.breakpoints, noted ▸ followed.threadGroups, noted,
    fun move same => ?_⟩
  have after : Followed (c.step move).tracker (c.step move).history :=
    kept_followed.lasting.step followed move
  have unmoved : (c.step move).history.records = c.history.records :=
    (Chronicle.records_step noted move).trans (same.trans noted.symm)
  have unsaid : (c.step move).history.reports = c.history.reports := by
    obtain ⟨news, grown⟩ := c.suffix_step move
    rw [← grown, History.records_append] at unmoved
    rw [← grown]
    exact History.reports_append_of_no_records (List.append_right_eq_self.mp unmoved) c.history
  exact ⟨by rw [after.execState, followed.execState, unmoved],
    by rw [after.breakpoints, followed.breakpoints, unsaid],
    by rw [after.threadGroups, followed.threadGroups, unmoved]⟩

end DebugLink
