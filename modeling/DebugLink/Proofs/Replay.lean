import DebugLink.Proofs.Breakpoint
import DebugLink.Proofs.ThreadGroup

/-! Logs of updates that are gone through a second time. The tables on the way differ from the one
that the first pass ended with, but each entry is led back to what it was: what the log does not
mention was not touched, and of what it mentions the last word is the same. Nothing is refused the
second time that was not refused the first time, since all groups of the log are known by then.
Reports on breakpoints can moreover be put in any order as long as they do not contradict each
other. -/

namespace DebugLink

/-! ### Breakpoints -/

/-- No two reports about one breakpoint contradict each other on a field. -/
def Report.Consistent (reports : List Report) : Prop :=
  ∀ r ∈ reports, ∀ r' ∈ reports, ∀ number, r.number? = some number → r'.number? = some number →
    ∀ key v v', r.find? key = some v → r'.find? key = some v' → v = v'

namespace Breakpoint

theorem foldl_put (b : Breakpoint) (reports : List Report) :
    reports.foldl put b = { b with fields := Entries.merge b.fields (reports.flatMap (·.entries)) } := by
  induction reports generalizing b with
  | nil => rfl
  | cons r reports ih =>
    rw [List.foldl_cons, ih, List.flatMap_cons, Entries.merge, Entries.merge, List.foldl_append]
    rfl

theorem foldl_put_foldl_put (b : Breakpoint) (reports : List Report) :
    reports.foldl put (reports.foldl put b) = reports.foldl put b := by
  rw [foldl_put, foldl_put, Entries.merge_merge_of_subset fun p hp => ⟨p, hp, rfl⟩]

/-- Reports that do not contradict each other can trade places. -/
theorem put_comm {r r' : Report}
    (agree : ∀ key v v', r.find? key = some v → r'.find? key = some v' → v = v')
    (b : Breakpoint) : (b.put r).put r' = (b.put r').put r := by
  have said : ∀ {r : Report} {p}, p ∈ r.entries → r.find? p.1 = some p.2 := fun hp =>
    Entries.find?_eq_some_of_mem (Dict.sorted _) hp
  have swap : Entries.merge b.fields (r.entries ++ r'.entries) =
      Entries.merge b.fields (r'.entries ++ r.entries) := by
    refine Entries.merge_perm List.perm_append_comm (fun p hp q hq same => ?_) b.fields
    rcases List.mem_append.mp hp with hp | hp <;> rcases List.mem_append.mp hq with hq | hq
    · exact Option.some.inj ((said hp).symm.trans (same ▸ said hq))
    · exact agree p.1 _ _ (said hp) (same ▸ said hq)
    · exact (agree p.1 _ _ (same ▸ said hq) (said hp)).symm
    · exact Option.some.inj ((said hp).symm.trans (same ▸ said hq))
  simp only [Entries.merge, List.foldl_append] at swap
  simp only [put, Entries.merge, swap]

end Breakpoint

namespace BreakpointTable

theorem ext_get? {t u : BreakpointTable} (same : ∀ number, t.get? number = u.get? number) :
    t = u := by
  obtain ⟨byNumber⟩ := t
  exact congrArg mk (Dict.ext_find? same)

/-- The breakpoints after some reports, if none of them is refused. -/
def mergeAll (t : BreakpointTable) (reports : List Report) : Except LinkError BreakpointTable :=
  reports.foldlM (fun t r => (t.merge r.entries).map (·.2)) t

theorem absorbAll_absorbAll (t : BreakpointTable) (reports : List Report) :
    (t.absorbAll reports).absorbAll reports = t.absorbAll reports := by
  refine ext_get? fun number => ?_
  simp only [get?_absorbAll]
  by_cases unreported : Report.about number reports = []
  · rw [unreported]
    rfl
  · rw [Breakpoint.foldl_hear _ unreported, Breakpoint.foldl_hear _ unreported, Option.getD_some,
      Breakpoint.foldl_put_foldl_put]

/-- All reports are taken over if they all have numbers, and else the table is given up. -/
theorem mergeAll_eq (t : BreakpointTable) (reports : List Report) :
    t.mergeAll reports =
      if ∀ r ∈ reports, r.number? ≠ none then .ok (t.absorbAll reports)
      else .error (.missingField "bkpt" "number") := by
  induction reports generalizing t with
  | nil => exact (if_pos nofun).symm
  | cons r reports ih =>
    rw [mergeAll, List.foldlM_cons]
    cases h : r.number? with
    | none =>
      rw [merge_of_no_number h, if_neg fun all => all r List.mem_cons_self h]
      rfl
    | some number =>
      have taken : (t.merge r.entries).map (·.2) = .ok (t.absorb r.entries) := by
        rw [absorb, merge_of_number h]
        rfl
      rw [taken]
      refine (ih (t.absorb r.entries)).trans ?_
      simp only [List.forall_mem_cons, h, ne_eq, reduceCtorEq, not_false_eq_true, true_and]
      rfl

/-- Reports that do not contradict each other make the same of the breakpoints in any order. -/
theorem absorbAll_perm {reports reports' : List Report} (perm : reports.Perm reports')
    (consistent : Report.Consistent reports) (t : BreakpointTable) :
    t.absorbAll reports = t.absorbAll reports' := by
  refine perm.foldl_eq' (fun r hr r' hr' t => ext_get? fun number => ?_) t
  simp only [get?_absorb]
  by_cases h : r.number? = some number
  · by_cases h' : r'.number? = some number
    · have agree := consistent r hr r' hr' number h h'
      simp only [h, h', if_true, Breakpoint.hear, Option.getD_some, Breakpoint.put_comm agree]
    · simp only [h, h', if_true, if_false]
  · simp only [h, if_false]

theorem mergeAll_perm {reports reports' : List Report} (perm : reports.Perm reports')
    (consistent : Report.Consistent reports) (t : BreakpointTable) :
    t.mergeAll reports = t.mergeAll reports' := by
  have numbered : (∀ r ∈ reports, r.number? ≠ none) ↔ ∀ r ∈ reports', r.number? ≠ none := by
    simp only [perm.mem_iff]
  simp only [mergeAll_eq, numbered, absorbAll_perm perm consistent]

theorem mergeAll_of_mergeAll {s t : BreakpointTable} {reports : List Report}
    (h : s.mergeAll reports = .ok t) : t.mergeAll reports = .ok t := by
  rw [mergeAll_eq] at h
  split at h
  · rename_i numbered
    cases h
    rw [mergeAll_eq, if_pos numbered, absorbAll_absorbAll]
  · cases h

end BreakpointTable

/-! ### Thread groups -/

namespace ThreadGroup

theorem foldl_note_foldl_note (g : ThreadGroup) (us : List GroupNews) :
    us.foldl note (us.foldl note g) = us.foldl note g := by
  refine ThreadGroup.ext (id_foldl_note _ us) (view_foldl_foldl (·.pid) pid_note us g) ?_ ?_
  · exact Dict.ext_find? fun thread =>
      view_foldl_foldl (·.threads.find? thread) (find?_threads_note thread) us g
  · exact Dict.ext_find? fun library =>
      view_foldl_foldl (·.libraries.find? library) (find?_libraries_note library) us g

end ThreadGroup

namespace ThreadGroupTable

theorem ext_get? {t u : ThreadGroupTable} (same : ∀ id, t.get? id = u.get? id) : t = u := by
  obtain ⟨byId⟩ := t
  exact congrArg mk (Dict.ext_find? same)

/-- The thread groups after some news, if none of them are refused. -/
def applyAll (t : ThreadGroupTable) (news : List GroupNews) : Except LinkError ThreadGroupTable :=
  news.foldlM (fun t u => (t.apply u).map (·.2)) t

/-- News that are not refused come to a group that is known from then on. -/
theorem known_of_apply {s t : ThreadGroupTable} {u : GroupNews}
    (h : (s.apply u).map (·.2) = .ok t) :
    t = s.absorb u ∧ u.refusal? true = none ∧ (t.get? u.group).isSome = true := by
  have step := get?_absorb s u u.group
  cases s.takes u with
  | refused e _ failed _ =>
    rw [failed] at h
    cases h
  | noted g updated admitted done heard _ =>
    rw [done] at h
    cases h
    rw [absorb, done, if_pos rfl, heard] at step
    exact ⟨by rw [absorb, done], GroupNews.refusal?_true admitted, by rw [step]; rfl⟩

theorem applyAll_cons (t : ThreadGroupTable) (u : GroupNews) (news : List GroupNews) :
    t.applyAll (u :: news) = (t.apply u).map (·.2) >>= fun t => t.applyAll news :=
  List.foldlM_cons

theorem known_of_applyAll_cons {s t : ThreadGroupTable} {u : GroupNews} {news : List GroupNews}
    (h : s.applyAll (u :: news) = .ok t) :
    (s.absorb u).applyAll news = .ok t ∧ u.refusal? true = none ∧
      ((s.absorb u).get? u.group).isSome = true := by
  rw [applyAll_cons] at h
  cases head : (s.apply u).map (·.2) with
  | error e =>
    rw [head] at h
    cases h
  | ok s' =>
    rw [head] at h
    obtain ⟨rfl, admitted, known⟩ := known_of_apply head
    exact ⟨h, admitted, known⟩

theorem known_absorb {t : ThreadGroupTable} {id : String} (known : (t.get? id).isSome = true)
    (news : List GroupNews) : ((t.absorbAll news).get? id).isSome = true := by
  obtain ⟨g, hg⟩ := Option.isSome_iff_exists.mp known
  rw [get?_absorbAll_of_known hg]
  rfl

/-- News of which none are refused come to groups that are known in the end. -/
theorem known_of_applyAll {s t : ThreadGroupTable} {news : List GroupNews}
    (h : s.applyAll news = .ok t) :
    t = s.absorbAll news ∧
      ∀ u ∈ news, u.refusal? true = none ∧ (t.get? u.group).isSome = true := by
  induction news generalizing s with
  | nil =>
    cases h
    exact ⟨rfl, nofun⟩
  | cons u news ih =>
    obtain ⟨rest, admitted, known⟩ := known_of_applyAll_cons h
    obtain ⟨rfl, later⟩ := ih rest
    refine ⟨rfl, fun v hv => ?_⟩
    rcases List.mem_cons.mp hv with rfl | hv
    · exact ⟨admitted, known_absorb known news⟩
    · exact later v hv

/-- Whoever comes to a group that is known is refused only for what it says. -/
theorem applyAll_of_known {t : ThreadGroupTable} {news : List GroupNews}
    (h : ∀ u ∈ news, u.refusal? true = none ∧ (t.get? u.group).isSome = true) :
    t.applyAll news = .ok (t.absorbAll news) := by
  induction news generalizing t with
  | nil => rfl
  | cons u news ih =>
    obtain ⟨admitted, known⟩ := h u List.mem_cons_self
    have taken : (t.apply u).map (·.2) = .ok (t.absorb u) := by
      cases t.takes u with
      | refused e refused _ _ =>
        rw [known, admitted] at refused
        cases refused
      | noted g updated _ done _ _ =>
        rw [absorb, done]
        rfl
    rw [applyAll_cons, taken]
    refine ih fun v hv => ?_
    obtain ⟨admitted, known⟩ := h v (List.mem_cons_of_mem _ hv)
    exact ⟨admitted, known_absorb known [u]⟩

/-- News of which none are refused say of a group what it has in the end, beginning with that it was
added if it was not known. -/
theorem noted_of_applyAll {s t : ThreadGroupTable} {news : List GroupNews}
    (h : s.applyAll news = .ok t) (id : String) :
    GroupNews.about id news = [] ∨
      ∃ g, t.get? id = some ((GroupNews.about id news).foldl ThreadGroup.note g) := by
  induction news generalizing s with
  | nil => exact .inl rfl
  | cons u news ih =>
    obtain ⟨rest, -, now⟩ := known_of_applyAll_cons h
    cases known : s.get? id with
    | some g =>
      obtain ⟨rfl, -⟩ := known_of_applyAll h
      exact .inr ⟨g, get?_absorbAll_of_known known _⟩
    | none =>
      by_cases concerned : u.group = id
      · subst concerned
        obtain ⟨rfl, -⟩ := known_of_applyAll rest
        obtain ⟨g, hg⟩ := Option.isSome_iff_exists.mp now
        -- a group that was not known is known now because it was added, which says no more of it
        have heard := get?_absorb s u u.group
        rw [if_pos rfl, known, hg] at heard
        have same : g.note u = g := by
          cases u with
          | added => rfl
          | started | threadCreated | libraryLoaded => cases heard
        have first : GroupNews.about u.group (u :: news) = u :: GroupNews.about u.group news :=
          List.filter_cons_of_pos (by simp)
        refine .inr ⟨g, ?_⟩
        rw [first, List.foldl_cons, same]
        exact get?_absorbAll_of_known hg news
      · have same : GroupNews.about id (u :: news) = GroupNews.about id news :=
          List.filter_cons_of_neg (by simpa using concerned)
        rw [same]
        exact ih rest

theorem applyAll_of_applyAll {s t : ThreadGroupTable} {news : List GroupNews}
    (h : s.applyAll news = .ok t) : t.applyAll news = .ok t := by
  have again : t.absorbAll news = t := by
    refine ext_get? fun id => ?_
    rcases noted_of_applyAll h id with unmentioned | ⟨g, known⟩
    · rw [get?_absorbAll, unmentioned]
      rfl
    · rw [get?_absorbAll_of_known known, known, ThreadGroup.foldl_note_foldl_note]
  rw [applyAll_of_known (known_of_applyAll h).2, again]

end ThreadGroupTable

/-! ### Both tables -/

/-- Updates of which none is refused change nothing when they come a second time, and reports on
breakpoints that do not contradict each other come to the same in any order. -/
theorem updates_can_be_replayed_and_reports_reordered :
    (∀ (s t : BreakpointTable) (reports : List Report),
      s.mergeAll reports = .ok t → t.mergeAll reports = .ok t) ∧
    (∀ (s t : ThreadGroupTable) (news : List GroupNews),
      s.applyAll news = .ok t → t.applyAll news = .ok t) ∧
    ∀ (s : BreakpointTable) (reports reports' : List Report),
      reports.Perm reports' → Report.Consistent reports →
      s.mergeAll reports = s.mergeAll reports' ∧ s.absorbAll reports = s.absorbAll reports' :=
  ⟨fun _ _ _ h => BreakpointTable.mergeAll_of_mergeAll h,
    fun _ _ _ h => ThreadGroupTable.applyAll_of_applyAll h,
    fun s _ _ perm consistent => ⟨BreakpointTable.mergeAll_perm perm consistent s,
      BreakpointTable.absorbAll_perm perm consistent s⟩⟩

/-- A breakpoint that is reported twice, and a group that starts after it was added. -/
theorem a_hit_breakpoint_and_a_started_group_are_replayed :
    let reports : List Report :=
      [((∅ : Report).insert "number" (.const "1")).insert "enabled" (.const "y"),
        ((∅ : Report).insert "number" (.const "1")).insert "times" (.const "2")]
    let news : List GroupNews := [.added "i1", .started "i1" "42", .threadCreated "i1" "1"]
    (∃ t, BreakpointTable.mergeAll {} reports = .ok t ∧ t.mergeAll reports = .ok t) ∧
    (∃ t, ThreadGroupTable.applyAll {} news = .ok t ∧ t.applyAll news = .ok t) ∧
    reports.reverse ≠ reports ∧
      BreakpointTable.mergeAll {} reports = BreakpointTable.mergeAll {} reports.reverse := by
  intro reports news
  obtain ⟨replayed, renewed, reordered⟩ := updates_can_be_replayed_and_reports_reordered
  have merged : BreakpointTable.mergeAll {} reports = .ok (.absorbAll {} reports) := by
    decide +kernel
  have applied : ThreadGroupTable.applyAll {} news = .ok (.absorbAll {} news) := by
    decide +kernel
  refine ⟨⟨_, merged, replayed _ _ _ merged⟩, ⟨_, applied, renewed _ _ _ applied⟩,
    by decide +kernel, (reordered {} reports reports.reverse reports.reverse_perm.symm ?_).1⟩
  -- the reports share their number only, and agree on it
  have nothing : ∀ key, (∅ : Report).find? key = none := fun _ => rfl
  rintro r hr r' hr' number - - key v v' hv hv'
  simp only [reports, List.mem_cons, List.not_mem_nil, or_false] at hr hr'
  rcases hr with rfl | rfl <;> rcases hr' with rfl | rfl <;>
    simp only [Dict.find?_insert, nothing] at hv hv' <;> grind

end DebugLink
