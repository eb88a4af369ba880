import DebugLink.Breakpoint
import DebugLink.Proofs.Dict
import DebugLink.Proofs.LastWord

/-! What reports make of the breakpoints. Each report goes over what is known of the breakpoint that
it numbers, so the table can be gone through breakpoint by breakpoint, and of a breakpoint field by
field: what the last report said of a field is what the field is. A report without a number is about
no breakpoint. -/

namespace DebugLink

/-! ### Reports -/

/-- What is reported of a breakpoint at one time. -/
abbrev Report := Dict String Value

namespace Report

/-- The number of the breakpoint that a report is about. -/
def number? (r : Report) : Option String := Fields.text? r.entries "number"

/-- The reports about the breakpoint with a number. -/
def about (number : String) (reports : List Report) : List Report :=
  reports.filter (·.number? = some number)

/-- What the last report that mentions a field says of it. -/
def last? (key : String) (reports : List Report) : Option Value :=
  (reports.filterMap (·.find? key)).getLast?

theorem about_ne_nil_iff {number : String} {reports : List Report} :
    about number reports ≠ [] ↔ ∃ r ∈ reports, r.number? = some number := by
  simp [about, List.filter_eq_nil_iff]

theorem find?_number {r : Report} {number : String} (h : r.number? = some number) :
    r.find? "number" = some (.const number) := by
  obtain ⟨v, found, text⟩ := Option.bind_eq_some_iff.mp h
  cases v with
  | const s =>
    cases text
    exact found
  | list _ | tuple _ => cases text

/-- Whoever reports about a breakpoint has its number to say. -/
theorem last?_number {number : String} {reports : List Report} (h : about number reports ≠ []) :
    last? "number" (about number reports) = some (.const number) := by
  obtain ⟨init, r, split⟩ : ∃ init r, about number reports = init ++ [r] :=
    ⟨_, _, (List.dropLast_append_getLast h).symm⟩
  have mem : r ∈ about number reports := by simp [split]
  have said : r.number? = some number := by simpa using (List.mem_filter.mp mem).2
  have last := getLast?_filterMap_append (fun r : Report => r.find? "number") init (some r)
  rw [Option.toList_some, Option.bind_some, find?_number said] at last
  rw [split, last?, last, Option.some_or]

end Report

/-! ### One breakpoint -/

namespace Breakpoint

/-- Puts a report over what is known of a breakpoint. -/
def put (b : Breakpoint) (r : Report) : Breakpoint :=
  { b with fields := Entries.merge b.fields r.entries }

/-- What is known of a breakpoint after a report about it. -/
def hear (number : String) (known : Option Breakpoint) (r : Report) : Option Breakpoint :=
  some ((known.getD ⟨number, []⟩).put r)

theorem foldl_hear {number : String} (known : Option Breakpoint) {reports : List Report}
    (h : reports ≠ []) :
    reports.foldl (hear number) known = some (reports.foldl put (known.getD ⟨number, []⟩)) := by
  induction reports generalizing known with
  | nil => exact absurd rfl h
  | cons r reports ih =>
    cases reports with
    | nil => rfl
    | cons => exact ih (hear number known r) (List.cons_ne_nil _ _)

theorem number_foldl_put (b : Breakpoint) (reports : List Report) :
    (reports.foldl put b).number = b.number := by
  induction reports generalizing b with
  | nil => rfl
  | cons r reports ih => exact ih (b.put r)

theorem find?_put (key : String) (b : Breakpoint) (r : Report) :
    Entries.find? key (b.put r).fields = (r.find? key).or (Entries.find? key b.fields) :=
  Entries.find?_merge_of_sorted key b.fields r.sorted

/-- A field is what was said of it last, or else what it was. -/
theorem find?_foldl_put (key : String) (b : Breakpoint) (reports : List Report) :
    Entries.find? key (reports.foldl put b).fields =
      (Report.last? key reports).or (Entries.find? key b.fields) :=
  view_foldl_eq_getLast? (fun b => Entries.find? key b.fields) (find?_put key) reports b

end Breakpoint

/-! ### The table -/

namespace BreakpointTable

/-- The breakpoints after a report, or as they were if the report has no number. -/
def absorb (t : BreakpointTable) (info : Fields) : BreakpointTable :=
  match t.merge info with
  | .ok (_, merged) => merged
  | .error _ => t

/-- The breakpoints after some reports, one after the other. -/
def absorbAll (t : BreakpointTable) (reports : List Report) : BreakpointTable :=
  reports.foldl (fun t r => t.absorb r.entries) t

theorem merge_of_number {t : BreakpointTable} {r : Report} {number : String}
    (h : r.number? = some number) :
    t.merge r.entries = .ok (((t.get? number).getD ⟨number, []⟩).put r,
      ⟨t.byNumber.insert number (((t.get? number).getD ⟨number, []⟩).put r)⟩) := by
  have text : Fields.text? r.entries "number" = some number := h
  rw [merge, text]
  rfl

theorem merge_of_no_number {r : Report} (h : r.number? = none) (t : BreakpointTable) :
    t.merge r.entries = .error (.missingField "bkpt" "number") := by
  have text : Fields.text? r.entries "number" = none := h
  rw [merge, text]

/-- A report changes nothing but what is known of its breakpoint. -/
theorem get?_absorb (t : BreakpointTable) (r : Report) (number : String) :
    (t.absorb r.entries).get? number =
      if r.number? = some number then Breakpoint.hear number (t.get? number) r
      else t.get? number := by
  unfold absorb
  cases h : r.number? with
  | none =>
    rw [merge_of_no_number h, if_neg nofun]
  | some key =>
    rw [merge_of_number h]
    have put := Dict.find?_insert t.byNumber number key (((t.get? key).getD ⟨key, []⟩).put r)
    by_cases same : number = key
    · subst same
      rw [if_pos rfl] at put ⊢
      exact put
    · rw [if_neg same] at put
      rw [if_neg fun h => same (Option.some.inj h).symm]
      exact put

theorem get?_absorbAll (t : BreakpointTable) (reports : List Report) (number : String) :
    (t.absorbAll reports).get? number =
      (Report.about number reports).foldl (Breakpoint.hear number) (t.get? number) := by
  refine view_foldl_eq_foldl_filter (fun t : BreakpointTable => t.get? number) (fun t r => ?_)
    reports t
  rw [get?_absorb]
  simp only [decide_eq_true_eq]

/-- A report with a number is taken over, any other is refused, and neither touches what is known of
another breakpoint. -/
theorem merge_cases (t : BreakpointTable) (r : Report) :
    match r.number? with
    | some number =>
      (∃ b, t.merge r.entries = .ok (b, t.absorb r.entries) ∧
        (t.absorb r.entries).get? number = some b) ∧
      ∀ other, other ≠ number → (t.absorb r.entries).get? other = t.get? other
    | none =>
      t.merge r.entries = .error (.missingField "bkpt" "number") ∧ t.absorb r.entries = t := by
  cases h : r.number? with
  | none =>
    have refused := merge_of_no_number h t
    exact ⟨refused, by rw [absorb, refused]⟩
  | some number =>
    refine ⟨⟨_, ?_, (get?_absorb t r number).trans (if_pos h)⟩, fun other ne => ?_⟩
    · rw [absorb, merge_of_number h]
    · rw [get?_absorb, if_neg fun same => ne (Option.some.inj (same.symm.trans h))]

/-- Nothing that is known of a breakpoint is lost, and only what is said of a field changes it. -/
theorem get?_absorbAll_of_known {t : BreakpointTable} {number : String} {b : Breakpoint}
    (known : t.get? number = some b) (reports : List Report) :
    ∃ b', (t.absorbAll reports).get? number = some b' ∧ ∀ key, Entries.find? key b'.fields =
      (Report.last? key (Report.about number reports)).or (Entries.find? key b.fields) := by
  refine ⟨(Report.about number reports).foldl Breakpoint.put b, ?_, fun key =>
    Breakpoint.find?_foldl_put key b _⟩
  rw [get?_absorbAll, known]
  by_cases none : Report.about number reports = []
  · rw [none]
    rfl
  · exact Breakpoint.foldl_hear (some b) none

/-- A table that began empty knows the breakpoints of which there was a report. -/
theorem get?_absorbAll_empty (reports : List Report) (number : String) :
    (absorbAll {} reports).get? number =
      if Report.about number reports = [] then none
      else some ((Report.about number reports).foldl Breakpoint.put ⟨number, []⟩) := by
  have unknown : get? {} number = none := rfl
  rw [get?_absorbAll, unknown]
  split
  · rename_i none
    rw [none]
    rfl
  · rename_i some
    exact Breakpoint.foldl_hear none some

theorem isSome_get?_absorbAll_empty (reports : List Report) (number : String) :
    ((absorbAll {} reports).get? number).isSome = true ↔
      ∃ r ∈ reports, r.number? = some number := by
  rw [get?_absorbAll_empty, ← Report.about_ne_nil_iff]
  split <;> simp [*]

/-- What a table that began empty knows of a breakpoint is what was last reported of each field, and
its number is the one that it is found by. -/
theorem get?_absorbAll_empty_eq_some {reports : List Report} {number : String} {b : Breakpoint}
    (h : (absorbAll {} reports).get? number = some b) :
    b.number = number ∧ b.field? "number" = some number ∧
      ∀ key, Entries.find? key b.fields = Report.last? key (Report.about number reports) := by
  rw [get?_absorbAll_empty] at h
  split at h
  · cases h
  · rename_i some
    obtain rfl := Option.some.inj h
    have fields := fun key => Breakpoint.find?_foldl_put key ⟨number, []⟩
      (Report.about number reports)
    simp only [Entries.find?, Option.or_none] at fields
    refine ⟨Breakpoint.number_foldl_put _ _, ?_, fields⟩
    rw [Breakpoint.field?, Fields.text?, fields, Report.last?_number some]
    rfl

theorem size_absorbAll_empty (reports : List Report) :
    (absorbAll {} reports).size = (reports.filterMap Report.number?).dedup.length :=
  Dict.size_eq_length_dedup fun number =>
    (isSome_get?_absorbAll_empty reports number).trans List.mem_filterMap.symm

end BreakpointTable

/-- The table of breakpoints after any reports, starting with none. It has the breakpoints that were
reported with a number, each under its own, with the last word on each field. From there on nothing
is lost by further reports. A report without a number is refused and leaves no trace, and any other
concerns one breakpoint only. -/
theorem breakpoints_show_the_last_word_on_each_field (reports : List Report) :
    let t := BreakpointTable.absorbAll {} reports
    (∀ number, (t.get? number).isSome = true ↔ ∃ r ∈ reports, r.number? = some number) ∧
    (∀ number b, t.get? number = some b →
      b.number = number ∧ b.field? "number" = some number ∧
      ∀ key, Entries.find? key b.fields = Report.last? key (Report.about number reports)) ∧
    t.size = (reports.filterMap Report.number?).dedup.length ∧
    (∀ number b, t.get? number = some b → ∀ more, ∃ b', (t.absorbAll more).get? number = some b' ∧
      ∀ key, Entries.find? key b'.fields =
        (Report.last? key (Report.about number more)).or (Entries.find? key b.fields)) ∧
    ∀ r : Report, match r.number? with
      | some number =>
        (∃ b, t.merge r.entries = .ok (b, t.absorb r.entries) ∧
          (t.absorb r.entries).get? number = some b) ∧
        ∀ other, other ≠ number → (t.absorb r.entries).get? other = t.get? other
      | none =>
        t.merge r.entries = .error (.missingField "bkpt" "number") ∧ t.absorb r.entries = t :=
  ⟨BreakpointTable.isSome_get?_absorbAll_empty reports,
    fun _ _ known => BreakpointTable.get?_absorbAll_empty_eq_some known,
    BreakpointTable.size_absorbAll_empty reports,
    fun _ _ known more => BreakpointTable.get?_absorbAll_of_known known more,
    fun r => BreakpointTable.merge_cases _ r⟩

/-- A second report takes back a field and leaves out another, and a third has no number. -/
theorem a_disabled_breakpoint_keeps_its_file :
    let first : Report := (∅ : Report).insert "number" (.const "1")
    let reports : List Report :=
      [(first.insert "enabled" (.const "y")).insert "file" (.const "a.c"),
        first.insert "enabled" (.const "n"), (∅ : Report).insert "file" (.const "b.c")]
    let t := BreakpointTable.absorbAll {} reports
    t.size = 1 ∧ ∃ b, t.get? "1" = some b ∧ b.number = "1" ∧
      Entries.find? "enabled" b.fields = some (.const "n") ∧
      Entries.find? "file" b.fields = some (.const "a.c") := by
  intro first reports t
  obtain ⟨known, shown, size, -⟩ := breakpoints_show_the_last_word_on_each_field reports
  have found := (known "1").mpr ⟨_, List.mem_cons_self, by decide +kernel⟩
  obtain ⟨b, hb⟩ := Option.isSome_iff_exists.mp found
  obtain ⟨number, -, fields⟩ := shown "1" b hb
  exact ⟨size.trans (by decide +kernel), b, hb, number,
    (fields "enabled").trans (by decide +kernel), (fields "file").trans (by decide +kernel)⟩

end DebugLink
