import DebugLink.Proofs.Record.Frame

/-! The arguments of a record are read as the fields of a tuple are. The two are read by different
loops, one to the end of the line and one to a closing brace. Which brace closes a tuple is settled
by the grammar: if a text in braces is one tuple, then its last character is the brace that closes
it, and what stands before are fields with commas between them. -/

namespace DebugLink

namespace Grammar

/-- The fields of a tuple as they would follow what a record says. -/
theorem cons_separated_eq_flatMap {fields : List Field} (h : fields ≠ []) :
    ',' :: separated (fields.map Field.chars) = fields.flatMap (',' :: ·.chars) := by
  obtain ⟨f, fs, rfl⟩ := List.exists_cons_of_ne_nil h
  rw [List.map_cons, separated_cons, List.flatMap_map, List.flatMap_cons, List.cons_append]

end Grammar

namespace Value.Reader
open Grammar

theorem arguments_ok_iff_tuple_ok {cs : List Char} (h : cs ≠ []) {v : Value} :
    arguments (',' :: cs) = .ok (v, []) ↔ tuple ('{' :: (cs ++ ['}'])) = .ok (v, []) := by
  rw [arguments_ok_iff, tuple_ok_iff]
  constructor
  · rintro ⟨-, fields, hcs, keys, values, rfl⟩
    have hfields : fields ≠ [] := by
      rintro rfl
      cases hcs
    rw [← cons_separated_eq_flatMap hfields, List.cons.injEq] at hcs
    obtain ⟨-, rfl⟩ := hcs
    exact ⟨_, (List.append_nil _).symm, .tuple fields keys values, rfl⟩
  · rintro ⟨text, htext, derived, braces⟩
    rw [List.append_nil] at htext
    subst htext
    obtain ⟨entries, rfl⟩ := opening_eq_brace_iff.mp braces
    generalize hcs : '{' :: (cs ++ ['}']) = text at derived
    cases derived with
    | tuple fields keys values =>
      obtain rfl : cs = separated (fields.map Field.chars) :=
        List.append_cancel_right (List.cons.inj hcs).2
      have hfields : fields ≠ [] := by
        rintro rfl
        exact h rfl
      exact ⟨rfl, fields, cons_separated_eq_flatMap hfields, keys, values, rfl⟩

end Value.Reader

namespace Message
open Grammar

variable {kind : Kind} {marker : Char}

/-- What becomes of a line that says something, then a comma, then a text. -/
theorem ofLine_of_comma (hmarker : kind.marker? = some marker) (plain : kind.isStream = false)
    {what : String} (hwhat : ',' ∉ what.toList) {line : String} {cs : List Char}
    (hline : line.toList = marker :: (what.toList ++ ',' :: cs)) :
    ofLine line =
      match Value.Reader.arguments (',' :: cs) with
      | .error f => .error (.at line (.value f.offence) f.rest)
      | .ok (v, _) => .ok ⟨none, ⟨kind, what, v.fields?.getD []⟩⟩ := by
  have free : ∀ c ∈ what.toList, (c != ',') = true := by
    intro c hc
    simpa using fun he : c = ',' => hwhat (he ▸ hc)
  have said : (what.toList ++ ',' :: cs).takeWhile (· != ',') = what.toList := by
    rw [List.takeWhile_append_of_pos free, List.takeWhile_cons_of_neg (by simp), List.append_nil]
  have left : (what.toList ++ ',' :: cs).dropWhile (· != ',') = ',' :: cs := by
    rw [List.dropWhile_append_of_pos free, List.dropWhile_cons_of_neg (by simp)]
  have bare : line.toList = [] ++ marker :: (what.toList ++ ',' :: cs) := hline
  rw [ofLine_of_counts bare .none hmarker, ofRecordLine_of_counts bare .none hmarker, Record.body,
    if_neg (by simp [plain]), Record.plainBody, said, left, String.ofList_toList]
  cases Value.Reader.arguments (',' :: cs) <;> rfl

theorem ofLine_of_comma_ok_iff (hmarker : kind.marker? = some marker)
    (plain : kind.isStream = false) {what : String} (hwhat : ',' ∉ what.toList) {line : String}
    {cs : List Char} (hline : line.toList = marker :: (what.toList ++ ',' :: cs)) {m : Message} :
    ofLine line = .ok m ↔ ∃ args, m = ⟨none, ⟨kind, what, args⟩⟩ ∧
      Value.Reader.arguments (',' :: cs) = .ok (.tuple args, []) := by
  rw [ofLine_of_comma hmarker plain hwhat hline]
  cases read : Value.Reader.arguments (',' :: cs) with
  | error f => simp
  | ok r =>
    obtain ⟨v, rest⟩ := r
    obtain ⟨rfl, fields, -, -, -, rfl⟩ := Value.Reader.arguments_ok_iff.mp read
    simp [Value.fields?, eq_comm]

/-- For all records that have arguments, whatever they say, and for every text: the text is read as
the arguments of the record exactly if it is read, in braces, as a tuple and to its end, and the
fields are then the same. Nothing else is read from the line, and where the text in braces is no
tuple the line is refused. -/
theorem arguments_are_read_as_a_tuple (hmarker : kind.marker? = some marker)
    (plain : kind.isStream = false) (what text : String) (hwhat : ',' ∉ what.toList)
    (htext : text ≠ "") :
    let line := String.singleton marker ++ what ++ "," ++ text
    let braced := "\x7b" ++ text ++ "\x7d"
    (∀ args, ofLine line = .ok ⟨none, ⟨kind, what, args⟩⟩ ↔
        Value.tupleOfText braced = .ok (.tuple args, "")) ∧
      (∀ m, ofLine line = .ok m →
        m.token = none ∧ m.record.kind = kind ∧ m.record.what = what) ∧
      ((∃ flaw, ofLine line = .error flaw) ↔
        ∀ args, Value.tupleOfText braced ≠ .ok (.tuple args, "")) := by
  intro line braced
  have hline : line.toList = marker :: (what.toList ++ ',' :: text.toList) := by
    simp [line]
  have hbraced : braced.toList = '{' :: (text.toList ++ ['}']) := by
    simp [braced]
  have nonempty : text.toList ≠ [] := fun none => htext (String.toList_eq_nil_iff.mp none)
  have read : ∀ m, ofLine line = .ok m ↔ ∃ args, m = ⟨none, ⟨kind, what, args⟩⟩ ∧
      Value.tupleOfText braced = .ok (.tuple args, "") := by
    intro m
    simp only [ofLine_of_comma_ok_iff hmarker plain hwhat hline, Value.tupleOfText,
      Value.readPrefix_ok_iff, hbraced, String.toList_empty,
      Value.Reader.arguments_ok_iff_tuple_ok nonempty]
  refine ⟨fun args => ?_, fun m h => ?_, ?_⟩
  · rw [read]
    simp
  · obtain ⟨args, rfl, -⟩ := (read m).mp h
    exact ⟨rfl, rfl, rfl⟩
  · constructor
    · rintro ⟨flaw, refused⟩ args accepted
      have taken := (read _).mpr ⟨args, rfl, accepted⟩
      rw [refused] at taken
      cases taken
    · intro none
      cases h : ofLine line with
      | error flaw => exact ⟨flaw, rfl⟩
      | ok m =>
        obtain ⟨args, -, accepted⟩ := (read m).mp h
        exact absurd accepted (none args)

/-- A key that comes twice, a brace of its own inside, and a brace too many. -/
theorem nested_and_over_closed_arguments :
    ofLine "^done,a=\x7bb=\"1\"\x7d,a=[]" = .ok ⟨none, ⟨.result, "done", [("a", .list [])]⟩⟩ ∧
      ∃ flaw, ofLine "^done,a=\"1\"\x7d" = .error flaw := by
  obtain ⟨nested, -, -⟩ := @arguments_are_read_as_a_tuple .result '^' rfl rfl "done"
    "a=\x7bb=\"1\"\x7d,a=[]" (by decide) (by decide)
  obtain ⟨-, -, closed⟩ := @arguments_are_read_as_a_tuple .result '^' rfl rfl "done"
    "a=\"1\"\x7d" (by decide) (by decide)
  refine ⟨(nested [("a", .list [])]).mpr rfl, closed.mpr fun args h => ?_⟩
  have left : Value.tupleOfText "\x7ba=\"1\"\x7d\x7d" =
      .ok (.tuple [("a", .const "1")], "\x7d") := rfl
  simp [left] at h

end Message

end DebugLink
