import DebugLink.Proofs.Framing
import DebugLink.Proofs.Record.RoundTrip

/-! Records on a stream of octets. Each is written with a line feed behind it, and the octets may be
cut anywhere. Two things could spoil this: a line feed inside a line, and a carriage return at its
end. Quoting keeps line feeds out of texts, and a written value ends with the character that closes
it. So only keys and what a record says outside quotes can let either of them in. -/

namespace DebugLink

/-! ### ASCII among octets -/

namespace Utf8

/-- An octet of ASCII is a character by itself and takes part in no other. -/
theorem eq_of_mem_utf8EncodeChar {c : Char} {b : UInt8} (hb : b ∈ String.utf8EncodeChar c)
    (ascii : b.toNat < 0x80) : c = Char.ofNat b.toNat := by
  have high : ∀ n, 0x80 ≤ n → n < 256 → b ≠ UInt8.ofNat n := by
    intro n low lt he
    rw [he, UInt8.toNat_ofNat_of_lt' lt] at ascii
    omega
  unfold String.utf8EncodeChar at hb
  dsimp only at hb
  split at hb
  · have small : c.val.toNat < 256 := by omega
    rw [List.mem_singleton.mp hb, UInt8.toNat_ofNat_of_lt' small]
    exact (Char.ofNat_toNat c).symm
  split at hb
  · simp only [List.mem_cons, List.not_mem_nil, or_false] at hb
    rcases hb with hb | hb <;> exact absurd hb (high _ (by omega) (by omega))
  split at hb
  · simp only [List.mem_cons, List.not_mem_nil, or_false] at hb
    rcases hb with hb | hb | hb <;> exact absurd hb (high _ (by omega) (by omega))
  · simp only [List.mem_cons, List.not_mem_nil, or_false] at hb
    rcases hb with hb | hb | hb | hb <;> exact absurd hb (high _ (by omega) (by omega))

theorem mem_of_mem_encodeChars {cs : List Char} {b : UInt8} (hb : b ∈ encodeChars cs)
    (ascii : b.toNat < 0x80) : Char.ofNat b.toNat ∈ cs := by
  obtain ⟨c, hc, hb⟩ := List.mem_flatMap.mp hb
  rw [← eq_of_mem_utf8EncodeChar hb ascii]
  exact hc

theorem getLast?_of_getLast?_encodeChars {cs : List Char} {b : UInt8}
    (hb : (encodeChars cs).getLast? = some b) (ascii : b.toNat < 0x80) :
    cs.getLast? = some (Char.ofNat b.toNat) := by
  rcases List.eq_nil_or_concat cs with rfl | ⟨init, c, rfl⟩
  · cases hb
  · have octets : encodeChars (init ++ [c]) = encodeChars init ++ String.utf8EncodeChar c := by
      simp [encodeChars]
    have last := List.getLast?_eq_some_getLast (String.utf8EncodeChar_ne_nil (c := c))
    rw [List.concat_eq_append, octets, List.getLast?_append, last, Option.some_or,
      Option.some.injEq] at hb
    have inside : b ∈ String.utf8EncodeChar c := hb ▸ List.getLast_mem _
    rw [List.concat_eq_append, List.getLast?_concat, eq_of_mem_utf8EncodeChar inside ascii]

end Utf8

/-! ### Written records keep to their lines -/

namespace Text.Quoted

theorem newline_not_mem_char (c : Char) : '\n' ∉ char c := by
  have digit : ∀ n, '\n' ≠ octalDigit n := by
    intro n he
    have octal := Grammar.isOctal_octalDigit n
    rw [← he] at octal
    exact absurd octal (by decide)
  unfold char
  split
  · decide
  · decide
  · decide
  · decide
  · decide
  · rename_i hc _ _
    dsimp only
    split
    · simp [digit]
    · simpa using Ne.symm hc

theorem newline_not_mem_chars (s : String) : '\n' ∉ chars s := by
  simp [chars, newline_not_mem_char]

theorem getLast?_chars (s : String) : (chars s).getLast? = some '"' := List.getLast?_concat ..

end Text.Quoted

namespace Value

/-- No key of a tuple in the value has a line feed in it. -/
def Unbroken (v : Value) : Prop := v.Throughout fun fields => ∀ e ∈ fields, '\n' ∉ e.1.toList

instance (v : Value) : Decidable v.Unbroken := inferInstanceAs (Decidable (v.Throughout _))

theorem newline_not_mem_separated {texts : List (List Char)} (h : ∀ text ∈ texts, '\n' ∉ text) :
    '\n' ∉ Grammar.separated texts := by
  cases texts with
  | nil => simp
  | cons text texts =>
    rw [Grammar.separated_cons]
    simp only [List.mem_append, List.mem_flatMap, List.mem_cons, not_or, not_exists, not_and]
    refine ⟨h text List.mem_cons_self, fun t ht => ⟨by decide, ?_⟩⟩
    exact h t (List.mem_cons_of_mem _ ht)

theorem newline_not_mem_fieldChars {e : String × Value} (key : '\n' ∉ e.1.toList)
    (value : '\n' ∉ e.2.chars) : '\n' ∉ (field e).chars := by
  simp [Grammar.Field.chars, field, key, value]

theorem newline_not_mem_chars {v : Value} (h : v.Unbroken) : '\n' ∉ v.chars := by
  induction v using Value.induct with
  | const text => exact Text.Quoted.newline_not_mem_chars text
  | list items ih =>
    have inside : '\n' ∉ itemsChars items := by
      rw [itemsChars_eq]
      refine newline_not_mem_separated (List.forall_mem_map.mpr fun v hv => ?_)
      exact ih v hv (throughout_list_iff.mp h v hv)
    simp [chars, inside]
  | tuple fields ih =>
    obtain ⟨keys, values⟩ := throughout_tuple_iff.mp h
    have inside : '\n' ∉ fieldsChars fields := by
      rw [fieldsChars_eq, List.map_map]
      refine newline_not_mem_separated (List.forall_mem_map.mpr fun e he => ?_)
      exact newline_not_mem_fieldChars (keys e he) (ih e he (values e he))
    simp [chars, inside]

theorem getLast?_chars (v : Value) : ∃ c, v.chars.getLast? = some c ∧ c ≠ '\r' := by
  cases v with
  | const text => exact ⟨'"', Text.Quoted.getLast?_chars text, by decide⟩
  | list items => exact ⟨']', List.getLast?_concat .., by decide⟩
  | tuple fields => exact ⟨'}', List.getLast?_concat .., by decide⟩

/-- The arguments of a record end as the last of them does. -/
theorem getLast?_fieldsChars (fields : Fields) (h : fields ≠ []) :
    ∃ c, (fieldsChars fields).getLast? = some c ∧ c ≠ '\r' := by
  match fields with
  | [(k, v)] =>
    obtain ⟨c, last, other⟩ := v.getLast?_chars
    exact ⟨c, by simp [fieldsChars, List.getLast?_append, List.getLast?_cons, last], other⟩
  | (k, v) :: e :: es =>
    obtain ⟨c, last, other⟩ := getLast?_fieldsChars (e :: es) (List.cons_ne_nil _ _)
    exact ⟨c, by simp [fieldsChars, List.getLast?_append, List.getLast?_cons, last], other⟩

end Value

namespace Message

/-- Neither a line feed in a key or outside quotes, nor a carriage return at the end of the line. -/
def Unbroken (m : Message) : Prop :=
  (Value.tuple m.record.args).Unbroken ∧
    (m.record.kind.isStream = false → '\n' ∉ m.record.what.toList ∧
      (m.record.args = [] → m.record.what.toList.getLast? ≠ some '\r'))

instance (m : Message) : Decidable m.Unbroken :=
  inferInstanceAs (Decidable (_ ∧ (_ → _ ∧ (_ → _))))

theorem newline_not_mem_tokenChars (m : Message) : '\n' ∉ m.tokenChars := by
  unfold tokenChars
  split
  · simp
  · simp
  · intro hn
    have digit := Grammar.isDigit_of_mem_chars hn
    simp at digit

theorem newline_not_mem_argsChars {args : Fields} (h : (Value.tuple args).Unbroken) :
    '\n' ∉ Record.argsChars args := by
  obtain ⟨keys, values⟩ := Value.throughout_tuple_iff.mp h
  rw [Grammar.argsChars_eq, List.flatMap_map]
  simp only [List.mem_flatMap, List.mem_cons, not_exists, not_and, not_or]
  refine fun e he => ⟨by decide, ?_⟩
  exact Value.newline_not_mem_fieldChars (keys e he) (Value.newline_not_mem_chars (values e he))

theorem marker_ne {kind : Kind} {marker : Char} (h : kind.marker? = some marker) :
    marker ≠ '\n' ∧ marker ≠ '\r' := by
  cases kind <;> simp [Kind.marker?] at h <;> subst h <;> decide

theorem newline_not_mem_chars {m : Message} (h : m.Unbroken) : '\n' ∉ m.chars := by
  obtain ⟨keys, outside⟩ := h
  rw [chars, List.mem_append, not_or]
  refine ⟨m.newline_not_mem_tokenChars, ?_⟩
  unfold Record.chars
  split
  · decide
  · rename_i marker hm
    have mark := Ne.symm (marker_ne hm).1
    split
    · simp [mark, Text.Quoted.newline_not_mem_chars]
    · rename_i hs
      obtain ⟨what, -⟩ := outside (by simpa using hs)
      simp [mark, what, newline_not_mem_argsChars keys]

theorem getLast?_recordChars {m : Message} (h : m.Unbroken) :
    ∃ c, m.record.chars.getLast? = some c ∧ c ≠ '\r' := by
  unfold Record.chars
  split
  · exact ⟨')', rfl, by decide⟩
  · rename_i marker hm
    split
    · exact ⟨'"', by simp [List.getLast?_cons, Text.Quoted.getLast?_chars], by decide⟩
    · rename_i hs
      obtain ⟨-, ending⟩ := h.2 (by simpa using hs)
      cases ha : m.record.args with
      | nil =>
        have other := ending ha
        cases hw : m.record.what.toList.getLast? with
        | none => exact ⟨marker, by simp_all [Record.argsChars], (marker_ne hm).2⟩
        | some c =>
          refine ⟨c, by simp [Record.argsChars, List.getLast?_cons, hw], ?_⟩
          rintro rfl
          exact other hw
      | cons e es =>
        obtain ⟨c, last, other⟩ := Value.getLast?_fieldsChars (e :: es) (List.cons_ne_nil _ _)
        refine ⟨c, ?_, other⟩
        simp [Record.argsChars, List.getLast?_append, List.getLast?_cons, last]

theorem getLast?_chars_ne {m : Message} (h : m.Unbroken) : m.chars.getLast? ≠ some '\r' := by
  obtain ⟨c, last, other⟩ := getLast?_recordChars h
  rw [chars, List.getLast?_append, last]
  simpa using other

/-! ### Lines of records -/

open LineBuffer

/-- What a record is written as on a stream. -/
def segment (m : Message) : Octets := Utf8.encode m.line

theorem encode_line_newline (m : Message) :
    Utf8.encode (m.line ++ "\n") = m.segment ++ [lineFeed] := by
  rw [Utf8.encode_append]
  rfl

theorem lineFeed_not_mem_segment {m : Message} (h : m.Unbroken) : lineFeed ∉ m.segment := by
  intro hm
  rw [segment, line, Utf8.encode, String.toList_ofList] at hm
  exact newline_not_mem_chars h (Utf8.mem_of_mem_encodeChars hm (by decide))

/-- Nothing of the line is taken for a part of its end. -/
theorem decode_dropReturn_segment {m : Message} (h : m.Unbroken) :
    Utf8.decode (dropReturn m.segment) = m.line := by
  have last : m.segment.getLast? ≠ some carriageReturn := by
    intro hl
    rw [segment, line, Utf8.encode, String.toList_ofList] at hl
    exact getLast?_chars_ne h (Utf8.getLast?_of_getLast?_encodeChars hl (by decide))
  rw [dropReturn, if_neg last, segment, Utf8.decode_encode]

/-- Records with a line feed behind each of them. -/
def stream (ms : List Message) : Octets := ms.flatMap fun m => Utf8.encode (m.line ++ "\n")

theorem stream_eq (ms : List Message) : stream ms = joined (ms.map segment) := by
  rw [stream, joined, List.flatMap_map]
  simp only [encode_line_newline]

theorem segments_stream {ms : List Message} (h : ∀ m ∈ ms, m.Unbroken) :
    segments (stream ms) = ms.map segment := by
  have unbroken : ∀ octets ∈ ms.map segment, lineFeed ∉ octets :=
    List.forall_mem_map.mpr fun m hm => lineFeed_not_mem_segment (h m hm)
  have whole := segments_joined_append unbroken []
  rw [List.append_nil, segments_of_not_mem List.not_mem_nil, List.append_nil] at whole
  rw [stream_eq, whole]

theorem completeLines_stream {ms : List Message} (h : ∀ m ∈ ms, m.Unbroken) :
    completeLines (stream ms) = ms.map line := by
  rw [completeLines, segments_stream h, List.map_map]
  exact List.map_congr_left fun m hm => decode_dropReturn_segment (h m hm)

theorem ofLine_lines {ms : List Message} (h : ∀ m ∈ ms, m.Proper ∧ m.Representable) :
    (ms.map line).map ofLine = ms.map .ok := by
  rw [List.map_map]
  refine List.map_congr_left fun m hm => ?_
  rw [Function.comp_apply, ofLine_line (h m hm).1 (h m hm).2]

/-- The lines that have been taken are those of the first records. -/
theorem lines_of_splits {ms : List Message} (h : ∀ m ∈ ms, m.Unbroken) {lines : List String}
    {rest : Octets} (splits : Splits (stream ms) lines rest) :
    lines = (ms.take lines.length).map line := by
  have complete := splits.completeLines_eq
  rw [completeLines_stream h] at complete
  rw [List.map_take, complete, List.take_left]

/-- Once no line is left, nothing is. -/
theorem all_of_splits {ms : List Message} (h : ∀ m ∈ ms, m.Unbroken) {lines : List String}
    {rest : Octets} (splits : Splits (stream ms) lines rest) (none : lineFeed ∉ rest) :
    lines = ms.map line ∧ rest = [] := by
  have complete := splits.completeLines_eq
  rw [completeLines_stream h, completeLines_of_not_mem none, List.append_nil] at complete
  have front := splits.front_eq
  rw [segments_stream h, ← complete, List.length_map, ← List.map_take, List.take_length,
    stream_eq] at front
  exact ⟨complete.symm, List.self_eq_append_right.mp front⟩

/-- Records that can be written on lines of their own come through, wherever the octets are cut and
whenever lines are taken: at every moment the lines taken are those of the first records, and when
all lines have been taken, of all records, with nothing left behind. -/
theorem streams_are_read_back (ms : List Message)
    (h : ∀ m ∈ ms, m.Proper ∧ m.Representable ∧ m.Unbroken) (uses : List Use)
    (whole : uses.flatMap Use.octets = stream ms) :
    let lines := (run {} uses).1
    let all := run {} (uses ++ [.lines none])
    lines.map ofLine = (ms.take lines.length).map .ok ∧
      all.1.map ofLine = ms.map .ok ∧ all.2.octets = [] := by
  intro lines all
  have readable : ∀ m ∈ ms, m.Proper ∧ m.Representable := fun m hm => ⟨(h m hm).1, (h m hm).2.1⟩
  have unbroken : ∀ m ∈ ms, m.Unbroken := fun m hm => (h m hm).2.2
  constructor
  · have splits : Splits (stream ms) lines (run {} uses).2.octets := whole ▸ splits_run {} uses
    have first := lines_of_splits unbroken splits
    rw [← ofLine_lines fun m hm => readable m (List.mem_of_mem_take hm), ← first]
  · have octets : (uses ++ [Use.lines none]).flatMap Use.octets = stream ms := by
      rw [List.flatMap_append, whole]
      exact List.append_nil _
    have splits : Splits (stream ms) all.1 all.2.octets := octets ▸ splits_run {} _
    have nothing : lineFeed ∉ all.2.octets := next?_eq_none_iff.mp (next?_run_concat {} uses)
    obtain ⟨lines, rest⟩ := all_of_splits unbroken splits nothing
    rw [lines, ofLine_lines readable]
    exact ⟨rfl, rest⟩

/-- A result with a line feed and a carriage return in its value, console text and the terminator. -/
def dialogue : List Message :=
  [⟨some ⟨7⟩, ⟨.result, "done", [("value", .const "a\nb\r")]⟩⟩, ⟨none, ⟨.consoleStream, "é\n", []⟩⟩,
    ⟨none, .terminator⟩]

/-- It arrives in three pieces, two of them cut inside a line, and a line is asked for after each. -/
def dialogueUses : List Use :=
  [.push ((stream dialogue).take 12), .next, .push (((stream dialogue).drop 12).take 20), .next,
    .push (((stream dialogue).drop 12).drop 20), .next]

theorem dialogue_is_read_back :
    (∀ m ∈ dialogue, m.Proper ∧ m.Representable ∧ m.Unbroken) ∧
      dialogueUses.flatMap Use.octets = stream dialogue ∧
      let lines := (run {} dialogueUses).1
      let all := run {} (dialogueUses ++ [.lines none])
      lines.map ofLine = (dialogue.take lines.length).map .ok ∧
        all.1.map ofLine = dialogue.map .ok ∧ all.2.octets = [] := by
  have fit : ∀ m ∈ dialogue, m.Proper ∧ m.Representable ∧ m.Unbroken := by
    rw [dialogue, List.forall_mem_cons, List.forall_mem_cons, List.forall_mem_singleton]
    exact ⟨by decide, by decide, by decide⟩
  have whole : dialogueUses.flatMap Use.octets = stream dialogue := by
    simp only [dialogueUses, List.flatMap_cons, List.flatMap_nil, Use.octets, List.nil_append,
      List.append_nil, List.take_append_drop]
  exact ⟨fit, whole, streams_are_read_back dialogue fit dialogueUses whole⟩

end Message
end DebugLink
