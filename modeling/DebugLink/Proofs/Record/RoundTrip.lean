import DebugLink.Proofs.Record.Frame
import DebugLink.Proofs.Value.Writing

/-! Which records survive being written and read. What is read always has a token of 64 bits and
ordered arguments, and then only some records: a line has no place for the arguments of a stream
record or for anything but the mark of a terminator, and a comma ends what a record says. These
are the only accidents, so the records that can be read are those that are read back. The same goes
for values by themselves, in which only keys can fail to be read back. -/

namespace DebugLink

namespace Message

/-- All fields stand in the order of their keys. -/
def Proper (m : Message) : Prop := (Value.tuple m.record.args).Ordered

instance (m : Message) : Decidable m.Proper :=
  inferInstanceAs (Decidable (Value.tuple m.record.args).Ordered)

/-- A line has a place for everything that the record consists of. -/
def Representable (m : Message) : Prop :=
  if m.record.kind = .terminator then m.token = none ∧ m.record.what = "" ∧ m.record.args = []
  else if m.record.kind.isStream then m.record.args = []
  else ',' ∉ m.record.what.toList ∧ (Value.tuple m.record.args).Keyed

instance (m : Message) : Decidable m.Representable := inferInstanceAs (Decidable (ite ..))

end Message

namespace Grammar

/-! ### Written records are framed -/

theorem isDigit_of_mem_chars {t : Token} {d : Char} (h : d ∈ t.chars) : d.isDigit = true := by
  rcases List.mem_append.mp h with h | h
  · rw [(List.mem_replicate.mp h).2]
    decide
  · exact Decimal.isDigit_of_mem_chars h

theorem ofDigitChars_chars (t : Token) : Nat.ofDigitChars 10 t.chars 0 = t.number := by
  rw [Token.chars, Decimal.padded, Nat.ofDigitChars_append, Nat.ofDigitChars_replicate_zero,
    Nat.mul_zero]
  exact Nat.ofDigitChars_ten_toDigits

/-- Zeros in front of a token do not count. -/
theorem counts_chars (t : Token) : Counts t.chars (some t) := by
  have nonempty : t.chars ≠ [] := by
    intro none
    exact Nat.toDigits_ne_nil (List.append_eq_nil_iff.mp none).2
  have counts := Counts.some nonempty (fun _ hd => isDigit_of_mem_chars hd)
    (by rw [ofDigitChars_chars]; exact t.number_lt)
  rw [ofDigitChars_chars, Token.ofNumber_number] at counts
  exact counts

theorem counts_tokenChars {m : Message} (hk : m.record.kind ≠ .terminator) :
    Counts m.tokenChars m.token := by
  obtain ⟨token, record⟩ := m
  cases token with
  | none =>
    have bare : Message.tokenChars ⟨none, record⟩ = [] := by
      unfold Message.tokenChars
      split <;> first | rfl | contradiction
    rw [bare]
    exact .none
  | some t =>
    have carried : Message.tokenChars ⟨some t, record⟩ = t.chars := by
      unfold Message.tokenChars
      split <;> simp_all
    rw [carried]
    exact counts_chars t

theorem Kind.exists_marker {kind : Kind} (h : kind ≠ .terminator) :
    ∃ marker, kind.marker? = some marker := by
  cases kind with
  | terminator => contradiction
  | _ => exact ⟨_, rfl⟩

theorem argsChars_eq (args : Fields) :
    Record.argsChars args = (args.map Value.field).flatMap (',' :: ·.chars) := by
  cases args with
  | nil => rfl
  | cons e es =>
    have printed : Record.argsChars (e :: es) = ',' :: Value.fieldsChars (e :: es) := rfl
    rw [printed, Value.fieldsChars_eq, List.map_cons, List.map_cons, separated_cons,
      List.flatMap_cons, List.flatMap_map, List.cons_append]

theorem frames_chars {m : Message} (ho : m.Proper) (hr : m.Representable) : Frames m.chars m := by
  obtain ⟨token, kind, what, args⟩ := m
  unfold Message.Representable at hr
  dsimp only at hr
  split at hr
  · rename_i hkind
    obtain ⟨rfl, rfl, rfl⟩ := hr
    subst hkind
    exact .terminator (by simp)
  · rename_i hkind
    obtain ⟨marker, hmarker⟩ := Kind.exists_marker hkind
    have counts := counts_tokenChars (m := ⟨token, kind, what, args⟩) hkind
    split at hr
    · rename_i hs
      subst hr
      have body := derives_chars (Value.throughout_const what) (Value.throughout_const what)
      have chars : Record.chars ⟨kind, what, []⟩ = marker :: (Value.const what).chars := by
        simp [Record.chars, hmarker, hs, Value.chars]
      rw [Message.chars, chars]
      exact .stream counts hmarker hs body
    · rename_i hs
      obtain ⟨hwhat, hk⟩ := hr
      -- Fields that are read are put in order; those of a proper record stand so already.
      obtain ⟨sorted, ordered⟩ := Value.throughout_tuple_iff.mp ho
      obtain ⟨keys, keyed⟩ := Value.throughout_tuple_iff.mp hk
      have chars : Record.chars ⟨kind, what, args⟩ =
          marker :: (what.toList ++ (args.map Value.field).flatMap (',' :: ·.chars)) := by
        simp [Record.chars, hmarker, hs, argsChars_eq]
      have framed := Frames.plain (args.map Value.field) counts hmarker (by simpa using hs) hwhat
        (List.forall_mem_map.mpr keys)
        (List.forall_mem_map.mpr fun e he => derives_chars (ordered e he) (keyed e he))
      rw [Value.map_entry_field, Entries.ofList_of_sorted sorted] at framed
      rw [Message.chars, chars]
      exact framed

/-! ### Framed records can be written -/

theorem Kind.ne_terminator {kind : Kind} {marker : Char} (h : kind.marker? = some marker) :
    kind ≠ .terminator := by
  rintro rfl
  cases h

theorem ordered_nil : (Value.tuple []).Ordered :=
  Value.throughout_tuple_iff.mpr ⟨Entries.Sorted.nil, by simp⟩

theorem Frames.proper {cs : List Char} {m : Message} (h : Frames cs m) : m.Proper := by
  cases h with
  | terminator | stream _ _ _ _ => exact ordered_nil
  | plain fields _ _ _ _ _ values =>
    exact ordered_ofList fun f hf => (values f hf).ordered_keyed.1

theorem Frames.representable {cs : List Char} {m : Message} (h : Frames cs m) :
    m.Representable := by
  unfold Message.Representable
  cases h with
  | terminator => exact ⟨rfl, rfl, rfl⟩
  | stream _ hmarker hs =>
    rw [if_neg (Kind.ne_terminator hmarker), if_pos hs]
  | plain fields _ hmarker hs hwhat keys values =>
    rw [if_neg (Kind.ne_terminator hmarker), if_neg (by simp [hs])]
    exact ⟨hwhat, keyed_ofList keys fun f hf => (values f hf).ordered_keyed.2⟩

end Grammar

namespace Message
open Grammar

theorem ofLine_line {m : Message} (hp : m.Proper) (hr : m.Representable) :
    ofLine m.line = .ok m := by
  rw [ofLine_ok_iff, line, String.toList_ofList]
  exact frames_chars hp hr

/-- The records that can be read at all. -/
theorem exists_line_iff {m : Message} :
    (∃ line, ofLine line = .ok m) ↔ m.Proper ∧ m.Representable := by
  constructor
  · intro h
    obtain ⟨line, h⟩ := h
    have framed := ofLine_ok_iff.mp h
    exact ⟨framed.proper, framed.representable⟩
  · intro h
    obtain ⟨hp, hr⟩ := h
    exact ⟨m.line, ofLine_line hp hr⟩

/-- A record is read back from its line exactly if everything in it has a place there. -/
theorem reads_back_iff_representable (m : Message) :
    ofLine m.line = .ok m ↔ m.Proper ∧ m.Representable := by
  constructor
  · intro h
    exact exists_line_iff.mp ⟨m.line, h⟩
  · intro h
    obtain ⟨hp, hr⟩ := h
    exact ofLine_line hp hr

end Message

/-- Reading a value leaves none of the accidents in it, so its own written form is read to the end. -/
theorem Value.ofText_toText {src rest : String} {v : Value} (h : Value.ofText src = .ok (v, rest)) :
    Value.ofText v.toText = .ok (v, "") := by
  have reads : Value.ReadsWritten Value.ofText fun _ => True :=
    Value.readPrefix_readsWritten (by simp [Value.Reader.value_ok_iff])
  obtain ⟨s, -, derived, -⟩ := (reads.accepts src v rest).mp h
  obtain ⟨ordered, keyed⟩ := derived.ordered_keyed
  refine (reads.accepts v.toText v "").mpr ⟨v.toText, String.append_empty.symm, ?_, trivial⟩
  rw [Value.toText, String.toList_ofList]
  exact Grammar.derives_chars ordered keyed

/-- Whatever a line is read as, the line written for it is read as the same record. Whatever a text
begins with as a value, the text written for this value is read as the same, with nothing left. -/
theorem what_was_read_reads_back :
    (∀ line m, Message.ofLine line = .ok m → Message.ofLine m.line = .ok m) ∧
      ∀ src v rest, Value.ofText src = .ok (v, rest) → Value.ofText v.toText = .ok (v, "") := by
  constructor
  · intro line m h
    obtain ⟨proper, representable⟩ := Message.exists_line_iff.mp ⟨line, h⟩
    exact Message.ofLine_line proper representable
  · intro src v rest h
    exact Value.ofText_toText h

/-- A padded token, a key that comes twice, a list element with a key, and octets that are no text
are not written as they were read. -/
theorem odd_line_reads_back :
    let line := "000007^done,b=\"1\",a=[k=\"\\101\\377\"],b=\"2\""
    let m : Message := ⟨some ⟨7⟩, ⟨.result, "done",
      [("a", .list [.tuple [("k", .const "A\uFFFD")]]), ("b", .const "2")]⟩⟩
    let list := Value.list [.tuple [("k", .const "A\uFFFD")]]
    Message.ofLine line = .ok m ∧ m.line = "0007^done,a=[\x7bk=\"A\uFFFD\"\x7d],b=\"2\"" ∧
      Message.ofLine m.line = .ok m ∧
      Value.ofText "[k=\"\\101\\377\"]]" = .ok (list, "]") ∧
      Value.ofText list.toText = .ok (list, "") := by
  intro line m list
  have read : Message.ofLine line = .ok m := by
    unfold line m
    rfl
  have value : Value.ofText "[k=\"\\101\\377\"]]" = .ok (list, "]") := rfl
  exact ⟨read, by decide, what_was_read_reads_back.1 line m read, value,
    what_was_read_reads_back.2 _ list "]" value⟩

end DebugLink
