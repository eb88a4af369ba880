import DebugLink.Proofs.Record.RoundTrip
import DebugLink.Proofs.Text.Order
import DebugLink.Proofs.Value.Rearranging

/-! The order of fields does not matter, in the arguments of a record as in tuples. Only of fields
with one key does the last count. So lines that differ in the order of fields are read as one
record, and the line that is written for it shows the order that all of them come to: keys ascend
as their octets do. -/

namespace DebugLink

namespace Grammar

/-- Texts with commas between them, in braces. -/
def braced (texts : List (List Char)) : String := String.ofList ('{' :: (separated texts ++ ['}']))

/-- A line that says something and goes on with texts, each after a comma. -/
def plainLine (digits : List Char) (marker : Char) (what : String) (texts : List (List Char)) :
    String :=
  String.ofList (digits ++ marker :: (what.toList ++ texts.flatMap (',' :: ·)))

/-- A written form in which the keys of every tuple ascend in the order of their octets. -/
inductive Ascending : List Char → Prop
  | const {cs : List Char} {bs : Octets} : Spells cs bs → Ascending ('"' :: (cs ++ ['"']))
  | list (texts : List (List Char)) :
      (∀ text ∈ texts, Ascending text) → Ascending ('[' :: (separated texts ++ [']']))
  | tuple (fields : List (String × List Char)) :
      (∀ f ∈ fields, IsKey f.1) →
      (fields.Pairwise fun f g => Utf8.encode f.1 < Utf8.encode g.1) →
      (∀ f ∈ fields, Ascending f.2) →
      Ascending ('{' :: (separated (fields.map fun f => under f.1 f.2) ++ ['}']))

/-- Keys with the printed values that stand under them. -/
def written (fields : Fields) : List (String × List Char) := fields.map fun e => (e.1, e.2.chars)

theorem pairwise_written {fields : Fields} (h : Entries.Sorted fields) :
    (written fields).Pairwise fun f g => Utf8.encode f.1 < Utf8.encode g.1 := by
  refine List.pairwise_map.mpr (h.imp ?_)
  intro e f lt
  exact Utf8.encode_lt lt

theorem map_under_written (fields : Fields) :
    ((written fields).map fun f => under f.1 f.2) =
      (fields.map Value.field).map Field.chars := by
  rw [written, List.map_map, List.map_map]
  rfl

/-- What is printed shows the order in which the fields are kept. -/
theorem ascending_chars {v : Value} (ho : v.Ordered) (hk : v.Keyed) : Ascending v.chars := by
  induction v using Value.induct with
  | const text =>
    have quoted := Ascending.const (spells_quoted text.toList)
    exact quoted
  | list items ih =>
    have texts := Ascending.list (items.map Value.chars) (List.forall_mem_map.mpr fun v hv =>
      ih v hv (Value.throughout_list_iff.mp ho v hv) (Value.throughout_list_iff.mp hk v hv))
    rw [← Value.itemsChars_eq] at texts
    exact texts
  | tuple fields ih =>
    obtain ⟨sorted, ordered⟩ := Value.throughout_tuple_iff.mp ho
    obtain ⟨keys, keyed⟩ := Value.throughout_tuple_iff.mp hk
    have texts := Ascending.tuple (written fields) (List.forall_mem_map.mpr keys)
      (pairwise_written sorted)
      (List.forall_mem_map.mpr fun e he => ih e he (ordered e he) (keyed e he))
    rw [map_under_written, ← Value.fieldsChars_eq] at texts
    exact texts

theorem find?_ofList_entries (key : String) (fields : List Field) :
    Entries.find? key (Entries.ofList (fields.map Field.entry)) =
      (fields.reverse.find? (·.key = key)).map Field.value := by
  have test : ((fun p : String × Value => decide (compare key p.1 = .eq)) ∘ Field.entry) =
      (decide <| ·.key = key) := by
    funext f
    exact decide_eq_decide.mpr (Std.LawfulEqCmp.compare_eq_iff_eq.trans eq_comm)
  rw [Entries.find?_ofList, ← List.map_reverse, List.find?_map, test, Option.map_map]
  rfl

end Grammar

namespace Value
open Grammar

theorem ofText_ok_iff {text : List Char} {v : Value} :
    ofText (String.ofList text) = .ok (v, "") ↔ Derives text v := by
  rw [ofText, readPrefix_ok_iff, Reader.value_ok_iff, String.toList_ofList]
  simp

theorem tupleOfText_braced {fields : List Field} (keys : ∀ f ∈ fields, IsKey f.key)
    (values : ∀ f ∈ fields, Derives f.text f.value) :
    tupleOfText (braced (fields.map Field.chars)) =
      .ok (.tuple (Entries.ofList (fields.map Field.entry)), "") := by
  rw [tupleOfText, readPrefix_ok_iff, braced, String.toList_ofList]
  exact Reader.tuple_ok_iff.mpr ⟨_, (List.append_nil _).symm, .tuple fields keys values, rfl⟩

end Value

namespace Message
open Grammar

variable {digits : List Char} {token : Option Token} {kind : Kind} {marker : Char}

theorem ofLine_plainLine {α : Type} (parts : List α) (key : α → String) (text : α → List Char)
    (value : α → Value) (counts : Counts digits token) (hmarker : kind.marker? = some marker)
    (plain : kind.isStream = false) {what : String} (hwhat : ',' ∉ what.toList)
    (keys : ∀ p ∈ parts, IsKey (key p)) (values : ∀ p ∈ parts, Derives (text p) (value p)) :
    ofLine (plainLine digits marker what (parts.map fun p => under (key p) (text p))) =
      .ok ⟨token, ⟨kind, what, Entries.ofList (parts.map fun p => (key p, value p))⟩⟩ := by
  have framed := Frames.plain (parts.map fun p => ⟨key p, text p, value p⟩) counts hmarker plain
    hwhat (List.forall_mem_map.mpr keys) (List.forall_mem_map.mpr values)
  rw [List.flatMap_map, List.map_map] at framed
  rw [ofLine_ok_iff, plainLine, String.toList_ofList, List.flatMap_map]
  exact framed

/-- Lines whose arguments are the same but for the order of fields, at any depth. -/
theorem ofLine_rearranged (counts : Counts digits token) (hmarker : kind.marker? = some marker)
    (plain : kind.isStream = false) {what : String} (hwhat : ',' ∉ what.toList)
    {parts parts' : List (Revision String)} (keys : ∀ p ∈ parts, IsKey p.key)
    (texts : ∀ p ∈ parts, Rearranged p.before p.after)
    (order : Reordered Revision.key parts parts') :
    ∃ m,
      ofLine (plainLine digits marker what (parts.map fun p => under p.key p.before)) = .ok m ∧
      ofLine (plainLine digits marker what (parts'.map fun p => under p.key p.after)) = .ok m := by
  have derived : ∀ p ∈ parts, ∃ v, Derives p.before v ∧ Derives p.after v :=
    fun p hp => (texts p hp).derives
  choose! value before after using derived
  have within : ∀ p ∈ parts', p ∈ parts := fun p hp => order.perm.mem_iff.mpr hp
  refine ⟨_, ofLine_plainLine parts Revision.key Revision.before value counts hmarker plain hwhat
    keys before, ?_⟩
  rw [order.ofList_eq]
  exact ofLine_plainLine parts' Revision.key Revision.after value counts hmarker plain hwhat
    (fun p hp => keys p (within p hp)) fun p hp => after p (within p hp)

theorem args_nil_or_plain {m : Message} (h : m.Representable) :
    m.record.args = [] ∨ (∃ marker, m.record.kind.marker? = some marker) ∧
      m.record.kind.isStream = false ∧ (Value.tuple m.record.args).Keyed := by
  unfold Representable at h
  split at h
  · exact .inl h.2.2
  · rename_i hkind
    split at h
    · exact .inl h
    · rename_i hs
      exact .inr ⟨Kind.exists_marker hkind, by simpa using hs, h.2⟩

/-- The line of a record is that of the record without arguments, and then its arguments. -/
theorem chars_eq_append {m : Message} (h : m.Representable) :
    m.chars = ({ m with record.args := [] } : Message).chars ++ Record.argsChars m.record.args := by
  rcases args_nil_or_plain h with bare | ⟨⟨marker, hmarker⟩, hs, -⟩
  · obtain ⟨token, kind, what, args⟩ := m
    obtain rfl : args = [] := bare
    exact (List.append_nil _).symm
  · simp [Message.chars, Message.tokenChars, Record.chars, hmarker, hs, Record.argsChars]

theorem keyed_args {m : Message} (h : m.Representable) : (Value.tuple m.record.args).Keyed := by
  rcases args_nil_or_plain h with bare | ⟨-, -, keyed⟩
  · rw [bare]
    exact Value.throughout_tuple_iff.mpr ⟨by simp, by simp⟩
  · exact keyed

/-- In the line of the record keys ascend as their octets do: those of its arguments, and those of
every tuple in them. -/
def KeysAscend (m : Message) : Prop :=
  ∃ fields : List (String × List Char), fields.map (·.1) = m.record.args.map (·.1) ∧
    m.line = ({ m with record.args := [] } : Message).line ++
      String.ofList ((fields.map fun f => under f.1 f.2).flatMap (',' :: ·)) ∧
    (fields.Pairwise fun f g => Utf8.encode f.1 < Utf8.encode g.1) ∧
    ∀ f ∈ fields, IsKey f.1 ∧ Ascending f.2

theorem keysAscend_of_ofLine {line : String} {m : Message} (h : ofLine line = .ok m) :
    m.KeysAscend := by
  obtain ⟨ordered, representable⟩ := exists_line_iff.mp ⟨line, h⟩
  obtain ⟨sorted, ordered⟩ := Value.throughout_tuple_iff.mp ordered
  obtain ⟨keys, keyed⟩ := Value.throughout_tuple_iff.mp (keyed_args representable)
  refine ⟨written m.record.args, ?_, ?_, pairwise_written sorted, ?_⟩
  · rw [written, List.map_map]
    rfl
  · rw [Message.line, Message.line, chars_eq_append representable, String.ofList_append,
      argsChars_eq, map_under_written, ← List.flatMap_map Field.chars]
  · exact List.forall_mem_map.mpr fun e he =>
      ⟨keys e he, ascending_chars (ordered e he) (keyed e he)⟩

end Message

open Grammar

/-- Fields are read as the last value of each key, between braces and behind what a record says.
Texts that differ in the order of fields, at any depth, are read as one value, and lines as one
record, as long as fields with one key keep their order. The line written for what was read shows
its keys in the order of their octets. -/
theorem the_last_field_of_a_key_counts :
    (∀ fields : List Field, (∀ f ∈ fields, IsKey f.key) →
      (∀ f ∈ fields, Value.ofText (String.ofList f.text) = .ok (f.value, "")) →
      ∃ args : Fields, Entries.Sorted args ∧
        (∀ key, Entries.find? key args = (fields.reverse.find? (·.key = key)).map Field.value) ∧
        Value.tupleOfText (braced (fields.map Field.chars)) = .ok (.tuple args, "") ∧
        ∀ what : String, ',' ∉ what.toList →
          Message.ofLine (plainLine [] '^' what (fields.map Field.chars)) =
            .ok ⟨none, ⟨.result, what, args⟩⟩) ∧
      (∀ text text', Rearranged text text' →
        ∃ v, Value.ofText (String.ofList text) = .ok (v, "") ∧
          Value.ofText (String.ofList text') = .ok (v, "")) ∧
      (∀ (digits : List Char) (token : Option Token) (kind : Kind) (marker : Char) (what : String)
        (parts parts' : List (Revision String)),
        Counts digits token → kind.marker? = some marker → kind.isStream = false →
        ',' ∉ what.toList → (∀ p ∈ parts, IsKey p.key) →
        (∀ p ∈ parts, Rearranged p.before p.after) → Reordered Revision.key parts parts' →
        let before := plainLine digits marker what (parts.map fun p => under p.key p.before)
        let after := plainLine digits marker what (parts'.map fun p => under p.key p.after)
        ∃ m, Message.ofLine before = .ok m ∧ Message.ofLine after = .ok m) ∧
      ∀ line m, Message.ofLine line = .ok m → m.KeysAscend := by
  refine ⟨fun fields keys values => ?_, fun text text' h => ?_, ?_, ?_⟩
  · have derived : ∀ f ∈ fields, Derives f.text f.value :=
      fun f hf => Value.ofText_ok_iff.mp (values f hf)
    refine ⟨_, Entries.Sorted.ofList _, fun key => find?_ofList_entries key fields,
      Value.tupleOfText_braced keys derived, fun what hwhat => ?_⟩
    exact Message.ofLine_plainLine fields Field.key Field.text Field.value .none rfl rfl hwhat keys
      derived
  · obtain ⟨v, before, after⟩ := h.derives
    exact ⟨v, Value.ofText_ok_iff.mpr before, Value.ofText_ok_iff.mpr after⟩
  · intro digits token kind marker what parts parts' counts hmarker plain hwhat keys texts order
    exact Message.ofLine_rearranged counts hmarker plain hwhat keys texts order
  · intro line m h
    exact Message.keysAscend_of_ofLine h

/-- Two fields inside a tuple trade places, and the tuple trades places with a field whose key comes
again. -/
theorem rearranged_line_reads_as_before :
    (∃ args, Entries.find? "b" args = some (.list []) ∧
      Value.tupleOfText "\x7bb=\"1\",b=[]\x7d" = .ok (.tuple args, "")) ∧
    (∃ v, Value.ofText "\x7by=\"2\",x=\"3\",y=\"4\"\x7d" = .ok (v, "") ∧
      Value.ofText "\x7bx=\"3\",y=\"2\",y=\"4\"\x7d" = .ok (v, "")) ∧
    ∃ m, Message.ofLine "^done,b=\"1\",a=\x7by=\"2\",x=\"3\",y=\"4\"\x7d,b=[]" = .ok m ∧
      Message.ofLine "^done,a=\x7bx=\"3\",y=\"2\",y=\"4\"\x7d,b=\"1\",b=[]" = .ok m ∧
      m.KeysAscend := by
  obtain ⟨last, texts, lines, ascend⟩ := the_last_field_of_a_key_counts
  let part (key : String) (digit : Char) : Revision String :=
    ⟨key, ['"', digit, '"'], ['"', digit, '"']⟩
  have digit : ∀ key, ∀ n ∈ ['1', '2', '3', '4'],
      Rearranged (part key n).before (part key n).after := by
    intro key n hn
    have spelled : Spells ([n] ++ []) (String.utf8EncodeChar n ++ []) :=
      .plain (by rintro rfl; simp at hn) (by rintro rfl; simp at hn) .nil
    exact .const spelled
  let fields := [part "y" '2', part "x" '3', part "y" '4']
  let fields' := [part "x" '3', part "y" '2', part "y" '4']
  let inner : Revision String :=
    ⟨"a", '{' :: (separated (fields.map fun p => under p.key p.before) ++ ['}']),
      '{' :: (separated (fields'.map fun p => under p.key p.after) ++ ['}'])⟩
  have tuple : Rearranged inner.before inner.after :=
    .tuple fields fields' (by decide) (by simp [fields, digit]) (.swap (by decide) _)
  let empty : Revision String := ⟨"b", ['[', ']'], ['[', ']']⟩
  have bare : Rearranged empty.before empty.after := .list [] (by simp) (by simp)
  refine ⟨?_, ?_, ?_⟩
  · let twice : List Field := [⟨"b", ['"', '1', '"'], .const "1"⟩, ⟨"b", ['[', ']'], .list []⟩]
    obtain ⟨args, -, value, read, -⟩ := last twice (by decide)
      (List.forall_mem_cons.mpr ⟨rfl, List.forall_mem_singleton.mpr rfl⟩)
    have hbraced : braced (twice.map Field.chars) = "\x7bb=\"1\",b=[]\x7d" := by decide +kernel
    rw [hbraced] at read
    exact ⟨args, by simpa [twice] using value "b", read⟩
  · obtain ⟨v, before, after⟩ := texts inner.before inner.after tuple
    have hbefore : String.ofList inner.before = "\x7by=\"2\",x=\"3\",y=\"4\"\x7d" := by
      decide +kernel
    have hafter : String.ofList inner.after = "\x7bx=\"3\",y=\"2\",y=\"4\"\x7d" := by
      decide +kernel
    rw [hbefore] at before
    rw [hafter] at after
    exact ⟨v, before, after⟩
  · obtain ⟨m, before, after⟩ := lines [] none .result '^' "done" [part "b" '1', inner, empty]
      [inner, part "b" '1', empty] .none rfl rfl (by decide) (by decide)
      (by simp [digit, bare, tuple]) (.swap (by decide) _)
    have hbefore : plainLine [] '^' "done"
        ([part "b" '1', inner, empty].map fun p => under p.key p.before) =
          "^done,b=\"1\",a=\x7by=\"2\",x=\"3\",y=\"4\"\x7d,b=[]" := by
      decide +kernel
    have hafter : plainLine [] '^' "done"
        ([inner, part "b" '1', empty].map fun p => under p.key p.after) =
          "^done,a=\x7bx=\"3\",y=\"2\",y=\"4\"\x7d,b=\"1\",b=[]" := by
      decide +kernel
    rw [hbefore] at before
    rw [hafter] at after
    exact ⟨m, before, after, ascend _ m before⟩

end DebugLink
