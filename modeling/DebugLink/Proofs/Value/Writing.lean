import DebugLink.Proofs.Dict
import DebugLink.Proofs.Value.Grammar
import DebugLink.Value.Printer

/-! The printer of values against the grammar of their written forms. Two accidents keep a printed
value from being a written form of itself: the fields of some tuple are not in the order of their
keys, or a key is none. Both can only happen at a tuple, so they are stated over all the tuples
inside a value; conversely no written form means a value with either accident. -/

namespace DebugLink

theorem Value.induct {P : Value → Prop} (const : ∀ text, P (.const text))
    (list : ∀ items : List Value, (∀ v ∈ items, P v) → P (.list items))
    (tuple : ∀ fields : Fields, (∀ e ∈ fields, P e.2) → P (.tuple fields)) (v : Value) : P v :=
  match v with
  | .const text => const text
  | .list items => list items fun w _ => induct const list tuple w
  | .tuple fields => tuple fields fun e he =>
    have : sizeOf e.2 < 1 + sizeOf fields := by
      have inside := List.sizeOf_lt_of_mem he
      obtain ⟨k, w⟩ := e
      simp only [Prod.mk.sizeOf_spec] at inside ⊢
      omega
    induct const list tuple e.2

/-! ### The tuples inside a value -/

namespace Value

mutual

/-- The fields of every tuple in a value, its own first. -/
def tuples : Value → List Fields
  | .const _ => []
  | .list items => itemsTuples items
  | .tuple fields => fields :: fieldsTuples fields

def itemsTuples : List Value → List Fields
  | [] => []
  | v :: vs => v.tuples ++ itemsTuples vs

def fieldsTuples : List (String × Value) → List Fields
  | [] => []
  | (_, v) :: es => v.tuples ++ fieldsTuples es

end

theorem mem_itemsTuples {fields : Fields} {items : List Value} :
    fields ∈ itemsTuples items ↔ ∃ v ∈ items, fields ∈ v.tuples := by
  induction items with
  | nil => simp [itemsTuples]
  | cons v vs ih => simp [itemsTuples, ih]

theorem mem_fieldsTuples {inner fields : Fields} :
    inner ∈ fieldsTuples fields ↔ ∃ e ∈ fields, inner ∈ e.2.tuples := by
  induction fields with
  | nil => simp [fieldsTuples]
  | cons e es ih => simp [fieldsTuples, ih]

/-- Something holds of the fields of every tuple in a value. -/
def Throughout (P : Fields → Prop) (v : Value) : Prop := ∀ fields ∈ v.tuples, P fields

instance (P : Fields → Prop) [DecidablePred P] (v : Value) : Decidable (v.Throughout P) :=
  inferInstanceAs (Decidable (∀ _ ∈ _, _))

theorem throughout_const {P : Fields → Prop} (text : String) : (const text).Throughout P := by
  intro fields h
  cases h

theorem throughout_list_iff {P : Fields → Prop} {items : List Value} :
    (list items).Throughout P ↔ ∀ v ∈ items, v.Throughout P := by
  constructor
  · intro h v hv fields hf
    exact h fields (mem_itemsTuples.mpr ⟨v, hv, hf⟩)
  · intro h fields hf
    obtain ⟨v, hv, inside⟩ := mem_itemsTuples.mp hf
    exact h v hv fields inside

theorem throughout_tuple_iff {P : Fields → Prop} {fields : Fields} :
    (tuple fields).Throughout P ↔ P fields ∧ ∀ e ∈ fields, e.2.Throughout P := by
  constructor
  · intro h
    refine ⟨h fields List.mem_cons_self, ?_⟩
    intro e he inner hi
    exact h inner (List.mem_cons_of_mem _ (mem_fieldsTuples.mpr ⟨e, he, hi⟩))
  · rintro ⟨own, h⟩ inner hi
    rcases List.mem_cons.mp hi with rfl | hi
    · exact own
    · obtain ⟨e, he, inside⟩ := mem_fieldsTuples.mp hi
      exact h e he inner inside

/-- The fields of every tuple stand in the order of their keys, each key once. -/
def Ordered (v : Value) : Prop := v.Throughout Entries.Sorted

instance (v : Value) : Decidable v.Ordered := inferInstanceAs (Decidable (v.Throughout _))

/-- Every key in every tuple can be written. -/
def Keyed (v : Value) : Prop := v.Throughout fun fields => ∀ e ∈ fields, Grammar.IsKey e.1

instance (v : Value) : Decidable v.Keyed := inferInstanceAs (Decidable (v.Throughout _))

/-! ### Printed forms -/

theorem itemsChars_eq (items : List Value) :
    itemsChars items = Grammar.separated (items.map chars) := by
  match items with
  | [] => rfl
  | [v] => simp [itemsChars, Grammar.separated]
  | v :: w :: vs =>
    have tail := itemsChars_eq (w :: vs)
    simp only [List.map_cons, Grammar.separated, List.intercalate_cons_cons] at tail ⊢
    rw [itemsChars, tail]
    simp

/-- The entry of a tuple together with how it is printed. -/
def field (e : String × Value) : Grammar.Field := ⟨e.1, e.2.chars, e.2⟩

theorem map_entry_field (fields : Fields) :
    (fields.map field).map Grammar.Field.entry = fields := by
  rw [List.map_map]
  exact List.map_id fields

theorem fieldsChars_eq (fields : Fields) :
    fieldsChars fields = Grammar.separated ((fields.map field).map Grammar.Field.chars) := by
  match fields with
  | [] => rfl
  | [(k, v)] => simp [fieldsChars, Grammar.separated, field, Grammar.Field.chars]
  | (k, v) :: e :: es =>
    have tail := fieldsChars_eq (e :: es)
    simp only [List.map_cons, Grammar.separated, List.intercalate_cons_cons] at tail ⊢
    rw [fieldsChars, tail]
    simp [field, Grammar.Field.chars]

end Value

namespace Grammar

theorem octalDigit_spec : ∀ n < 8,
    IsOctal (Char.ofNat (48 + n)) ∧ (Char.ofNat (48 + n)).toNat - '0'.toNat = n := by
  decide

theorem isOctal_octalDigit (n : Nat) : IsOctal (Text.Quoted.octalDigit n) :=
  (octalDigit_spec (n % 8) (Nat.mod_lt _ (by decide))).1

theorem ofDigitChars_octal {n : Nat} (h : n < 512) :
    Nat.ofDigitChars 8 [Text.Quoted.octalDigit (n / 64), Text.Quoted.octalDigit (n / 8),
      Text.Quoted.octalDigit n] 0 = n := by
  have value : ∀ m, (Text.Quoted.octalDigit m).toNat - '0'.toNat = m % 8 := fun m =>
    (octalDigit_spec (m % 8) (Nat.mod_lt _ (by decide))).2
  simp only [Nat.ofDigitChars_cons, Nat.ofDigitChars_nil, value]
  omega

/-- Three digits end an octal escape whatever follows, so a digit may. -/
theorem spells_quotedChar (c : Char) {cs : List Char} {bs : Octets} (h : Spells cs bs) :
    Spells (Text.Quoted.char c ++ cs) (String.utf8EncodeChar c ++ bs) := by
  unfold Text.Quoted.char
  split
  · exact .other (by decide) (by simp [escapes]) h
  · exact .other (by decide) (by simp [escapes]) h
  · exact .letter (by decide) h
  · exact .letter (by decide) h
  · exact .letter (by decide) h
  · rename_i hquote hbackslash _ _ _
    dsimp only
    split
    · rename_i hcontrol
      have low : c.toNat < 0x80 := by simp at hcontrol; omega
      have octet : String.utf8EncodeChar c = [UInt8.ofNat c.toNat] :=
        if_pos (Nat.le_of_lt_succ low)
      have run : IsOctalRun [Text.Quoted.octalDigit (c.toNat / 64),
          Text.Quoted.octalDigit (c.toNat / 8), Text.Quoted.octalDigit c.toNat] cs :=
        ⟨by simp, by simp, by simp [isOctal_octalDigit], .inl rfl⟩
      have spelled := Spells.octal run h
      rw [ofDigitChars_octal (by omega)] at spelled
      rw [octet]
      exact spelled
    · exact .plain hquote hbackslash h

theorem spells_quoted (cs : List Char) :
    Spells (cs.flatMap Text.Quoted.char) (Utf8.encodeChars cs) := by
  induction cs with
  | nil => exact .nil
  | cons c cs ih => exact spells_quotedChar c ih

/-- A printed value is a written form of it. -/
theorem derives_chars {v : Value} (ho : v.Ordered) (hk : v.Keyed) : Derives v.chars v := by
  induction v using Value.induct with
  | const text =>
    -- What is spelled are octets; decoding them gives the text back.
    have written := Derives.const (spells_quoted text.toList)
    have back : Utf8.decode (Utf8.encodeChars text.toList) = text := Utf8.decode_encode text
    rw [back] at written
    exact written
  | list items ih =>
    have written := Derives.list (items.map fun v => .bare v.chars v)
      (by simp [Item.KeyOk]) (by
        intro i hi
        obtain ⟨v, hv, rfl⟩ := List.mem_map.mp hi
        exact ih v hv (Value.throughout_list_iff.mp ho v hv)
          (Value.throughout_list_iff.mp hk v hv))
    have elements : (items.map fun v => Item.bare v.chars v).map Item.element = items := by
      rw [List.map_map]
      exact List.map_id items
    have texts : (items.map fun v => Item.bare v.chars v).map Item.chars =
        items.map Value.chars := List.map_map
    rw [elements, texts, ← Value.itemsChars_eq] at written
    exact written
  | tuple fields ih =>
    obtain ⟨sorted, ordered⟩ := Value.throughout_tuple_iff.mp ho
    obtain ⟨keys, keyed⟩ := Value.throughout_tuple_iff.mp hk
    have written := Derives.tuple (fields.map Value.field)
      (List.forall_mem_map.mpr keys)
      (List.forall_mem_map.mpr fun e he => ih e he (ordered e he) (keyed e he))
    rw [Value.map_entry_field, Entries.ofList_of_sorted sorted, ← Value.fieldsChars_eq] at written
    exact written

/-! ### What written forms mean -/

theorem throughout_ofList {P : Fields → Prop} {fields : List Field}
    (own : P (Entries.ofList (fields.map Field.entry)))
    (h : ∀ f ∈ fields, f.value.Throughout P) :
    (Value.tuple (Entries.ofList (fields.map Field.entry))).Throughout P := by
  refine Value.throughout_tuple_iff.mpr ⟨own, ?_⟩
  intro e he
  obtain ⟨f, hf, rfl⟩ := List.mem_map.mp (Entries.mem_of_mem_ofList he)
  exact h f hf

theorem ordered_ofList {fields : List Field} (h : ∀ f ∈ fields, f.value.Ordered) :
    (Value.tuple (Entries.ofList (fields.map Field.entry))).Ordered :=
  throughout_ofList (Entries.Sorted.ofList _) h

theorem keyed_ofList {fields : List Field} (keys : ∀ f ∈ fields, IsKey f.key)
    (h : ∀ f ∈ fields, f.value.Keyed) :
    (Value.tuple (Entries.ofList (fields.map Field.entry))).Keyed := by
  refine throughout_ofList ?_ h
  intro e he
  obtain ⟨f, hf, rfl⟩ := List.mem_map.mp (Entries.mem_of_mem_ofList he)
  exact keys f hf

/-- A value with a written form has neither accident. -/
theorem Derives.ordered_keyed {cs : List Char} {v : Value} (h : Derives cs v) :
    v.Ordered ∧ v.Keyed := by
  induction h with
  | const => exact ⟨Value.throughout_const _, Value.throughout_const _⟩
  | list items keys _ ih =>
    have element : ∀ P : Fields → Prop, (∀ i ∈ items, i.value.Throughout P) →
        (∀ f, .named f ∈ items → P [f.entry]) →
        (Value.list (items.map Item.element)).Throughout P := by
      intro P values own
      refine Value.throughout_list_iff.mpr (List.forall_mem_map.mpr ?_)
      intro i hi
      cases i with
      | bare text v => exact values _ hi
      | named f =>
        refine Value.throughout_tuple_iff.mpr ⟨own f hi, ?_⟩
        intro e he
        rw [List.mem_singleton.mp he]
        exact values _ hi
    constructor
    · exact element _ (fun i hi => (ih i hi).1) fun f _ => List.pairwise_singleton _ _
    · refine element _ (fun i hi => (ih i hi).2) ?_
      intro f hf e he
      rw [List.mem_singleton.mp he]
      exact keys _ hf
  | tuple fields keys _ ih =>
    exact ⟨ordered_ofList fun f hf => (ih f hf).1, keyed_ofList keys fun f hf => (ih f hf).2⟩

end Grammar

end DebugLink
