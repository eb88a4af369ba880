import DebugLink.Proofs.Value.Grammar
import DebugLink.Record.Line

/-! The reader of values against the grammar of their written forms. A reader in the middle of a
text holds a stack of places, so every statement is about what is read next, for whatever the stack
holds: `run_value_ok_iff` splits off one written value and hands it to the place on top. Reading is
sound by induction on the length of the text and complete by induction on the derivation. -/

namespace DebugLink.Value.Reader
open Grammar

variable {stack : List Place} {r : Value × List Char}

/-- Goes on after a move. -/
def resume : Move → List Char → Except Failure (Value × List Char)
  | .go mode stack, cs => run mode stack cs
  | .done v, cs => .ok (v, cs)
  | .fail offence, cs => .error ⟨offence, cs⟩

theorem run_cons_ok_iff {mode : Mode} {c : Char} {cs : List Char} :
    run mode stack (c :: cs) = .ok r ↔ resume (step mode stack c) cs = .ok r := by
  rw [run]
  cases step mode stack c <;> simp [resume]

/-! ### Quoted text -/

theorem octal?_of_isOctal {c : Char} (h : IsOctal c) : octal? c = some (c.toNat - 48) := if_pos h

theorem octal?_of_not_isOctal {c : Char} (h : ¬ IsOctal c) : octal? c = none := if_neg h

theorem escapeOctet?_eq_some_iff {c : Char} {b : UInt8} :
    escapeOctet? c = some b ↔ (c, b) ∈ escapes := by
  constructor
  · intro h
    unfold escapeOctet? at h
    split at h <;> simp_all [escapes]
  · intro h
    simp only [escapes, List.mem_cons, Prod.mk.injEq, List.not_mem_nil, or_false] at h
    rcases h with h | h | h | h | h | h | h | h <;> obtain ⟨rfl, rfl⟩ := h <;> rfl

theorem not_isOctal_of_mem_escapes {c : Char} {b : UInt8} (h : (c, b) ∈ escapes) :
    ¬ IsOctal c := by
  simp only [escapes, List.mem_cons, Prod.mk.injEq, List.not_mem_nil, or_false] at h
  rcases h with h | h | h | h | h | h | h | h <;> obtain ⟨rfl, rfl⟩ := h <;> decide

theorem toList_pushChar (octets : Array UInt8) (c : Char) :
    (pushChar octets c).toList = octets.toList ++ String.utf8EncodeChar c := by
  simp [pushChar]

theorem step_quoted_plain {octets : Array UInt8} {c : Char} (hq : c ≠ '"') (hb : c ≠ '\\') :
    step (.quoted octets) stack c = .go (.quoted (pushChar octets c)) stack := by
  simp only [step]
  unfold inQuotes
  split <;> simp_all

theorem step_escape_octal {octets : Array UInt8} {d : Char} (h : IsOctal d) :
    step (.escape octets) stack d = .go (.octal octets (d.toNat - 48) 2) stack := by
  simp [step, inEscape, octal?_of_isOctal h]

theorem step_escape_letter {octets : Array UInt8} {c : Char} {b : UInt8} (h : (c, b) ∈ escapes) :
    step (.escape octets) stack c = .go (.quoted (octets.push b)) stack := by
  simp [step, inEscape, octal?_of_not_isOctal (not_isOctal_of_mem_escapes h),
    escapeOctet?_eq_some_iff.mpr h]

theorem step_escape_other {octets : Array UInt8} {c : Char} (ho : ¬ IsOctal c)
    (he : ∀ b, (c, b) ∉ escapes) :
    step (.escape octets) stack c = .go (.quoted (pushChar octets c)) stack := by
  have none : escapeOctet? c = none := by
    cases h : escapeOctet? c with
    | none => rfl
    | some b => exact absurd (escapeOctet?_eq_some_iff.mp h) (he b)
  simp [step, inEscape, octal?_of_not_isOctal ho, none]

/-- An octal escape takes all the digits it can and then stands for its octet. -/
theorem run_octal {octets : Array UInt8} {ds rest : List Char} {code more : Nat}
    (ho : ∀ d ∈ ds, IsOctal d) (hl : ds.length ≤ more)
    (hm : ds.length = more ∨ ∀ c ∈ rest.head?, ¬ IsOctal c) :
    run (.octal octets code more) stack (ds ++ rest) =
      run (.quoted (octets.push (UInt8.ofNat (Nat.ofDigitChars 8 ds code)))) stack rest := by
  induction ds generalizing code more with
  | nil =>
    cases rest with
    | nil => rfl
    | cons c rest =>
      have stop : step (.octal octets code more) stack c =
          step (.quoted (octets.push (UInt8.ofNat code))) stack c := by
        simp only [step]
        unfold inOctal
        split
        · rename_i d hd
          rcases hm with hm | hm
          · cases hm
          · rw [octal?_of_not_isOctal (hm c rfl)] at hd; cases hd
        · rfl
      simp only [List.nil_append, Nat.ofDigitChars_nil, run, stop]
  | cons d ds ih =>
    obtain ⟨more, rfl⟩ : ∃ m, more = m + 1 := ⟨more - 1, by simp at hl; omega⟩
    have go : step (.octal octets code (more + 1)) stack d =
        .go (.octal octets (code * 8 + (d.toNat - 48)) more) stack := by
      simp [step, inOctal, octal?_of_isOctal (ho d (by simp))]
    rw [List.cons_append, run, go, Nat.ofDigitChars_cons, Nat.mul_comm 8]
    exact ih (fun e he => ho e (by simp [he])) (by simpa using hl) (by simpa using hm)

theorem exists_octal_digits (more : Nat) (cs : List Char) :
    ∃ ds rest, cs = ds ++ rest ∧ (∀ d ∈ ds, IsOctal d) ∧ ds.length ≤ more ∧
      (ds.length = more ∨ ∀ c ∈ rest.head?, ¬ IsOctal c) := by
  induction more generalizing cs with
  | zero => exact ⟨[], cs, rfl, by simp, by simp, .inl rfl⟩
  | succ more ih =>
    cases cs with
    | nil => exact ⟨[], [], rfl, by simp, by simp, .inr (by simp)⟩
    | cons c cs =>
      by_cases hc : IsOctal c
      · obtain ⟨ds, rest, rfl, ho, hl, hm⟩ := ih cs
        exact ⟨c :: ds, rest, rfl, by simpa using ⟨hc, ho⟩, by simpa using hl, by simpa using hm⟩
      · exact ⟨[], c :: cs, rfl, by simp, by simp, .inr (by simpa using hc)⟩

theorem run_quoted_of_spells {q : List Char} {bs : Octets} (h : Spells q bs)
    (octets : Array UInt8) (rest : List Char) :
    run (.quoted octets) stack (q ++ '"' :: rest) = .ok r ↔
      resume (complete (.const (Utf8.decode (octets.toList ++ bs))) stack) rest = .ok r := by
  induction h generalizing octets with
  | nil =>
    rw [List.nil_append, run_cons_ok_iff, List.append_nil]
    rfl
  | plain hq hb _ ih =>
    rw [List.cons_append, run_cons_ok_iff, step_quoted_plain hq hb, resume, ih, toList_pushChar,
      List.append_assoc]
  | letter he _ ih =>
    rw [List.cons_append, run_cons_ok_iff, List.cons_append]
    show run (.escape octets) stack _ = _ ↔ _
    rw [run_cons_ok_iff, step_escape_letter he, resume, ih]
    simp
  | @octal ds cs bs hd _ ih =>
    obtain ⟨d, ds, rfl⟩ := List.exists_cons_of_ne_nil hd.nonempty
    have taken : ds.length = 2 ∨ ∀ c ∈ (cs ++ '"' :: rest).head?, ¬ IsOctal c := by
      rcases hd.maximal with full | stop
      · exact .inl (by simpa using full)
      · refine .inr fun c hc => ?_
        cases cs with
        | nil =>
          obtain rfl : '"' = c := by simpa using hc
          decide
        | cons e cs => exact stop c (by simpa using hc)
    rw [List.cons_append, run_cons_ok_iff]
    show run (.escape octets) stack _ = _ ↔ _
    rw [List.cons_append, List.cons_append, run_cons_ok_iff,
      step_escape_octal (hd.octal d (by simp)), resume, List.append_assoc,
      run_octal (fun e he => hd.octal e (by simp [he])) (Nat.le_of_succ_le_succ hd.short) taken, ih,
      Nat.ofDigitChars_cons]
    simp
  | other ho he _ ih =>
    rw [List.cons_append, run_cons_ok_iff, List.cons_append]
    show run (.escape octets) stack _ = _ ↔ _
    rw [run_cons_ok_iff, step_escape_other ho he, resume, ih, toList_pushChar, List.append_assoc]

/-- What one escape is written with, and what it stands for, whatever goes on up to a quote. -/
theorem run_escape_inv {octets : Array UInt8} {cs : List Char}
    (h : run (.escape octets) stack cs = .ok r) :
    ∃ octets' : Array UInt8, ∃ piece bs rest, cs = piece ++ rest ∧ piece ≠ [] ∧
      octets'.toList = octets.toList ++ bs ∧ run (.quoted octets') stack rest = .ok r ∧
      ∀ q bs' rest', rest = q ++ '"' :: rest' → Spells q bs' →
        Spells ('\\' :: (piece ++ q)) (bs ++ bs') := by
  cases cs with
  | nil => simp [run, finish] at h
  | cons e cs =>
    rw [run_cons_ok_iff] at h
    by_cases ho : IsOctal e
    · obtain ⟨ds, rest, rfl, hds, hl, hm⟩ := exists_octal_digits 2 cs
      rw [step_escape_octal ho, resume, run_octal hds hl hm] at h
      refine ⟨_, e :: ds, _, rest, rfl, by simp, Array.toList_push, h, ?_⟩
      rintro q bs rest' rfl hs
      have digits : Nat.ofDigitChars 8 (e :: ds) 0 = Nat.ofDigitChars 8 ds (e.toNat - 48) := by
        simp [Nat.ofDigitChars_cons]
      rw [← digits]
      refine .octal ⟨by simp, Nat.succ_le_succ hl, by simpa using ⟨ho, hds⟩, ?_⟩ hs
      rcases hm with full | stop
      · exact .inl (by simp [full])
      · refine .inr fun c hc => stop c ?_
        cases q with
        | nil => simp at hc
        | cons x q => simpa using hc
    · cases he : escapeOctet? e with
      | some b =>
        have he := escapeOctet?_eq_some_iff.mp he
        rw [step_escape_letter he, resume] at h
        exact ⟨_, [e], [b], cs, rfl, by simp, Array.toList_push, h, fun q bs _ _ => .letter he⟩
      | none =>
        have he : ∀ b, (e, b) ∉ escapes := by
          intro b hb
          rw [escapeOctet?_eq_some_iff.mpr hb] at he
          cases he
        rw [step_escape_other ho he, resume] at h
        exact ⟨_, [e], _, cs, rfl, by simp, toList_pushChar .., h, fun q bs _ _ => .other ho he⟩

theorem run_quoted_inv {octets : Array UInt8} {cs : List Char}
    (h : run (.quoted octets) stack cs = .ok r) :
    ∃ q bs rest, cs = q ++ '"' :: rest ∧ Spells q bs ∧
      resume (complete (.const (Utf8.decode (octets.toList ++ bs))) stack) rest = .ok r := by
  induction hn : cs.length using Nat.strongRecOn generalizing octets cs with
  | ind n ih =>
    subst hn
    cases cs with
    | nil => simp [run, finish] at h
    | cons c cs =>
      rw [run_cons_ok_iff] at h
      by_cases hq : c = '"'
      · subst hq
        exact ⟨[], [], cs, rfl, .nil, by simpa [step, inQuotes] using h⟩
      by_cases hb : c = '\\'
      · subst hb
        obtain ⟨octets', piece, bs, rest, rfl, hp, ho, hr, spell⟩ := run_escape_inv h
        have shorter : rest.length < ('\\' :: (piece ++ rest)).length := by
          simp only [List.length_cons, List.length_append]
          omega
        obtain ⟨q, bs', rest', rfl, hs, hr⟩ := ih _ shorter hr rfl
        refine ⟨'\\' :: (piece ++ q), bs ++ bs', rest', by simp, spell q bs' rest' rfl hs, ?_⟩
        rwa [ho, List.append_assoc] at hr
      · rw [step_quoted_plain hq hb, resume] at h
        obtain ⟨q, bs, rest, rfl, hs, hr⟩ := ih cs.length (by simp) h rfl
        rw [toList_pushChar, List.append_assoc] at hr
        exact ⟨c :: q, _, rest, rfl, .plain hq hb hs, hr⟩

/-! ### Keys -/

theorem not_mem_reserved_iff {c : Char} : c ∉ reserved ↔ c ≠ '=' ∧ isReserved c = false := by
  simp [reserved, isReserved, and_assoc]

theorem beginsValue_of_not_mem_reserved {c : Char} (h : c ∉ reserved) : beginsValue c = false := by
  simp only [reserved, List.mem_cons, List.not_mem_nil, or_false, not_or] at h
  simp [beginsValue, h]

theorem step_key {g : Group} {chars : Array Char} {c : Char} (h : c ∉ reserved) :
    step (.key g chars) stack c = .go (.key g (chars.push c)) stack := by
  obtain ⟨he, hr⟩ := not_mem_reserved_iff.mp h
  simp [step, inKey, he, hr]

theorem step_key_end {g : Group} {chars : Array Char} (h : chars ≠ #[]) :
    step (.key g chars) stack '=' =
      .go .value (.keyed g (String.ofList chars.toList) :: stack) := by
  simp [step, inKey, h]

theorem run_key {g : Group} {chars : Array Char} {k rest : List Char}
    (hk : ∀ c ∈ k, c ∉ reserved) (hn : chars.toList ++ k ≠ []) :
    run (.key g chars) stack (k ++ '=' :: rest) = .ok r ↔
      run .value (.keyed g (String.ofList (chars.toList ++ k)) :: stack) rest = .ok r := by
  induction k generalizing chars with
  | nil =>
    have some : chars ≠ #[] := by
      rintro rfl
      exact hn rfl
    rw [List.nil_append, run_cons_ok_iff, step_key_end some, resume, List.append_nil]
  | cons c k ih =>
    rw [List.cons_append, run_cons_ok_iff, step_key (hk c (by simp)), resume,
      ih (fun d hd => hk d (by simp [hd])) (by simp)]
    simp

theorem run_key_inv {g : Group} {chars : Array Char} {cs : List Char}
    (h : run (.key g chars) stack cs = .ok r) :
    ∃ k rest, cs = k ++ '=' :: rest ∧ (∀ c ∈ k, c ∉ reserved) ∧ chars.toList ++ k ≠ [] ∧
      run .value (.keyed g (String.ofList (chars.toList ++ k)) :: stack) rest = .ok r := by
  induction cs generalizing chars with
  | nil => simp [run, finish] at h
  | cons c cs ih =>
    rw [run_cons_ok_iff] at h
    by_cases hc : c ∈ reserved
    · -- Of the reserved characters only the equals sign goes on, and only behind a key.
      by_cases he : c = '='
      · subst he
        by_cases hn : chars = #[]
        · subst hn; simp [step, inKey, resume] at h
        · rw [step_key_end hn, resume] at h
          exact ⟨[], cs, rfl, by simp, by simpa using hn, by simpa using h⟩
      · cases hr : isReserved c with
        | false => exact absurd hc (not_mem_reserved_iff.mpr ⟨he, hr⟩)
        | true => simp [step, inKey, he, hr, resume] at h
    · rw [step_key hc, resume] at h
      obtain ⟨k, rest, rfl, hk, hn, hr⟩ := ih h
      refine ⟨c :: k, rest, rfl, by simpa using ⟨hc, hk⟩, by simp, ?_⟩
      simpa using hr

/-! ### Groups of entries -/

/-- The group with one more entry. Only a list takes one without a key. -/
def Group.add : Group → Item → Group
  | .list items, .bare _ v => .list (items.push v)
  | g, .bare .. => g
  | g, .named f => g.put f.key f.value

/-- An entry as it may stand in a group. -/
def Group.Admits (g : Group) : Item → Prop
  | .bare .. => ∃ items, g = .list items
  | .named f => IsKey f.key

@[simp] theorem Group.close?_add (g : Group) (i : Item) : (g.add i).close? = g.close? := by
  cases g <;> cases i <;> rfl

@[simp] theorem Group.close?_foldl_add (g : Group) (items : List Item) :
    (items.foldl Group.add g).close? = g.close? := by
  induction items generalizing g with
  | nil => rfl
  | cons i items ih => rw [List.foldl_cons, ih, Group.close?_add]

@[simp] theorem Group.admits_add {g : Group} {i j : Item} : (g.add i).Admits j ↔ g.Admits j := by
  cases g <;> cases i <;> cases j <;> simp [Group.add, Group.Admits, Group.put]

theorem Group.Admits.keyOk {g : Group} {i : Item} (h : g.Admits i) : i.KeyOk := by
  cases i with
  | bare => trivial
  | named => exact h

/-- Where entries need keys, all of them are named. -/
theorem Group.exists_fields {g : Group} {items : List Item} (hg : ∀ vs, g ≠ .list vs)
    (h : ∀ i ∈ items, g.Admits i) : ∃ fields : List Field, items = fields.map .named := by
  induction items with
  | nil => exact ⟨[], rfl⟩
  | cons i items ih =>
    obtain ⟨fields, rfl⟩ := ih fun j hj => h j (by simp [hj])
    cases i with
    | bare =>
      obtain ⟨vs, hvs⟩ := h _ List.mem_cons_self
      exact absurd hvs (hg vs)
    | named f => exact ⟨f :: fields, rfl⟩

theorem Group.toValue_list (items : List Item) (vs : Array Value) :
    (items.foldl Group.add (.list vs)).toValue =
      .list (vs.toList ++ items.map Item.element) := by
  induction items generalizing vs with
  | nil => simp [Group.toValue]
  | cons i items ih =>
    cases i <;> simp [Group.add, Group.put, Item.element, Field.entry, ih]

theorem Group.toValue_tuple (fields : List Field) (es : Fields) :
    ((fields.map Item.named).foldl Group.add (.tuple es)).toValue =
      .tuple (Entries.merge es (fields.map Field.entry)) := by
  induction fields generalizing es with
  | nil => rfl
  | cons f fields ih => exact ih _

theorem Group.toValue_arguments (fields : List Field) (es : Fields) :
    ((fields.map Item.named).foldl Group.add (.arguments es)).toValue =
      .tuple (Entries.merge es (fields.map Field.entry)) := by
  induction fields generalizing es with
  | nil => rfl
  | cons f fields ih => exact ih _

/-! ### Reading what is derived -/

/-- A text that is read as a value, wherever it stands. -/
def Reads (text : List Char) (v : Value) : Prop :=
  ∀ (stack : List Place) (rest : List Char) (r : Value × List Char),
    run .value stack (text ++ rest) = .ok r ↔ resume (complete v stack) rest = .ok r

theorem run_entry_key {g : Group} {cs : List Char}
    (h : ∀ items, g = .list items → ∀ c ∈ cs.head?, beginsValue c = false) :
    run (.entry g) stack cs = run (.key g #[]) stack cs := by
  cases cs with
  | nil => rfl
  | cons c cs =>
    have same : step (.entry g) stack c = step (.key g #[]) stack c := by
      cases g with
      | list items => simp [step, beginEntry, h items rfl c rfl]
      | tuple | arguments => rfl
    simp only [run, same]

theorem step_entry_value {items : Array Value} {c : Char} (h : beginsValue c = true) :
    step (.entry (.list items)) stack c = step .value (.item items :: stack) c := by
  simp [step, beginEntry, h]

theorem run_opened {g : Group} {c : Char} {cs : List Char} (h : g.close? ≠ some c) :
    run (.opened g) stack (c :: cs) = .ok r ↔ run (.entry g) stack (c :: cs) = .ok r := by
  have same : step (.opened g) stack c = step (.entry g) stack c := by simp [step, h]
  rw [run_cons_ok_iff, same, run_cons_ok_iff]

theorem step_comma (g : Group) : step (.after g) stack ',' = .go (.entry g) stack := by
  cases g <;> simp [step, Group.close?]

theorem step_opened_close {g : Group} {c : Char} (h : g.close? = some c) :
    step (.opened g) stack c = complete g.toValue stack := by
  simp [step, h]

theorem step_after_close {g : Group} {c : Char} (h : g.close? = some c) :
    step (.after g) stack c = complete g.toValue stack := by
  simp [step, h]

theorem beginsValue_iff {c : Char} : beginsValue c = true ↔ c = '"' ∨ c = '[' ∨ c = '{' := by
  simp [beginsValue, or_assoc]

theorem beginsValue_opening (v : Value) : beginsValue (opening v) = true := by
  cases v <;> rfl

/-- The first character of an entry closes no group. -/
theorem Group.Admits.begins {g : Group} {i : Item} (ha : g.Admits i)
    (hd : Derives i.text i.value) : ∃ c tail, i.chars = c :: tail ∧ g.close? ≠ some c := by
  cases i with
  | bare text v =>
    obtain ⟨items, rfl⟩ := ha
    obtain ⟨tail, hc⟩ := hd.begins
    refine ⟨opening v, tail, hc, ?_⟩
    cases v <;> simp [close?, opening]
  | named f =>
    obtain ⟨c, k, hk⟩ := List.exists_cons_of_ne_nil (IsKey.toList_ne_nil ha)
    refine ⟨c, k ++ '=' :: f.text, by simp [Item.chars, Field.chars, hk], ?_⟩
    have hc : c ∉ reserved := ha.2 c (by simp [hk])
    intro close
    apply hc
    cases g <;> simp [close?] at close <;> subst close <;> decide

theorem run_field {g : Group} {f : Field} {rest : List Char} (hk : IsKey f.key) :
    run (.entry g) stack (f.chars ++ rest) = .ok r ↔
      run .value (.keyed g f.key :: stack) (f.text ++ rest) = .ok r := by
  have plain : ∀ c ∈ (f.chars ++ rest).head?, beginsValue c = false := by
    intro c hc
    obtain ⟨k, ks, hks⟩ := List.exists_cons_of_ne_nil hk.toList_ne_nil
    obtain rfl : k = c := by simpa [Field.chars, hks] using hc
    exact beginsValue_of_not_mem_reserved (hk.2 k (by simp [hks]))
  rw [run_entry_key fun _ _ => plain, Field.chars, List.append_assoc, List.cons_append,
    run_key hk.2 (by simpa using hk.toList_ne_nil)]
  simp

theorem run_entry {g : Group} {i : Item} {rest : List Char} (ha : g.Admits i)
    (hd : Derives i.text i.value) (hr : Reads i.text i.value) :
    run (.entry g) stack (i.chars ++ rest) = .ok r ↔ run (.after (g.add i)) stack rest = .ok r := by
  cases i with
  | bare text v =>
    obtain ⟨items, rfl⟩ := ha
    obtain ⟨tail, hc⟩ := hd.begins
    have value := hr (.item items :: stack) rest r
    simp only [Item.text, Item.chars, Item.value] at hc value ⊢
    rw [hc, List.cons_append, run_cons_ok_iff, ← step_entry_value (beginsValue_opening v),
      ← run_cons_ok_iff, ← List.cons_append, ← hc] at value
    exact value
  | named f =>
    have value := hr (.keyed g f.key :: stack) rest r
    simp only [Item.text, Item.value, complete, resume] at value
    rw [Item.chars, run_field ha, value, Group.add]

/-- Further entries, each after a comma. -/
theorem run_items {g : Group} {items : List Item} {rest : List Char}
    (ha : ∀ i ∈ items, g.Admits i) (hd : ∀ i ∈ items, Derives i.text i.value)
    (hr : ∀ i ∈ items, Reads i.text i.value) :
    run (.after g) stack (items.flatMap (',' :: ·.chars) ++ rest) = .ok r ↔
      run (.after (items.foldl Group.add g)) stack rest = .ok r := by
  induction items generalizing g with
  | nil => rfl
  | cons i items ih =>
    rw [List.flatMap_cons, List.cons_append, List.cons_append, List.append_assoc, run_cons_ok_iff,
      step_comma, resume, run_entry (ha i (by simp)) (hd i (by simp)) (hr i (by simp)),
      List.foldl_cons]
    exact ih (fun j hj => Group.admits_add.mpr (ha j (by simp [hj])))
      (fun j hj => hd j (by simp [hj])) (fun j hj => hr j (by simp [hj]))

/-- A whole group, from behind the character that opens it. -/
theorem run_group {g : Group} {c : Char} {items : List Item} {rest : List Char}
    (hc : g.close? = some c) (ha : ∀ i ∈ items, g.Admits i)
    (hd : ∀ i ∈ items, Derives i.text i.value) (hr : ∀ i ∈ items, Reads i.text i.value) :
    run (.opened g) stack (separated (items.map Item.chars) ++ c :: rest) = .ok r ↔
      resume (complete (items.foldl Group.add g).toValue stack) rest = .ok r := by
  cases items with
  | nil => rw [List.map_nil, separated_nil, List.nil_append, run_cons_ok_iff, step_opened_close hc,
      List.foldl_nil]
  | cons i items =>
    obtain ⟨b, tail, hb, hne⟩ := (ha i (by simp)).begins (hd i (by simp))
    rw [List.map_cons, separated_cons, List.flatMap_map, List.append_assoc, hb, List.cons_append,
      run_opened hne, ← List.cons_append, ← hb,
      run_entry (ha i (by simp)) (hd i (by simp)) (hr i (by simp)),
      run_items (fun j hj => Group.admits_add.mpr (ha j (by simp [hj])))
        (fun j hj => hd j (by simp [hj])) (fun j hj => hr j (by simp [hj])),
      run_cons_ok_iff, ← List.foldl_cons, step_after_close (by simpa using hc)]

theorem reads_of_derives {text : List Char} {v : Value} (h : Derives text v) : Reads text v := by
  induction h with
  | const hs =>
    intro stack rest r
    rw [List.cons_append, run_cons_ok_iff]
    show run (.quoted #[]) stack _ = _ ↔ _
    simpa using run_quoted_of_spells hs #[] rest
  | list items keys values ih =>
    intro stack rest r
    have admits : ∀ i ∈ items, (Group.list #[]).Admits i := by
      intro i hi
      cases i with
      | bare => exact ⟨_, rfl⟩
      | named => exact keys _ hi
    rw [List.cons_append, run_cons_ok_iff]
    show run (.opened (.list #[])) stack _ = _ ↔ _
    rw [List.append_assoc, List.singleton_append, run_group rfl admits values ih,
      Group.toValue_list, List.nil_append]
  | tuple fields keys values ih =>
    intro stack rest r
    rw [List.cons_append, run_cons_ok_iff]
    show run (.opened (.tuple [])) stack _ = _ ↔ _
    rw [List.append_assoc, List.singleton_append, ← Item.map_chars_named,
      run_group rfl (List.forall_mem_map.mpr keys) (List.forall_mem_map.mpr values)
        (List.forall_mem_map.mpr ih), Group.toValue_tuple, Entries.merge, Entries.ofList]

/-! ### Deriving what is read -/

/-- A text from which only written values are read. -/
def Sound (cs : List Char) : Prop :=
  ∀ (stack : List Place) (r : Value × List Char), run .value stack cs = .ok r →
    ∃ text v rest, cs = text ++ rest ∧ Derives text v ∧ resume (complete v stack) rest = .ok r

theorem run_entry_inv {g : Group} {cs : List Char}
    (sound : ∀ ds, ds.length ≤ cs.length → Sound ds) (h : run (.entry g) stack cs = .ok r) :
    ∃ i rest, cs = i.chars ++ rest ∧ g.Admits i ∧ Derives i.text i.value ∧
      run (.after (g.add i)) stack rest = .ok r := by
  -- Only in a list may an entry be a value without a key.
  by_cases hb : (∃ items, g = .list items) ∧ ∃ c ∈ cs.head?, beginsValue c = true
  · obtain ⟨⟨items, rfl⟩, c, hc, hb⟩ := hb
    obtain ⟨tail, rfl⟩ : ∃ tail, cs = c :: tail := List.head?_eq_some_iff.mp hc
    rw [run_cons_ok_iff, step_entry_value hb, ← run_cons_ok_iff] at h
    obtain ⟨text, v, rest, hcs, hd, hr⟩ := sound _ (Nat.le_refl _) _ _ h
    exact ⟨.bare text v, rest, hcs, ⟨items, rfl⟩, hd, hr⟩
  · have key : run (.entry g) stack cs = run (.key g #[]) stack cs := by
      refine run_entry_key fun items hg c hc => ?_
      cases hv : beginsValue c with
      | false => rfl
      | true => exact absurd ⟨⟨items, hg⟩, c, hc, hv⟩ hb
    rw [key] at h
    obtain ⟨k, rest, rfl, hk, hn, hr⟩ := run_key_inv h
    obtain ⟨text, v, rest, rfl, hd, hr⟩ := sound rest (by simp; omega) _ _ hr
    refine ⟨.named ⟨String.ofList k, text, v⟩, rest, ?_, ⟨?_, ?_⟩, hd, ?_⟩
    · simp [Item.chars, Field.chars]
    · simpa using hn
    · simpa using hk
    · simpa [complete, resume, Group.add] using hr

/-- How reading ends behind the last entry of a group. -/
def Group.Ends (g : Group) (stack : List Place) (cs : List Char) (r : Value × List Char) : Prop :=
  match g.close? with
  | some c => ∃ rest, cs = c :: rest ∧ resume (complete g.toValue stack) rest = .ok r
  | none => cs = [] ∧ r = (g.toValue, [])

theorem run_after_inv {g : Group} {cs : List Char}
    (sound : ∀ ds, ds.length ≤ cs.length → Sound ds) (h : run (.after g) stack cs = .ok r) :
    ∃ (items : List Item) (rest : List Char), cs = items.flatMap (',' :: ·.chars) ++ rest ∧
      (∀ i ∈ items, g.Admits i ∧ Derives i.text i.value) ∧
      (items.foldl Group.add g).Ends stack rest r := by
  induction hn : cs.length using Nat.strongRecOn generalizing g cs with
  | ind n ih =>
    subst hn
    cases cs with
    | nil =>
      cases g with
      | list | tuple => simp [run, finish] at h
      | arguments fields =>
        obtain rfl : (.tuple fields, []) = r := by simpa [run, finish] using h
        exact ⟨[], [], rfl, by simp, rfl, rfl⟩
    | cons c cs =>
      rw [run_cons_ok_iff] at h
      by_cases hc : g.close? = some c
      · rw [step_after_close hc] at h
        refine ⟨[], c :: cs, rfl, by simp, ?_⟩
        simp only [List.foldl_nil, Group.Ends, hc]
        exact ⟨cs, rfl, h⟩
      by_cases hcomma : c = ','
      · subst hcomma
        rw [step_comma, resume] at h
        obtain ⟨i, rest, rfl, ha, hd, hr⟩ := run_entry_inv
          (fun ds hds => sound ds (Nat.le_succ_of_le hds)) h
        have shorter : rest.length < (',' :: (i.chars ++ rest)).length := by
          simp only [List.length_cons, List.length_append]
          omega
        obtain ⟨items, tail, rfl, hitems, hends⟩ := ih _ shorter
          (fun ds hds => sound ds (Nat.le_of_lt (Nat.lt_of_le_of_lt hds shorter))) hr rfl
        refine ⟨i :: items, tail, by simp, ?_, hends⟩
        intro j hj
        rcases List.mem_cons.mp hj with rfl | hj
        · exact ⟨ha, hd⟩
        · exact ⟨Group.admits_add.mp (hitems j hj).1, (hitems j hj).2⟩
      · simp [step, hc, hcomma, resume] at h

theorem run_group_inv {g : Group} {c : Char} {cs : List Char} (hc : g.close? = some c)
    (sound : ∀ ds, ds.length ≤ cs.length → Sound ds) (h : run (.opened g) stack cs = .ok r) :
    ∃ (items : List Item) (rest : List Char),
      cs = separated (items.map Item.chars) ++ c :: rest ∧
      (∀ i ∈ items, g.Admits i ∧ Derives i.text i.value) ∧
      resume (complete (items.foldl Group.add g).toValue stack) rest = .ok r := by
  cases cs with
  | nil => simp [run, finish] at h
  | cons b cs =>
    by_cases hb : g.close? = some b
    · obtain rfl : c = b := by simpa [hc] using hb
      rw [run_cons_ok_iff, step_opened_close hc] at h
      exact ⟨[], cs, rfl, by simp, h⟩
    · rw [run_opened hb] at h
      obtain ⟨i, rest, hcs, ha, hd, hr⟩ := run_entry_inv sound h
      have le : rest.length ≤ (b :: cs).length := by rw [hcs]; simp
      obtain ⟨items, tail, rfl, hitems, hends⟩ := run_after_inv
        (fun ds hds => sound ds (Nat.le_trans hds le)) hr
      simp only [Group.Ends, Group.close?_foldl_add, Group.close?_add, hc] at hends
      obtain ⟨rest, rfl, hend⟩ := hends
      refine ⟨i :: items, rest, ?_, ?_, hend⟩
      · rw [hcs, List.map_cons, separated_cons, List.flatMap_map, List.append_assoc]
      · intro j hj
        rcases List.mem_cons.mp hj with rfl | hj
        · exact ⟨ha, hd⟩
        · exact ⟨Group.admits_add.mp (hitems j hj).1, (hitems j hj).2⟩

/-- Whatever is read as a value is derived as it; by induction on the length of the text. -/
theorem sound (cs : List Char) : Sound cs := by
  induction hn : cs.length using Nat.strongRecOn generalizing cs with
  | ind n ih =>
    subst hn
    intro stack r h
    cases cs with
    | nil => simp [run, finish] at h
    | cons c cs =>
      -- Every value inside this one begins later, so what is read of it is known to be derived.
      have shorter : ∀ ds, ds.length ≤ cs.length → Sound ds := fun ds hds =>
        ih _ (Nat.lt_succ_of_le hds) ds rfl
      rw [run_cons_ok_iff] at h
      cases hb : beginsValue c with
      | false =>
        simp only [beginsValue, Bool.or_eq_false_iff, beq_eq_false_iff_ne] at hb
        simp [step, beginValue, hb, resume] at h
      | true =>
        rcases beginsValue_iff.mp hb with rfl | rfl | rfl
        · have h : run (.quoted #[]) stack cs = .ok r := h
          obtain ⟨q, bs, rest, rfl, hs, hr⟩ := run_quoted_inv h
          exact ⟨_, _, rest, by simp, .const hs, by simpa using hr⟩
        · have h : run (.opened (.list #[])) stack cs = .ok r := h
          obtain ⟨items, rest, rfl, hitems, hr⟩ := run_group_inv rfl shorter h
          rw [Group.toValue_list] at hr
          exact ⟨_, _, rest, by simp, .list items (fun i hi => (hitems i hi).1.keyOk)
            (fun i hi => (hitems i hi).2), by simpa using hr⟩
        · have h : run (.opened (.tuple [])) stack cs = .ok r := h
          obtain ⟨items, rest, rfl, hitems, hr⟩ := run_group_inv rfl shorter h
          obtain ⟨fields, rfl⟩ := Group.exists_fields (by simp) fun i hi => (hitems i hi).1
          rw [Group.toValue_tuple] at hr
          refine ⟨_, _, rest, ?_, .tuple fields (fun f hf => ?_) (fun f hf => ?_), hr⟩
          · rw [Item.map_chars_named]; simp
          · exact (hitems _ (List.mem_map_of_mem hf)).1
          · exact (hitems _ (List.mem_map_of_mem hf)).2

/-- The next value of a text is split off and handed to the place on top of the stack. -/
theorem run_value_ok_iff {cs : List Char} :
    run .value stack cs = .ok r ↔
      ∃ text v rest, cs = text ++ rest ∧ Derives text v ∧
        resume (complete v stack) rest = .ok r := by
  constructor
  · exact sound cs stack r
  · intro h
    obtain ⟨text, v, rest, rfl, hd, hr⟩ := h
    exact (reads_of_derives hd stack rest r).mpr hr

/-! ### Readers of whole texts -/

theorem value_ok_iff {cs : List Char} {v : Value} {rest : List Char} :
    value cs = .ok (v, rest) ↔ ∃ text, cs = text ++ rest ∧ Derives text v := by
  rw [value, run_value_ok_iff]
  constructor
  · intro h
    obtain ⟨text, w, tail, rfl, hd, hr⟩ := h
    obtain ⟨rfl, rfl⟩ : w = v ∧ tail = rest := by simpa [complete, resume] using hr
    exact ⟨text, rfl, hd⟩
  · intro h
    obtain ⟨text, rfl, hd⟩ := h
    exact ⟨text, v, rest, rfl, hd, rfl⟩

/-- What a reader reads that looks for one opening character and then goes on as for any value. -/
theorem ok_iff_of_opening {reader : List Char → Except Failure (Value × List Char)} {c : Char}
    {mode : Mode} (hgo : step .value [] c = .go mode [])
    (hrun : ∀ cs, reader (c :: cs) = run mode [] cs)
    (hfail : ∀ cs, cs.head? ≠ some c → ∃ f, reader cs = .error f)
    {cs : List Char} {v : Value} {rest : List Char} :
    reader cs = .ok (v, rest) ↔ ∃ text, cs = text ++ rest ∧ Derives text v ∧ opening v = c := by
  have opened : ∀ cs, reader (c :: cs) = .ok (v, rest) ↔ value (c :: cs) = .ok (v, rest) := by
    intro cs
    rw [value, run_cons_ok_iff, hgo, resume, hrun]
  constructor
  · intro h
    by_cases hc : cs.head? = some c
    · obtain ⟨tail, rfl⟩ := List.head?_eq_some_iff.mp hc
      obtain ⟨text, hcs, hd⟩ := value_ok_iff.mp ((opened tail).mp h)
      obtain ⟨rest', rfl⟩ := hd.begins
      exact ⟨_, hcs, hd, (List.cons.inj hcs).1.symm⟩
    · obtain ⟨f, hf⟩ := hfail cs hc
      rw [hf] at h
      cases h
  · intro h
    obtain ⟨text, rfl, hd, rfl⟩ := h
    obtain ⟨tail, rfl⟩ := hd.begins
    exact (opened _).mpr (value_ok_iff.mpr ⟨_, rfl, hd⟩)

theorem quoted_ok_iff {cs : List Char} {v : Value} {rest : List Char} :
    quoted cs = .ok (v, rest) ↔
      ∃ text, cs = text ++ rest ∧ Derives text v ∧ opening v = '"' := by
  refine ok_iff_of_opening rfl (fun _ => rfl) fun cs hc => ?_
  unfold quoted
  split
  · simp at hc
  · exact ⟨_, rfl⟩

theorem list_ok_iff {cs : List Char} {v : Value} {rest : List Char} :
    list cs = .ok (v, rest) ↔ ∃ text, cs = text ++ rest ∧ Derives text v ∧ opening v = '[' := by
  refine ok_iff_of_opening rfl (fun _ => rfl) fun cs hc => ?_
  unfold list
  split
  · simp at hc
  · exact ⟨_, rfl⟩

theorem tuple_ok_iff {cs : List Char} {v : Value} {rest : List Char} :
    tuple cs = .ok (v, rest) ↔ ∃ text, cs = text ++ rest ∧ Derives text v ∧ opening v = '{' := by
  refine ok_iff_of_opening rfl (fun _ => rfl) fun cs hc => ?_
  unfold tuple
  split
  · simp at hc
  · exact ⟨_, rfl⟩

/-- The arguments of a record are fields, each after a comma, up to the end of the text. -/
theorem arguments_ok_iff {cs : List Char} {v : Value} {rest : List Char} :
    arguments cs = .ok (v, rest) ↔ rest = [] ∧ ∃ fields : List Field,
      cs = fields.flatMap (',' :: ·.chars) ∧ (∀ f ∈ fields, IsKey f.key) ∧
      (∀ f ∈ fields, Derives f.text f.value) ∧
      v = .tuple (Entries.ofList (fields.map Field.entry)) := by
  constructor
  · intro h
    obtain ⟨items, tail, rfl, hitems, hends⟩ := run_after_inv (fun ds _ => sound ds) h
    obtain ⟨fields, rfl⟩ := Group.exists_fields (by simp) fun i hi => (hitems i hi).1
    have none : ((fields.map Item.named).foldl Group.add (.arguments [])).close? = none :=
      Group.close?_foldl_add ..
    simp only [Group.Ends, none, Group.toValue_arguments, Prod.mk.injEq] at hends
    obtain ⟨rfl, rfl, rfl⟩ := hends
    refine ⟨rfl, fields, ?_, fun f hf => ?_, fun f hf => ?_, rfl⟩
    · simp [List.flatMap_map, Item.chars]
    · exact (hitems _ (List.mem_map_of_mem hf)).1
    · exact (hitems _ (List.mem_map_of_mem hf)).2
  · intro h
    obtain ⟨rfl, fields, rfl, keys, values, rfl⟩ := h
    have admits : ∀ i ∈ fields.map Item.named, (Group.arguments []).Admits i :=
      List.forall_mem_map.mpr keys
    have derives : ∀ i ∈ fields.map Item.named, Derives i.text i.value :=
      List.forall_mem_map.mpr values
    have texts : fields.flatMap (',' :: ·.chars) =
        (fields.map Item.named).flatMap (',' :: ·.chars) ++ [] := by
      simp [List.flatMap_map, Item.chars]
    rw [arguments, texts, run_items admits derives fun i hi => reads_of_derives (derives i hi)]
    cases hg : (fields.map Item.named).foldl Group.add (.arguments []) with
    | list | tuple =>
      have := Group.close?_foldl_add (.arguments []) (fields.map Item.named)
      simp [hg, Group.close?] at this
    | arguments es =>
      have whole := Group.toValue_arguments fields []
      rw [hg] at whole
      simp only [run, finish]
      exact congrArg (fun v => Except.ok (v, [])) whole

end DebugLink.Value.Reader

namespace DebugLink.Value
open Grammar

/-- A reader takes what a text begins with if it is the written form of a value that is wanted. It
refuses every other text, and names the text that it refuses. -/
structure ReadsWritten (read : String → Except Malformed (Value × String))
    (Wanted : Value → Prop) : Prop where
  accepts : ∀ src v rest, read src = .ok (v, rest) ↔
    ∃ s, src = s ++ rest ∧ Derives s.toList v ∧ Wanted v
  refuses : ∀ src, (¬ ∃ s v rest, src = s ++ rest ∧ Derives s.toList v ∧ Wanted v) →
    ∃ flaw, read src = .error flaw ∧ flaw.line = src

theorem readPrefix_ok_iff {reader : List Char → Except Reader.Failure (Value × List Char)}
    {src rest : String} {v : Value} :
    readPrefix reader src = .ok (v, rest) ↔ reader src.toList = .ok (v, rest.toList) := by
  unfold readPrefix
  cases reader src.toList with
  | error f => simp
  | ok r => simp [Prod.ext_iff, String.ext_iff]

theorem readPrefix_readsWritten {reader : List Char → Except Reader.Failure (Value × List Char)}
    {Wanted : Value → Prop}
    (h : ∀ cs v rest, reader cs = .ok (v, rest) ↔
      ∃ text, cs = text ++ rest ∧ Derives text v ∧ Wanted v) :
    ReadsWritten (readPrefix reader) Wanted := by
  have accepts : ∀ src v rest, readPrefix reader src = .ok (v, rest) ↔
      ∃ s, src = s ++ rest ∧ Derives s.toList v ∧ Wanted v := by
    intro src v rest
    rw [readPrefix_ok_iff, h]
    constructor
    · intro h
      obtain ⟨text, hsrc, hd, hw⟩ := h
      exact ⟨String.ofList text, by simp [String.ext_iff, hsrc], by simpa using hd, hw⟩
    · intro h
      obtain ⟨s, rfl, hd, hw⟩ := h
      exact ⟨s.toList, by simp, hd, hw⟩
  refine ⟨accepts, fun src hno => ?_⟩
  cases hr : readPrefix reader src with
  | ok p =>
    obtain ⟨s, hs⟩ := (accepts src p.1 p.2).mp hr
    exact absurd ⟨s, p.1, p.2, hs⟩ hno
  | error flaw =>
    refine ⟨flaw, rfl, ?_⟩
    unfold readPrefix at hr
    split at hr
    · cases hr
    · cases hr; rfl

/-- The three readers of values accept exactly the grammar of written forms. -/
theorem reads_exactly_written_values :
    ReadsWritten ofText (fun _ => True) ∧
      ReadsWritten listOfText (fun v => ∃ items, v = .list items) ∧
      ReadsWritten tupleOfText (fun v => ∃ fields, v = .tuple fields) := by
  refine ⟨readPrefix_readsWritten ?_, readPrefix_readsWritten ?_, readPrefix_readsWritten ?_⟩
  · intro cs v rest
    simp [Reader.value_ok_iff]
  · intro cs v rest
    simp only [Reader.list_ok_iff, opening_eq_bracket_iff]
  · intro cs v rest
    simp only [Reader.tuple_ok_iff, opening_eq_brace_iff]

end DebugLink.Value
