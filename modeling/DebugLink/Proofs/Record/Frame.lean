import DebugLink.Proofs.Value.Reading
import DebugLink.Proofs.Text.Words

/-! What counts as a line, and that exactly those lines are read. A line is the terminator, which
may end in blanks, or digits for the token, a marker for the class and a body. No marker is a
digit, so the digits of a line are all that it begins with. -/

namespace DebugLink

namespace Decimal

theorem isDigit_eq (c : Char) : isDigit c = c.isDigit := by
  simp only [isDigit, digit?, Char.isDigit]
  split <;> simp_all [Char.le_def, UInt32.le_iff_toNat_le]

theorem digit?_of_isDigit {c : Char} (h : c.isDigit = true) :
    digit? c = some (c.toNat - '0'.toNat) := by
  rw [← isDigit_eq, isDigit] at h
  unfold digit? at h ⊢
  split <;> simp_all

theorem le_ofDigitChars (ds : List Char) (n : Nat) : n ≤ Nat.ofDigitChars 10 ds n := by
  induction ds generalizing n with
  | nil => simp
  | cons d ds ih =>
    rw [Nat.ofDigitChars_cons]
    exact Nat.le_trans (by omega) (ih _)

/-- Digits are read as their number unless it is too large, wherever that shows. -/
theorem readOn_digits {bound n : Nat} {ds : List Char} (hn : n < bound)
    (h : ∀ d ∈ ds, d.isDigit = true) :
    readOn bound n ds =
      if Nat.ofDigitChars 10 ds n < bound then .ok (Nat.ofDigitChars 10 ds n)
      else .error .tooLarge := by
  induction ds generalizing n with
  | nil => simp [readOn, hn]
  | cons d ds ih =>
    rw [readOn, digit?_of_isDigit (h d (by simp)), Nat.ofDigitChars_cons, Nat.mul_comm 10]
    by_cases hd : n * 10 + (d.toNat - '0'.toNat) < bound
    · simp only [if_pos hd]
      exact ih hd fun e he => h e (by simp [he])
    · have large := le_ofDigitChars ds (n * 10 + (d.toNat - '0'.toNat))
      simp only [if_neg hd]
      rw [if_neg (by omega)]

theorem readChars_digits {bound : Nat} {ds : List Char} (hb : 0 < bound) (hne : ds ≠ [])
    (h : ∀ d ∈ ds, d.isDigit = true) :
    readChars bound ds =
      if Nat.ofDigitChars 10 ds 0 < bound then .ok (Nat.ofDigitChars 10 ds 0)
      else .error .tooLarge := by
  rw [← readOn_digits hb h]
  unfold readChars
  split
  · exact absurd rfl hne
  · simp at h
  · simp at h
  · rfl

theorem isDigit_of_mem_chars {n : Nat} {d : Char} (h : d ∈ chars n) : d.isDigit = true :=
  Nat.isDigit_of_mem_toDigits (by decide) (Nat.le_refl 10) h

/-- A number is read from its digits. -/
theorem readChars_chars {bound n : Nat} (h : n < bound) : readChars bound (chars n) = .ok n := by
  have digits : ∀ d ∈ chars n, d.isDigit = true := fun _ => isDigit_of_mem_chars
  have nonempty : chars n ≠ [] := Nat.toDigits_ne_nil
  have number : Nat.ofDigitChars 10 (chars n) 0 = n := Nat.ofDigitChars_ten_toDigits
  rw [readChars_digits (Nat.zero_lt_of_lt h) nonempty digits, number, if_pos h]

end Decimal

namespace Grammar

/-- Digits in front of a record, and the token of 64 bits that they stand for. -/
inductive Counts : List Char → Option Token → Prop
  | none : Counts [] none
  | some {ds : List Char} :
      ds ≠ [] → (∀ d ∈ ds, d.isDigit = true) → Nat.ofDigitChars 10 ds 0 < UInt64.size →
      Counts ds (some (.ofNumber (Nat.ofDigitChars 10 ds 0)))

/-- A line is a written form of a record with its token. -/
inductive Frames : List Char → Message → Prop
  | terminator {blanks : List Char} :
      (∀ c ∈ blanks, Text.isBlank c = true) →
      Frames ("(gdb)".toList ++ blanks) ⟨none, .terminator⟩
  | stream {ds body : List Char} {token : Option Token} {kind : Kind} {marker : Char}
      {text : String} :
      Counts ds token → kind.marker? = some marker → kind.isStream = true →
      Derives body (.const text) → Frames (ds ++ marker :: body) ⟨token, ⟨kind, text, []⟩⟩
  | plain {ds : List Char} {token : Option Token} {kind : Kind} {marker : Char} {what : String}
      (fields : List Field) :
      Counts ds token → kind.marker? = some marker → kind.isStream = false →
      ',' ∉ what.toList → (∀ f ∈ fields, IsKey f.key) → (∀ f ∈ fields, Derives f.text f.value) →
      Frames (ds ++ marker :: (what.toList ++ fields.flatMap (',' :: ·.chars)))
        ⟨token, ⟨kind, what, Entries.ofList (fields.map Field.entry)⟩⟩

theorem Counts.digits {ds : List Char} {token : Option Token} (h : Counts ds token) :
    ∀ d ∈ ds, d.isDigit = true := by
  cases h with
  | none => simp
  | some _ hd _ => exact hd

theorem Kind.marker_not_digit {kind : Kind} {marker : Char} (h : kind.marker? = some marker) :
    marker.isDigit = false := by
  cases kind <;> simp [Kind.marker?] at h <;> subst h <;> decide

theorem head?_ne_paren {ds : List Char} {kind : Kind} {marker : Char} (body : List Char)
    (hd : ∀ d ∈ ds, d.isDigit = true) (hm : kind.marker? = some marker) :
    (ds ++ marker :: body).head? ≠ some '(' := by
  cases ds with
  | nil => cases kind <;> simp [Kind.marker?] at hm <;> subst hm <;> simp
  | cons d ds =>
    have digit := hd d (by simp)
    rintro ⟨rfl⟩
    simp at digit

end Grammar

namespace Record
open Grammar

theorem streamBody_ok_iff {kind : Kind} {body : List Char} {record : Record} :
    streamBody kind body = .ok record ↔
      ∃ text, Derives body (.const text) ∧ record = ⟨kind, text, []⟩ := by
  constructor
  · intro h
    unfold streamBody at h
    split at h
    · cases h
    · rename_i v hv
      cases h
      obtain ⟨text, hbody, hd, ho⟩ := Value.Reader.quoted_ok_iff.mp hv
      obtain ⟨t, rfl⟩ := opening_eq_quote_iff.mp ho
      rw [List.append_nil] at hbody
      exact ⟨t, hbody ▸ hd, rfl⟩
    · cases h
  · intro h
    obtain ⟨text, hd, rfl⟩ := h
    have read : Value.Reader.quoted body = .ok (.const text, []) :=
      Value.Reader.quoted_ok_iff.mpr ⟨body, by simp, hd, rfl⟩
    simp [streamBody, read, Value.text?]

theorem plainBody_ok_iff {kind : Kind} {body : List Char} {record : Record} :
    plainBody kind body = .ok record ↔
      ∃ (what : String) (fields : List Field), ',' ∉ what.toList ∧
        body = what.toList ++ fields.flatMap (',' :: ·.chars) ∧ (∀ f ∈ fields, IsKey f.key) ∧
        (∀ f ∈ fields, Derives f.text f.value) ∧
        record = ⟨kind, what, Entries.ofList (fields.map Field.entry)⟩ := by
  constructor
  · intro h
    unfold plainBody at h
    split at h
    · cases h
    · rename_i v rest hv
      cases h
      obtain ⟨-, fields, hrest, keys, values, rfl⟩ := Value.Reader.arguments_ok_iff.mp hv
      refine ⟨String.ofList (body.takeWhile (· != ',')), fields, ?_, ?_, keys, values, rfl⟩
      · intro hc
        have := List.all_eq_true.mp List.all_takeWhile _ (by simpa using hc)
        simp at this
      · rw [← hrest, String.toList_ofList, List.takeWhile_append_dropWhile]
  · intro h
    obtain ⟨what, fields, hwhat, rfl, keys, values, rfl⟩ := h
    have plain : ∀ c ∈ what.toList, (c != ',') = true := by
      intro c hc
      simpa using fun he : c = ',' => hwhat (he ▸ hc)
    have taken : (fields.flatMap (',' :: ·.chars)).takeWhile (· != ',') = [] := by
      cases fields <;> simp
    have left : (fields.flatMap (',' :: ·.chars)).dropWhile (· != ',') =
        fields.flatMap (',' :: ·.chars) := by
      cases fields <;> simp
    have read := Value.Reader.arguments_ok_iff.mpr ⟨rfl, fields, rfl, keys, values, rfl⟩
    rw [plainBody, List.dropWhile_append_of_pos plain, left, read,
      List.takeWhile_append_of_pos plain, taken, List.append_nil, String.ofList_toList]
    rfl

end Record

namespace Message
open Grammar

theorem readToken_ok_iff {ds : List Char} {token : Option Token}
    (hd : ∀ d ∈ ds, d.isDigit = true) : readToken ds = .ok token ↔ Counts ds token := by
  cases ds with
  | nil =>
    constructor
    · intro h
      cases h
      exact .none
    · intro h
      cases h with
      | none => rfl
      | some hne => exact absurd rfl hne
  | cons d ds =>
    have read : readToken (d :: ds) =
        ((Decimal.readChars UInt64.size (d :: ds)).map Token.ofNumber).map some := by
      simp [readToken, Token.ofText]
    rw [read, Decimal.readChars_digits (by decide) (by simp) hd]
    constructor
    · intro h
      by_cases hlt : Nat.ofDigitChars 10 (d :: ds) 0 < UInt64.size
      · rw [if_pos hlt] at h
        cases h
        exact .some (by simp) hd hlt
      · rw [if_neg hlt] at h
        cases h
    · intro h
      cases h with
      | some _ _ hlt =>
        rw [if_pos hlt]
        rfl

/-- A line that begins with a token and a marker is decided by its body. -/
theorem ofRecordLine_of_counts {line : String} {ds body : List Char} {token : Option Token}
    {marker : Char} {kind : Kind} (hline : line.toList = ds ++ marker :: body)
    (hcounts : Counts ds token) (hmarker : kind.marker? = some marker) :
    ofRecordLine line =
      match Record.body kind body with
      | .error f => .error (.at line f.offence f.rest)
      | .ok record => .ok ⟨token, record⟩ := by
  have digits : ∀ d ∈ ds, Decimal.isDigit d = true := by
    intro d hd
    rw [Decimal.isDigit_eq]
    exact hcounts.digits d hd
  have stop : ¬ Decimal.isDigit marker = true := by
    rw [Decimal.isDigit_eq, Kind.marker_not_digit hmarker]
    decide
  unfold ofRecordLine
  cases hbody : Record.body kind body <;>
    simp only [hline, List.takeWhile_append_of_pos digits, List.dropWhile_append_of_pos digits,
      List.takeWhile_cons_of_neg stop, List.dropWhile_cons_of_neg stop, List.append_nil,
      (readToken_ok_iff hcounts.digits).mpr hcounts, Kind.ofMarker?_eq_some_iff.mpr hmarker, hbody]

theorem ofRecordLine_ok_iff {line : String} {m : Message} :
    ofRecordLine line = .ok m ↔
      ∃ ds marker kind body, line.toList = ds ++ marker :: body ∧ Counts ds m.token ∧
        kind.marker? = some marker ∧ Record.body kind body = .ok m.record := by
  constructor
  · intro h
    unfold ofRecordLine at h
    dsimp only at h
    split at h
    · cases h
    · rename_i token htoken
      split at h
      · cases h
      · rename_i marker body hrest
        split at h
        · cases h
        · rename_i kind hkind
          split at h
          · cases h
          · rename_i record hbody
            cases h
            have digits : ∀ d ∈ line.toList.takeWhile Decimal.isDigit, d.isDigit = true := by
              intro d hd
              rw [← Decimal.isDigit_eq]
              exact List.all_eq_true.mp List.all_takeWhile d hd
            refine ⟨_, marker, kind, body, ?_, (readToken_ok_iff digits).mp htoken,
              Kind.ofMarker?_eq_some_iff.mp hkind, hbody⟩
            rw [← hrest, List.takeWhile_append_dropWhile]
  · intro h
    obtain ⟨ds, marker, kind, body, hline, hcounts, hmarker, hbody⟩ := h
    rw [ofRecordLine_of_counts hline hcounts hmarker, hbody]

/-- Every way a line can fail names the line. -/
theorem line_of_ofLine_error {line : String} {flaw : Malformed} (h : ofLine line = .error flaw) :
    flaw.line = line := by
  unfold ofLine at h
  split at h
  · cases h
  · unfold ofRecordLine at h
    dsimp only at h
    split at h
    · cases h; rfl
    · split at h
      · cases h; rfl
      · split at h
        · cases h; rfl
        · split at h
          · cases h; rfl
          · cases h

theorem trimEnd_eq_terminatorText_iff {line : String} :
    Text.trimEnd line = terminatorText ↔
      ∃ blanks, line.toList = "(gdb)".toList ++ blanks ∧ ∀ c ∈ blanks, Text.isBlank c = true := by
  have ending : ∀ c ∈ "(gdb)".toList.getLast?, Text.isBlank c = false := by
    intro c hc
    have last : "(gdb)".toList.getLast? = some ')' := rfl
    rw [last] at hc
    cases hc
    decide
  rw [← Text.dropBlankEnd_eq_iff ending, Text.trimEnd, String.ext_iff, String.toList_ofList]
  rfl

/-- What begins with a token or a marker is not the terminator. -/
theorem ofLine_of_counts {line : String} {ds body : List Char} {token : Option Token}
    {marker : Char} {kind : Kind} (hline : line.toList = ds ++ marker :: body)
    (hcounts : Counts ds token) (hmarker : kind.marker? = some marker) :
    ofLine line = ofRecordLine line := by
  have noEnd : ¬ Text.trimEnd line = terminatorText := by
    intro hend
    obtain ⟨blanks, hblanks, -⟩ := trimEnd_eq_terminatorText_iff.mp hend
    exact head?_ne_paren body hcounts.digits hmarker (by rw [← hline, hblanks]; rfl)
  exact if_neg noEnd

theorem ofLine_of_record {line : String} {m : Message} {ds : List Char} {marker : Char}
    {kind : Kind} {body : List Char} (hline : line.toList = ds ++ marker :: body)
    (hcounts : Counts ds m.token) (hmarker : kind.marker? = some marker)
    (hbody : Record.body kind body = .ok m.record) : ofLine line = .ok m := by
  rw [ofLine_of_counts hline hcounts hmarker]
  exact ofRecordLine_ok_iff.mpr ⟨ds, marker, kind, body, hline, hcounts, hmarker, hbody⟩

theorem ofLine_ok_iff {line : String} {m : Message} :
    ofLine line = .ok m ↔ Frames line.toList m := by
  constructor
  · intro h
    unfold ofLine at h
    split at h
    · rename_i hend
      cases h
      obtain ⟨blanks, hline, hb⟩ := trimEnd_eq_terminatorText_iff.mp hend
      rw [hline]
      exact .terminator hb
    · obtain ⟨ds, marker, kind, body, hline, hcounts, hmarker, hbody⟩ :=
        ofRecordLine_ok_iff.mp h
      obtain ⟨token, record⟩ := m
      rw [hline]
      cases hs : kind.isStream with
      | true =>
        simp only [Record.body, hs, if_true] at hbody
        obtain ⟨text, hd, rfl⟩ := Record.streamBody_ok_iff.mp hbody
        exact .stream hcounts hmarker hs hd
      | false =>
        simp only [Record.body, hs, Bool.false_eq_true, if_false] at hbody
        obtain ⟨what, fields, hwhat, rfl, keys, values, rfl⟩ := Record.plainBody_ok_iff.mp hbody
        exact .plain fields hcounts hmarker hs hwhat keys values
  · intro h
    generalize hline : line.toList = cs at h
    cases h with
    | terminator hb => exact if_pos (trimEnd_eq_terminatorText_iff.mpr ⟨_, hline, hb⟩)
    | stream hcounts hmarker hs hd =>
      refine ofLine_of_record hline hcounts hmarker ?_
      simp only [Record.body, hs, if_true]
      exact Record.streamBody_ok_iff.mpr ⟨_, hd, rfl⟩
    | plain fields hcounts hmarker hs hwhat keys values =>
      refine ofLine_of_record hline hcounts hmarker ?_
      simp only [Record.body, hs, Bool.false_eq_true, if_false]
      exact Record.plainBody_ok_iff.mpr ⟨_, fields, hwhat, rfl, keys, values, rfl⟩

/-- Exactly the lines of the frame grammar are read, and each as what it is a form of. A line that
is refused is named by the failure. -/
theorem reads_exactly_framed_lines (line : String) :
    (∀ m, ofLine line = .ok m ↔ Frames line.toList m) ∧
      ((¬ ∃ m, Frames line.toList m) → ∃ flaw, ofLine line = .error flaw ∧ flaw.line = line) := by
  refine ⟨fun m => ofLine_ok_iff, fun hno => ?_⟩
  cases h : ofLine line with
  | ok m => exact absurd ⟨m, ofLine_ok_iff.mp h⟩ hno
  | error flaw => exact ⟨flaw, rfl, line_of_ofLine_error h⟩

end Message

end DebugLink
