import DebugLink.Proofs.Record.Frame
import DebugLink.Proofs.Value.Completing

/-! Where a line goes wrong. The position of a failure cuts the text in two: what stands before can
be mended, so that it goes on to a text that is accepted, and with the next character it cannot.
For values this is known of the reader; here it is carried through the two bodies of a record and
through the token and the marker in front of them. A line that fails at its token or its marker is
not cut like this: it fails as a whole, or has no marker to begin with. -/

namespace DebugLink

/-- What stands before is accepted with some continuation and with none that begins as `rest`. -/
structure FirstOffence (accepts : List Char → Prop) (before rest : List Char) : Prop where
  mendable : ∃ more, accepts (before ++ more)
  hopeless : ∀ c ∈ rest.head?, ∀ more, ¬ accepts (before ++ c :: more)

/-- What is accepted after some characters decides what is accepted with them. -/
theorem FirstOffence.behind {accepts accepts' : List Char → Prop} {before rest : List Char}
    (front : List Char) (same : ∀ cs, accepts' (front ++ cs) ↔ accepts cs)
    (h : FirstOffence accepts before rest) : FirstOffence accepts' (front ++ before) rest where
  mendable := by
    obtain ⟨more, ok⟩ := h.mendable
    exact ⟨more, by rw [List.append_assoc]; exact (same _).mpr ok⟩
  hopeless c hc more ok := by
    rw [List.append_assoc] at ok
    exact h.hopeless c hc more ((same _).mp ok)

theorem Value.Reader.Breaks.firstOffence {before rest : List Char}
    {read : List Char → Except Value.Reader.Failure (Value × List Char)}
    (h : Breaks read before rest) :
    FirstOffence (fun cs => ∃ r, read cs = .ok r) before rest where
  mendable := by
    obtain ⟨more, v, ok⟩ := h.mendable
    exact ⟨more, _, ok⟩
  hopeless c hc more := by
    rintro ⟨r, ok⟩
    exact h.hopeless c hc more r ok

namespace Record

variable {kind : Kind} {f : BodyFailure}

theorem exists_streamBody_ok_iff {body : List Char} :
    (∃ record, streamBody kind body = .ok record) ↔
      ∃ v, Value.Reader.quoted body = .ok (v, []) := by
  unfold streamBody
  split <;> simp_all

/-- Only what follows the first comma can keep a body from being read. -/
theorem exists_plainBody_ok_iff {what cs : List Char} (hw : ',' ∉ what) :
    (∃ record, plainBody kind (what ++ ',' :: cs) = .ok record) ↔
      ∃ r, Value.Reader.run (.entry (.arguments [])) [] cs = .ok r := by
  have plain : ∀ c ∈ what, (c != ',') = true := by
    intro c hc
    simpa using fun he : c = ',' => hw (he ▸ hc)
  have args : Value.Reader.arguments (',' :: cs) =
      Value.Reader.run (.entry (.arguments [])) [] cs := rfl
  rw [plainBody, List.dropWhile_append_of_pos plain, List.dropWhile_cons_of_neg (by simp), args]
  cases Value.Reader.run (.entry (.arguments [])) [] cs <;> simp

theorem exists_firstOffence_stream {body : List Char} (h : streamBody kind body = .error f) :
    ∃ before, body = before ++ f.rest ∧
      FirstOffence (fun cs => ∃ record, streamBody kind cs = .ok record) before f.rest := by
  simp only [exists_streamBody_ok_iff]
  unfold streamBody at h
  split at h
  · rename_i g hg
    cases h
    obtain ⟨before, rfl, breaks⟩ := Value.Reader.insists_quoted.exists_breaks hg
    refine ⟨before, rfl, breaks.mendable, ?_⟩
    rintro c hc more ⟨v, ok⟩
    exact breaks.hopeless c hc more _ ok
  · cases h
  · -- The text ends too early: whatever stands behind its last quote is not read.
    rename_i v rest _ hv
    cases h
    obtain ⟨text, rfl, derives, quote⟩ := Value.Reader.quoted_ok_iff.mp hv
    have ends : ∀ ds, Value.Reader.quoted (text ++ ds) = .ok (v, ds) :=
      fun ds => Value.Reader.quoted_ok_iff.mpr ⟨text, rfl, derives, quote⟩
    refine ⟨text, rfl, ⟨[], v, ends []⟩, ?_⟩
    rintro c - more ⟨w, ok⟩
    rw [ends] at ok
    cases ok

theorem exists_firstOffence_plain {body : List Char} (h : plainBody kind body = .error f) :
    ∃ before, body = before ++ f.rest ∧
      FirstOffence (fun cs => ∃ record, plainBody kind cs = .ok record) before f.rest := by
  have noComma : ',' ∉ body.takeWhile (· != ',') := by
    intro hc
    have := List.all_eq_true.mp List.all_takeWhile _ hc
    simp at this
  have cut := List.takeWhile_append_dropWhile (p := (· != ',')) (l := body)
  unfold plainBody at h
  split at h
  · rename_i g hg
    cases h
    cases hargs : body.dropWhile (· != ',') with
    | nil =>
      rw [hargs] at hg
      cases hg
    | cons c cs =>
      obtain rfl : c = ',' := by
        have := List.head?_dropWhile_not (· != ',') body
        simpa [hargs] using this
      rw [hargs] at hg cut
      have entry : Value.Reader.run (.entry (.arguments [])) [] cs = .error g := hg
      obtain ⟨before, rfl, breaks⟩ := Value.Reader.exists_breaks_run entry
      refine ⟨(body.takeWhile (· != ',') ++ [',']) ++ before, ?_, ?_⟩
      · simpa using cut.symm
      · refine breaks.firstOffence.behind _ fun ds => ?_
        rw [List.append_assoc]
        exact exists_plainBody_ok_iff noComma
  · cases h

/-- A body that is refused has its first offence where the failure says. -/
theorem exists_firstOffence {body : List Char} (h : Record.body kind body = .error f) :
    ∃ before, body = before ++ f.rest ∧
      FirstOffence (fun cs => ∃ record, Record.body kind cs = .ok record) before f.rest := by
  unfold Record.body at h ⊢
  split at h
  · rename_i hs
    simp only [hs, if_true]
    exact exists_firstOffence_stream h
  · rename_i hs
    simp only [hs]
    exact exists_firstOffence_plain h

end Record

namespace Message
open Grammar

theorem exists_ofLine_ok_iff {ds body : List Char} {token : Option Token} {marker : Char}
    {kind : Kind} (hcounts : Counts ds token) (hmarker : kind.marker? = some marker) :
    (∃ m, ofLine (String.ofList (ds ++ marker :: body)) = .ok m) ↔
      ∃ record, Record.body kind body = .ok record := by
  have begins := String.toList_ofList (l := ds ++ marker :: body)
  rw [ofLine_of_counts begins hcounts hmarker, ofRecordLine_of_counts begins hcounts hmarker]
  cases Record.body kind body <;> simp

/-- A line fails as a whole for its token, before its marker, or in its body. -/
theorem ofLine_error {line : String} {flaw : Malformed} (h : ofLine line = .error flaw) :
    flaw = .at line .tokenOutOfRange line.toList ∨
    (∃ before rest, line.toList = before ++ rest ∧ flaw = .at line .markerUnknown rest) ∨
    ∃ ds token marker kind body f, line.toList = ds ++ marker :: body ∧ Counts ds token ∧
      kind.marker? = some marker ∧ Record.body kind body = .error f ∧
      flaw = .at line f.offence f.rest := by
  have digits : ∀ d ∈ line.toList.takeWhile Decimal.isDigit, d.isDigit = true := by
    intro d hd
    rw [← Decimal.isDigit_eq]
    exact List.all_eq_true.mp List.all_takeWhile d hd
  have cut := List.takeWhile_append_dropWhile (p := Decimal.isDigit) (l := line.toList)
  unfold ofLine at h
  split at h
  · cases h
  unfold ofRecordLine at h
  dsimp only at h
  split at h
  · cases h
    exact .inl rfl
  rename_i token htoken
  split at h
  · cases h
    exact .inr (.inl ⟨line.toList, [], by simp, rfl⟩)
  rename_i marker body hrest
  split at h
  · cases h
    exact .inr (.inl ⟨_, _, cut.symm, rfl⟩)
  rename_i kind hkind
  split at h
  · rename_i f hbody
    cases h
    exact .inr (.inr ⟨_, token, marker, kind, body, f, by rw [← hrest, cut],
      (readToken_ok_iff digits).mp htoken, Kind.ofMarker?_eq_some_iff.mp hkind, hbody, rfl⟩)
  · cases h

end Message

namespace Malformed

/-- The failure lies in the text, at its end or where a character begins. -/
structure LiesIn (flaw : Malformed) (text : String) : Prop where
  le : flaw.position ≤ text.utf8ByteSize
  boundary : (⟨flaw.position⟩ : String.Pos.Raw).IsValid text

/-- The failure is the first offence: the text before it goes on to one that is accepted, and
with the next character, if there is one, it does not. -/
def IsFirstIn (flaw : Malformed) (text : String) (accepts : String → Prop) : Prop :=
  ∃ before after, text = before ++ after ∧ flaw.position = before.utf8ByteSize ∧
    (∃ more, accepts (before ++ more)) ∧
    ∀ c rest, after = String.singleton c ++ rest →
      ∀ more, ¬ accepts (before ++ String.singleton c ++ more)

end Malformed

theorem Utf8.size_eq (cs : List Char) : Utf8.size cs = (String.ofList cs).utf8ByteSize := by
  simp [Utf8.size, Utf8.encodeChars, String.utf8ByteSize, List.utf8Encode]

namespace Malformed

variable {text : String} {before rest : List Char} {offence : LineOffence}

theorem position_at (cut : text.toList = before ++ rest) :
    (Malformed.at text offence rest).position = (String.ofList before).utf8ByteSize := by
  have sizes : Utf8.size text.toList = Utf8.size before + Utf8.size rest := by
    simp [cut, Utf8.size, Utf8.encodeChars_append]
  have found : (Malformed.at text offence rest).position =
      Utf8.size text.toList - Utf8.size rest := rfl
  rw [found, sizes, Nat.add_sub_cancel, Utf8.size_eq]

theorem liesIn_at (cut : text.toList = before ++ rest) :
    (Malformed.at text offence rest).LiesIn text := by
  have joined : text = String.ofList before ++ String.ofList rest := by
    rw [← String.ofList_append, ← cut, String.ofList_toList]
  constructor
  · rw [position_at cut, joined, String.utf8ByteSize_append]
    exact Nat.le_add_right _ _
  · rw [position_at cut]
    exact String.Pos.Raw.isValid_iff_exists_append.mpr ⟨_, _, joined, rfl⟩

theorem isFirstIn_at {accepts : String → Prop} (cut : text.toList = before ++ rest)
    (first : FirstOffence (fun cs => accepts (String.ofList cs)) before rest) :
    (Malformed.at text offence rest).IsFirstIn text accepts := by
  refine ⟨String.ofList before, String.ofList rest, ?_, position_at cut, ?_, ?_⟩
  · rw [← String.ofList_append, ← cut, String.ofList_toList]
  · obtain ⟨more, ok⟩ := first.mendable
    exact ⟨String.ofList more, by rwa [← String.ofList_append]⟩
  · intro c tail hrest more ok
    have next : c ∈ rest.head? := by
      have := congrArg String.toList hrest
      simp at this
      simp [this]
    refine first.hopeless c next more.toList ?_
    have same : String.ofList before ++ String.singleton c ++ more =
        String.ofList (before ++ c :: more.toList) := by
      apply String.ext
      simp
    rwa [same] at ok

end Malformed

theorem Message.liesIn_of_ofLine_error {line : String} {flaw : Malformed}
    (h : Message.ofLine line = .error flaw) : flaw.LiesIn line := by
  rcases Message.ofLine_error h with rfl | ⟨before, rest, cut, rfl⟩ |
    ⟨ds, token, marker, kind, body, f, cut, -, -, hbody, rfl⟩
  · exact Malformed.liesIn_at (List.nil_append _).symm
  · exact Malformed.liesIn_at cut
  · obtain ⟨before, rfl, -⟩ := Record.exists_firstOffence hbody
    have cut' : line.toList = (ds ++ marker :: before) ++ f.rest := by simp [cut]
    exact Malformed.liesIn_at cut'

theorem Message.isFirstIn_of_ofLine_error {line : String} {flaw : Malformed}
    (h : Message.ofLine line = .error flaw) (inRange : flaw.offence ≠ .tokenOutOfRange)
    (known : flaw.offence ≠ .markerUnknown) :
    flaw.IsFirstIn line fun s => ∃ m, Message.ofLine s = .ok m := by
  rcases Message.ofLine_error h with rfl | ⟨before, rest, cut, rfl⟩ |
    ⟨ds, token, marker, kind, body, f, cut, counts, mark, hbody, rfl⟩
  · exact absurd rfl inRange
  · exact absurd rfl known
  · obtain ⟨before, rfl, first⟩ := Record.exists_firstOffence hbody
    have cut' : line.toList = ((ds ++ [marker]) ++ before) ++ f.rest := by simp [cut]
    refine Malformed.isFirstIn_at cut' (first.behind _ fun cs => ?_)
    rw [List.append_assoc]
    exact Message.exists_ofLine_ok_iff counts mark

theorem Value.located_of_readPrefix_error
    {reader : List Char → Except Value.Reader.Failure (Value × List Char)}
    (breaking : ∀ cs f, reader cs = .error f →
      ∃ before, cs = before ++ f.rest ∧ Value.Reader.Breaks reader before f.rest)
    {text : String} {flaw : Malformed} (h : Value.readPrefix reader text = .error flaw) :
    flaw.LiesIn text ∧ flaw.IsFirstIn text fun s => ∃ r, Value.readPrefix reader s = .ok r := by
  have accepted (cs : List Char) :
      (∃ r, Value.readPrefix reader (String.ofList cs) = .ok r) ↔ ∃ r, reader cs = .ok r := by
    rw [Value.readPrefix, String.toList_ofList]
    cases reader cs <;> simp
  unfold Value.readPrefix at h
  split at h
  · cases h
  · rename_i f hf
    cases h
    obtain ⟨before, cut, breaks⟩ := breaking _ f hf
    refine ⟨Malformed.liesIn_at cut, Malformed.isFirstIn_at cut ?_⟩
    simp only [accepted]
    exact breaks.firstOffence

/-- A refused line fails inside the line, where a character begins or at the end. Unless its token
is out of range or its marker unknown, it could still be mended up to there and cannot with the
next character. For values, lists and tuples at the beginning of a text there is no exception. -/
theorem failures_lie_at_the_first_offence :
    (∀ line flaw, Message.ofLine line = .error flaw →
      flaw.LiesIn line ∧
        (flaw.offence ≠ .tokenOutOfRange → flaw.offence ≠ .markerUnknown →
          flaw.IsFirstIn line fun s => ∃ m, Message.ofLine s = .ok m)) ∧
    ∀ read ∈ [Value.ofText, Value.listOfText, Value.tupleOfText],
      ∀ text flaw, read text = .error flaw →
        flaw.LiesIn text ∧ flaw.IsFirstIn text fun s => ∃ r, read s = .ok r := by
  refine ⟨fun line flaw h => ⟨Message.liesIn_of_ofLine_error h,
    Message.isFirstIn_of_ofLine_error h⟩, ?_⟩
  intro read hread text flaw h
  simp only [List.mem_cons, List.not_mem_nil, or_false] at hread
  rcases hread with rfl | rfl | rfl
  · exact Value.located_of_readPrefix_error (fun _ _ => Value.Reader.exists_breaks_run) h
  · exact Value.located_of_readPrefix_error
      (fun _ _ => Value.Reader.insists_list.exists_breaks) h
  · exact Value.located_of_readPrefix_error
      (fun _ _ => Value.Reader.insists_tuple.exists_breaks) h

/-- In this line the first offence is a brace in a list inside a tuple, behind an `é` that takes
two octets; and this tuple lacks its end. -/
theorem a_brace_in_a_list_is_the_first_offence :
    (∃ flaw, Message.ofLine "4^done,a=\x7bb=\"é\",c=[\x7d]\x7d" = .error flaw ∧
      flaw.position = 20 ∧ flaw.IsFirstIn "4^done,a=\x7bb=\"é\",c=[\x7d]\x7d"
        fun s => ∃ m, Message.ofLine s = .ok m) ∧
    ∃ flaw, Value.tupleOfText "\x7ba=\"b\"" = .error flaw ∧
      flaw.position = 6 ∧ flaw.IsFirstIn "\x7ba=\"b\""
        fun s => ∃ r, Value.tupleOfText s = .ok r := by
  constructor
  · refine ⟨⟨_, 20, .value .equalsExpected⟩, rfl, rfl, ?_⟩
    exact (failures_lie_at_the_first_offence.1 _ _ rfl).2 (by decide) (by decide)
  · refine ⟨⟨_, 6, .value .braceOpen⟩, rfl, rfl, ?_⟩
    exact (failures_lie_at_the_first_offence.2 Value.tupleOfText (by simp) _ _ rfl).2

end DebugLink
