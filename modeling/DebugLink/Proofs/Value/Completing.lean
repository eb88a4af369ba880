import DebugLink.Proofs.Value.Reading

/-! Where reading a value breaks off. The reader looks at one character after the other and never
back, so what it does with a text up to an offence it does with every text that begins like this
one: `run_error` names the mode and the places in which the offence is met. From there two things
follow. No text goes on with the offending character, because the reader fails at it whatever
comes next. And until then nothing was lost, because all that is open can be closed: by induction
on the places, a value that is complete leaves a group that can be ended at once. -/

namespace DebugLink.Value.Reader

variable {mode : Mode} {stack : List Place} {f : Failure}

/-- There are characters that complete all that is open after a move. -/
def Move.Completable (move : Move) : Prop := ∃ ds v, resume move ds = .ok (v, [])

theorem Move.Completable.of_step {c : Char} (h : (step mode stack c).Completable) :
    (Move.go mode stack).Completable := by
  obtain ⟨ds, v, read⟩ := h
  exact ⟨c :: ds, v, run_cons_ok_iff.mpr read⟩

/-- A group can be ended after an entry if its value can go where it belongs. -/
theorem completable_after (g : Group) (outer : ∀ v, (complete v stack).Completable) :
    (Move.go (.after g) stack).Completable := by
  cases g with
  | list items =>
    refine .of_step (c := ']') ?_
    rw [step_after_close rfl]
    exact outer _
  | tuple fields =>
    refine .of_step (c := '\x7d') ?_
    rw [step_after_close rfl]
    exact outer _
  | arguments fields => exact ⟨[], .tuple fields, rfl⟩

theorem completable_complete (v : Value) (stack : List Place) :
    (complete v stack).Completable := by
  induction stack generalizing v with
  | nil => exact ⟨[], v, rfl⟩
  | cons place stack ih =>
    cases place with
    | item items => exact completable_after _ ih
    | keyed g key => exact completable_after _ ih

theorem completable_quoted (octets : Array UInt8) (stack : List Place) :
    (Move.go (.quoted octets) stack).Completable :=
  .of_step (c := '"') (completable_complete _ stack)

theorem completable_value (stack : List Place) : (Move.go .value stack).Completable :=
  .of_step (c := '"') (completable_quoted #[] stack)

theorem completable_key (g : Group) (chars : Array Char) (stack : List Place) :
    (Move.go (.key g chars) stack).Completable := by
  -- One more character first: the key read so far may be empty.
  have letter : 'k' ∉ Grammar.reserved := by decide
  refine .of_step (c := 'k') ?_
  rw [step_key letter]
  refine .of_step (c := '=') ?_
  rw [step_key_end (by simp)]
  exact completable_value _

theorem completable_entry (g : Group) (stack : List Place) :
    (Move.go (.entry g) stack).Completable := by
  have begun : step (.entry g) stack 'k' = .go (.key g #['k']) stack := by cases g <;> rfl
  refine .of_step (c := 'k') ?_
  rw [begun]
  exact completable_key _ _ _

/-- Whatever the reader is in the middle of, some characters complete it. -/
theorem completable (mode : Mode) (stack : List Place) : (Move.go mode stack).Completable := by
  cases mode with
  | value => exact completable_value stack
  | quoted octets => exact completable_quoted octets stack
  | escape octets => exact .of_step (c := 'n') (completable_quoted _ stack)
  | octal octets code more =>
    have ended : step (.octal octets code more) stack '"' =
        step (.quoted (octets.push (UInt8.ofNat code))) stack '"' := by cases more <;> rfl
    refine .of_step (c := '"') ?_
    rw [ended]
    exact completable_complete _ stack
  | opened g =>
    have begun : step (.opened g) stack 'k' = .go (.key g #['k']) stack := by cases g <;> rfl
    refine .of_step (c := 'k') ?_
    rw [begun]
    exact completable_key _ _ _
  | entry g => exact completable_entry g stack
  | key g chars => exact completable_key g chars stack
  | after g => exact completable_after g fun v => completable_complete v stack

/-- Up to an offence, every text that begins alike is read alike. -/
theorem run_error {cs : List Char} (h : run mode stack cs = .error f) :
    ∃ (before : List Char) (mode' : Mode) (stack' : List Place), cs = before ++ f.rest ∧
      (∀ ds, run mode stack (before ++ ds) = run mode' stack' ds) ∧
      ∀ c ∈ f.rest.head?, step mode' stack' c = .fail f.offence := by
  induction cs generalizing mode stack with
  | nil =>
    rw [run] at h
    split at h
    · cases h
    · cases h
      exact ⟨[], mode, stack, rfl, fun _ => rfl, by simp⟩
  | cons c cs ih =>
    rw [run] at h
    split at h
    · rename_i mode₁ stack₁ hstep
      obtain ⟨before, mode', stack', rfl, same, offends⟩ := ih h
      refine ⟨c :: before, mode', stack', rfl, fun ds => ?_, offends⟩
      rw [List.cons_append, run, hstep]
      exact same ds
    · cases h
    · rename_i offence hstep
      cases h
      exact ⟨[], mode, stack, rfl, fun _ => rfl, by simpa using hstep⟩

/-- A reader fails after `before`: until there its text could still be read to the end, and with
the next character of `rest` it cannot be read any more. -/
structure Breaks (read : List Char → Except Failure (Value × List Char))
    (before rest : List Char) : Prop where
  mendable : ∃ more v, read (before ++ more) = .ok (v, [])
  hopeless : ∀ c ∈ rest.head?, ∀ more r, read (before ++ c :: more) ≠ .ok r

theorem exists_breaks_run {cs : List Char} (h : run mode stack cs = .error f) :
    ∃ before, cs = before ++ f.rest ∧ Breaks (run mode stack) before f.rest := by
  obtain ⟨before, mode', stack', rfl, same, offends⟩ := run_error h
  refine ⟨before, rfl, ?_, ?_⟩
  · obtain ⟨ds, v, read⟩ := completable mode' stack'
    exact ⟨ds, v, (same ds).trans read⟩
  · intro c hc more r read
    rw [same, run_cons_ok_iff, offends c hc] at read
    cases read

/-- A reader insists on its first character and goes on from there. -/
structure Insists (reader : List Char → Except Failure (Value × List Char)) (c : Char)
    (mode : Mode) : Prop where
  going : ∀ cs, reader (c :: cs) = run mode [] cs
  failing : ∀ cs, cs.head? ≠ some c → ∃ offence, reader cs = .error ⟨offence, cs⟩

theorem insists_quoted : Insists quoted '"' (.quoted #[]) where
  going _ := rfl
  failing cs hc := by
    unfold quoted
    split
    · exact absurd rfl hc
    · exact ⟨_, rfl⟩

theorem insists_list : Insists list '[' (.opened (.list #[])) where
  going _ := rfl
  failing cs hc := by
    unfold list
    split
    · exact absurd rfl hc
    · exact ⟨_, rfl⟩

theorem insists_tuple : Insists tuple '\x7b' (.opened (.tuple [])) where
  going _ := rfl
  failing cs hc := by
    unfold tuple
    split
    · exact absurd rfl hc
    · exact ⟨_, rfl⟩

theorem Insists.exists_breaks {reader : List Char → Except Failure (Value × List Char)} {c : Char}
    (insists : Insists reader c mode) {cs : List Char} (h : reader cs = .error f) :
    ∃ before, cs = before ++ f.rest ∧ Breaks reader before f.rest := by
  by_cases hc : cs.head? = some c
  · obtain ⟨cs, rfl⟩ := List.head?_eq_some_iff.mp hc
    rw [insists.going] at h
    obtain ⟨before, rfl, breaks⟩ := exists_breaks_run h
    refine ⟨c :: before, rfl, ?_, ?_⟩
    · obtain ⟨more, v, read⟩ := breaks.mendable
      exact ⟨more, v, (insists.going _).trans read⟩
    · intro d hd more r read
      rw [List.cons_append, insists.going] at read
      exact breaks.hopeless d hd more r read
  · obtain ⟨offence, failed⟩ := insists.failing cs hc
    obtain rfl : ⟨offence, cs⟩ = f := by simpa [failed] using h
    refine ⟨[], rfl, ?_, ?_⟩
    · obtain ⟨more, v, read⟩ := completable mode []
      exact ⟨c :: more, v, (insists.going more).trans read⟩
    · intro d hd more r read
      have other : (d :: more).head? ≠ some c := by
        simp only [List.head?_cons]
        exact fun he => hc (hd ▸ he)
      obtain ⟨offence, failed⟩ := insists.failing _ other
      rw [List.nil_append, failed] at read
      cases read

end DebugLink.Value.Reader
