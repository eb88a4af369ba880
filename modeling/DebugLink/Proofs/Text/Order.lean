import DebugLink.Text.Utf8

/-! The order of texts is the order of their octets. Texts are compared character by character, and
UTF-8 is made so that comparing the octets comes to the same: of two characters the greater one
never has fewer octets, more octets begin with a greater one, and among as many the first that
differ are those of the highest bits that differ. -/

namespace DebugLink.Utf8

theorem cons_ofNat_lt {n m : Nat} {bs cs : Octets} (hm : m < 256) (le : n ≤ m)
    (rest : n = m → bs < cs) : UInt8.ofNat n :: bs < UInt8.ofNat m :: cs := by
  have hn : n < 256 := Nat.lt_of_le_of_lt le hm
  rw [List.cons_lt_cons_iff, UInt8.lt_iff_toNat_lt, ← UInt8.toNat_inj,
    UInt8.toNat_ofNat_of_lt' hn, UInt8.toNat_ofNat_of_lt' hm]
  rcases Nat.lt_or_eq_of_le le with lt | eq
  · exact .inl lt
  · exact .inr ⟨eq, rest eq⟩

theorem cons_ofNat_lt_of_lt {n m : Nat} {bs cs : Octets} (hm : m < 256) (lt : n < m) :
    UInt8.ofNat n :: bs < UInt8.ofNat m :: cs :=
  cons_ofNat_lt hm (Nat.le_of_lt lt) fun eq => absurd eq (Nat.ne_of_lt lt)

theorem encodeChar_append_lt {c d : Char} (h : c < d) (bs cs : Octets) :
    String.utf8EncodeChar c ++ bs < String.utf8EncodeChar d ++ cs := by
  have less : c.val.toNat < d.val.toNat := h
  have valid : d.val.toNat < 0x110000 := by
    have := d.valid
    simp only [UInt32.isValidChar, Nat.isValidChar] at this
    omega
  simp only [String.utf8EncodeChar]
  generalize c.val.toNat = v at *
  generalize d.val.toNat = w at *
  -- The number of octets of the greater one leaves only as many or fewer for the other.
  obtain one | two | three | four :
      w ≤ 127 ∨ 127 < w ∧ w ≤ 2047 ∨ 2047 < w ∧ w ≤ 65535 ∨ 65535 < w := by omega
  · rw [if_pos (by omega), if_pos one]
    exact cons_ofNat_lt_of_lt (by omega) (by omega)
  · rw [if_neg (by omega : ¬ w ≤ 127), if_pos two.2]
    split
    · exact cons_ofNat_lt_of_lt (by omega) (by omega)
    · rw [if_pos (by omega)]
      refine cons_ofNat_lt (by omega) (by omega) fun first => ?_
      exact cons_ofNat_lt_of_lt (by omega) (by omega)
  · rw [if_neg (by omega : ¬ w ≤ 127), if_neg (by omega : ¬ w ≤ 2047), if_pos three.2]
    split
    · exact cons_ofNat_lt_of_lt (by omega) (by omega)
    split
    · exact cons_ofNat_lt_of_lt (by omega) (by omega)
    · rw [if_pos (by omega)]
      refine cons_ofNat_lt (by omega) (by omega) fun first => ?_
      refine cons_ofNat_lt (by omega) (by omega) fun second => ?_
      exact cons_ofNat_lt_of_lt (by omega) (by omega)
  · rw [if_neg (by omega : ¬ w ≤ 127), if_neg (by omega : ¬ w ≤ 2047),
      if_neg (by omega : ¬ w ≤ 65535)]
    split
    · exact cons_ofNat_lt_of_lt (by omega) (by omega)
    split
    · exact cons_ofNat_lt_of_lt (by omega) (by omega)
    split
    · exact cons_ofNat_lt_of_lt (by omega) (by omega)
    · refine cons_ofNat_lt (by omega) (by omega) fun first => ?_
      refine cons_ofNat_lt (by omega) (by omega) fun second => ?_
      refine cons_ofNat_lt (by omega) (by omega) fun third => ?_
      exact cons_ofNat_lt_of_lt (by omega) (by omega)

theorem encodeChars_lt {cs ds : List Char} (h : cs < ds) : encodeChars cs < encodeChars ds := by
  induction cs generalizing ds with
  | nil =>
    cases ds with
    | nil => exact absurd h (List.lt_irrefl [])
    | cons d ds =>
      rw [encodeChars, encodeChars, List.flatMap_cons, List.flatMap_nil]
      obtain ⟨b, bs, octets⟩ := List.exists_cons_of_ne_nil (String.utf8EncodeChar_ne_nil (c := d))
      rw [octets]
      exact List.nil_lt_cons b _
  | cons c cs ih =>
    cases ds with
    | nil => exact absurd h (List.not_lt_nil _)
    | cons d ds =>
      rw [encodeChars, encodeChars, List.flatMap_cons, List.flatMap_cons]
      rcases List.cons_lt_cons_iff.mp h with lt | ⟨rfl, lt⟩
      · exact encodeChar_append_lt lt _ _
      · exact List.append_left_lt (ih lt)

theorem encode_lt {s t : String} (h : compare s t = .lt) : encode s < encode t :=
  encodeChars_lt (String.lt_iff.mp (compareOfLessAndEq_eq_lt.mp h))

end DebugLink.Utf8
