import DebugLink.Proofs.Breakpoint
import DebugLink.Proofs.Record.Frame
import DebugLink.Proofs.Text.Order

/-! The listing of breakpoints. A number is placed by its parts, the texts between its points: by
the first, then by the second, and numbers of one place by their octets. The sort that makes the
listing compares places only. As it is stable and the table keeps its entries in the order of the
octets, the listing is in the order of both; and there is no second list of the same breakpoints in
this order. -/

namespace DebugLink

/-- Sorting leaves those that tie as they were to each other. -/
theorem pairwise_mergeSort_of_pairwise {α : Type} {le : α → α → Bool}
    (trans : ∀ a b c, le a b = true → le b c = true → le a c = true)
    (total : ∀ a b, (le a b || le b a) = true) {R : α → α → Prop} {l : List α} (h : l.Pairwise R) :
    (l.mergeSort le).Pairwise fun a b => le b a = true → R a b := by
  induction l with
  | nil => simp
  | cons a l ih =>
    -- The first comes to stand behind those only that are less than it.
    obtain ⟨before, after, whole, rest, less⟩ := List.mergeSort_cons trans total a l
    obtain ⟨first, others⟩ := List.pairwise_cons.mp h
    have sorted := ih others
    rw [rest] at sorted
    obtain ⟨left, right, across⟩ := List.pairwise_append.mp sorted
    rw [whole]
    refine List.pairwise_append.mpr ⟨left, List.pairwise_cons.mpr ⟨fun b hb _ => ?_, right⟩, ?_⟩
    · have kept : b ∈ l.mergeSort le := by
        rw [rest]
        exact List.mem_append_right before hb
      exact first b (List.mem_mergeSort.mp kept)
    · intro b hb c hc tie
      rcases List.mem_cons.mp hc with rfl | hc
      · have greater := less b hb
        simp [tie] at greater
      · exact across b hb c hc tie

namespace Breakpoint

/-! ### Places -/

/-- The texts between the points of a number. -/
def parts (number : String) : List String := (number.toList.splitOn '.').map String.ofList

/-- The place of the first part of a number, and that of the second if there is one. -/
def place (number : String) : Option Nat × Option Nat :=
  ((parts number)[0]?.map rank, (parts number)[1]?.map rank)

/-- One number comes before another in a listing. A part that is there comes after none. -/
def Precedes (a b : String) : Prop :=
  (place a).1 < (place b).1 ∨ (place a).1 = (place b).1 ∧
    ((place a).2 < (place b).2 ∨ (place a).2 = (place b).2 ∧ Utf8.encode a < Utf8.encode b)

theorem splitOn_eq (c : Char) (cs : List Char) :
    cs.splitOn c = cs.takeWhile (· != c) :: match cs.dropWhile (· != c) with
      | [] => []
      | _ :: cs => cs.splitOn c := by
  have free : ∀ d ∈ cs.takeWhile (· != c), (d == c) = false := by
    intro d hd
    have kept := List.all_eq_true.mp List.all_takeWhile d hd
    simpa [bne] using kept
  have whole : cs.takeWhile (· != c) ++ cs.dropWhile (· != c) = cs :=
    List.takeWhile_append_dropWhile
  cases rest : cs.dropWhile (· != c) with
  | nil =>
    rw [rest, List.append_nil] at whole
    rw [List.splitOn, List.splitOnP_eq_singleton (by rwa [whole] at free), whole]
  | cons d ds =>
    have stop : (d == c) = true := by
      have head := List.head?_dropWhile_not (· != c) cs
      rw [rest] at head
      simpa [bne] using head
    rw [rest] at whole
    conv => lhs; rw [← whole]
    exact List.splitOnP_append_cons_of_forall_mem free d stop ds

/-- The number is split where the listing says it is. -/
theorem place_eq (number : String) :
    place number = (some (rank (splitNumber number).1), (splitNumber number).2.map rank) := by
  unfold place parts splitNumber
  dsimp only
  rw [splitOn_eq]
  cases number.toList.dropWhile (· != '.') with
  | nil => rfl
  | cons c cs =>
    dsimp only
    rw [splitOn_eq]
    rfl

/-- The order of optional numbers as one of numbers. -/
def seat (part : Option Nat) : Nat := part.elim 0 (· + 1)

theorem lt_iff_seat_lt {x y : Option Nat} : x < y ↔ seat x < seat y := by
  cases x <;> cases y <;> simp [seat]

theorem eq_iff_seat_eq {x y : Option Nat} : x = y ↔ seat x = seat y := by
  cases x <;> cases y <;> simp [seat]

theorem precedes_iff {a b : String} :
    Precedes a b ↔ seat (place a).1 < seat (place b).1 ∨ seat (place a).1 = seat (place b).1 ∧
      (seat (place a).2 < seat (place b).2 ∨ seat (place a).2 = seat (place b).2 ∧
        Utf8.encode a < Utf8.encode b) := by
  simp only [Precedes, lt_iff_seat_lt, eq_iff_seat_eq]

theorem listedBefore_iff {a b : String} :
    listedBefore a b = true ↔ seat (place a).1 < seat (place b).1 ∨
      seat (place a).1 = seat (place b).1 ∧ seat (place a).2 ≤ seat (place b).2 := by
  rw [place_eq, place_eq]
  unfold listedBefore
  dsimp only
  split
  · rename_i same
    rw [same]
    cases (splitNumber a).2 <;> cases (splitNumber b).2 <;> simp [seat]
  · rename_i other
    simp only [decide_eq_true_eq, seat, Option.elim_some]
    omega

theorem listedBefore_trans (a b c : String) (hab : listedBefore a b = true)
    (hbc : listedBefore b c = true) : listedBefore a c = true := by
  rw [listedBefore_iff] at *
  omega

theorem listedBefore_total (a b : String) : (listedBefore a b || listedBefore b a) = true := by
  rw [Bool.or_eq_true, listedBefore_iff, listedBefore_iff]
  omega

theorem Precedes.asymm {a b : String} (h : Precedes a b) : ¬ Precedes b a := by
  intro h'
  rw [precedes_iff] at h h'
  rcases h with lt | ⟨same, lt | ⟨same', lt⟩⟩
  · omega
  · omega
  · rcases h' with lt' | ⟨-, lt' | ⟨-, lt'⟩⟩
    · omega
    · omega
    · exact List.lt_asymm lt lt'

/-- Numbers of one place are told apart by their octets. -/
theorem precedes_of_listedBefore {a b : String} (h : listedBefore a b = true)
    (tie : listedBefore b a = true → Utf8.encode a < Utf8.encode b) : Precedes a b := by
  rw [precedes_iff]
  rw [listedBefore_iff] at h tie
  rcases h with lt | ⟨same, le⟩
  · exact .inl lt
  · rcases Nat.lt_or_eq_of_le le with lt | same'
    · exact .inr ⟨same, .inl lt⟩
    · exact .inr ⟨same, .inr ⟨same', tie (.inr ⟨same.symm, Nat.le_of_eq same'.symm⟩)⟩⟩

/-! ### Canonical numbers -/

/-- The number of a breakpoint or, with a second part, of one of its locations. -/
def canonical (first : UInt32) : Option UInt32 → String
  | none => Decimal.text first.toNat
  | some second => Decimal.text first.toNat ++ "." ++ Decimal.text second.toNat

theorem readUInt32_text (n : UInt32) : Decimal.readUInt32 (Decimal.text n.toNat) = .ok n := by
  rw [Decimal.readUInt32, Decimal.text, String.toList_ofList, Decimal.readChars_chars n.toNat_lt]
  exact congrArg Except.ok UInt32.ofNat_toNat

theorem rank_text (n : UInt32) : rank (Decimal.text n.toNat) = n.toNat := by
  rw [rank, readUInt32_text]

theorem point_notMem_text (n : UInt32) :
    ∀ c ∈ (Decimal.text n.toNat).toList, (c == '.') = false := by
  intro c hc
  rw [Decimal.text, String.toList_ofList] at hc
  have digit : c.isDigit = true := Decimal.isDigit_of_mem_chars hc
  rw [beq_eq_false_iff_ne]
  rintro rfl
  cases digit

theorem parts_canonical (first : UInt32) (second : Option UInt32) :
    parts (canonical first second) =
      Decimal.text first.toNat :: (second.map fun n => Decimal.text n.toNat).toList := by
  have single : ∀ n : UInt32, (Decimal.text n.toNat).toList.splitOn '.' =
      [(Decimal.text n.toNat).toList] := fun n => List.splitOnP_eq_singleton (point_notMem_text n)
  cases second with
  | none =>
    rw [parts, canonical, single, List.map_singleton, String.ofList_toList]
    rfl
  | some second =>
    have split : (canonical first (some second)).toList.splitOn '.' =
        (Decimal.text first.toNat).toList :: (Decimal.text second.toNat).toList.splitOn '.' := by
      rw [canonical, String.toList_append, String.toList_append, List.append_assoc]
      exact List.splitOnP_append_cons_of_forall_mem (point_notMem_text first) '.' rfl _
    rw [parts, split, single, List.map_cons, List.map_singleton, String.ofList_toList,
      String.ofList_toList]
    rfl

theorem place_canonical (first : UInt32) (second : Option UInt32) :
    place (canonical first second) = (some first.toNat, second.map UInt32.toNat) := by
  rw [place, parts_canonical]
  cases second <;> simp [rank_text]

/-- Canonical numbers come in the order of the numbers in them, and a breakpoint comes before its
locations. -/
theorem precedes_canonical_iff {first first' : UInt32} {second second' : Option UInt32} :
    Precedes (canonical first second) (canonical first' second') ↔
      first < first' ∨ first = first' ∧ second < second' := by
  have lt : second.map UInt32.toNat < second'.map UInt32.toNat ↔ second < second' := by
    cases second <;> cases second' <;> simp [UInt32.lt_iff_toNat_lt]
  rw [Precedes, place_canonical, place_canonical]
  simp only [Option.some_lt_some, Option.some.injEq, UInt32.toNat_inj, ← UInt32.lt_iff_toNat_lt, lt]
  refine or_congr_right (and_congr_right fun same => ⟨?_, .inl⟩)
  rintro (lt | ⟨same', lt⟩)
  · exact lt
  · -- Nothing is left that could tell the two apart.
    obtain rfl := same
    obtain rfl : second = second' := Option.map_injective (fun _ _ => UInt32.toNat_inj.mp) same'
    exact absurd lt (List.lt_irrefl _)

end Breakpoint

namespace BreakpointTable
open Breakpoint

/-- Every breakpoint stands under its own number. -/
def Numbered (t : BreakpointTable) : Prop := ∀ e ∈ t.byNumber.entries, e.2.number = e.1

theorem numbered_absorbAll (reports : List Report) : (absorbAll {} reports).Numbered := by
  intro e he
  have found := Entries.find?_eq_some_of_mem (absorbAll {} reports).byNumber.sorted he
  exact (get?_absorbAll_empty_eq_some found).1

variable {t : BreakpointTable}

theorem Numbered.mem_listing_iff (h : t.Numbered) {b : Breakpoint} :
    b ∈ t.listing ↔ t.get? b.number = some b := by
  rw [listing, List.mem_mergeSort, Dict.values, List.mem_map]
  constructor
  · rintro ⟨e, he, rfl⟩
    rw [h e he]
    exact Entries.find?_eq_some_of_mem t.byNumber.sorted he
  · intro found
    exact ⟨_, Entries.mem_of_find?_eq_some found, rfl⟩

theorem Numbered.map_number_values (h : t.Numbered) :
    t.byNumber.values.map Breakpoint.number = t.byNumber.keys := by
  rw [Dict.values, Dict.keys, List.map_map]
  exact List.map_congr_left h

theorem Numbered.nodup_listing (h : t.Numbered) :
    (t.listing.map Breakpoint.number).Nodup := by
  have perm := (List.mergeSort_perm t.byNumber.values fun a b =>
    listedBefore a.number b.number).map Breakpoint.number
  refine perm.nodup_iff.mpr ?_
  rw [h.map_number_values]
  exact Entries.Sorted.nodup_keys t.byNumber.sorted

theorem Numbered.pairwise_listing (h : t.Numbered) :
    t.listing.Pairwise fun a b => Precedes a.number b.number := by
  have kept : t.byNumber.values.Pairwise fun a b =>
      Utf8.encode a.number < Utf8.encode b.number := by
    have keys : t.byNumber.keys.Pairwise fun a b => Utf8.encode a < Utf8.encode b :=
      List.pairwise_map.mpr (t.byNumber.sorted.imp Utf8.encode_lt)
    rw [← h.map_number_values, List.pairwise_map] at keys
    exact keys
  have trans : ∀ a b c : Breakpoint, listedBefore a.number b.number = true →
      listedBefore b.number c.number = true → listedBefore a.number c.number = true :=
    fun _ _ _ => listedBefore_trans _ _ _
  have total : ∀ a b : Breakpoint,
      (listedBefore a.number b.number || listedBefore b.number a.number) = true :=
    fun _ _ => listedBefore_total _ _
  have sorted := List.pairwise_mergeSort trans total t.byNumber.values
  have ties := pairwise_mergeSort_of_pairwise trans total kept
  exact sorted.imp₂ (fun a b => precedes_of_listedBefore) ties

/-- No other list of the same breakpoints is in this order. -/
theorem Numbered.eq_listing (h : t.Numbered) {l : List Breakpoint} (perm : l.Perm t.listing)
    (order : l.Pairwise fun a b => Precedes a.number b.number) : l = t.listing :=
  perm.eq_of_pairwise (fun _ _ _ _ lt gt => absurd gt lt.asymm) order h.pairwise_listing

theorem Numbered.count_listing (h : t.Numbered) (b : Breakpoint) :
    t.listing.count b = if t.get? b.number = some b then 1 else 0 := by
  split
  · rename_i found
    exact List.count_eq_one_of_mem (h.nodup_listing.of_map _) (h.mem_listing_iff.mpr found)
  · rename_i absent
    exact List.count_eq_zero.mpr fun listed => absent (h.mem_listing_iff.mp listed)

end BreakpointTable

open Breakpoint

/-- The listing of a table that any reports have made holds each of its breakpoints once, by the
places of their numbers and then by their octets. No other list of them is in this order, and
tables with the same breakpoints have one listing. Between numbers of 32 bits this is the order of
numbers, with a breakpoint before its locations. -/
theorem breakpoints_are_listed_once_in_the_order_of_their_numbers (reports : List Report) :
    let t := BreakpointTable.absorbAll {} reports
    (∀ b, t.listing.count b = if t.get? b.number = some b then 1 else 0) ∧
    (t.listing.map Breakpoint.number).Nodup ∧
    (t.listing.Pairwise fun a b => Precedes a.number b.number) ∧
    (∀ l : List Breakpoint, l.Perm t.listing →
      (l.Pairwise fun a b => Precedes a.number b.number) → l = t.listing) ∧
    (∀ others, (∀ number, (BreakpointTable.absorbAll {} others).get? number = t.get? number) →
      (BreakpointTable.absorbAll {} others).listing = t.listing) ∧
    ∀ (first first' : UInt32) (second second' : Option UInt32),
      Precedes (canonical first second) (canonical first' second') ↔
        first < first' ∨ first = first' ∧ second < second' := by
  have numbered := BreakpointTable.numbered_absorbAll reports
  refine ⟨numbered.count_listing, numbered.nodup_listing, numbered.pairwise_listing,
    fun l => numbered.eq_listing, fun others same => ?_, fun _ _ _ _ => precedes_canonical_iff⟩
  have tables : BreakpointTable.absorbAll {} others = BreakpointTable.absorbAll {} reports := by
    rw [BreakpointTable.mk.injEq]
    exact Dict.ext_find? same
  rw [tables]

/-- Ten comes after two and after its locations, whoever was reported first. -/
theorem ten_is_listed_after_two :
    let report (number : String) : Report := (∅ : Report).insert "number" (.const number)
    let t := BreakpointTable.absorbAll {} (["10", "2", "2.1", "1"].map report)
    t.listing.map Breakpoint.number = ["1", "2", "2.1", "10"] ∧
      (BreakpointTable.absorbAll {} (["1", "10", "2.1", "2"].map report)).listing = t.listing := by
  intro report t
  obtain ⟨-, -, -, unique, same, order⟩ :=
    breakpoints_are_listed_once_in_the_order_of_their_numbers (["10", "2", "2.1", "1"].map report)
  let point (first : UInt32) (second : Option UInt32) : Breakpoint :=
    ⟨canonical first second, [("number", .const (canonical first second))]⟩
  let l := [point 1 none, point 2 none, point 2 (some 1), point 10 none]
  have values : t.byNumber.values =
      [point 1 none, point 10 none, point 2 none, point 2 (some 1)] := by
    decide +kernel
  have perm : l.Perm t.listing := by
    have sorted := List.mergeSort_perm t.byNumber.values fun a b => listedBefore a.number b.number
    refine List.Perm.trans ?_ sorted.symm
    rw [values]
    decide
  have pairwise : l.Pairwise fun a b => Precedes a.number b.number := by
    simp [l, point, order]
  have listing := unique l perm pairwise
  refine ⟨?_, same _ fun number => ?_⟩
  · rw [← listing]
    decide +kernel
  · have tables : BreakpointTable.absorbAll {} (["1", "10", "2.1", "2"].map report) = t := by
      decide +kernel
    rw [tables]

end DebugLink
