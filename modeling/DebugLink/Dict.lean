/-! Dictionaries kept in the order of their keys. The entries are a list with strictly ascending
keys, so two dictionaries with the same contents are equal and listing one is listing it in
order. The operations on bare lists come first, since a value that contains itself can hold only
a bare list. -/

namespace DebugLink

namespace Entries

variable {κ α β : Type} [Ord κ]

/-- Keys strictly ascending, hence each key at most once. -/
def Sorted (es : List (κ × α)) : Prop := es.Pairwise fun a b => compare a.1 b.1 = .lt

instance (es : List (κ × α)) : Decidable (Sorted es) :=
  inferInstanceAs (Decidable (List.Pairwise _ es))

/-- What stands under a key. -/
def find? (key : κ) : List (κ × α) → Option α
  | [] => none
  | (k, v) :: es => if compare key k = .eq then some v else find? key es

/-- Puts a value under a key, in the place of what stood there. -/
def insert (key : κ) (value : α) : List (κ × α) → List (κ × α)
  | [] => [(key, value)]
  | (k, v) :: es =>
    match compare key k with
    | .lt => (key, value) :: (k, v) :: es
    | .eq => (key, value) :: es
    | .gt => (k, v) :: insert key value es

/-- The entries of a list of pairs; of pairs with one key the last counts. -/
def ofList (pairs : List (κ × α)) : List (κ × α) :=
  pairs.foldl (fun es p => insert p.1 p.2 es) []

/-- The old entries with new ones put over them. -/
def merge (es news : List (κ × α)) : List (κ × α) :=
  news.foldl (fun es p => insert p.1 p.2 es) es

theorem Sorted.nil : Sorted ([] : List (κ × α)) := List.Pairwise.nil

theorem mem_insert {key : κ} {value : α} {e : κ × α} {es : List (κ × α)}
    (h : e ∈ insert key value es) : e = (key, value) ∨ e ∈ es := by
  induction es with
  | nil => simpa [insert] using h
  | cons hd tl ih =>
    obtain ⟨k, v⟩ := hd
    simp only [insert] at h
    split at h
    · simpa using h
    · rcases List.mem_cons.mp h with h | h <;> simp [h]
    · rcases List.mem_cons.mp h with h | h
      · simp [h]
      · rcases ih h with h | h <;> simp [h]

theorem Sorted.insert [Std.TransOrd κ] {es : List (κ × α)} (h : Sorted es) (key : κ) (value : α) :
    Sorted (insert key value es) := by
  induction es with
  | nil => simp [Entries.insert, Sorted]
  | cons hd tl ih =>
    obtain ⟨k, v⟩ := hd
    have hhd : ∀ e ∈ tl, compare k e.1 = .lt := fun e he => List.rel_of_pairwise_cons h he
    have htl : Sorted tl := List.Pairwise.of_cons h
    simp only [Entries.insert]
    split
    · rename_i hlt
      refine List.Pairwise.cons ?_ h
      intro e he
      rcases List.mem_cons.mp he with rfl | he
      · exact hlt
      · exact Std.TransCmp.lt_trans hlt (hhd e he)
    · rename_i heq
      refine List.Pairwise.cons ?_ htl
      intro e he
      exact Std.TransCmp.lt_of_eq_of_lt heq (hhd e he)
    · rename_i hgt
      refine List.Pairwise.cons ?_ (ih htl)
      intro e he
      rcases mem_insert he with rfl | he
      · exact Std.OrientedCmp.lt_of_gt hgt
      · exact hhd e he

theorem Sorted.merge [Std.TransOrd κ] {es : List (κ × α)} (h : Sorted es) (news : List (κ × α)) :
    Sorted (merge es news) := by
  unfold Entries.merge
  induction news generalizing es with
  | nil => exact h
  | cons p news ih => exact ih (h.insert p.1 p.2)

theorem Sorted.ofList [Std.TransOrd κ] (pairs : List (κ × α)) : Sorted (ofList pairs) :=
  Sorted.merge Sorted.nil pairs

end Entries

/-- A dictionary in the order of its keys. -/
structure Dict (κ α : Type) [Ord κ] where
  entries : List (κ × α)
  sorted : Entries.Sorted entries

namespace Dict

variable {κ α : Type} [Ord κ]

@[ext] theorem ext {d e : Dict κ α} (h : d.entries = e.entries) : d = e := by
  cases d; cases e; cases h; rfl

instance [DecidableEq κ] [DecidableEq α] : DecidableEq (Dict κ α) := fun d e =>
  decidable_of_iff (d.entries = e.entries) ⟨ext, fun h => h ▸ rfl⟩

def empty : Dict κ α := ⟨[], Entries.Sorted.nil⟩

instance : EmptyCollection (Dict κ α) := ⟨empty⟩

instance : Inhabited (Dict κ α) := ⟨empty⟩

def size (d : Dict κ α) : Nat := d.entries.length

def keys (d : Dict κ α) : List κ := d.entries.map (·.1)

def values (d : Dict κ α) : List α := d.entries.map (·.2)

def find? (d : Dict κ α) (key : κ) : Option α := Entries.find? key d.entries

def contains (d : Dict κ α) (key : κ) : Bool := (d.find? key).isSome

def insert [Std.TransOrd κ] (d : Dict κ α) (key : κ) (value : α) : Dict κ α :=
  ⟨Entries.insert key value d.entries, d.sorted.insert key value⟩

/-- Leaves out what stands under a key. -/
def erase (d : Dict κ α) (key : κ) : Dict κ α :=
  ⟨d.entries.filter fun e => compare key e.1 != .eq, List.Pairwise.filter _ d.sorted⟩

/-- Changes what stands under a key, if anything does. -/
def modify (d : Dict κ α) (key : κ) (f : α → α) : Dict κ α where
  entries := d.entries.map fun e => if compare key e.1 = .eq then (e.1, f e.2) else e
  sorted := by
    refine List.Pairwise.map _ ?_ d.sorted
    intro a b h
    have key_eq : ∀ e : κ × α, (if compare key e.1 = .eq then (e.1, f e.2) else e).1 = e.1 := by
      intro e; split <;> rfl
    rw [key_eq, key_eq]
    exact h

/-- The entry with the greatest key. -/
def last? (d : Dict κ α) : Option (κ × α) := d.entries.getLast?

end Dict

end DebugLink
