import DebugLink.Proofs.Value.Writing
import Mathlib.Tactic.Choose

/-! Texts that differ only in the order of the fields inside them. In every tuple, however deep, the
fields may trade places as long as those with one key keep their order; the elements of a list stay
where they are. Both texts are then written forms of one value: values are taken along from the
inside out, and for the fields of a tuple it only counts which is the last of its key. -/

namespace DebugLink.Grammar

/-- The same things in another order. Those with one key follow each other as they did. -/
structure Reordered {α : Type} (key : α → String) (xs ys : List α) : Prop where
  perm : xs.Perm ys
  stable : ∀ k, xs.filter (key · = k) = ys.filter (key · = k)

/-- A value under a key, as it is written before and after. -/
structure Revision (κ : Type) where
  key : κ
  before : List Char
  after : List Char

/-- A text under a key, or a bare one. -/
def under : Option String → List Char → List Char
  | none, text => text
  | some key, text => key.toList ++ '=' :: text

/-- A text, and a form of it in which fields have traded places at any depth. -/
inductive Rearranged : List Char → List Char → Prop
  | const {cs : List Char} {bs : Octets} :
      Spells cs bs → Rearranged ('"' :: (cs ++ ['"'])) ('"' :: (cs ++ ['"']))
  | list (parts : List (Revision (Option String))) :
      (∀ p ∈ parts, ∀ key ∈ p.key, IsKey key) →
      (∀ p ∈ parts, Rearranged p.before p.after) →
      Rearranged ('[' :: (separated (parts.map fun p => under p.key p.before) ++ [']']))
        ('[' :: (separated (parts.map fun p => under p.key p.after) ++ [']']))
  | tuple (parts parts' : List (Revision String)) :
      (∀ p ∈ parts, IsKey p.key) → (∀ p ∈ parts, Rearranged p.before p.after) →
      Reordered Revision.key parts parts' →
      Rearranged ('{' :: (separated (parts.map fun p => under p.key p.before) ++ ['}']))
        ('{' :: (separated (parts'.map fun p => under p.key p.after) ++ ['}']))

/-- The element of a list with a given text. -/
def Item.of (key : Option String) (text : List Char) (value : Value) : Item :=
  match key with
  | none => .bare text value
  | some key => .named ⟨key, text, value⟩

namespace Item

variable (key : Option String) (text : List Char) (v : Value)

@[simp] theorem text_of : (of key text v).text = text := by
  cases key <;> rfl

@[simp] theorem value_of : (of key text v).value = v := by
  cases key <;> rfl

@[simp] theorem chars_of : (of key text v).chars = under key text := by
  cases key <;> rfl

theorem keyOk_of {key : Option String} (h : ∀ k ∈ key, IsKey k) : (of key text v).KeyOk := by
  cases key with
  | none => trivial
  | some key => exact h key rfl

/-- It does not depend on how the value is written. -/
theorem element_of (text' : List Char) : (of key text v).element = (of key text' v).element := by
  cases key <;> rfl

end Item

theorem Derives.list_of {α : Type} (parts : List α) (key : α → Option String)
    (text : α → List Char) (value : α → Value) (keys : ∀ p ∈ parts, ∀ k ∈ key p, IsKey k)
    (values : ∀ p ∈ parts, Derives (text p) (value p)) :
    Derives ('[' :: (separated (parts.map fun p => under (key p) (text p)) ++ [']']))
      (.list (parts.map fun p => (Item.of (key p) (text p) (value p)).element)) := by
  have derived := Derives.list (parts.map fun p => Item.of (key p) (text p) (value p))
    (List.forall_mem_map.mpr fun p hp => Item.keyOk_of _ _ (keys p hp))
    (List.forall_mem_map.mpr fun p hp => by simpa using values p hp)
  simpa [Function.comp_def] using derived

theorem Derives.tuple_of {α : Type} (parts : List α) (key : α → String)
    (text : α → List Char) (value : α → Value) (keys : ∀ p ∈ parts, IsKey (key p))
    (values : ∀ p ∈ parts, Derives (text p) (value p)) :
    Derives ('{' :: (separated (parts.map fun p => under (key p) (text p)) ++ ['}']))
      (.tuple (Entries.ofList (parts.map fun p => (key p, value p)))) := by
  have derived := Derives.tuple (parts.map fun p => ⟨key p, text p, value p⟩)
    (List.forall_mem_map.mpr keys) (List.forall_mem_map.mpr values)
  rw [List.map_map, List.map_map] at derived
  exact derived

namespace Reordered

variable {α : Type} {key : α → String}

theorem swap {x y : α} (h : key x ≠ key y) (zs : List α) :
    Reordered key (x :: y :: zs) (y :: x :: zs) := by
  refine ⟨.swap y x zs, fun k => ?_⟩
  by_cases hx : key x = k
  · have hy : key y ≠ k := fun hy => h (hx.trans hy.symm)
    simp [hx, hy]
  · simp [List.filter_cons, hx]

theorem ofList_eq {xs ys : List α} (h : Reordered key xs ys) (value : α → Value) :
    Entries.ofList (xs.map fun x => (key x, value x)) =
      Entries.ofList (ys.map fun y => (key y, value y)) := by
  refine Entries.ofList_eq_of_filter_eq fun k => ?_
  simp only [List.filter_map, Function.comp_def, h.stable k]

end Reordered

/-- The two texts are written forms of one value. -/
theorem Rearranged.derives {text text' : List Char} (h : Rearranged text text') :
    ∃ v, Derives text v ∧ Derives text' v := by
  induction h with
  | const spelled => exact ⟨_, .const spelled, .const spelled⟩
  | list parts keys _ ih =>
    choose! value before after using ih
    have derived := Derives.list_of parts Revision.key Revision.after value keys after
    simp only [Item.element_of _ _ _ []] at derived
    refine ⟨_, ?_, derived⟩
    have derived := Derives.list_of parts Revision.key Revision.before value keys before
    simpa only [Item.element_of _ _ _ []] using derived
  | tuple parts parts' keys _ order ih =>
    choose! value before after using ih
    have within : ∀ p ∈ parts', p ∈ parts := fun p hp => order.perm.mem_iff.mpr hp
    refine ⟨_, Derives.tuple_of parts Revision.key Revision.before value keys before, ?_⟩
    rw [order.ofList_eq]
    exact Derives.tuple_of parts' Revision.key Revision.after value
      (fun p hp => keys p (within p hp)) fun p hp => after p (within p hp)

end DebugLink.Grammar
