import Vannak.Foundation.Sorting

/-!
# Items on a circle

Items with keys from a linear order, of which a place on the circle belongs to the first item at or after it, and
past the last item to the first of all. Of items with one key the first in the list counts. A table of the items
sorted by key answers by its first row that is not before the place.
-/

namespace Vannak.Foundation

set_option autoImplicit false

variable {α κ : Type} [LinearOrder κ] (key : α → κ)

/-- The items at or after the place, and all of them if there are none. -/
def clockwise (items : List α) (place : κ) : List α :=
  if items.filter (place ≤ key ·) = [] then items else items.filter (place ≤ key ·)

def ownerOf (items : List α) (place : κ) : Option α := (clockwise key items place).argmin key

/-- The row of the table found by its index, the first row again past its end. -/
def lookupRow (rows : List α) (place : κ) : Option α :=
  rows[(rows.findIdx fun row => ¬key row < place) % rows.length]?

/-! ## The sorted table -/

theorem lookupRow_eq_head? (rows : List α) (place : κ) :
    lookupRow key rows place = (clockwise key rows place).head? := by
  have hIndex : (fun row => decide ¬key row < place) = fun row => decide (place ≤ key row) :=
    funext fun row => decide_eq_decide.mpr not_lt
  rw [lookupRow, hIndex, clockwise]
  split
  · rename_i hNone
    have hEnd : rows.findIdx (fun row => decide (place ≤ key row)) = rows.length := by
      rw [List.findIdx_eq_length]
      intro row hRow
      simpa using List.filter_eq_nil_iff.mp hNone row hRow
    rw [hEnd, Nat.mod_self, ← List.head?_eq_getElem?]
  · rename_i hSome
    obtain ⟨row, hRow⟩ := List.exists_mem_of_ne_nil _ hSome
    obtain ⟨hMem, hAfter⟩ := List.mem_filter.mp hRow
    have hLess : rows.findIdx (fun row => decide (place ≤ key row)) < rows.length :=
      List.findIdx_lt_length_of_exists ⟨row, hMem, hAfter⟩
    rw [Nat.mod_eq_of_lt hLess, List.head?_filter, List.find?_eq_getElem?_findIdx]

theorem clockwise_sortByKey (items : List α) (place : κ) :
    clockwise key (sortByKey key items) place = sortByKey key (clockwise key items place) := by
  rw [clockwise, clockwise, filter_sortByKey]
  have hNil : sortByKey key (items.filter (place ≤ key ·)) = [] ↔ items.filter (place ≤ key ·) = [] := by
    rw [← List.length_eq_zero_iff, sortByKey, List.length_insertionSort, List.length_eq_zero_iff]
  by_cases hNone : items.filter (place ≤ key ·) = []
  · rw [if_pos (hNil.mpr hNone), if_pos hNone]
  · rw [if_neg fun hEq => hNone (hNil.mp hEq), if_neg hNone]

/-- The table knows the owner of every place. -/
theorem lookupRow_sortByKey (items : List α) (place : κ) :
    lookupRow key (sortByKey key items) place = ownerOf key items place := by
  rw [lookupRow_eq_head?, clockwise_sortByKey, head?_sortByKey, ownerOf]

/-! ## New items -/

/-- The earlier of two items with the least keys of two lists, the first one's if they are equal. -/
def earlier : Option α → Option α → Option α
  | none, right => right
  | some left, none => some left
  | some left, some right => if key right < key left then some right else some left

theorem earlier_assoc (left middle right : Option α) :
    earlier key (earlier key left middle) right = earlier key left (earlier key middle right) := by
  cases left <;> cases middle <;> cases right <;> simp only [earlier] <;> grind [earlier]

theorem argmin_cons_eq_earlier (item : α) (items : List α) :
    (item :: items).argmin key = earlier key (some item) (items.argmin key) := by
  rw [List.argmin_cons]
  cases items.argmin key <;> rfl

theorem argmin_append (first second : List α) :
    (first ++ second).argmin key = earlier key (first.argmin key) (second.argmin key) := by
  induction first with
  | nil => rfl
  | cons item first ih =>
    rw [List.cons_append, argmin_cons_eq_earlier, argmin_cons_eq_earlier, ih, earlier_assoc]

theorem earlier_insert (left inserted right : Option α) :
    earlier key (earlier key left inserted) right = earlier key left right ∨
      ∃ item, inserted = some item ∧ earlier key (earlier key left inserted) right = some item := by
  cases left <;> cases inserted <;> cases right <;> simp only [earlier] <;> grind [earlier]

/-- New items take places over and leave all others with their owners. -/
theorem ownerOf_insert (before inserted after : List α) (place : κ) :
    ownerOf key (before ++ (inserted ++ after)) place = ownerOf key (before ++ after) place ∨
      ∃ item ∈ inserted, ownerOf key (before ++ (inserted ++ after)) place = some item := by
  have hArgmin : ∀ before inserted after : List α,
      (before ++ (inserted ++ after)).argmin key = (before ++ after).argmin key ∨
        ∃ item ∈ inserted, (before ++ (inserted ++ after)).argmin key = some item := by
    intro before inserted after
    rw [← List.append_assoc, argmin_append, argmin_append, argmin_append]
    rcases earlier_insert key (before.argmin key) (inserted.argmin key) (after.argmin key) with
      hSame | ⟨item, hItem, hNew⟩
    · exact .inl hSame
    · exact .inr ⟨item, List.argmin_mem hItem, hNew⟩
  rw [ownerOf, ownerOf, clockwise, clockwise, List.filter_append, List.filter_append, List.filter_append]
  by_cases hOld : before.filter (place ≤ key ·) ++ after.filter (place ≤ key ·) = []
  · obtain ⟨hBefore, hAfter⟩ := List.append_eq_nil_iff.mp hOld
    rw [if_pos hOld, hBefore, hAfter, List.nil_append, List.append_nil]
    split
    · exact hArgmin before inserted after
    · rename_i hNew
      obtain ⟨item, hItem⟩ :=
        Option.ne_none_iff_exists'.mp fun hNone => hNew ((List.argmin_eq_none (f := key)).mp hNone)
      exact .inr ⟨item, List.mem_of_mem_filter (List.argmin_mem hItem), hItem⟩
  · have hAll : ¬before.filter (place ≤ key ·) ++
        (inserted.filter (place ≤ key ·) ++ after.filter (place ≤ key ·)) = [] := by
      intro hNil
      obtain ⟨hBefore, hRest⟩ := List.append_eq_nil_iff.mp hNil
      exact hOld (List.append_eq_nil_iff.mpr ⟨hBefore, (List.append_eq_nil_iff.mp hRest).2⟩)
    rw [if_neg hOld, if_neg hAll]
    rcases hArgmin (before.filter (place ≤ key ·)) (inserted.filter (place ≤ key ·))
      (after.filter (place ≤ key ·)) with hSame | ⟨item, hItem, hNew⟩
    · exact .inl hSame
    · exact .inr ⟨item, List.mem_of_mem_filter hItem, hNew⟩

end Vannak.Foundation
