import Vannak.Foundation.OrderedMap

/-!
# Counting distinct keys in parts

Items are dealt to places and each place counts the different keys of its own. The sum of the counts is at least the
number of different keys, and is that number exactly when no key is found in two places.
-/

namespace Vannak.Foundation

set_option autoImplicit false

/-- The number of different keys. -/
def distinct {κ : Type} [DecidableEq κ] (keys : List κ) : Nat := keys.toFinset.card

theorem size_eq_distinct {κ β : Type} [Ord κ] [Std.TransOrd κ] [Std.LawfulEqOrd κ] [DecidableEq κ]
    {map : Std.ExtTreeMap κ β} {keys : List κ} (h : ∀ key, key ∈ map ↔ key ∈ keys) : map.size = distinct keys := by
  have hKeys : map.keys.toFinset = keys.toFinset := by
    ext key
    rw [List.mem_toFinset, List.mem_toFinset, Std.ExtTreeMap.mem_keys, h]
  rw [distinct, ← hKeys, List.toFinset_card_of_nodup Std.ExtTreeMap.nodup_keys, Std.ExtTreeMap.length_keys]

theorem distinct_eq_length {κ : Type} [DecidableEq κ] {keys : List κ} (h : keys.Nodup) :
    distinct keys = keys.length := List.toFinset_card_of_nodup h

section Parts

variable {α κ : Type} [DecidableEq κ] (place : α → Nat) (keysOf : α → List κ)

/-- The items at a place. -/
def itemsAt (index : Nat) (items : List α) : List α := items.filter fun item => place item = index

theorem mem_itemsAt {index : Nat} {items : List α} {item : α} :
    item ∈ itemsAt place index items ↔ item ∈ items ∧ place item = index := by
  rw [itemsAt, List.mem_filter, decide_eq_true_iff]

/-- The keys at a place. -/
def keysAt (items : List α) (index : Nat) : Finset κ := ((itemsAt place index items).flatMap keysOf).toFinset

theorem mem_keysAt {items : List α} {index : Nat} {key : κ} :
    key ∈ keysAt place keysOf items index ↔ ∃ item ∈ items, place item = index ∧ key ∈ keysOf item := by
  rw [keysAt, List.mem_toFinset, List.mem_flatMap]
  simp only [mem_itemsAt, and_assoc]

/-- Every key is counted once for each place it is found in. -/
theorem sum_card_keysAt (count : Nat) (items : List α) :
    ((List.range count).map fun index => (keysAt place keysOf items index).card).sum =
      ∑ key ∈ (items.flatMap keysOf).toFinset,
        ((Finset.range count).filter fun index => key ∈ keysAt place keysOf items index).card := by
  have hCount := Finset.sum_card_bipartiteAbove_eq_sum_card_bipartiteBelow
    (s := Finset.range count) (t := (items.flatMap keysOf).toFinset)
    fun (index : Nat) key => key ∈ keysAt place keysOf items index
  refine Eq.trans ?_ hCount
  change (∑ index ∈ Finset.range count, (keysAt place keysOf items index).card) = _
  refine Finset.sum_congr rfl fun index _ => congrArg Finset.card ?_
  ext key
  rw [Finset.mem_bipartiteAbove, List.mem_toFinset, List.mem_flatMap]
  refine (and_iff_right_of_imp fun hKey => ?_).symm
  obtain ⟨item, hItem, -, hOwn⟩ := (mem_keysAt place keysOf).mp hKey
  exact ⟨item, hItem, hOwn⟩

/-- No key is found in two places. -/
def Apart (items : List α) : Prop :=
  ∀ left ∈ items, ∀ right ∈ items, ∀ key ∈ keysOf left, key ∈ keysOf right → place left = place right

theorem sum_distinct_eq_iff {count : Nat} {items : List α} (hPlaces : ∀ item ∈ items, place item < count) :
    ((List.range count).map fun index => distinct ((itemsAt place index items).flatMap keysOf)).sum =
      distinct (items.flatMap keysOf) ↔ Apart place keysOf items := by
  have hSome : ∀ key ∈ (items.flatMap keysOf).toFinset,
      1 ≤ ((Finset.range count).filter fun index => key ∈ keysAt place keysOf items index).card := by
    intro key hKey
    obtain ⟨item, hItem, hOwn⟩ := List.mem_flatMap.mp (List.mem_toFinset.mp hKey)
    refine Finset.card_pos.mpr ⟨place item, Finset.mem_filter.mpr ⟨Finset.mem_range.mpr (hPlaces item hItem), ?_⟩⟩
    exact (mem_keysAt place keysOf).mpr ⟨item, hItem, rfl, hOwn⟩
  have hOnes : distinct (items.flatMap keysOf) = ∑ _key ∈ (items.flatMap keysOf).toFinset, 1 :=
    Finset.card_eq_sum_ones _
  have hSum : ((List.range count).map fun index => distinct ((itemsAt place index items).flatMap keysOf)).sum =
      ∑ key ∈ (items.flatMap keysOf).toFinset,
        ((Finset.range count).filter fun index => key ∈ keysAt place keysOf items index).card :=
    sum_card_keysAt place keysOf count items
  rw [hSum, hOnes, eq_comm, Finset.sum_eq_sum_iff_of_le hSome]
  constructor
  · intro hOnce left hLeft right hRight key hKey hOther
    have hMem : key ∈ (items.flatMap keysOf).toFinset :=
      List.mem_toFinset.mpr (List.mem_flatMap.mpr ⟨left, hLeft, hKey⟩)
    obtain ⟨index, hIndex⟩ := Finset.card_eq_one.mp (hOnce key hMem).symm
    have hPlace : ∀ item ∈ items, key ∈ keysOf item → place item = index := by
      intro item hItem hOwn
      refine Finset.mem_singleton.mp (hIndex ▸ Finset.mem_filter.mpr ⟨Finset.mem_range.mpr (hPlaces item hItem), ?_⟩)
      exact (mem_keysAt place keysOf).mpr ⟨item, hItem, rfl, hOwn⟩
    exact (hPlace left hLeft hKey).trans (hPlace right hRight hOther).symm
  · intro hApart key hKey
    refine Nat.le_antisymm (hSome key hKey) (Finset.card_le_one.mpr fun first hFirst second hSecond => ?_)
    obtain ⟨left, hLeft, rfl, hOwn⟩ := (mem_keysAt place keysOf).mp (Finset.mem_filter.mp hFirst).2
    obtain ⟨right, hRight, rfl, hOther⟩ := (mem_keysAt place keysOf).mp (Finset.mem_filter.mp hSecond).2
    exact hApart left hLeft right hRight key hOwn hOther

/-- What is counted for each item is counted once in all places together. -/
theorem sum_countP_itemsAt {count : Nat} {items : List α} (hPlaces : ∀ item ∈ items, place item < count)
    (counted : α → Bool) :
    ((List.range count).map fun index => (itemsAt place index items).countP counted).sum = items.countP counted := by
  induction items with
  | nil => simp [itemsAt]
  | cons item items ih =>
    obtain ⟨hItem, hItems⟩ := List.forall_mem_cons.mp hPlaces
    have hCons : ∀ index, (itemsAt place index (item :: items)).countP counted =
        (itemsAt place index items).countP counted +
          if index = place item then (if counted item then 1 else 0) else 0 := by
      intro index
      rw [itemsAt, List.filter_cons]
      by_cases hPlace : place item = index
      · simp [hPlace, itemsAt, List.countP_cons]
      · simp [hPlace, itemsAt, Ne.symm hPlace]
    simp only [hCons]
    rw [List.sum_map_add, ih hItems, List.countP_cons]
    refine congrArg (items.countP counted + ·) ?_
    change (∑ index ∈ Finset.range count, if index = place item then (if counted item then 1 else 0) else 0) = _
    rw [Finset.sum_ite_eq', if_pos (Finset.mem_range.mpr hItem)]

theorem sum_length_itemsAt {count : Nat} {items : List α} (hPlaces : ∀ item ∈ items, place item < count) :
    ((List.range count).map fun index => (itemsAt place index items).length).sum = items.length := by
  have hAll := sum_countP_itemsAt place hPlaces fun _ => true
  simpa only [List.countP_true] using hAll

end Parts

end Vannak.Foundation
