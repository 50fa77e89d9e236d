import Mathlib

/-!
# Charting a labelling by a sweep

A sweep walks over tiles that partition a linear order from one point to the top and
records, as a list of pieces, where a partial labelling takes which value. `Charts` says
that the pieces are exact for the points swept so far and cannot be joined any further;
there is one rule for each thing a sweep can do with the next tile.
-/

namespace Vannak.Foundation

set_option autoImplicit false

/-- An interval of points, both ends included, on which the labelling has one value. -/
structure Piece (α β : Type) where
  first : α
  last : α
  label : β
deriving DecidableEq, Repr

section Sweep

variable {α β : Type} [LinearOrder α] {label : α → Option β} {pieces : List (Piece α β)}

def Piece.contains (piece : Piece α β) (point : α) : Bool := piece.first ≤ point ∧ point ≤ piece.last

theorem Piece.contains_iff {piece : Piece α β} {point : α} :
    piece.contains point = true ↔ point ∈ Set.Icc piece.first piece.last := decide_eq_true_iff

/-- In order, without overlap, and two pieces that touch have different labels. -/
def Piece.Apart (left right : Piece α β) : Prop :=
  left.last < right.first ∧ (left.last ⋖ right.first → left.label ≠ right.label)

structure Charts (label : α → Option β) (swept : Set α) (pieces : List (Piece α β)) : Prop where
  ordered : ∀ piece ∈ pieces, piece.first ≤ piece.last
  inside : ∀ piece ∈ pieces, piece.last ∈ swept
  apart : pieces.Pairwise Piece.Apart
  exact : ∀ point ∈ swept, ∀ value, label point = some value ↔
    ∃ piece ∈ pieces, point ∈ Set.Icc piece.first piece.last ∧ piece.label = value

theorem charts_empty {first : α} (hFirst : ∀ point, first ≤ point) : Charts label (Set.Iio first) [] where
  ordered := by simp
  inside := by simp
  apart := .nil
  exact point hPoint := absurd (hFirst point) (not_le.mpr hPoint)

/-- A piece that was recorded before the tile has no point in it. -/
theorem Charts.not_mem_of_tile {first point : α} (h : Charts label (Set.Iio first) pieces)
    (hPoint : first ≤ point) {piece : Piece α β} (hPiece : piece ∈ pieces) :
    point ∉ Set.Icc piece.first piece.last := by
  intro hMem
  exact absurd (hMem.2.trans_lt (h.inside piece hPiece)) (not_lt.mpr hPoint)

variable {first last : α}

/-- The tile has no label. -/
theorem Charts.skip (h : Charts label (Set.Iio first) pieces) (hTile : first ≤ last)
    (hLabel : ∀ point ∈ Set.Icc first last, label point = none) :
    Charts label (Set.Iic last) pieces where
  ordered := h.ordered
  inside piece hPiece := (h.inside piece hPiece).le.trans hTile
  apart := h.apart
  exact point hPoint value := by
    rcases lt_or_ge point first with hBefore | hAfter
    · exact h.exact point hBefore value
    · rw [hLabel point ⟨hAfter, hPoint⟩]
      constructor
      · intro hNone
        cases hNone
      · rintro ⟨piece, hPiece, hMem, -⟩
        exact absurd hMem (h.not_mem_of_tile hAfter hPiece)

/-- The tile starts a new piece: it does not touch the last one, or has another label. -/
theorem Charts.push (h : Charts label (Set.Iio first) pieces) (hTile : first ≤ last) {value : β}
    (hLabel : ∀ point ∈ Set.Icc first last, label point = some value)
    (hNew : ∀ previous, pieces.getLast? = some previous → previous.last ⋖ first →
      previous.label ≠ value) :
    Charts label (Set.Iic last) (pieces ++ [⟨first, last, value⟩]) where
  ordered := List.forall_mem_append.mpr ⟨h.ordered, List.forall_mem_singleton.mpr hTile⟩
  inside := List.forall_mem_append.mpr
    ⟨fun piece hPiece => (h.inside piece hPiece).le.trans hTile, List.forall_mem_singleton.mpr le_rfl⟩
  apart := by
    rw [List.pairwise_append]
    refine ⟨h.apart, List.pairwise_singleton _ _, fun piece hPiece other hOther => ?_⟩
    obtain rfl := List.mem_singleton.mp hOther
    refine ⟨h.inside piece hPiece, fun hTouch => ?_⟩
    -- only the last piece can touch the tile
    obtain ⟨before, previous, rfl⟩ :=
      (List.eq_nil_or_concat' pieces).resolve_left (List.ne_nil_of_mem hPiece)
    rcases List.mem_append.mp hPiece with hEarlier | hLast
    · have hApart := (List.pairwise_append.mp h.apart).2.2 piece hEarlier previous List.mem_cons_self
      have hPrevious := List.mem_append_right before (List.mem_singleton_self previous)
      exact absurd ((h.ordered previous hPrevious).trans_lt (h.inside previous hPrevious)) (hTouch.2 hApart.1)
    · obtain rfl := List.mem_singleton.mp hLast
      exact hNew piece (by simp) hTouch
  exact point hPoint other := by
    simp only [List.mem_append, List.mem_singleton, or_and_right, exists_or, exists_eq_left]
    rcases lt_or_ge point first with hBefore | hAfter
    · rw [h.exact point hBefore other]
      simp [not_le.mpr hBefore]
    · rw [hLabel point ⟨hAfter, hPoint⟩]
      constructor
      · intro hSome
        exact .inr ⟨⟨hAfter, hPoint⟩, Option.some.inj hSome⟩
      · rintro (⟨piece, hPiece, hMem, -⟩ | ⟨-, rfl⟩)
        · exact absurd hMem (h.not_mem_of_tile hAfter hPiece)
        · rfl

/-- The tile continues the last piece. -/
theorem Charts.extend {previous : Piece α β} (h : Charts label (Set.Iio first) (pieces ++ [previous]))
    (hTile : first ≤ last) (hTouch : previous.last ⋖ first)
    (hLabel : ∀ point ∈ Set.Icc first last, label point = some previous.label) :
    Charts label (Set.Iic last) (pieces ++ [⟨previous.first, last, previous.label⟩]) := by
  obtain ⟨hEarlier, hPrevious⟩ := List.forall_mem_append.mp h.ordered
  have hStart : previous.first ≤ last :=
    (hPrevious previous List.mem_cons_self).trans (hTouch.lt.le.trans hTile)
  obtain ⟨hApart, -, hBefore⟩ := List.pairwise_append.mp h.apart
  refine ⟨?_, ?_, ?_, fun point hPoint other => ?_⟩
  · exact List.forall_mem_append.mpr ⟨hEarlier, List.forall_mem_singleton.mpr hStart⟩
  · refine List.forall_mem_append.mpr ⟨fun piece hPiece => ?_, List.forall_mem_singleton.mpr le_rfl⟩
    exact (h.inside piece (List.mem_append_left _ hPiece)).le.trans hTile
  · refine List.pairwise_append.mpr ⟨hApart, List.pairwise_singleton _ _, fun piece hPiece other hOther => ?_⟩
    obtain rfl := List.mem_singleton.mp hOther
    exact hBefore piece hPiece previous List.mem_cons_self
  · simp only [List.mem_append, List.mem_singleton, or_and_right, exists_or, exists_eq_left]
    rcases lt_or_ge point first with hEarly | hLate
    · have hReached : point ≤ previous.last := hTouch.le_of_lt hEarly
      rw [h.exact point hEarly other]
      simp only [List.mem_append, List.mem_singleton, or_and_right, exists_or, exists_eq_left]
      simp [hReached, show point ≤ last from hPoint]
    · rw [hLabel point ⟨hLate, hPoint⟩]
      constructor
      · intro hSome
        have hAfter := (hPrevious previous List.mem_cons_self).trans (hTouch.lt.le.trans hLate)
        exact .inr ⟨⟨hAfter, hPoint⟩, Option.some.inj hSome⟩
      · rintro (⟨piece, hPiece, hMem, -⟩ | ⟨-, rfl⟩)
        · exact absurd hMem (h.not_mem_of_tile hLate (List.mem_append_left _ hPiece))
        · rfl

/-! ## Whole sweeps -/

/-- Consecutive tiles from a point up to the top. -/
inductive Tiles (top : α) : α → List (α × α) → Prop where
  | last {first : α} (hTop : first ≤ top) : Tiles top first [(first, top)]
  | cons {first last next : α} {rest : List (α × α)} (hTile : first ≤ last) (hNext : last ⋖ next)
    (hRest : Tiles top next rest) : Tiles top first ((first, last) :: rest)

/-- If each tile is handled by one of the rules, the whole sweep is exact. -/
theorem Charts.foldl {top : α} {tiles : List (α × α)} {step : List (Piece α β) → α × α → List (Piece α β)}
    (hTiles : Tiles top first tiles)
    (hStep : ∀ tile ∈ tiles, ∀ pieces, tile.1 ≤ tile.2 → Charts label (Set.Iio tile.1) pieces →
      Charts label (Set.Iic tile.2) (step pieces tile))
    (h : Charts label (Set.Iio first) pieces) :
    Charts label (Set.Iic top) (tiles.foldl step pieces) := by
  induction hTiles generalizing pieces with
  | last hTop => exact hStep _ List.mem_cons_self pieces hTop h
  | cons hTile hNext _ ih =>
    obtain ⟨hFirst, hRest⟩ := List.forall_mem_cons.mp hStep
    have hSwept := hFirst pieces hTile h
    rw [← hNext.Iio_eq] at hSwept
    exact ih hRest hSwept

/-- A labelled point lies in one piece only, and that piece has its label. -/
theorem Charts.filter_eq_singleton {top : α} (h : Charts label (Set.Iic top) pieces) {point : α} {value : β}
    (hPoint : point ≤ top) (hLabel : label point = some value) :
    ∃ piece, pieces.filter (·.contains point) = [piece] ∧
      piece.label = value := by
  obtain ⟨piece, hPiece, hMem, hValue⟩ := (h.exact point hPoint value).mp hLabel
  obtain ⟨before, after, rfl⟩ := List.append_of_mem hPiece
  obtain ⟨-, hAfter, hBefore⟩ := List.pairwise_append.mp h.apart
  have hNotBefore : before.filter (·.contains point) = [] := by
    refine List.filter_eq_nil_iff.mpr fun other hOther hIn => ?_
    have hEnds := (hBefore other hOther piece List.mem_cons_self).1
    exact absurd (Piece.contains_iff.mp hIn).2 (not_le.mpr (hEnds.trans_le hMem.1))
  have hNotAfter : after.filter (·.contains point) = [] := by
    refine List.filter_eq_nil_iff.mpr fun other hOther hIn => ?_
    have hStarts := ((List.pairwise_cons.mp hAfter).1 other hOther).1
    exact absurd (Piece.contains_iff.mp hIn).1 (not_le.mpr (hMem.2.trans_lt hStarts))
  refine ⟨piece, ?_, hValue⟩
  rw [List.filter_append, hNotBefore, List.filter_cons, if_pos (Piece.contains_iff.mpr hMem), hNotAfter]
  rfl

theorem Charts.filter_eq_nil {top : α} (h : Charts label (Set.Iic top) pieces) {point : α}
    (hPoint : point ≤ top) (hLabel : label point = none) :
    pieces.filter (·.contains point) = [] := by
  refine List.filter_eq_nil_iff.mpr fun piece hPiece hIn => ?_
  have hSome := (h.exact point hPoint piece.label).mpr ⟨piece, hPiece, Piece.contains_iff.mp hIn, rfl⟩
  rw [hLabel] at hSome
  cases hSome

end Sweep

/-! ## Sweeps over machine words -/

instance uint64LinearOrder : LinearOrder UInt64 where
  le_refl := UInt64.le_refl
  le_trans _ _ _ := UInt64.le_trans
  lt_iff_le_not_ge _ _ := by
    rw [UInt64.not_le]
    exact ⟨fun h => ⟨UInt64.le_of_lt h, h⟩, fun h => h.2⟩
  le_antisymm _ _ := UInt64.le_antisymm
  le_total := UInt64.le_total
  toDecidableLE := inferInstance
  min_def _ _ := rfl
  max_def _ _ := rfl

theorem UInt64.covBy_iff {left right : UInt64} : left ⋖ right ↔ right.toNat = left.toNat + 1 := by
  constructor
  · intro h
    have hLt := UInt64.lt_iff_toNat_lt.mp h.lt
    by_contra hGap
    have hFits : left.toNat + 1 < UInt64.size := by
      have hSize := right.toNat_lt
      rw [UInt64.size]
      omega
    refine h.2 (c := UInt64.ofNat (left.toNat + 1)) ?_ ?_
    · rw [UInt64.lt_iff_toNat_lt, UInt64.toNat_ofNat_of_lt' hFits]
      omega
    · rw [UInt64.lt_iff_toNat_lt, UInt64.toNat_ofNat_of_lt' hFits]
      omega
  · intro h
    refine ⟨UInt64.lt_iff_toNat_lt.mpr (by omega), fun middle hLeft hRight => ?_⟩
    rw [UInt64.lt_iff_toNat_lt] at hLeft hRight
    omega

/-! ## Items sorted into pieces -/

section Sorting

variable {ρ α : Type} [DecidableEq α] (contains : ρ → α → Bool)

theorem count_flatMap_filter (pieces : List ρ) (items : List α) (item : α) :
    (pieces.flatMap fun piece => items.filter (contains piece)).count item =
      pieces.countP (contains · item) * items.count item := by
  induction pieces with
  | nil => simp
  | cons piece pieces ih =>
    rw [List.flatMap_cons, List.count_append, ih, List.countP_cons, Nat.add_mul, Nat.add_comm]
    congr 1
    by_cases hItem : contains piece item = true
    · rw [List.count_filter hItem, if_pos hItem, Nat.one_mul]
    · rw [if_neg hItem, Nat.zero_mul, List.count_eq_zero]
      exact fun hMem => hItem (List.mem_filter.mp hMem).2

/-- If no item is in two pieces, the items of the pieces are the items that are in one. -/
theorem perm_flatMap_filter {pieces : List ρ} {items : List α}
    (h : ∀ item ∈ items, pieces.countP (contains · item) ≤ 1) :
    (pieces.flatMap fun piece => items.filter (contains piece)).Perm
      (items.filter fun item => pieces.any (contains · item)) := by
  rw [List.perm_iff_count]
  intro item
  rw [count_flatMap_filter]
  by_cases hKept : item ∈ items.filter fun item => pieces.any (contains · item)
  · obtain ⟨hMem, hAny⟩ := List.mem_filter.mp hKept
    have hSome : 0 < pieces.countP (contains · item) := List.countP_pos_iff.mpr (List.any_eq_true.mp hAny)
    have hCount : (items.filter fun item => pieces.any (contains · item)).count item = items.count item :=
      List.count_filter hAny
    rw [hCount, Nat.le_antisymm (h item hMem) hSome, Nat.one_mul]
  · rw [List.count_eq_zero.mpr hKept, Nat.mul_eq_zero]
    by_cases hMem : item ∈ items
    · refine .inl (List.countP_eq_zero.mpr fun piece hPiece hItem => hKept ?_)
      exact List.mem_filter.mpr ⟨hMem, List.any_eq_true.mpr ⟨piece, hPiece, hItem⟩⟩
    · exact .inr (List.count_eq_zero.mpr hMem)

/-- Items that have one place each are the items of all places. -/
theorem perm_flatMap_range {count : Nat} {place : α → Nat} {items : List α} (h : ∀ item ∈ items, place item < count) :
    ((List.range count).flatMap fun index => items.filter fun item => place item = index).Perm items := by
  have hOnce : ∀ item ∈ items, (List.range count).countP (fun index => place item = index) ≤ 1 := by
    intro item _
    calc (List.range count).countP (fun index => place item = index)
      _ = (List.range count).count (place item) := List.countP_congr fun index _ => by
        rw [decide_eq_true_iff, beq_iff_eq]
        exact eq_comm
      _ ≤ 1 := List.nodup_iff_count_le_one.mp List.nodup_range _
  have hPerm := perm_flatMap_filter (fun (index : Nat) item => decide (place item = index)) hOnce
  have hAll : (items.filter fun item => (List.range count).any fun index => place item = index) = items := by
    rw [List.filter_eq_self]
    intro item hItem
    simpa using h item hItem
  rwa [hAll] at hPerm

end Sorting

end Vannak.Foundation
