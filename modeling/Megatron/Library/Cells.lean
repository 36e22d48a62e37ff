import Mathlib.Data.List.Basic

/-!
Arrays of cells in memory, written from the first cell on.
-/

namespace Library

open List

variable {β : Type*}

/-- The contents of the first `n` cells. -/
def firstCells (cells : ℕ → β) (n : ℕ) : List β := (List.range n).map cells

/-- The cells after `bs` has been copied to the place `i`. -/
def copyAt (cells : ℕ → β) (i : ℕ) (bs : List β) : ℕ → β := fun j =>
  if i ≤ j then (bs[j - i]?).getD (cells j) else cells j

variable (cells : ℕ → β) (n i : ℕ)

@[simp] lemma length_firstCells : (firstCells cells n).length = n := by
  simp [firstCells]

lemma firstCells_succ : firstCells cells (n + 1) = firstCells cells n ++ [cells n] := by
  rw [firstCells, range_succ, map_append]
  rfl

lemma firstCells_congr {cells cells' : ℕ → β} {n : ℕ} (h : ∀ i < n, cells i = cells' i) :
    firstCells cells n = firstCells cells' n := map_congr_left fun i hi => h i (mem_range.mp hi)

lemma copyAt_of_lt {cells : ℕ → β} {i j : ℕ} (h : j < i) (bs : List β) :
    copyAt cells i bs j = cells j := if_neg (Nat.not_le_of_lt h)

@[simp] lemma copyAt_nil : copyAt cells i [] = cells := by
  funext j
  simp [copyAt]

lemma copyAt_self (b : β) (bs : List β) : copyAt cells i (b :: bs) i = b := by
  simp [copyAt]

lemma copyAt_copyAt (bs cs : List β) :
    copyAt (copyAt cells i bs) (i + bs.length) cs = copyAt cells i (bs ++ cs) := by
  funext j
  rcases Nat.lt_or_ge j i with hj | hj
  · rw [copyAt_of_lt (by omega), copyAt_of_lt hj, copyAt_of_lt hj]
  · rcases Nat.lt_or_ge j (i + bs.length) with hj' | hj'
    · rw [copyAt_of_lt hj', copyAt, copyAt, if_pos hj, if_pos hj,
        List.getElem?_append_left (by omega)]
    · have hnone : bs[j - i]? = none := List.getElem?_eq_none (by omega)
      rw [copyAt, copyAt, copyAt, if_pos hj', if_pos hj, if_pos hj, hnone,
        List.getElem?_append_right (by omega),
        show j - i - bs.length = j - (i + bs.length) by omega]
      rfl

lemma firstCells_copyAt (bs : List β) :
    firstCells (copyAt cells n bs) (n + bs.length) = firstCells cells n ++ bs := by
  induction bs generalizing cells n with
  | nil => simp
  | cons b bs ih =>
    have hsplit : copyAt cells n (b :: bs) = copyAt (copyAt cells n [b]) (n + 1) bs :=
      (copyAt_copyAt cells n [b] bs).symm
    have hfirst : firstCells (copyAt cells n [b]) n = firstCells cells n :=
      firstCells_congr fun i hi => copyAt_of_lt hi [b]
    rw [hsplit, length_cons, show n + (bs.length + 1) = n + 1 + bs.length by omega, ih,
      firstCells_succ, hfirst, copyAt_self, append_assoc, singleton_append]

end Library
