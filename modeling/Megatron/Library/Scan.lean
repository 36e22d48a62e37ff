import Mathlib.Data.List.Basic
import Mathlib.Data.Nat.Find
import Mathlib.Logic.Nontrivial.Defs

/-!
Scanning a list for matches, from left to right, and replacing them. `M i j` says that the part
from place `i` up to place `j` is a match.
-/

namespace Library

open List

structure First (M : ℕ → ℕ → Prop) (p i j : ℕ) : Prop where
  matched : M i j
  le : p ≤ i
  leftmost : ∀ i' j', p ≤ i' → M i' j' → i ≤ i'
  longest : ∀ j', M i j' → j' ≤ j

/-- The matches from `p` on. An empty match is passed over by one place. -/
inductive Scan (M : ℕ → ℕ → Prop) : ℕ → List (ℕ × ℕ) → Prop
  | nil {p : ℕ} (h : ∀ i j, p ≤ i → ¬ M i j) : Scan M p []
  | cons {p i j : ℕ} {l : List (ℕ × ℕ)} (h : First M p i j) (hl : Scan M (max j (i + 1)) l) :
      Scan M p ((i, j) :: l)

section

variable {M : ℕ → ℕ → Prop} {p i j i' j' : ℕ}

lemma First.unique (h : First M p i j) (h' : First M p i' j') : i = i' ∧ j = j' := by
  have hi : i = i' :=
    le_antisymm (h.leftmost i' j' h'.le h'.matched) (h'.leftmost i j h.le h.matched)
  subst hi
  exact ⟨rfl, le_antisymm (h'.longest j h.matched) (h.longest j' h'.matched)⟩

lemma exists_first {n : ℕ} (hM : ∀ i j, M i j → j ≤ n) (h : ∃ i j, p ≤ i ∧ M i j) :
    ∃ i j, First M p i j := by
  classical
  have hi : ∃ i, p ≤ i ∧ ∃ j, M i j := by
    obtain ⟨i, j, hp, hij⟩ := h
    exact ⟨i, hp, j, hij⟩
  obtain ⟨hp, j₀, hj₀⟩ := Nat.find_spec hi
  -- the longest one ends as far before `n` as possible
  have hd : ∃ d, M (Nat.find hi) (n - d) ∧ d ≤ n := by
    have hle := hM _ _ hj₀
    exact ⟨n - j₀, by rwa [Nat.sub_sub_self hle], Nat.sub_le _ _⟩
  refine ⟨Nat.find hi, n - Nat.find hd, (Nat.find_spec hd).1, hp, ?_, ?_⟩
  · intro i' j' hp' hij'
    exact Nat.find_min' hi ⟨hp', j', hij'⟩
  · intro j' hj'
    have hle := hM _ _ hj'
    have hmin : Nat.find hd ≤ n - j' :=
      Nat.find_min' hd ⟨by rwa [Nat.sub_sub_self hle], Nat.sub_le _ _⟩
    omega

lemma exists_scan {n : ℕ} (hM : ∀ i j, M i j → i ≤ n ∧ j ≤ n) (p : ℕ) : ∃ l, Scan M p l := by
  induction hd : n + 1 - p using Nat.strong_induction_on generalizing p with
  | _ d ih =>
    by_cases h : ∃ i j, p ≤ i ∧ M i j
    · obtain ⟨i, j, hfirst⟩ := exists_first (fun i j hij => (hM i j hij).2) h
      have hle := hfirst.le
      have hin := (hM i j hfirst.matched).1
      obtain ⟨l, hl⟩ := ih (n + 1 - max j (i + 1)) (by omega) _ rfl
      exact ⟨_, .cons hfirst hl⟩
    · exact ⟨[], .nil fun i j hp hij => h ⟨i, j, hp, hij⟩⟩

lemma Scan.unique {l l' : List (ℕ × ℕ)} (h : Scan M p l) (h' : Scan M p l') : l = l' := by
  induction h generalizing l' with
  | nil h =>
    cases h' with
    | nil _ => rfl
    | cons hfirst _ => exact absurd hfirst.matched (h _ _ hfirst.le)
  | cons hfirst _ ih =>
    cases h' with
    | nil h => exact absurd hfirst.matched (h _ _ hfirst.le)
    | cons hfirst' hl' =>
      obtain ⟨rfl, rfl⟩ := hfirst.unique hfirst'
      rw [ih hl']

lemma Scan.matched {l : List (ℕ × ℕ)} (h : Scan M p l) : ∀ m ∈ l, M m.1 m.2 := by
  induction h with
  | nil _ => exact fun m hm => absurd hm not_mem_nil
  | cons hfirst _ ih => exact forall_mem_cons.mpr ⟨hfirst.matched, ih⟩

end

/-! ### Symbols for the matches -/

variable {α β : Type*}

/-- The list from `p` on, with a symbol for each match. -/
def marked (s : List α) (symbol : ℕ → ℕ → β) : ℕ → List (ℕ × ℕ) → List (α ⊕ β)
  | p, [] => (s.drop p).map .inl
  | p, (i, j) :: l => ((s.drop p).take (i - p)).map .inl ++ .inr (symbol i j) :: marked s symbol j l

def subst (f : β → List α) (w : List (α ⊕ β)) : List α := w.flatMap (Sum.elim (fun a => [a]) f)

variable {M : ℕ → ℕ → Prop} {l : List (ℕ × ℕ)} {symbol : ℕ → ℕ → β} (f : β → List α) (a : α)
variable (w : List (α ⊕ β))

@[simp] lemma subst_cons_inl : subst f (.inl a :: w) = a :: subst f w := rfl

@[simp] lemma subst_cons_inr (b : β) (w : List (α ⊕ β)) :
    subst f (.inr b :: w) = f b ++ subst f w := rfl

@[simp] lemma subst_append (w' : List (α ⊕ β)) : subst f (w ++ w') = subst f w ++ subst f w' :=
  flatMap_append

@[simp] lemma subst_map_inl (s : List α) : subst f (s.map .inl) = s := by
  induction s with
  | nil => rfl
  | cons a s ih => rw [map_cons, subst_cons_inl, ih]

lemma length_subst : (subst (fun _ => [a]) w).length = w.length := by
  induction w with
  | nil => rfl
  | cons x w ih =>
    cases x with
    | inl b => rw [subst_cons_inl, length_cons, length_cons, ih]
    | inr b => rw [subst_cons_inr, length_append, length_cons, ih, Nat.add_comm]; rfl

lemma length_marked_le {s : List α} {p : ℕ} (hM : ∀ i j, M i j → i < j ∧ j ≤ s.length)
    (h : Scan M p l) : (marked s symbol p l).length ≤ s.length - p := by
  induction h with
  | nil h => rw [marked, length_map, length_drop]
  | cons hfirst hl ih =>
    obtain ⟨hlt, hle⟩ := hM _ _ hfirst.matched
    have hp := hfirst.le
    rw [max_eq_left (by omega)] at ih
    rw [marked, length_append, length_map, length_take, length_cons, length_drop]
    omega

/-- **What is equal under all replacements is equal.** -/
lemma eq_of_subst [Nontrivial α] {w w' : List (α ⊕ β)}
    (h : ∀ f : β → List α, subst f w = subst f w') : w = w' := by
  classical
  obtain ⟨a₀, a₁, hne⟩ := exists_pair_ne α
  induction w generalizing w' with
  | nil =>
    have hlen := congrArg List.length (h fun _ => [a₀])
    rw [length_subst, length_subst, length_nil] at hlen
    exact (length_eq_zero_iff.mp hlen.symm).symm
  | cons x w ih =>
    cases w' with
    | nil =>
      have hlen := congrArg List.length (h fun _ => [a₀])
      rw [length_subst, length_subst, length_nil] at hlen
      exact absurd hlen (by simp)
    | cons y w' =>
      have hxy : x = y := by
        cases x with
        | inl a =>
          cases y with
          | inl b =>
            have hf := h fun _ => []
            rw [subst_cons_inl, subst_cons_inl] at hf
            rw [(List.cons.inj hf).1]
          | inr b =>
            -- the symbol is replaced by another element
            obtain ⟨c, hc⟩ := exists_ne a
            have hf := h fun _ => [c]
            rw [subst_cons_inl, subst_cons_inr] at hf
            exact absurd (List.cons.inj hf).1.symm hc
        | inr b =>
          cases y with
          | inl a =>
            obtain ⟨c, hc⟩ := exists_ne a
            have hf := h fun _ => [c]
            rw [subst_cons_inl, subst_cons_inr] at hf
            exact absurd (List.cons.inj hf).1 hc
          | inr b' =>
            by_contra hbb
            have hb : b' ≠ b := fun he => hbb (by rw [he])
            have hf := h fun b'' => if b'' = b then [a₀] else [a₁]
            rw [subst_cons_inr, subst_cons_inr, if_pos rfl, if_neg hb] at hf
            exact hne (List.cons.inj hf).1
      subst hxy
      congr 1
      refine ih fun f => ?_
      have hf := h f
      cases x with
      | inl a => exact (List.cons.inj hf).2
      | inr b => exact append_cancel_left hf

end Library
