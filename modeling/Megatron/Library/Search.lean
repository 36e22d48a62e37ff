import Mathlib.Data.List.Basic

/-!
The first occurrence of a list in another one.
-/

namespace Library

open List

variable {α : Type*} [DecidableEq α]

/-- Where `needle` occurs for the first time. -/
def find (needle : List α) : List α → Option ℕ
  | [] => if needle = [] then some 0 else none
  | a :: l => if needle.isPrefixOf (a :: l) then some 0 else (find needle l).map (· + 1)

variable {needle l l' : List α} {i : ℕ}

lemma find_cons_pos {a : α} (h : needle <+: a :: l) : find needle (a :: l) = some 0 := by
  rw [find, if_pos (List.isPrefixOf_iff_prefix.mpr h)]

lemma find_cons_neg {a : α} (h : ¬ needle <+: a :: l) :
    find needle (a :: l) = (find needle l).map (· + 1) := by
  rw [find, if_neg (List.isPrefixOf_iff_prefix.not.mpr h)]

section

variable (h : find needle l = some i)
include h

lemma find_le : i + needle.length ≤ l.length := by
  induction l generalizing i with
  | nil =>
    rw [find] at h
    split_ifs at h with hnil
    cases h
    rw [hnil]
    exact Nat.le_refl _
  | cons a l ih =>
    by_cases hpre : needle <+: a :: l
    · rw [find_cons_pos hpre] at h
      cases h
      rw [Nat.zero_add]
      exact hpre.length_le
    · rw [find_cons_neg hpre] at h
      obtain ⟨j, hj, rfl⟩ := Option.map_eq_some_iff.mp h
      have := ih hj
      rw [length_cons]
      omega

lemma prefix_of_find : needle <+: l.drop i := by
  induction l generalizing i with
  | nil =>
    rw [find] at h
    split_ifs at h with hnil
    rw [hnil]
    exact nil_prefix
  | cons a l ih =>
    by_cases hpre : needle <+: a :: l
    · rw [find_cons_pos hpre] at h
      cases h
      exact hpre
    · rw [find_cons_neg hpre] at h
      obtain ⟨j, hj, rfl⟩ := Option.map_eq_some_iff.mp h
      exact ih hj

lemma find_append (l' : List α) : find needle (l ++ l') = some i := by
  induction l generalizing i with
  | nil =>
    rw [find] at h
    split_ifs at h with hnil
    cases h
    rw [nil_append, hnil]
    cases l' with
    | nil => rfl
    | cons a l' => exact find_cons_pos nil_prefix
  | cons a l ih =>
    rw [cons_append]
    by_cases hpre : needle <+: a :: l
    · rw [find_cons_pos hpre] at h
      cases h
      exact find_cons_pos (hpre.trans (prefix_append _ _))
    · rw [find_cons_neg hpre] at h
      obtain ⟨j, hj, rfl⟩ := Option.map_eq_some_iff.mp h
      have hlen := find_le hj
      rw [find_cons_neg, ih hj]
      · rfl
      · -- An occurrence at the front would lie in the list, which is long enough.
        intro hpre'
        refine hpre (prefix_of_prefix_length_le hpre' (prefix_append (a :: l) l') ?_)
        rw [length_cons]
        omega

lemma find_cut (hpre : l' <+: l) (hlen : l'.length < i + needle.length) :
    find needle l' = none := by
  cases hfind : find needle l' with
  | none => rfl
  | some j =>
    obtain ⟨rest, rfl⟩ := hpre
    have heq := (find_append hfind rest).symm.trans h
    cases heq
    have := find_le hfind
    omega

end

lemma find_of_not_mem {x : α} {needle' : List α} (h : x ∉ l) :
    find (x :: needle') (l ++ l') = (find (x :: needle') l').map (· + l.length) := by
  induction l with
  | nil => simp
  | cons a l ih =>
    obtain ⟨ha, hl⟩ := not_or.mp (mem_cons.not.mp h)
    have hpre : ¬ x :: needle' <+: a :: (l ++ l') := fun hpre => ha (cons_prefix_cons.mp hpre).1
    rw [cons_append, find_cons_neg hpre, ih hl, Option.map_map, length_cons]
    rfl

lemma find_singleton {c : α} (h : c ∉ l) : find [c] (l ++ c :: l') = some l.length := by
  have hpre : [c] <+: c :: l' := prefix_append [c] l'
  rw [find_of_not_mem h, find_cons_pos hpre, Option.map_some, Nat.zero_add]

lemma find_singleton_none {c : α} (h : c ∉ l) : find [c] l = none := by
  have hfind : find [c] (l ++ []) = _ := find_of_not_mem h
  rwa [append_nil, find, if_neg (cons_ne_nil c []), Option.map_none] at hfind

lemma forall_mem_intercalate {β : Type*} {P : β → Prop} {sep : List β} {ls : List (List β)}
    (hsep : ∀ b ∈ sep, P b) (hls : ∀ l ∈ ls, ∀ b ∈ l, P b) :
    ∀ b ∈ List.intercalate sep ls, P b := by
  induction ls with
  | nil =>
    rw [intercalate_nil]
    exact fun b hb => absurd hb not_mem_nil
  | cons l ls ih =>
    obtain ⟨hl, hls⟩ := forall_mem_cons.mp hls
    cases ls with
    | nil =>
      rw [intercalate_singleton]
      exact hl
    | cons l' ls =>
      rw [intercalate_cons_cons]
      exact forall_mem_append.mpr ⟨forall_mem_append.mpr ⟨hl, hsep⟩, ih hls⟩

lemma flatten_splitOnP {β : Type*} (p : β → Bool) (s : List β) :
    (s.splitOnP p).flatten = s.filter fun c => !p c := by
  induction s with
  | nil => rfl
  | cons b s ih =>
    rw [splitOnP_cons_eq_if_modifyHead, filter_cons, ← ih]
    cases hsplit : s.splitOnP p with
    | nil => exact absurd hsplit (splitOnP_ne_nil _ _)
    | cons first parts => cases hb : p b <;> simp

lemma exists_part_iff {β : Type*} {p : β → Bool} {s : List β} {c : β} :
    (∃ part ∈ s.splitOnP p, c ∈ part) ↔ c ∈ s ∧ p c = false := by
  rw [← mem_flatten, flatten_splitOnP, mem_filter, Bool.not_eq_true']

end Library
