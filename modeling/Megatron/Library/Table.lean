import Mathlib.Data.List.Induction
import Mathlib.Data.List.Nodup
import Mathlib.Logic.Function.Basic
import Mathlib.Tactic.SplitIfs

/-!
Tables as partial functions.
-/

namespace Library

open List Function

/-- `std::map::insert`, which keeps an entry that is there already. -/
def insertNew {α β : Type*} [DecidableEq α] (m : α → Option β) (a : α) (b : β) : α → Option β :=
  if (m a).isSome then m else update m a (some b)

variable {α β : Type*} [DecidableEq α] {m : α → Option β} {a a' : α} {b b' : β}

lemma insertNew_eq_some
    (h : insertNew m a b a' = some b') : m a' = some b' ∨ m a = none ∧ a' = a ∧ b' = b := by
  rw [insertNew] at h
  split_ifs at h with hsome
  · exact .inl h
  · by_cases haa : a' = a
    · subst haa
      rw [update_self, Option.some.injEq] at h
      exact .inr ⟨by simpa using hsome, rfl, h.symm⟩
    · rw [update_of_ne haa] at h
      exact .inl h

lemma insertNew_of_some (h : m a' = some b') : insertNew m a b a' = some b' := by
  rw [insertNew]
  split_ifs with hsome
  · exact h
  · have hne : a' ≠ a := by
      rintro rfl
      simp [h] at hsome
    rw [update_of_ne hne, h]

lemma insertNew_of_ne (h : a' ≠ a) : insertNew m a b a' = m a' := by
  rw [insertNew]
  split_ifs
  · rfl
  · exact update_of_ne h _ _

lemma insertNew_of_none (h : m a = none) : insertNew m a b a = some b := by
  simp [insertNew, h]

lemma insertNew_self_isSome (m : α → Option β) (a : α) (b : β) :
    (insertNew m a b a).isSome = true := by
  rw [insertNew]
  split_ifs with hsome
  · exact hsome
  · rw [update_self]
    rfl

/-! ### Last values -/

def lastValue (l : List (α × β)) (a : α) : Option β := l.reverse.lookup a

section

variable {l : List (α × β)}

lemma lastValue_append (l l' : List (α × β)) (a : α) :
    lastValue (l ++ l') a = (lastValue l' a).or (lastValue l a) := by
  rw [lastValue, reverse_append, lookup_append]
  rfl

lemma lastValue_singleton (e : α × β) (a : α) :
    lastValue [e] a = if a = e.1 then some e.2 else none := by
  rw [lastValue, reverse_singleton, lookup_cons]
  by_cases heq : a = e.1
  · simp [heq]
  · rw [if_neg heq, beq_false_of_ne heq]
    rfl

lemma mem_of_lastValue (h : lastValue l a = some b) : (a, b) ∈ l := by
  induction l using List.reverseRecOn with
  | nil => cases h
  | append_singleton l e ih =>
    rw [lastValue_append, lastValue_singleton] at h
    by_cases heq : a = e.1
    · rw [if_pos heq, Option.some_or] at h
      cases h
      rw [heq]
      exact mem_append_right _ mem_cons_self
    · rw [if_neg heq, Option.none_or] at h
      exact mem_append_left _ (ih h)

lemma lastValue_eq_none : lastValue l a = none ↔ a ∉ l.map Prod.fst := by
  induction l using List.reverseRecOn with
  | nil => exact iff_of_true rfl not_mem_nil
  | append_singleton l e ih =>
    rw [lastValue_append, lastValue_singleton, Option.or_eq_none_iff, ih, map_append,
      mem_append, not_or, and_comm]
    simp

lemma lastValue_of_mem (hnodup : (l.map Prod.fst).Nodup) (h : (a, b) ∈ l) :
    lastValue l a = some b := by
  cases hlast : lastValue l a with
  | none => exact absurd (mem_map_of_mem h) (lastValue_eq_none.mp hlast)
  | some b' =>
    have heq := inj_on_of_nodup_map hnodup (mem_of_lastValue hlast) h rfl
    cases heq
    rfl

lemma foldl_update_eq (l : List (α × β)) :
    l.foldl (fun (m : α → Option β) e => update m e.1 (some e.2)) (fun _ => none) =
      lastValue l := by
  induction l using List.reverseRecOn with
  | nil => rfl
  | append_singleton l e ih =>
    funext a
    rw [foldl_append, ih, lastValue_append, lastValue_singleton]
    by_cases heq : a = e.1
    · rw [if_pos heq, heq]
      exact update_self ..
    · rw [if_neg heq]
      exact update_of_ne heq ..

end

end Library
