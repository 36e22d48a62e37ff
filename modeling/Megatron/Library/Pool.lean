import Mathlib.Algebra.BigOperators.Group.Finset.Basic
import Mathlib.Algebra.Order.Group.Multiset
import Mathlib.Data.Fintype.Basic

/-!
A queue whose whole content is taken at once by one of several workers, who then handles the items
one by one: each item once (`Accounted.step`), and by a single worker in order (`InOrder.step`).
-/

namespace Library

open Function

/-- A queue with items `α` and workers `κ`, and what was queued, taken and handled so far. -/
structure Pool (κ α : Type*) where
  queue : List α
  hands : κ → List α
  queued : List α
  dequeued : List α
  handled : List α

namespace Pool

variable {κ α : Type*} [DecidableEq κ] {p p' : Pool κ α}

/-- An item is queued, a worker takes the queue, or handles its next item. -/
inductive Step (p : Pool κ α) : Pool κ α → Prop
  | push (x : α) : Step p { p with queue := p.queue ++ [x], queued := p.queued ++ [x] }
  | take (k : κ) : p.hands k = [] → Step p { p with
      queue := []
      hands := update p.hands k p.queue
      dequeued := p.dequeued ++ p.queue }
  | handle {k : κ} {x : α} {rest : List α} : p.hands k = x :: rest → Step p { p with
      hands := update p.hands k rest
      handled := p.handled ++ [x] }

/-- Items are taken in order, and each is handled or in one hand. -/
structure Accounted [Fintype κ] (p : Pool κ α) : Prop where
  fifo : p.dequeued ++ p.queue = p.queued
  once : (p.handled : Multiset α) + ∑ k, (p.hands k : Multiset α) = p.dequeued

lemma sum_hands_update [Fintype κ] (hands : κ → List α) (k : κ) (l : List α) : ∑ j,
    (update hands k l j : Multiset α) = l + ∑ j ∈ Finset.univ.erase k, (hands j : Multiset α) := by
  rw [← Finset.add_sum_erase _ _ (Finset.mem_univ k), update_self]
  congr 1
  refine Finset.sum_congr rfl fun j hj => ?_
  rw [update_of_ne (Finset.ne_of_mem_erase hj)]

lemma Accounted.step [Fintype κ] (h : p.Accounted) (hs : p.Step p') : p'.Accounted := by
  have honce := h.once
  cases hs with
  | push x =>
    refine ⟨?_, honce⟩
    rw [← List.append_assoc, h.fifo]
  | take k hk =>
    rw [← Finset.add_sum_erase _ _ (Finset.mem_univ k), hk, Multiset.coe_nil, zero_add] at honce
    refine ⟨?_, ?_⟩
    · rw [List.append_nil, h.fifo]
    · rw [sum_hands_update, add_left_comm, honce, add_comm, Multiset.coe_add]
  | @handle k x rest hk =>
    rw [← Finset.add_sum_erase _ _ (Finset.mem_univ k), hk] at honce
    refine ⟨h.fifo, ?_⟩
    rw [sum_hands_update, ← Multiset.coe_add, add_assoc, ← add_assoc _ (rest : Multiset α),
      Multiset.coe_add [x] rest]
    exact honce

omit [DecidableEq κ] in
lemma Accounted.mem [Fintype κ] (h : p.Accounted) {x : α} (hx : x ∈ p.queued) :
    x ∈ p.handled ∨ (∃ k, x ∈ p.hands k) ∨ x ∈ p.queue := by
  rw [← h.fifo, List.mem_append, ← Multiset.mem_coe, ← h.once, Multiset.mem_add,
    Multiset.mem_sum] at hx
  simpa [or_assoc] using hx

def InOrder (p : Pool κ α) : Prop := ∀ k, p.handled ++ p.hands k = p.dequeued

lemma InOrder.step [Subsingleton κ] (h : p.InOrder) (hs : p.Step p') : p'.InOrder := by
  intro j
  have hj := h j
  cases hs with
  | push x => exact hj
  | take k hk =>
    obtain rfl := Subsingleton.elim j k
    rw [hk, List.append_nil] at hj
    simp only [update_self, hj]
  | @handle k x rest hk =>
    obtain rfl := Subsingleton.elim j k
    rw [hk] at hj
    simp only [update_self, List.append_assoc, List.singleton_append, hj]

end Pool

end Library
