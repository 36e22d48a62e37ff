import Mathlib.Data.List.Basic
import Mathlib.Logic.Function.Basic
import Mathlib.Tactic.Common

/-!
A channel that many parties write to: every step keeps the order of the items of each party
(`Ordered.step`), and at rest all are written (`Ordered.written_eq`).
-/

namespace Library

open List Function

/-- A channel with items `α` submitted by the parties `ι`. -/
structure Channel (ι α : Type*) where
  written : List α
  taken : ι → List α
  cache : List α
  held : ι → List α
  submitted : ι → List α

namespace Channel

variable {ι α : Type*} [DecidableEq ι] (sender : α → ι)

def sentBy (i : ι) (l : List α) : List α := l.filter fun p => sender p = i

@[simp] lemma sentBy_nil (i : ι) : sentBy sender i [] = [] := rfl

@[simp] lemma sentBy_append (i : ι) (l l' : List α) :
    sentBy sender i (l ++ l') = sentBy sender i l ++ sentBy sender i l' := filter_append ..

variable {sender}

lemma sentBy_singleton_self {i : ι} {p : α} (h : sender p = i) : sentBy sender i [p] = [p] := by
  simp [sentBy, h]

lemma sentBy_singleton_of_ne {i : ι} {p : α} (h : sender p ≠ i) : sentBy sender i [p] = [] := by
  simp [sentBy, h]

lemma sentBy_eq_nil {i : ι} {l : List α} (h : ∀ q ∈ l, sender q ≠ i) : sentBy sender i l = [] := by
  simpa [sentBy, filter_eq_nil_iff] using h

variable (sender)

/-- A party takes a cache when none is taken, and writes directly when nothing of it waits. -/
inductive Step (c : Channel ι α) : Channel ι α → Prop
  | submit {i : ι} {p : α} (hp : sender p = i) :
      Step c { c with
        held := update c.held i (c.held i ++ [p])
        submitted := update c.submitted i (c.submitted i ++ [p]) }
  | push {i : ι} {p : α} {rest : List α} (h : c.held i = p :: rest) :
      Step c { c with held := update c.held i rest, cache := c.cache ++ [p] }
  | take {i : ι} (h : c.cache = [] ∨ ∀ j, c.taken j = []) :
      Step c { c with cache := [], taken := update c.taken i (c.cache ++ c.taken i) }
  | relay {i : ι} {p : α} {rest : List α} (h : c.taken i = p :: rest) :
      Step c { c with taken := update c.taken i rest, written := c.written ++ [p] }
  | direct {i : ι} {p : α} {rest : List α} (h : c.held i = p :: rest)
      (hcache : ∀ q ∈ c.cache, sender q ≠ i) (htaken : ∀ j, ∀ q ∈ c.taken j, sender q ≠ i) :
      Step c { c with held := update c.held i rest, written := c.written ++ [p] }

/-- The items of each party are in order, and at most one party is writing items
it has taken. -/
structure Ordered (c : Channel ι α) : Prop where
  sender_of_held : ∀ i, ∀ p ∈ c.held i, sender p = i
  order : ∃ t, (∀ j, j ≠ t → c.taken j = []) ∧ ∀ i,
    sentBy sender i c.written ++ sentBy sender i (c.taken t) ++ sentBy sender i c.cache
      ++ c.held i = c.submitted i

variable {sender} {c c' : Channel ι α}

private lemma update_held_sender {i : ι} {l : List α} (hl : ∀ p ∈ l, sender p = i)
    (h : ∀ i, ∀ p ∈ c.held i, sender p = i) : ∀ j, ∀ p ∈ update c.held i l j, sender p = j :=
  (forall_update_iff c.held fun i l => ∀ p ∈ l, sender p = i).mpr
    ⟨hl, fun j _ => h j⟩

theorem Ordered.step (h : Ordered sender c) (hs : Step sender c c') : Ordered sender c' := by
  obtain ⟨t, htaken, horder⟩ := h.order
  cases hs with
  | @submit i p hp =>
    refine ⟨update_held_sender ?_ h.sender_of_held, t, htaken, fun j => ?_⟩
    · intro q hq
      rcases mem_append.mp hq with hq | hq
      · exact h.sender_of_held i q hq
      · exact mem_singleton.mp hq ▸ hp
    · by_cases hj : j = i
      · subst hj
        simp only [update_self]
        rw [← append_assoc, horder]
      · simp only [update_of_ne hj, horder]
  | @push i p rest hheld =>
    have hp : sender p = i := h.sender_of_held i p (by simp [hheld])
    refine ⟨update_held_sender (fun q hq => h.sender_of_held i q (by simp [hheld, hq]))
      h.sender_of_held, t, htaken, fun j => ?_⟩
    by_cases hj : j = i
    · subst hj
      have := horder j
      simp only [update_self, sentBy_append, sentBy_singleton_self hp]
      simpa [hheld] using this
    · simp only [update_of_ne hj, sentBy_append,
        sentBy_singleton_of_ne (fun h => hj (h.symm.trans hp)), append_nil, horder]
  | @take i hcond =>
    refine ⟨h.sender_of_held, ?_⟩
    rcases hcond with hcache | hnone
    · refine ⟨t, ?_, ?_⟩
      · simpa [hcache] using htaken
      · simpa [hcache] using horder
    · refine ⟨i, fun j hj => ?_, fun j => ?_⟩
      · simp only [update_of_ne hj, hnone]
      · have := horder j
        simp only [update_self, hnone, append_nil, sentBy_nil] at this ⊢
        exact this
  | @relay i p rest htake =>
    have hit : i = t := by
      by_contra hne
      rw [htaken i hne] at htake
      exact cons_ne_nil _ _ htake.symm
    subst hit
    refine ⟨h.sender_of_held, i, fun j hj => ?_, fun j => ?_⟩
    · simp only [update_of_ne hj]
      exact htaken j hj
    · have := horder j
      rw [htake, ← singleton_append, sentBy_append] at this
      simp only [update_self, sentBy_append]
      simpa using this
  | @direct i p rest hheld hcache htake =>
    have hp : sender p = i := h.sender_of_held i p (by simp [hheld])
    refine ⟨update_held_sender (fun q hq => h.sender_of_held i q (by simp [hheld, hq]))
      h.sender_of_held, t, htaken, fun j => ?_⟩
    by_cases hj : j = i
    · subst hj
      have := horder j
      rw [sentBy_eq_nil hcache, sentBy_eq_nil (htake t)] at this ⊢
      simp only [update_self, sentBy_append, sentBy_singleton_self hp]
      simpa [hheld] using this
    · simp only [update_of_ne hj, sentBy_append,
        sentBy_singleton_of_ne (fun h => hj (h.symm.trans hp)), append_nil, horder]

theorem Ordered.written_eq (h : Ordered sender c) (htaken : ∀ j, c.taken j = [])
    (hcache : c.cache = []) {i : ι} (hheld : c.held i = []) :
    sentBy sender i c.written = c.submitted i := by
  obtain ⟨t, -, horder⟩ := h.order
  simpa [htaken t, hcache, hheld] using horder i

end Channel

end Library
