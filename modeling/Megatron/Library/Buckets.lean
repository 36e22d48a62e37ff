import Mathlib.Data.List.Basic
import Mathlib.Order.Basic
import Mathlib.Order.Lattice

/-!
A queue ordered by keys, kept as a list of buckets with increasing keys. The table `t : List (κ ×
List α)` stands for the queue `q : List (κ × α)` of all entries in the order of their insertion
(`Buckets.push`, `Buckets.tail`).
-/

namespace Library

open List

variable {κ α : Type*} [LinearOrder κ]

def bucketAt (k : κ) : List (κ × List α) → List α
  | [] => []
  | (d, vs) :: t => if d = k then vs else bucketAt k t

def pushBucket (k : κ) (v : α) : List (κ × List α) → List (κ × List α)
  | [] => [(k, [v])]
  | (d, vs) :: t =>
    if k < d then (k, [v]) :: (d, vs) :: t
    else if d = k then (d, vs ++ [v]) :: t
    else (d, vs) :: pushBucket k v t

structure Buckets (t : List (κ × List α)) (q : List (κ × α)) : Prop where
  sorted : t.Pairwise fun a b => a.1 < b.1
  nonempty : ∀ b ∈ t, b.2 ≠ []
  bucket : ∀ k, bucketAt k t = (q.filter (·.1 = k)).map Prod.snd

variable {t : List (κ × List α)} {q : List (κ × α)} {k d : κ} {v : α} {vs : List α}

lemma bucketAt_eq_nil (h : ∀ b ∈ t, b.1 ≠ k) : bucketAt k t = [] := by
  induction t with
  | nil => rfl
  | cons b t ih =>
    rw [bucketAt, if_neg (h b mem_cons_self)]
    exact ih fun b hb => h b (mem_cons_of_mem _ hb)

lemma key_mem_of_bucketAt (h : bucketAt k t ≠ []) : ∃ b ∈ t, b.1 = k := by
  by_contra hnot
  push Not at hnot
  exact h (bucketAt_eq_nil hnot)

lemma mem_pushBucket {b : κ × List α} (h : b ∈ pushBucket k v t) : b ∈ t ∨ b.1 = k ∧ b.2 ≠ [] := by
  induction t with
  | nil =>
    rw [pushBucket, mem_singleton] at h
    exact .inr (by simp [h])
  | cons c t ih =>
    rw [pushBucket] at h
    split_ifs at h with hlt heq
    · rcases mem_cons.mp h with rfl | h
      · exact .inr (by simp)
      · exact .inl h
    · rcases mem_cons.mp h with rfl | h
      · exact .inr (by simp [heq])
      · exact .inl (mem_cons_of_mem _ h)
    · rcases mem_cons.mp h with rfl | h
      · exact .inl mem_cons_self
      · exact (ih h).imp_left (mem_cons_of_mem _)

lemma sorted_pushBucket (h : t.Pairwise fun a b => a.1 < b.1) :
    (pushBucket k v t).Pairwise fun a b => a.1 < b.1 := by
  induction t with
  | nil => simp [pushBucket]
  | cons c t ih =>
    obtain ⟨hhead, htail⟩ := pairwise_cons.mp h
    rw [pushBucket]
    split_ifs with hlt heq
    · refine pairwise_cons.mpr ⟨fun b hb => ?_, h⟩
      rcases mem_cons.mp hb with rfl | hb
      · exact hlt
      · exact hlt.trans (hhead b hb)
    · exact pairwise_cons.mpr ⟨fun b hb => hhead b hb, htail⟩
    · refine pairwise_cons.mpr ⟨fun b hb => ?_, ih htail⟩
      rcases mem_pushBucket hb with hb | ⟨hb, -⟩
      · exact hhead b hb
      · exact hb ▸ lt_of_le_of_ne (not_lt.mp hlt) heq

lemma bucketAt_pushBucket (h : t.Pairwise fun a b => a.1 < b.1) (k' : κ) :
    bucketAt k' (pushBucket k v t) = bucketAt k' t ++ if k = k' then [v] else [] := by
  induction t with
  | nil => simp [pushBucket, bucketAt]
  | cons c t ih =>
    obtain ⟨hhead, htail⟩ := pairwise_cons.mp h
    by_cases hlt : k < c.1
    · -- no bucket after a greater key has the key
      have hnil : bucketAt k (c :: t) = [] := by
        refine bucketAt_eq_nil fun b hb => ?_
        rcases mem_cons.mp hb with rfl | hb
        · exact hlt.ne'
        · exact (hlt.trans (hhead b hb)).ne'
      rw [pushBucket, if_pos hlt, bucketAt]
      split_ifs with hk
      · rw [← hk, hnil]
        rfl
      · rw [append_nil]
    · rw [pushBucket, if_neg hlt]
      by_cases heq : c.1 = k
      · rw [if_pos heq, bucketAt, bucketAt, heq]
        split_ifs
        · rfl
        · rw [append_nil]
      · rw [if_neg heq, bucketAt, bucketAt, ih htail]
        split_ifs with hk hk'
        · exact absurd (hk.trans hk'.symm) heq
        · rw [append_nil]
        · rfl
        · rfl

namespace Buckets

lemma nil : Buckets ([] : List (κ × List α)) [] where
  sorted := List.Pairwise.nil
  nonempty := by simp
  bucket k := rfl

lemma push (h : Buckets t q) (k : κ) (v : α) : Buckets (pushBucket k v t) (q ++ [(k, v)]) where
  sorted := sorted_pushBucket h.sorted
  nonempty b hb := by
    rcases mem_pushBucket hb with hb | ⟨-, hb⟩
    · exact h.nonempty b hb
    · exact hb
  bucket k' := by
    rw [bucketAt_pushBucket h.sorted, h.bucket k', filter_append, map_append]
    split_ifs with hk <;> simp [hk]

section

variable (h : Buckets ((d, vs) :: t) q)
include h

lemma first_eq : vs = (q.filter (·.1 = d)).map Prod.snd := by
  rw [← h.bucket d, bucketAt, if_pos rfl]

lemma le {e : κ × α} (he : e ∈ q) : d ≤ e.1 := by
  have hne : bucketAt e.1 ((d, vs) :: t) ≠ [] := by
    rw [h.bucket, Ne, map_eq_nil_iff, filter_eq_nil_iff]
    exact fun hall => hall e he (by simp)
  obtain ⟨b, hb, hkey⟩ := key_mem_of_bucketAt hne
  rcases mem_cons.mp hb with rfl | hb
  · exact hkey.le
  · exact hkey ▸ ((pairwise_cons.mp h.sorted).1 b hb).le

lemma exists_first : ∃ v, (d, v) ∈ q := by
  have hne : vs ≠ [] := h.nonempty _ mem_cons_self
  obtain ⟨v, hv⟩ := exists_mem_of_ne_nil _ hne
  rw [h.first_eq, mem_map] at hv
  obtain ⟨e, he, -⟩ := hv
  obtain ⟨hmem, hkey⟩ := mem_filter.mp he
  exact ⟨e.2, by rwa [← of_decide_eq_true hkey]⟩

lemma tail : Buckets t (q.filter (·.1 ≠ d)) where
  sorted := (pairwise_cons.mp h.sorted).2
  nonempty b hb := h.nonempty b (mem_cons_of_mem _ hb)
  bucket k := by
    have hk := h.bucket k
    rw [bucketAt] at hk
    split_ifs at hk with heq
    · subst heq
      rw [bucketAt_eq_nil fun b hb => ((pairwise_cons.mp h.sorted).1 b hb).ne',
        filter_filter, eq_comm, map_eq_nil_iff, filter_eq_nil_iff]
      simp
    · rw [hk, filter_filter]
      congr 1
      refine filter_congr fun e _ => ?_
      by_cases he : e.1 = k <;> simp [he, Ne.symm heq]

end

lemma queue_eq_nil (h : Buckets ([] : List (κ × List α)) q) : q = [] := by
  refine eq_nil_iff_forall_not_mem.mpr fun e he => ?_
  have hnil := h.bucket e.1
  rw [bucketAt, eq_comm, map_eq_nil_iff, filter_eq_nil_iff] at hnil
  exact hnil e he (by simp)

end Buckets

end Library
