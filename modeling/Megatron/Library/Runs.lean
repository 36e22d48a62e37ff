import Mathlib.Data.List.Basic

/-!
Runs of a transition system whose steps are given by a partial function, where `none` means that the
step is not possible, with their invariant rule (`run_invariant`).
-/

namespace Library

open List

variable {σ α : Type*} (step : σ → α → Option σ)

def run : σ → List α → Option σ
  | s, [] => some s
  | s, a :: as => (step s a).bind fun s' => run s' as

/-- Every action meets the condition `ok` in the state before it. -/
def Meets (ok : σ → α → Prop) : σ → List α → Prop
  | _, [] => True
  | s, a :: as => ok s a ∧ (step s a).elim True fun s' => Meets ok s' as

variable {step} {ok : σ → α → Prop} {s s' : σ} {a : α} {as : List α}

lemma run_cons_eq_some :
    run step s (a :: as) = some s' ↔ ∃ m, step s a = some m ∧ run step m as = some s' := by
  rw [run, Option.bind_eq_some_iff]

variable {Q : σ → α → σ → Prop} {bs : List α} {i : ℕ} {inv : σ → Prop} {m : σ} {ok' : σ → α → Prop}

lemma run_append_eq_some :
    run step s (as ++ bs) = some s' ↔ ∃ m, run step s as = some m ∧ run step m bs = some s' := by
  induction as generalizing s with
  | nil => simp [run]
  | cons a as ih =>
    simp only [cons_append, run_cons_eq_some, ih]
    constructor
    · rintro ⟨m, hm, m', hm', hrest⟩
      exact ⟨m', ⟨m, hm, hm'⟩, hrest⟩
    · rintro ⟨m', ⟨m, hm, hm'⟩, hrest⟩
      exact ⟨m, hm, m', hm', hrest⟩

lemma run_take (h : run step s as = some s') (hi : i < as.length) : ∃ m m', run step s (as.take i) =
    some m ∧ step m as[i] = some m' ∧ run step s (as.take (i + 1)) = some m' := by
  rw [← take_append_drop (i + 1) as, run_append_eq_some] at h
  obtain ⟨m', hm', -⟩ := h
  have hsplit := hm'
  rw [take_succ_eq_append_getElem hi, run_append_eq_some] at hsplit
  obtain ⟨m, hm, hstep⟩ := hsplit
  obtain ⟨t, ht, hnil⟩ := run_cons_eq_some.mp hstep
  obtain rfl : t = m' := Option.some.inj hnil
  exact ⟨m, t, hm, ht, hm'⟩

lemma Meets.tail (h : Meets step ok s (a :: as)) (hm : step s a = some m) : Meets step ok m as := by
  have h2 := h.2
  rwa [hm] at h2

lemma Meets.append (h : Meets step ok s as) (hm : run step s as = some m)
    (h' : Meets step ok m bs) : Meets step ok s (as ++ bs) := by
  induction as generalizing s with
  | nil =>
    cases hm
    exact h'
  | cons a as ih =>
    obtain ⟨t, ht, hrest⟩ := run_cons_eq_some.mp hm
    refine ⟨h.1, ?_⟩
    rw [ht]
    exact ih (h.tail ht) hrest

lemma Meets.get (h : Meets step ok s as) (hi : i < as.length)
    (hm : run step s (as.take i) = some m) : ok m as[i] := by
  induction as generalizing s i with
  | nil => simp at hi
  | cons a as ih =>
    cases i with
    | zero =>
      cases hm
      exact h.1
    | succ i =>
      obtain ⟨t, ht, hrest⟩ := run_cons_eq_some.mp hm
      exact ih (h.tail ht) (Nat.lt_of_succ_lt_succ hi) hrest

lemma Meets.every_step
    (hstep : ∀ {s a}, inv s → ok s a → ∃ s', step s a = some s' ∧ inv s' ∧ Q s a s')
    (hs : inv s) (h : Meets step ok s (as ++ a :: bs)) :
    ∃ m m', run step s as = some m ∧ step m a = some m' ∧ Q m a m' := by
  induction as generalizing s with
  | nil =>
    obtain ⟨m', hm', -, hQ⟩ := hstep hs h.1
    exact ⟨s, m', rfl, hm', hQ⟩
  | cons b as ih =>
    obtain ⟨t, ht, hinv, -⟩ := hstep hs h.1
    obtain ⟨m, m', hm, hm', hQ⟩ := ih hinv (h.tail ht)
    exact ⟨m, m', run_cons_eq_some.mpr ⟨t, ht, hm⟩, hm', hQ⟩

lemma Meets.of_forall (h : ∀ a ∈ as, ∀ s, ok s a) : Meets step ok s as := by
  induction as generalizing s with
  | nil => trivial
  | cons a as ih =>
    refine ⟨h a mem_cons_self s, ?_⟩
    cases step s a with
    | none => trivial
    | some m => exact ih fun b hb => h b (mem_cons_of_mem a hb)

lemma Meets.and (h : Meets step ok s as) (h' : Meets step ok' s as) :
    Meets step (fun s a => ok s a ∧ ok' s a) s as := by
  induction as generalizing s with
  | nil => trivial
  | cons a as ih =>
    refine ⟨⟨h.1, h'.1⟩, ?_⟩
    cases hm : step s a with
    | none => trivial
    | some m => exact ih (h.tail hm) (h'.tail hm)

lemma Meets.congr (hok : ∀ s a, inv s → (ok s a ↔ ok' s a))
    (hstep : ∀ {s a s'}, inv s → ok s a → step s a = some s' → inv s') (hs : inv s) :
    Meets step ok s as ↔ Meets step ok' s as := by
  induction as generalizing s with
  | nil => exact Iff.rfl
  | cons a as ih =>
    refine and_congr_right_iff.mpr ?_ |>.trans (and_congr_left' (hok s a hs))
    intro ha
    cases hm : step s a with
    | none => exact Iff.rfl
    | some m => exact ih (hstep hs ha hm)

/-- **The invariant rule** for runs that meet a condition. -/
theorem run_invariant (hstep : ∀ {s a s'}, inv s → ok s a → step s a = some s' → inv s')
    (hs : inv s) (hmeets : Meets step ok s as) (hrun : run step s as = some s') : inv s' := by
  induction as generalizing s with
  | nil =>
    rw [run, Option.some.injEq] at hrun
    exact hrun ▸ hs
  | cons a as ih =>
    obtain ⟨m, hm, hrest⟩ := run_cons_eq_some.mp hrun
    exact ih (hstep hs hmeets.1 hm) (hmeets.tail hm) hrest

theorem run_invariant' (hstep : ∀ {s a s'}, inv s → step s a = some s' → inv s')
    (hs : inv s) (hrun : run step s as = some s') : inv s' := by
  have hmeets : Meets step (fun _ _ => True) s as := Meets.of_forall fun _ _ _ => trivial
  exact run_invariant (fun h _ ha => hstep h ha) hs hmeets hrun

section

variable {apply : σ → α → σ} {P : σ → Prop} {adds removes : α → Prop}

lemma foldl_latch_of_not_adds (h : ∀ s a, P (apply s a) ↔ adds a ∨ (P s ∧ ¬ removes a))
    (hadds : ∀ a ∈ as, ¬ adds a) : P (as.foldl apply s) ↔ P s ∧ ∀ a ∈ as, ¬ removes a := by
  induction as generalizing s with
  | nil => simp
  | cons a as ih =>
    obtain ⟨ha, has⟩ := forall_mem_cons.mp hadds
    rw [foldl_cons, ih has, h, forall_mem_cons, or_iff_right ha, and_assoc]

lemma foldl_latch (h : ∀ s a, P (apply s a) ↔ adds a ∨ (P s ∧ ¬ removes a)) {bs : List α}
    (ha : adds a) (hadds : ∀ b ∈ bs, ¬ adds b) :
    P ((as ++ a :: bs).foldl apply s) ↔ ∀ b ∈ bs, ¬ removes b := by
  rw [foldl_append, foldl_cons, foldl_latch_of_not_adds h hadds]
  exact and_iff_right ((h _ _).mpr (.inl ha))

end

end Library
