import Mathlib.Data.List.Basic

/-!
A handler that gets a stream of symbols in pieces, one call for each piece: reads that are `Idle`
may be left out (`outcome_idle`), and a stream is `Independent` of its division if only its first
symbol matters (`independent_cons`).
-/

namespace Library

open List

variable {σ ρ τ β α γ ε : Type}

lemma exists_of_bind_ok {x : Except ε α} {g : α → Except ε γ} {b : γ}
    (h : (x >>= g) = .ok b) : ∃ a, x = .ok a ∧ g a = .ok b := by
  cases x with
  | error e => cases h
  | ok a => exact ⟨a, rfl, h⟩

/-- One read after the other, with what they make. -/
def runReads (read : σ → ρ → Except ε (σ × List α)) (s : σ) : List ρ → Except ε (σ × List α)
  | [] => .ok (s, [])
  | r :: reads => do
      let (s₁, as) ← read s r
      let (s₂, as') ← runReads read s₁ reads
      pure (s₂, as ++ as')

lemma runReads_append (read : σ → ρ → Except ε (σ × List α)) (s : σ) (reads reads' : List ρ) :
    runReads read s (reads ++ reads') = (do
      let (s₁, as) ← runReads read s reads
      let (s₂, as') ← runReads read s₁ reads'
      pure (s₂, as ++ as')) := by
  induction reads generalizing s with
  | nil =>
    rw [nil_append, runReads]
    simp only [bind, Except.bind]
    cases runReads read s reads' with
    | error e | ok p => rfl
  | cons r reads ih =>
    rw [cons_append, runReads, runReads]
    simp only [bind, Except.bind]
    cases read s r with
    | error e => rfl
    | ok p =>
      simp only [ih, bind, Except.bind]
      cases runReads read p.1 reads with
      | error e => rfl
      | ok q =>
        simp only [pure, Except.pure]
        cases runReads read q.1 reads' with
        | error e => rfl
        | ok q' => simp only [append_assoc]

lemma runReads_flatMap {read : σ → ρ → Except ε (σ × List α)} {step : σ → τ → Except ε (σ × List α)}
    {tokens : ρ → List τ} (h : ∀ s r, read s r = runReads step s (tokens r))
    (s : σ) (reads : List ρ) : runReads read s reads = runReads step s (reads.flatMap tokens) := by
  induction reads generalizing s with
  | nil => rfl
  | cons r reads ih =>
    rw [flatMap_cons, runReads_append, runReads, h]
    simp only [ih]

/-- The state at the end, and what is seen of what the reads make. -/
def outcome (read : σ → ρ → Except ε (σ × List α)) (see : α → Option γ) (s : σ)
    (reads : List ρ) : Except ε (σ × List γ) :=
  (runReads read s reads).map fun p => (p.1, p.2.filterMap see)

/-- The read changes nothing, and nothing is seen of it. -/
def Idle (read : σ → ρ → Except ε (σ × List α)) (see : α → Option γ) (s : σ) (r : ρ) : Prop :=
  ∃ as, read s r = .ok (s, as) ∧ as.filterMap see = []

section

variable {read : σ → ρ → Except ε (σ × List α)} {see : α → Option γ} {s s₁ : σ} {r : ρ}

lemma outcome_nil : outcome read see s [] = .ok (s, []) := rfl

lemma outcome_cons_ok {as : List α} (h : read s r = .ok (s₁, as)) (reads : List ρ) :
    outcome read see s (r :: reads) =
      (outcome read see s₁ reads).map fun p => (p.1, as.filterMap see ++ p.2) := by
  simp only [outcome, runReads, h, bind, Except.bind]
  cases runReads read s₁ reads with
  | error e => rfl
  | ok p => simp only [Except.map, pure, Except.pure, filterMap_append]

lemma outcome_cons_error {e : ε} (h : read s r = .error e) (reads : List ρ) :
    outcome read see s (r :: reads) = .error e := by
  simp only [outcome, runReads, h, bind, Except.bind, Except.map]

lemma exists_of_outcome_cons {reads : List ρ} {s' : σ} {c : List γ}
    (h : outcome read see s (r :: reads) = .ok (s', c)) :
    ∃ s₁ as c', read s r = .ok (s₁, as) ∧ outcome read see s₁ reads = .ok (s', c') := by
  cases hread : read s r with
  | error e =>
    rw [outcome_cons_error hread] at h
    cases h
  | ok p =>
    rw [outcome_cons_ok hread] at h
    cases hrest : outcome read see p.1 reads with
    | error e =>
      rw [hrest] at h
      cases h
    | ok q =>
      rw [hrest] at h
      cases h
      exact ⟨p.1, p.2, q.2, rfl, hrest⟩

lemma outcome_idle (h : Idle read see s r) (reads : List ρ) :
    outcome read see s (r :: reads) = outcome read see s reads := by
  obtain ⟨as, hread, has⟩ := h
  rw [outcome_cons_ok hread, has]
  cases outcome read see s reads with
  | error e | ok p => rfl

lemma outcome_all_idle {reads : List ρ} (h : ∀ r ∈ reads, Idle read see s r) :
    outcome read see s reads = .ok (s, []) := by
  induction reads with
  | nil => exact outcome_nil
  | cons r reads ih =>
    rw [outcome_idle (h r mem_cons_self)]
    exact ih fun r' hr' => h r' (mem_cons_of_mem _ hr')

lemma outcome_cons_of_idle {reads : List ρ} (h : ∀ s, ∀ r' ∈ reads, Idle read see s r') :
    outcome read see s (r :: reads) = outcome read see s [r] := by
  cases hr : read s r with
  | error e => rw [outcome_cons_error hr, outcome_cons_error hr]
  | ok p => rw [outcome_cons_ok hr, outcome_cons_ok hr, outcome_all_idle (h p.1), outcome_nil]

end

/-- The division of the stream into reads does not matter. -/
def Independent (read : σ → List β → Except ε (σ × List α)) (see : α → Option γ)
    (stream : List β) : Prop :=
  ∀ s reads reads', reads.flatten = stream → reads'.flatten = stream →
    outcome read see s reads = outcome read see s reads'

section

variable {read : σ → List β → Except ε (σ × List α)} {see : α → Option γ} {x : β} {t : List β}

lemma independent_cons (hnil : ∀ s, Idle read see s [])
    (hfirst : ∀ s u, u <+: t → outcome read see s [x :: u] = outcome read see s [[x]])
    (hrest : ∀ s u, u <:+: t → Idle read see s u) : Independent read see (x :: t) := by
  have hone (s : σ) (reads : List (List β)) (h : reads.flatten = x :: t) :
      outcome read see s reads = outcome read see s [[x]] := by
    induction reads with
    | nil => cases h
    | cons r reads ih =>
      cases r with
      | nil => rw [outcome_idle (hnil s), ih h]
      | cons y u =>
        rw [flatten_cons, cons_append] at h
        obtain ⟨rfl, rfl⟩ := List.cons.inj h
        rw [outcome_cons_of_idle, hfirst s u (prefix_append _ _)]
        intro s r hr
        refine hrest s r ?_
        obtain ⟨before, after, rfl⟩ := append_of_mem hr
        refine ⟨u ++ before.flatten, after.flatten, ?_⟩
        rw [flatten_append, flatten_cons]
        simp only [append_assoc]
  intro s reads reads' h h'
  rw [hone s reads h, hone s reads' h']

lemma Independent.tail (hx : ∀ s, Idle read see s [x]) (h : Independent read see (x :: t)) :
    Independent read see t := by
  intro s reads reads' hreads hreads'
  have hcons {reads : List (List β)} (hreads : reads.flatten = t) :
      ([x] :: reads).flatten = x :: t := by
    rw [flatten_cons, hreads]
    rfl
  calc outcome read see s reads
      = outcome read see s ([x] :: reads) := (outcome_idle (hx s) _).symm
    _ = outcome read see s ([x] :: reads') := h s _ _ (hcons hreads) (hcons hreads')
    _ = outcome read see s reads' := outcome_idle (hx s) _

end

end Library
