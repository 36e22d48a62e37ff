import Megatron.Library.Cursor

/-!
Readers that keep a record of what they do, for bounds on the resources of a decoder: what they read
(`Takes`), and what they pay for with it (`Pays`).
-/

namespace Library

open List Reader

namespace Reader

variable {β ε α γ δ : Type}

lemma bind_assoc (g : Reader β ε α) (f : α → Reader β ε γ) (h : γ → Reader β ε δ) :
    g >>= f >>= h = g >>= fun a => f a >>= h := by
  funext c
  rcases hg : g c with ⟨e | a, c'⟩
  · rw [bind_of_error hg, bind_of_error (bind_of_error hg f)]
  · have hgf := bind_of_ok hg f
    rw [bind_of_ok hg]
    rcases hf : f a c' with ⟨e | b, c''⟩
    · rw [bind_of_error hf, bind_of_error (hgf.trans hf)]
    · rw [bind_of_ok hf, bind_of_ok (hgf.trans hf)]

lemma bind_pure (g : Reader β ε α) : (g >>= fun a => pure a) = g := by
  funext c
  rcases hg : g c with ⟨e | a, c'⟩
  · rw [bind_of_error hg]
  · rw [bind_of_ok hg, pure_apply]

variable {g : Reader β ε α} {w : α → ℕ} (a : α) (e : ε) (f : α → Reader β ε γ)

lemma pure_bind : (pure a >>= f) = f a := rfl

structure Inside (g : Reader β ε α) : Prop where
  data : ∀ c, (g c).2.data = c.data
  mono : ∀ c, c.pos ≤ (g c).2.pos
  le : ∀ c, c.pos ≤ c.data.length → (g c).2.pos ≤ c.data.length

lemma Inside.pure : (Pure.pure a : Reader β ε α).Inside :=
  ⟨fun _ => rfl, fun _ => le_rfl, fun _ h => h⟩

lemma Inside.fail : (fail e : Reader β ε α).Inside :=
  ⟨fun _ => rfl, fun _ => le_rfl, fun _ h => h⟩

lemma Inside.bind {f : α → Reader β ε γ} (hg : g.Inside)
    (hf : ∀ a, (f a).Inside) : (g >>= f).Inside := by
  have hstep : ∀ c, ((g >>= f) c).2 = (g c).2 ∨ ∃ a, ((g >>= f) c).2 = (f a (g c).2).2 := by
    intro c
    rcases h : g c with ⟨e | a, c'⟩
    · rw [bind_of_error h]
      exact .inl rfl
    · rw [bind_of_ok h]
      exact .inr ⟨a, rfl⟩
  refine ⟨fun c => ?_, fun c => ?_, fun c hc => ?_⟩
  · rcases hstep c with h | ⟨a, h⟩
    · rw [h, hg.data]
    · rw [h, (hf a).data, hg.data]
  · rcases hstep c with h | ⟨a, h⟩
    · rw [h]
      exact hg.mono c
    · rw [h]
      exact (hg.mono c).trans ((hf a).mono _)
  · have hle := hg.le c hc
    rcases hstep c with h | ⟨a, h⟩
    · rwa [h]
    · rw [h, ← hg.data c]
      exact (hf a).le _ (by rwa [hg.data c])

lemma Inside.repeatN (hg : g.Inside) (n : ℕ) : (repeatN g n).Inside := by
  induction n with
  | zero => exact Inside.pure []
  | succ n ih => exact hg.bind fun a => ih.bind fun as => Inside.pure (a :: as)

/-- A successful read takes at least as many symbols as the value returned weighs. -/
def Takes (weight : α → ℕ) (g : Reader β ε α) : Prop :=
  ∀ c c' a, g c = (.ok a, c') → c.pos + weight a ≤ c'.pos

lemma Takes.mono {v : α → ℕ} (hg : g.Takes w) (h : ∀ a, v a ≤ w a) : g.Takes v := by
  intro c c' a ha
  have := hg c c' a ha
  have := h a
  omega

lemma Takes.zero (hg : g.Inside) : g.Takes fun _ => 0 := by
  intro c c' a ha
  have := hg.mono c
  rw [ha] at this
  exact this

lemma Takes.pure {a : α} (h : w a = 0) : (Pure.pure a : Reader β ε α).Takes w := by
  intro c c' x hx
  cases hx
  rw [h]
  rfl

lemma Takes.fail : (fail e : Reader β ε α).Takes w := by
  intro c c' a ha
  cases ha

lemma Takes.bind {k : ℕ} {w v : γ → ℕ} {f : α → Reader β ε γ} (hg : g.Takes fun _ => k)
    (hf : ∀ a, (f a).Takes w) (h : ∀ x, v x ≤ k + w x) : (g >>= f).Takes v := by
  intro c c' x hx
  obtain ⟨a, c₁, ha, hb⟩ := bind_eq_ok hx
  have hfirst : c.pos + k ≤ c₁.pos := hg _ _ _ ha
  have hsecond := hf a _ _ _ hb
  have := h x
  omega

lemma repeatN_succ_eq_ok {n : ℕ} {c c' : Cursor β} {l : List α} : repeatN g (n + 1) c =
    (.ok l, c') ↔ ∃ a c₁ l', g c = (.ok a, c₁) ∧ repeatN g n c₁ = (.ok l', c') ∧ l = a :: l' := by
  constructor
  · intro h
    obtain ⟨a, c₁, ha, h₁⟩ := bind_eq_ok h
    obtain ⟨l', c₂, hl, h₂⟩ := bind_eq_ok h₁
    rw [pure_apply] at h₂
    cases h₂
    exact ⟨a, c₁, l', ha, hl, rfl⟩
  · rintro ⟨a, c₁, l', ha, hl, rfl⟩
    rw [repeatN, bind_of_ok ha, bind_of_ok hl, pure_apply]

lemma Takes.repeatN (hg : g.Takes w) (n : ℕ) :
    (repeatN g n).Takes fun l => (l.map w).sum := by
  induction n with
  | zero => exact Takes.pure rfl
  | succ n ih =>
    intro c c' l h
    obtain ⟨a, c₁, l', ha, hl, rfl⟩ := repeatN_succ_eq_ok.mp h
    have hentry := hg _ _ _ ha
    have hrest : c₁.pos + (l'.map w).sum ≤ c'.pos := ih _ _ _ hl
    show c.pos + ((a :: l').map w).sum ≤ c'.pos
    rw [map_cons, sum_cons]
    omega

end Reader

/-! ### Readers with a record -/

def Metered (β ε ρ α : Type) := Cursor β → (Except ε α × Cursor β) × List ρ

namespace Metered

variable {β ε ρ α γ : Type}

instance : Monad (Metered β ε ρ) where
  pure a := fun c => ((.ok a, c), [])
  bind g f := fun c =>
    match g c with
    | ((.ok a, c'), t) => ((f a c').1, t ++ (f a c').2)
    | ((.error e, c'), t) => ((.error e, c'), t)

def erase (g : Metered β ε ρ α) : Reader β ε α := fun c => (g c).1

def trace (g : Metered β ε ρ α) (c : Cursor β) : List ρ := (g c).2

def note (xs : List ρ) : Metered β ε ρ Unit := fun c => ((.ok (), c), xs)

def fail (e : ε) : Metered β ε ρ α := fun c => ((.error e, c), [])

variable {c c' : Cursor β} {f : α → Metered β ε ρ γ} {g : Metered β ε ρ α} {grow : List α → List ρ}
variable {t : List ρ} {x : ρ} (a : α) (e : ε) (xs : List ρ)

@[simp] lemma erase_pure : (pure a : Metered β ε ρ α).erase = pure a := rfl

@[simp] lemma erase_fail : (fail e : Metered β ε ρ α).erase = Reader.fail e := rfl

@[simp] lemma erase_note : (note xs : Metered β ε ρ Unit).erase = pure () := rfl

@[simp] lemma erase_ite {p : Prop} [Decidable p] (g h : Metered β ε ρ α) :
    (if p then g else h).erase = if p then g.erase else h.erase := by
  split_ifs <;> rfl

@[simp] lemma trace_pure (c : Cursor β) : (pure a : Metered β ε ρ α).trace c = [] := rfl

@[simp] lemma trace_fail (c : Cursor β) : (fail e : Metered β ε ρ α).trace c = [] := rfl

@[simp] lemma trace_note (c : Cursor β) : (note xs : Metered β ε ρ Unit).trace c = xs := rfl

lemma bind_apply (f : α → Metered β ε ρ γ) : (g >>= f) c = match g c with
    | ((.ok a, c'), t) => ((f a c').1, t ++ (f a c').2)
    | ((.error e, c'), t) => ((.error e, c'), t) := rfl

lemma bind_of_ok {a : α} (h : g c = ((.ok a, c'), t)) (f : α → Metered β ε ρ γ) :
    (g >>= f) c = ((f a c').1, t ++ (f a c').2) := by
  rw [bind_apply, h]

lemma bind_of_error {e : ε} (h : g c = ((.error e, c'), t)) (f : α → Metered β ε ρ γ) :
    (g >>= f) c = ((.error e, c'), t) := by
  rw [bind_apply, h]

@[simp] lemma erase_bind (g : Metered β ε ρ α) (f : α → Metered β ε ρ γ) :
    (g >>= f).erase = g.erase >>= fun a => (f a).erase := by
  funext c
  rcases h : g c with ⟨⟨e | a, c'⟩, t⟩
  · have he : g.erase c = (.error e, c') := congrArg Prod.fst h
    rw [Reader.bind_of_error he, erase, bind_of_error h]
  · have he : g.erase c = (.ok a, c') := congrArg Prod.fst h
    rw [Reader.bind_of_ok he, erase, bind_of_ok h]
    rfl

lemma mem_trace_bind : x ∈ (g >>= f).trace c ↔
      x ∈ g.trace c ∨ ∃ a c', g.erase c = (.ok a, c') ∧ x ∈ (f a).trace c' := by
  rcases h : g c with ⟨⟨e | a, c'⟩, t⟩
  · have he : g.erase c = (.error e, c') := congrArg Prod.fst h
    have ht : g.trace c = t := congrArg Prod.snd h
    rw [he, ht, trace, bind_of_error h]
    simp
  · have he : g.erase c = (.ok a, c') := congrArg Prod.fst h
    have ht : g.trace c = t := congrArg Prod.snd h
    rw [he, ht, trace, bind_of_ok h, mem_append]
    constructor
    · rintro (hx | hx)
      · exact .inl hx
      · exact .inr ⟨a, c', rfl, hx⟩
    · rintro (hx | ⟨a', c'', heq, hx⟩)
      · exact .inl hx
      · cases heq
        exact .inr hx

/-! ### Loops -/

def entries (g : Metered β ε ρ α) (grow : List α → List ρ) : List α → ℕ → Metered β ε ρ (List α)
  | done, 0 => pure done
  | done, n + 1 => do
      let a ← g
      note (grow (done ++ [a]))
      entries g grow (done ++ [a]) n

lemma erase_entries (g : Metered β ε ρ α) (grow : List α → List ρ) (done : List α) (n : ℕ) :
    (entries g grow done n).erase = repeatN g.erase n >>= fun l => pure (done ++ l) := by
  induction n generalizing done with
  | zero =>
    rw [entries, repeatN, pure_bind, append_nil]
    rfl
  | succ n ih =>
    simp only [entries, repeatN, erase_bind, erase_note, pure_bind, ih,
      bind_assoc, append_assoc, singleton_append]

lemma mem_trace_entries {done : List α} {n : ℕ} : x ∈ (entries g grow done n).trace c ↔
      ∃ i < n, ∃ l c', repeatN g.erase i c = (.ok l, c') ∧
        (x ∈ g.trace c' ∨ ∃ a c'', g.erase c' = (.ok a, c'') ∧ x ∈ grow (done ++ l ++ [a])) := by
  induction n generalizing done c with
  | zero => simp [entries]
  | succ n ih =>
    rw [entries, mem_trace_bind]
    simp only [mem_trace_bind, trace_note, erase_note, ih]
    constructor
    · rintro (hx | ⟨a, c₁, ha, hx | ⟨_, c₂, heq, i, hi, l, c', hl, hx⟩⟩)
      · exact ⟨0, by omega, [], c, rfl, .inl hx⟩
      · exact ⟨0, by omega, [], c, rfl, .inr ⟨a, c₁, ha, by simpa using hx⟩⟩
      · cases heq
        refine ⟨i + 1, by omega, a :: l, c', ?_, ?_⟩
        · exact repeatN_succ_eq_ok.mpr ⟨a, c₁, l, ha, hl, rfl⟩
        · simpa using hx
    · rintro ⟨i, hi, l, c', hl, hx⟩
      cases i with
      | zero =>
        cases hl
        rcases hx with hx | ⟨a, c₁, ha, hx⟩
        · exact .inl hx
        · exact .inr ⟨a, c₁, ha, .inl (by simpa using hx)⟩
      | succ i =>
        obtain ⟨a, c₁, l', ha, hl', rfl⟩ := repeatN_succ_eq_ok.mp hl
        refine .inr ⟨a, c₁, ha, .inr ⟨(), c₁, rfl, i, by omega, l', c', hl', ?_⟩⟩
        simpa using hx

/-! ### What a record costs -/

/-- Each symbol pays for `rate` items, up to `slack` and `debt`. -/
structure Pays (rate : ℕ) (slack debt : ℤ) (g : Metered β ε ρ α) : Prop where
  ok : ∀ {c c' : Cursor β} {a : α} {t : List ρ}, g c = ((.ok a, c'), t) →
    (t.length : ℤ) + slack ≤ rate * ((c'.pos : ℤ) - c.pos)
  error : ∀ {c c' : Cursor β} {e : ε} {t : List ρ}, g c = ((.error e, c'), t) →
    (t.length : ℤ) ≤ rate * ((c'.pos : ℤ) - c.pos) + debt

variable {rate : ℕ} {k l d d' : ℤ}

lemma Pays.mono (hg : Pays rate k d g) (h : l ≤ k) (hd : d ≤ d') : Pays rate l d' g :=
  ⟨fun hc => by have := hg.ok hc; omega, fun hc => by have := hg.error hc; omega⟩

lemma Pays.pure : Pays rate 0 d (Pure.pure a : Metered β ε ρ α) := by
  refine ⟨fun h => ?_, fun h => ?_⟩
  · cases h
    simp
  · cases h

lemma Pays.fail (hd : 0 ≤ d) : Pays rate k d (Metered.fail e : Metered β ε ρ α) := by
  refine ⟨fun h => ?_, fun h => ?_⟩
  · cases h
  · cases h
    simpa using hd

lemma Pays.note : Pays rate (-xs.length) d (Metered.note xs : Metered β ε ρ Unit) := by
  refine ⟨fun h => ?_, fun h => ?_⟩
  · cases h
    simp
  · cases h

lemma Pays.bind (hg : Pays rate k d g)
    (hf : ∀ a, Pays rate l (d + k) (f a)) : Pays rate (k + l) d (g >>= f) := by
  constructor
  · intro c c' x t h
    rcases hc : g c with ⟨⟨e | a, c₁⟩, t₁⟩
    · rw [bind_of_error hc] at h
      cases h
    · rw [bind_of_ok hc] at h
      obtain ⟨h₁, rfl⟩ := Prod.mk.inj h
      have hfirst := hg.ok hc
      have hsecond := (hf a).ok (c := c₁) (Prod.ext h₁ rfl)
      rw [length_append]
      push_cast
      linarith
  · intro c c' e t h
    rcases hc : g c with ⟨⟨e | a, c₁⟩, t₁⟩
    · rw [bind_of_error hc] at h
      cases h
      exact hg.error hc
    · rw [bind_of_ok hc] at h
      obtain ⟨h₁, rfl⟩ := Prod.mk.inj h
      have hfirst := hg.ok hc
      have hsecond := (hf a).error (c := c₁) (Prod.ext h₁ rfl)
      rw [length_append]
      push_cast
      linarith

lemma Pays.entries (hg : Pays rate 1 d g) (hgrow : ∀ l, (grow l).length ≤ 1)
    (done : List α) (n : ℕ) : Pays rate 0 d (Metered.entries g grow done n) := by
  induction n generalizing done with
  | zero => exact Pays.pure done
  | succ n ih =>
    refine (hg.bind (l := -1) fun a => ?_).mono (by omega) le_rfl
    have hlen := hgrow (done ++ [a])
    refine ((Pays.note _).bind fun _ => (ih _).mono le_rfl ?_).mono ?_ le_rfl <;> omega

end Metered

end Library
