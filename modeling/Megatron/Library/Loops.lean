import Mathlib.Data.List.GetD
import Mathlib.Logic.Relation

/-!
Loops that need not end. A turn of a loop goes on with another state or returns a result.
-/

namespace Library

variable {σ ρ : Type*} (step : σ → σ ⊕ ρ)

/-- The result after at most `n` turns. -/
def turns : ℕ → σ → Option ρ
  | 0, _ => none
  | n + 1, s =>
    match step s with
    | .inl s' => turns n s'
    | .inr r => some r

/-- The loop ends and returns `r`. -/
def Returns (s : σ) (r : ρ) : Prop := ∃ n, turns step n s = some r

/-- One turn or more lead from `s` to `s'`. -/
def Leads (s s' : σ) : Prop := Relation.TransGen (fun s s' => step s = .inl s') s s'

variable {step} {s s' s'' : σ} {r r' : ρ}

lemma turns_next (h : step s = .inl s') (n : ℕ) : turns step (n + 1) s = turns step n s' := by
  rw [turns, h]

lemma turns_done (h : step s = .inr r) (n : ℕ) : turns step (n + 1) s = some r := by
  rw [turns, h]

lemma returns_next (h : step s = .inl s') : Returns step s r ↔ Returns step s' r := by
  constructor
  · rintro ⟨n, hn⟩
    cases n with
    | zero => cases hn
    | succ n =>
      rw [turns_next h] at hn
      exact ⟨n, hn⟩
  · rintro ⟨n, hn⟩
    exact ⟨n + 1, by rw [turns_next h, hn]⟩

lemma returns_done (h : step s = .inr r') : Returns step s r ↔ r = r' := by
  constructor
  · rintro ⟨n, hn⟩
    cases n with
    | zero => cases hn
    | succ n =>
      rw [turns_done h] at hn
      exact (Option.some.inj hn).symm
  · rintro rfl
    exact ⟨1, turns_done h 0⟩

lemma Returns.rec_on {P : σ → Prop} (h : Returns step s r) (done : ∀ s, step s = .inr r → P s)
    (next : ∀ s s', step s = .inl s' → Returns step s' r → P s' → P s) : P s := by
  obtain ⟨n, hn⟩ := h
  induction n generalizing s with
  | zero => cases hn
  | succ n ih =>
    cases hs : step s with
    | inl s' =>
      rw [turns_next hs] at hn
      exact next s s' hs ⟨n, hn⟩ (ih hn)
    | inr r' =>
      rw [turns_done hs] at hn
      cases hn
      exact done s hs

/-! ### From one state to another -/

lemma Leads.single (h : step s = .inl s') : Leads step s s' := Relation.TransGen.single h

lemma Leads.trans (h : Leads step s s') (h' : Leads step s' s'') : Leads step s s'' :=
  Relation.TransGen.trans h h'

lemma Leads.head (h : step s = .inl s') (h' : Leads step s' s'') : Leads step s s'' :=
  Relation.TransGen.head h h'

lemma Leads.returns_iff (h : Leads step s s') : Returns step s r ↔ Returns step s' r := by
  induction h with
  | single h => exact returns_next h
  | tail _ h ih => rw [ih, returns_next h]

lemma Leads.turns_lt (h : Leads step s s') {n : ℕ} (hn : turns step n s = some r) :
    ∃ m < n, turns step m s' = some r := by
  induction h with
  | single h =>
    cases n with
    | zero => cases hn
    | succ n =>
      rw [turns_next h] at hn
      exact ⟨n, Nat.lt_succ_self n, hn⟩
  | tail _ h ih =>
    obtain ⟨m, hm, hloop⟩ := ih
    cases m with
    | zero => cases hloop
    | succ m =>
      rw [turns_next h] at hloop
      exact ⟨m, by omega, hloop⟩

/-- **A loop that would come back before it returned never does.** -/
theorem not_returns_of_leads {C : σ → Prop}
    (hback : ∀ s, C s → Returns step s r → ∃ s', C s' ∧ Leads step s s') (hs : C s) :
    ¬Returns step s r := by
  rintro ⟨n, hn⟩
  induction n using Nat.strongRecOn generalizing s with
  | ind n ih =>
    obtain ⟨s', hs', hleads⟩ := hback s hs ⟨n, hn⟩
    obtain ⟨m, hm, hloop⟩ := hleads.turns_lt hn
    exact ih m hm hs' hloop

lemma of_drop {α : Type*} {l t : List α} {i : ℕ} {c : α} (d : α) (h : l.drop i = c :: t) :
    i < l.length ∧ l.getD i d = c ∧ l.drop (i + 1) = t := by
  have hlt : i < l.length := by
    apply Nat.lt_of_not_le
    intro hge
    rw [List.drop_eq_nil_of_le hge] at h
    cases h
  rw [List.drop_eq_getElem_cons hlt] at h
  injection h with hc ht
  exact ⟨hlt, by rw [List.getD_eq_getElem l d hlt, hc], ht⟩

end Library
