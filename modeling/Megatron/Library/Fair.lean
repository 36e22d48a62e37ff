import Megatron.Library.Runs
import Mathlib.Data.List.GetD
import Mathlib.Data.Nat.Find
import Mathlib.Order.WellFounded

/-!
Infinite runs of a transition system: the invariant rule (`invariant`), the ranking rule for what
happens under fairness (`eventually_of_rank`), and runs made of a cycle or of a finite run
(`ofCycles`, `ofRun`).
-/

namespace Library

open List

variable {σ α : Type*}

/-- An infinite run. -/
structure Execution (step : σ → α → Option σ) where
  state : ℕ → σ
  act : ℕ → α
  next : ∀ n, step (state n) (act n) = some (state (n + 1))

namespace Execution

variable {step : σ → α → Option σ} (e : Execution step)

/-- **The invariant rule** for infinite runs whose steps meet a condition. -/
theorem invariant {e : Execution step} {inv : σ → Prop} (ok : σ → α → Prop)
    (hstep : ∀ {s a s'}, inv s → ok s a → step s a = some s' → inv s')
    (hok : ∀ n, ok (e.state n) (e.act n)) {n : ℕ} (hn : inv (e.state n)) {m : ℕ} (hm : n ≤ m) :
    inv (e.state m) := by
  induction m, hm using Nat.le_induction with
  | base => exact hn
  | succ m _ ih => exact hstep ih (hok m) (e.next m)

theorem invariant' {e : Execution step} {inv : σ → Prop}
    (hstep : ∀ {s a s'}, inv s → step s a = some s' → inv s') (h0 : inv (e.state 0)) (n : ℕ) :
    inv (e.state n) :=
  invariant (fun _ _ => True) (fun h _ hs => hstep h hs) (fun _ => trivial) h0 n.zero_le

/-- An agent that can act for ever acts again and again. -/
def Fair (acts : α → Prop) (enabled : σ → Prop) : Prop :=
  ∀ n, (∀ m, n ≤ m → enabled (e.state m)) → ∃ m, n ≤ m ∧ acts (e.act m)

lemma fair_of_frequently {acts : α → Prop} (h : ∀ n, ∃ m, n ≤ m ∧ acts (e.act m))
    (enabled : σ → Prop) : e.Fair acts enabled := fun n _ => h n

section

variable {e} {ι W : Type*} [Preorder W] {acts : ι → α → Prop}
  {enabled : ι → σ → Prop} {P goal : ℕ → Prop} {rank : ℕ → W} {helper : ℕ → ι}

lemma stuck (hstep : ∀ m, P m → goal m ∨ P (m + 1) ∧ (rank (m + 1) < rank m ∨
      rank (m + 1) = rank m ∧ helper (m + 1) = helper m ∧ ¬ acts (helper m) (e.act m)))
    {n : ℕ} (hn : P n) (hgoal : ∀ m, n ≤ m → ¬ goal m)
    (hlow : ∀ m, n ≤ m → P m → ¬ rank m < rank n) {m : ℕ} (hm : n ≤ m) :
    P m ∧ rank m = rank n ∧ helper m = helper n ∧ ¬ acts (helper n) (e.act m) := by
  have hnow (m : ℕ) (hm : n ≤ m) (hP : P m) (hr : rank m = rank n) :
      P (m + 1) ∧ rank (m + 1) = rank m ∧ helper (m + 1) = helper m ∧
        ¬ acts (helper m) (e.act m) := by
    obtain ⟨hP', hlt | hsame⟩ := (hstep m hP).resolve_left (hgoal m hm)
    · exact absurd (hr ▸ hlt) (hlow (m + 1) (by omega) hP')
    · exact ⟨hP', hsame⟩
  have hstay : P m ∧ rank m = rank n ∧ helper m = helper n := by
    induction m, hm using Nat.le_induction with
    | base => exact ⟨hn, rfl, rfl⟩
    | succ m hm ih =>
      obtain ⟨hP, hr, hh⟩ := ih
      obtain ⟨hP', hr', hh', -⟩ := hnow m hm hP hr
      exact ⟨hP', hr'.trans hr, hh'.trans hh⟩
  obtain ⟨hP, hr, hh⟩ := hstay
  exact ⟨hP, hr, hh, hh ▸ (hnow m hm hP hr).2.2.2⟩

/-- **The ranking rule.** Fair agents can step, and lower the rank. -/
theorem eventually_of_rank [WellFoundedLT W] (P : ℕ → Prop) (rank : ℕ → W) (helper : ℕ → ι)
    (hfair : ∀ i, e.Fair (acts i) (enabled i)) (hen : ∀ m, P m → enabled (helper m) (e.state m))
    (hstep : ∀ m, P m → goal m ∨ P (m + 1) ∧ (rank (m + 1) < rank m ∨
      rank (m + 1) = rank m ∧ helper (m + 1) = helper m ∧ ¬ acts (helper m) (e.act m)))
    {n : ℕ} (hn : P n) : ∃ m, n ≤ m ∧ goal m := by
  induction hr : rank n using WellFoundedLT.induction generalizing n with
  | ind r ih =>
    subst hr
    by_contra hnot
    push Not at hnot
    have hlow (m : ℕ) (hm : n ≤ m) (hP : P m) : ¬ rank m < rank n := by
      intro hlt
      obtain ⟨k, hk, hgoal⟩ := ih (rank m) hlt hP rfl
      exact hnot k (hm.trans hk) hgoal
    -- the helping agent could step for ever, and does not
    have hstuck (m : ℕ) (hm : n ≤ m) := stuck hstep hn hnot hlow hm
    obtain ⟨m, hm, hact⟩ := hfair (helper n) n fun m hm => by
      obtain ⟨hP, -, hh, -⟩ := hstuck m hm
      exact hh ▸ hen m hP
    exact (hstuck m hm).2.2.2 hact

end

/-! ### Infinite runs made of finite ones -/

section

variable {S : ℕ → σ} {c : ℕ → List α} {L : ℕ}

/-- The action at a time: the runs are all of length `L`. -/
def cycleAct (hlen : ∀ k, (c k).length = L) (hL : 0 < L) (m : ℕ) : α :=
  (c (m / L)).get ⟨m % L, (hlen (m / L)).symm ▸ Nat.mod_lt m hL⟩

def cycleState (step : σ → α → Option σ) (S : ℕ → σ) (c : ℕ → List α) (L m : ℕ) : σ :=
  (run step (S (m / L)) ((c (m / L)).take (m % L))).getD (S 0)

lemma cycleState_eq {m : ℕ} {s : σ} (h : run step (S (m / L)) ((c (m / L)).take (m % L)) = some s) :
    cycleState step S c L m = s := by
  rw [cycleState, h]
  rfl

/-- The `k`-th run leads from `S k` to `S (k + 1)`. -/
def ofCycles (hlen : ∀ k, (c k).length = L) (hL : 0 < L)
    (hrun : ∀ k, run step (S k) (c k) = some (S (k + 1))) : Execution step where
  state := cycleState step S c L
  act := cycleAct hlen hL
  next m := by
    have hlt : m % L < (c (m / L)).length := (hlen (m / L)).symm ▸ Nat.mod_lt m hL
    obtain ⟨s, s', hs, hstep, hs'⟩ := run_take (hrun (m / L)) hlt
    rw [cycleState_eq hs, cycleAct, get_eq_getElem, hstep, Option.some.injEq, eq_comm]
    have hm := Nat.div_add_mod m L
    rcases Nat.lt_or_ge (m % L + 1) L with hin | hend
    · -- the next time lies in the same run
      obtain ⟨hdiv, hmod⟩ := (Nat.div_mod_unique hL).mpr
        ⟨(by omega : m % L + 1 + L * (m / L) = m + 1), hin⟩
      exact cycleState_eq (by rw [hdiv, hmod, hs'])
    · have hlast : m % L + 1 = L := le_antisymm (Nat.mod_lt m hL) hend
      obtain ⟨hdiv, hmod⟩ := (Nat.div_mod_unique hL).mpr
        ⟨(by rw [Nat.mul_add]; omega : 0 + L * (m / L + 1) = m + 1), hL⟩
      rw [hlast, take_of_length_le (hlen _).le, hrun] at hs'
      exact cycleState_eq (by rw [hdiv, hmod, ← hs']; rfl)

lemma cycleAct_eq (hlen : ∀ k, (c k).length = L) (hL : 0 < L) {m k i : ℕ} (hdiv : m / L = k)
    (hmod : m % L = i) :
    cycleAct hlen hL m = (c k).get ⟨i, by rw [hlen, ← hmod]; exact Nat.mod_lt m hL⟩ := by
  subst hdiv hmod
  rfl

lemma ofCycles_act {hlen : ∀ k, (c k).length = L} {hL : 0 < L}
    {hrun : ∀ k, run step (S k) (c k) = some (S (k + 1))} {i : ℕ} (hi : i < L) (k : ℕ) :
    (ofCycles hlen hL hrun).act (i + L * k) = (c k).get ⟨i, (hlen k).symm ▸ hi⟩ := by
  obtain ⟨hdiv, hmod⟩ := (Nat.div_mod_unique hL).mpr ⟨(rfl : i + L * k = i + L * k), hi⟩
  exact cycleAct_eq hlen hL hdiv hmod

theorem ofCycles_forall {hlen : ∀ k, (c k).length = L} {hL : 0 < L}
    {hrun : ∀ k, run step (S k) (c k) = some (S (k + 1))} {Q : ℕ → σ → α → Prop}
    (h : ∀ k, Meets step (Q k) (S k) (c k)) (m : ℕ) :
    Q (m / L) ((ofCycles hlen hL hrun).state m) ((ofCycles hlen hL hrun).act m) := by
  have hlt : m % L < (c (m / L)).length := (hlen (m / L)).symm ▸ Nat.mod_lt m hL
  obtain ⟨s, s', hs, -, -⟩ := run_take (hrun (m / L)) hlt
  have hstate : (ofCycles hlen hL hrun).state m = s := cycleState_eq hs
  rw [hstate]
  exact (h (m / L)).get hlt hs

end

/-! ### A finite run and then rest -/

section

variable {s s' : σ} {as : List α} {a : α}

def ofRun (hrun : run step s as = some s') (hrest : step s' a = some s') : Execution step where
  state n := (run step s (as.take n)).getD s
  act n := as.getD n a
  next n := by
    rcases Nat.lt_or_ge n as.length with hlt | hge
    · obtain ⟨t, t', ht, hstep, ht'⟩ := run_take hrun hlt
      rw [ht, ht', getD_eq_getElem _ _ hlt]
      exact hstep
    · rw [take_of_length_le hge, take_of_length_le (by omega), hrun, getD_eq_default _ _ hge]
      exact hrest

variable {hrun : run step s as = some s'} {hrest : step s' a = some s'}

lemma ofRun_state {n : ℕ} (hn : as.length ≤ n) : (ofRun hrun hrest).state n = s' := by
  simp only [ofRun]
  rw [take_of_length_le hn, hrun]
  rfl

theorem ofRun_forall {Q : σ → α → Prop} (hmeets : Meets step Q s as) (hrest' : Q s' a) (n : ℕ) :
    Q ((ofRun hrun hrest).state n) ((ofRun hrun hrest).act n) := by
  rcases Nat.lt_or_ge n as.length with hlt | hge
  · obtain ⟨t, t', ht, -, -⟩ := run_take hrun hlt
    simp only [ofRun]
    rw [ht, getD_eq_getElem _ _ hlt]
    exact hmeets.get hlt ht
  · rw [ofRun_state hge]
    simp only [ofRun]
    rw [getD_eq_default _ _ hge]
    exact hrest'

lemma ofRun_fair (acts : α → Prop) {enabled : σ → Prop} (h : ¬ enabled s') :
    (ofRun hrun hrest).Fair acts enabled := by
  intro n hn
  have hlate := hn (max n as.length) (le_max_left _ _)
  rw [ofRun_state (le_max_right _ _)] at hlate
  exact absurd hlate h

end

end Execution

end Library
