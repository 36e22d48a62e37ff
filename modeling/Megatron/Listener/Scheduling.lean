import Megatron.Library.Fair
import Megatron.Listener.Buffered
import Mathlib.Algebra.Order.BigOperators.Group.Finset

/-!
Fair scheduling of the threads of a listener. The condition wait is left only by a wake-up.
-/

namespace Megatron.Listener

open Library

variable {ι ε : Type*} {n : ℕ}

inductive Agent (ι : Type*) (n : ℕ) where
  | worker (w : Fin n)
  | producer (i : ι)

def Agent.Acts : Agent ι n → Action ι ε n → Prop
  | .worker w, .worker v _ => v = w
  | .producer i, .producer j _ => j = i
  | _, _ => False

lemma Agent.acts_worker {w : Fin n} {a : Action ι ε n} (h : (Agent.worker w : Agent ι n).Acts a) :
    ∃ res, a = .worker w res := by
  cases a with
  | worker v res =>
    obtain rfl : v = w := h
    exact ⟨res, rfl⟩
  | _ => exact h.elim

def Agent.Enabled [DecidableEq ι] (t : Agent ι n) (s : State ι ε n) : Prop :=
  ∃ a, t.Acts a ∧ ∃ s', s.step a = some s'

def Worker.active {α : Type*} : Worker α → Bool
  | .waiting | .exited => false
  | _ => true

def Worker.needsMutex {α : Type*} : Worker α → Bool
  | .locking | .woken => true
  | _ => false

namespace State

variable {s s' : State ι ε n} {w : Fin n} {pc : Worker (Item ι ε)}

lemma active_of_ne {pc : Worker (Item ι ε)} (hexited : pc ≠ .exited) (hwaiting : pc ≠ .waiting) :
    pc.active = true := by
  cases pc <;> first | rfl | exact absurd rfl hexited | exact absurd rfl hwaiting

lemma Effect.was_active [DecidableEq ι] {res : HandleResult}
    (heff : Effect s (.worker w res) s') : (s.workers w).active = true := by
  cases heff with
  | go hgo =>
    generalize s.workers w = old at hgo
    cases hgo <;> rfl
  | acquire howner hacq =>
    generalize s.workers w = old at hacq
    cases hacq <;> rfl
  | release hrel =>
    generalize s.workers w = old at hrel
    cases hrel <;> rfl
  | take hw hne | call hw => rw [hw]; rfl

lemma worker_enabled [DecidableEq ι] (h : (s.workers w).active = true)
    (howner : s.owner = none ∨ (s.workers w).needsMutex = false) :
    (Agent.worker w : Agent ι n).Enabled s := by
  refine ⟨.worker w .handled, rfl, ?_⟩
  simp only [step, workerStep]
  split
  case h_3 hw | h_7 hw =>
    rw [hw] at howner
    rw [howner.resolve_right fun hfree => by cases hfree]
    exact ⟨_, rfl⟩
  case h_6 hw | h_14 hw =>
    rw [hw] at h
    cases h
  all_goals first
    | exact ⟨_, rfl⟩
    | split_ifs <;> exact ⟨_, rfl⟩

def Runs (workers : Fin n → Worker (Item ι ε)) (w : Fin n) : Prop :=
  (workers w).active = true ∧ ((∃ v, (workers v).locked = true) → (workers w).locked = true)

lemma exists_runs {workers : Fin n → Worker (Item ι ε)} (h : ∃ w, (workers w).active = true) :
    ∃ w, Runs workers w := by
  by_cases hlock : ∃ v, (workers v).locked = true
  · obtain ⟨v, hv⟩ := hlock
    refine ⟨v, ?_, fun _ => hv⟩
    generalize workers v = pc at hv
    cases pc <;> first | rfl | cases hv
  · obtain ⟨w, hw⟩ := h
    exact ⟨w, hw, fun hlocked => absurd hlocked hlock⟩

noncomputable def runner [Nonempty (Fin n)] (workers : Fin n → Worker (Item ι ε)) : Fin n :=
  Classical.epsilon (Runs workers)

lemma runner_enabled [DecidableEq ι] [Nonempty (Fin n)] (hl : s.Locked)
    (h : ∃ w, (s.workers w).active = true) :
    (Agent.worker (runner s.workers) : Agent ι n).Enabled s := by
  have hruns : Runs s.workers (runner s.workers) := Classical.epsilon_spec (exists_runs h)
  refine worker_enabled hruns.1 ?_
  cases howner : s.owner with
  | none => exact .inl rfl
  | some v =>
    have hlocked := hruns.2 ⟨v, (hl v).mp howner⟩
    generalize s.workers (runner s.workers) = pc at hlocked
    right
    cases pc <;> first | rfl | cases hlocked

/-! ### The total rank of the workers -/

section

variable {W : Type*} [AddCommMonoid W]

def total (s : State ι ε n) (f : Worker (Item ι ε) → W) : W := ∑ w, f (s.workers w)

variable [PartialOrder W] [IsOrderedCancelAddMonoid W] {f : Worker (Item ι ε) → W}

lemma total_goto (hworkers : s'.workers = Function.update s.workers w pc)
    (h : f pc < f (s.workers w)) : s'.total f < s.total f := by
  rw [total, total, hworkers]
  refine Finset.sum_lt_sum ?_ ⟨w, Finset.mem_univ w, ?_⟩
  · intro v _
    by_cases hv : v = w
    · rw [hv, Function.update_self]
      exact h.le
    · rw [Function.update_of_ne hv]
  · rw [Function.update_self]
    exact h

lemma total_wake {wakes : Finset (Fin n)} (hworkers : s'.workers = (s.wake wakes).workers)
    (hsub : wakes ⊆ s.waiters) (h : f .woken < f .waiting) :
    s'.total f < s.total f ∨ s'.workers = s.workers := by
  have hwoken {v : Fin n} (hv : v ∈ wakes) : f (s'.workers v) < f (s.workers v) := by
    simp only [hworkers, wake, hv, if_true, mem_waiters.mp (hsub hv)]
    exact h
  have hother {v : Fin n} (hv : v ∉ wakes) : s'.workers v = s.workers v := by
    simp only [hworkers, wake, hv, if_false]
  rcases wakes.eq_empty_or_nonempty with rfl | ⟨v, hv⟩
  · exact .inr (funext fun v => hother (Finset.notMem_empty v))
  · left
    refine Finset.sum_lt_sum ?_ ⟨v, Finset.mem_univ v, hwoken hv⟩
    intro u _
    by_cases hu : u ∈ wakes
    · exact (hwoken hu).le
    · rw [hother hu]

end

end State

/-- **Progress of the workers.** Each step lowers the total rank, or moves no worker. -/
theorem eventually_of_total [DecidableEq ι] {W : Type*} [AddCommMonoid W] [PartialOrder W]
    [WellFoundedLT W] {e : Execution (@State.step ι ε n _)}
    {goal : ℕ → Prop} (P : ℕ → Prop) (f : Worker (Item ι ε) → W)
    (hfair : ∀ w, e.Fair (Agent.worker w : Agent ι n).Acts (Agent.worker w : Agent ι n).Enabled)
    (hlocked : ∀ m, (e.state m).Locked)
    (hactive : ∀ m, P m → ∃ w, ((e.state m).workers w).active = true)
    (hstep : ∀ m, P m → goal m ∨ P (m + 1) ∧ ((e.state (m + 1)).total f < (e.state m).total f ∨
        (e.state (m + 1)).workers = (e.state m).workers ∧ ∀ w res, e.act m ≠ .worker w res))
    {k : ℕ} (hk : P k) : ∃ m, k ≤ m ∧ goal m := by
  obtain ⟨w, -⟩ := hactive k hk
  have : Nonempty (Fin n) := ⟨w⟩
  refine Execution.eventually_of_rank P (fun m => (e.state m).total f)
    (fun m => State.runner (e.state m).workers) hfair
    (fun m hm => State.runner_enabled (hlocked m) (hactive m hm)) ?_ hk
  intro m hm
  rcases hstep m hm with hgoal | ⟨hP, hlt | ⟨hsame, hact⟩⟩
  · exact .inl hgoal
  · exact .inr ⟨hP, .inl hlt⟩
  · refine .inr ⟨hP, .inr ⟨by simp only [State.total, hsame], by simp only [hsame], ?_⟩⟩
    intro hacts
    obtain ⟨res, hres⟩ := Agent.acts_worker hacts
    exact hact _ res hres

end Megatron.Listener
