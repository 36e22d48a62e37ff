import Megatron.Timer.Worker

/-!
How often the worker of the timer service goes round its loops (`Metered.step`,
`worker_does_not_spin`).
-/

namespace Megatron.Timer

open Library

variable {m m' : Machine} {mv : Move}

/-- The inner loop does not run on an empty table. -/
def Stocked (m : Machine) (mv : Move) : Prop :=
  mv = .inner → m.service.terminating = false → m.service.nexts ≠ []

def Place.settled : Place → Bool
  | .timedWaiting _ | .returned => true
  | _ => false

structure Metered (m : Machine) : Prop where
  inner : m.meter.inner ≤ m.meter.batches + m.place.settled.toNat
  outer : 0 < m.meter.waits → m.meter.throws = 0 → m.meter.outer = 0 ∧ m.place ≠ .outer

lemma metered_initial : Metered Machine.initial where
  inner := le_rfl
  outer := nofun

lemma Metered.of_same (h : Metered m) (hplace : m'.place = m.place) (hmeter : m'.meter = m.meter) :
    Metered m' where
  inner := by
    rw [hplace, hmeter]
    exact h.inner
  outer := by
    rw [hplace, hmeter]
    exact h.outer

theorem Metered.step (h : Metered m) (hstocked : Stocked m mv) (hs : m.step mv = some m') :
    Metered m' := by
  have hinner := h.inner
  cases Machine.step_effect hs with
  | outerReturn hp hterm =>
    rw [hp] at hinner
    exact ⟨Nat.le_succ_of_le hinner, fun hw ht => absurd hp (h.outer hw ht).2⟩
  | outerWait hp hterm hn | outerEnter hp hterm hn =>
    rw [hp] at hinner
    exact ⟨hinner, fun hw ht => absurd hp (h.outer hw ht).2⟩
  | wakeReturn hb hterm | wakeResume hb hterm => exact ⟨Nat.zero_le _, fun _ _ => ⟨rfl, nofun⟩⟩
  | innerReturn hp hterm | innerSleep hp hterm hn hlt | innerTake hp hn hd htake =>
    rw [hp] at hinner
    exact ⟨Nat.succ_le_succ hinner, fun hw ht => ⟨(h.outer hw ht).1, nofun⟩⟩
  | innerIdle hp hterm hn => exact absurd hn (hstocked rfl hterm)
  | checkDone hp hb hc =>
    rw [hp] at hinner
    exact ⟨hinner, fun hw ht => ⟨(h.outer hw ht).1, nofun⟩⟩
  | checkReturn hp hst hterm =>
    rw [hp] at hinner
    exact ⟨Nat.le_succ_of_le hinner, fun hw ht => ⟨(h.outer hw ht).1, nofun⟩⟩
  | passThrow hp hst hc =>
    rw [hp] at hinner
    exact ⟨hinner, fun _ ht => absurd ht (Nat.succ_ne_zero _)⟩
  | _ => exact h.of_same rfl rfl

/-- **The worker does not spin** if every iteration of the inner loop finds a task. -/
theorem worker_does_not_spin {as : List Move} (hrun : run Machine.step Machine.initial as = some m)
    (hstocked : Meets Machine.step Stocked Machine.initial as) :
    m.meter.inner ≤ m.meter.batches + 1 ∧ (0 < m.meter.waits → m.meter.throws = 0 →
        m.meter.outer + m.meter.inner ≤ m.meter.batches + 1) ∧
      ∀ mv m', m.step mv = some m' → Stocked m mv → mv = .outer ∨ mv = .inner →
        m.service.nexts = [] → m.service.terminating = false → m'.place = .waiting := by
  have h : Metered m := run_invariant Metered.step metered_initial hstocked hrun
  have hinner : m.meter.inner ≤ m.meter.batches + 1 :=
    calc m.meter.inner ≤ m.meter.batches + m.place.settled.toNat := h.inner
      _ ≤ m.meter.batches + 1 := Nat.add_le_add_left (Bool.toNat_le _) _
  refine ⟨hinner, fun hw ht => ?_, fun mv m' hs hstock hloop hn hterm => ?_⟩
  · rw [(h.outer hw ht).1, Nat.zero_add]
    exact hinner
  · rcases hloop with rfl | rfl
    · cases Machine.step_effect hs with
      | outerReturn hp hterm' =>
        rw [hterm] at hterm'
        cases hterm'
      | outerWait => rfl
      | outerEnter hp _ hn' => exact absurd hn hn'
    · exact absurd hn (hstock rfl hterm)

def waitTwice : List Move :=
  [.outer, .begin (.setAlarm someKey 0), .handle 10, .signal, .wake, .inner]

theorem worker_does_not_spin_waitTwice :
    ∃ m, run Machine.step Machine.initial waitTwice = some m ∧ m.place = .timedWaiting 10 ∧
      m.meter = ⟨1, 0, 1, 0, 0⟩ ∧ m.meter.outer + m.meter.inner ≤ m.meter.batches + 1 := by
  have hstocked : Meets Machine.step Stocked Machine.initial waitTwice := by
    repeat' apply And.intro
    all_goals first
      | trivial
      | exact nofun
  refine ⟨_, rfl, rfl, rfl, ?_⟩
  exact (@worker_does_not_spin _ waitTwice rfl hstocked).2.1 (by decide) rfl

theorem worker_spins_on_empty_table : ∃ m₁ m₂, run Machine.step Machine.initial
        [.outer, .begin (.setAlarm someKey 0), .handle 10, .signal, .wake, .setClock 20, .inner,
          .check, .pass true, .finish 0, .check, .inner, .inner, .inner] = some m₁ ∧
      m₁.service.nexts = [] ∧ m₁.service.terminating = false ∧ m₁.place = .inner ∧
      m₁.meter = ⟨1, 0, 4, 1, 0⟩ ∧
      run Machine.step m₁ [.begin (.setAlarm someKey 0), .handle 100, .signal, .inner] = some m₂ ∧
      m₂.place = .timedWaiting 100 ∧ m₂.meter = ⟨1, 0, 5, 1, 0⟩ :=
  ⟨_, _, rfl, rfl, rfl, rfl, rfl, rfl, rfl, rfl⟩

end Megatron.Timer
