import Megatron.Timer.FiringOrder
import Mathlib.Data.Prod.Lex
import Mathlib.Order.Filter.AtTopBot.Basic

/-!
Timer tasks fire, in infinite runs in which the worker and the handlers are treated fairly: every
step takes the batch of a task or lowers a rank (`rank_step`, `work_step`, `timers_fire_in_order`).
-/

namespace Megatron.Timer

open Library List Machine

def Machine.WorkerEnabled (m : Machine) : Prop :=
  match m.place with
  | .outer | .inner | .batch => True
  | .waiting => m.woken = true
  | .timedWaiting ts => m.woken = true ∨ ts ≤ m.clock
  | .returned => False

def Machine.HandlerEnabled (m : Machine) : Prop := m.owed = true ∨ m.service.handler ≠ []

def Throws (st : State) (mv : Move) : Prop :=
  ∃ returns x t, mv = .pass returns ∧ st.current = some (x, .deliver) ∧ st.tasks[x]? = some t ∧
    (t.route = [] ∨ returns = false)

/-- The worker passes the tick of the task. -/
def Fires (st : State) (mv : Move) (id : ℕ) : Prop :=
  ∃ returns, mv = .pass returns ∧ st.current = some (id, .deliver)

/-! ### The rank -/

namespace Machine

def work (m : Machine) : ℕ :=
  3 * m.service.batch.length + match m.service.current with
    | none => 0
    | some (_, .deliver) => 2
    | some (_, .finish) => 1

def ready (m : Machine) (d : ℤ) : Bool :=
  match m.place with
  | .waiting => m.woken
  | .timedWaiting ts => m.woken || decide (ts ≤ d)
  | _ => true

def distance (m : Machine) (d : ℤ) : ℕ :=
  match m.place with
  | .inner | .returned => 0
  | .outer => 1
  | .batch => 1 + m.work
  | .waiting | .timedWaiting _ => if m.ready d then 1 else 2

def rank (m : Machine) (d : ℤ) : ℕ ×ₗ ℕ := toLex (m.queue.countP (·.1 < d), m.distance d)

end Machine

section

variable {m m' : Machine} {mv : Move} {d : ℤ} {id : ℕ}

lemma misses_of_not_ready (h : m.ready d = false) : m.woken = false ∧ m.place.Misses d := by
  rw [ready] at h
  split at h
  · next hp => exact ⟨h, hp ▸ trivial⟩
  · next ts hp =>
      rw [Bool.or_eq_false_iff, decide_eq_false_iff_not, not_le] at h
      exact ⟨h.1, hp ▸ h.2⟩
  · cases h

lemma workerEnabled_of_ready (h : m.ready d = true) (hd : d ≤ m.clock)
    (hrun : m.place ≠ .returned) : m.WorkerEnabled := by
  rw [ready] at h
  rw [Machine.WorkerEnabled]
  split at h
  · next hp => rwa [hp]
  · next ts hp =>
      rw [hp]
      rw [Bool.or_eq_true, decide_eq_true_eq] at h
      exact h.imp_right fun hts => hts.trans hd
  · next hw ht =>
      split
      · trivial
      · trivial
      · trivial
      · next hp => exact absurd hp hw
      · next ts hp => exact absurd hp (ht ts)
      · next hp => exact absurd hp hrun

lemma owed_of_not_ready (hsound : Sound m) (hmem : (d, id) ∈ m.queue)
    (h : m.ready d = false) : m.owed = true := by
  obtain ⟨hwoken, hmiss⟩ := misses_of_not_ready h
  exact (hsound.signalled (d, id) hmem hmiss).resolve_left (by simp [hwoken])

lemma rank_lt_of_distance (hqueue : m'.queue.countP (·.1 < d) = m.queue.countP (·.1 < d))
    (h : m'.distance d < m.distance d) : m'.rank d < m.rank d :=
  Prod.Lex.toLex_lt_toLex.mpr (.inr ⟨hqueue, h⟩)

lemma countP_inserted {o : Option (ℤ × ℕ)} (q : List (ℤ × ℕ)) (h : ∀ x ∈ o, d ≤ x.1) :
    (q ++ o.toList).countP (·.1 < d) = q.countP (·.1 < d) := by
  cases o with
  | none => simp
  | some x =>
    have hx : d ≤ x.1 := h x rfl
    simp [not_lt.mpr hx]

lemma work_check {st : State} (hs : check m.service = some st)
    (hrun : m.service.terminating = false) : work { m with service := st } < m.work := by
  obtain ⟨hc, x, rest, hb, ⟨hterm, -⟩ | ⟨-, -, rfl⟩ | ⟨-, -, rfl⟩⟩ := check_eq_some hs
  · rw [hrun] at hterm
    cases hterm
  · simp only [work, hc, hb, length_cons]
    omega
  · simp only [work, hc, hb, length_cons]
    omega

lemma work_pass {st : State} {returns : Bool} (hs : pass m.service returns = some st)
    (hcur : st.current ≠ none) : work { m with service := st } < m.work := by
  obtain ⟨x, t, hc, -, ⟨-, rfl⟩ | ⟨tick, -, ⟨-, rfl⟩ | ⟨-, rfl⟩⟩⟩ := pass_eq_some hs
  · exact absurd rfl hcur
  · simp only [work, hc]
    omega
  · exact absurd rfl hcur

lemma work_finish {st : State} {tb : ℤ} (hs : finish m.service tb = some st)
    (q : List (ℤ × ℕ)) : work { m with service := st, queue := q } < m.work := by
  obtain ⟨x, t, hc, -, ⟨-, rfl⟩ | ⟨-, rfl⟩⟩ := finish_eq_some hs
  · simp only [work, hc]
    omega
  · simp only [work, hc]
    omega

lemma throws_of_pass {st : State} {returns : Bool} (hs : pass m.service returns = some st)
    (hcur : st.current = none) : Throws m.service (.pass returns) := by
  obtain ⟨x, t, hc, ht, ⟨hroute, -⟩ | ⟨tick, -, ⟨-, rfl⟩ | ⟨hret, -⟩⟩⟩ := pass_eq_some hs
  · exact ⟨returns, x, t, rfl, hc, ht, .inl hroute⟩
  · cases hcur
  · exact ⟨returns, x, t, rfl, hc, ht, .inr hret⟩

def acts (worker : Bool) (mv : Move) : Prop := (if worker then mv.ofWorker else mv.ofHandler) = true

def enabled (worker : Bool) (m : Machine) : Prop :=
  if worker then m.WorkerEnabled else m.HandlerEnabled

lemma distance_of_blocked (h : m.place.blocked = true) :
    m.distance d = if m.ready d then 1 else 2 := by
  rw [distance]
  split
  all_goals first
    | rfl
    | (next hp => rw [hp] at h; cases h)

lemma distance_lt_of_ready (h : m.ready d = false) (h' : m'.ready d = true)
    (hb : m.place.blocked = true) (hb' : m'.place.blocked = true) : m'.distance d < m.distance d :=
  calc m'.distance d = 1 := by rw [distance_of_blocked hb', if_pos h']
    _ < 2 := one_lt_two
    _ = m.distance d := by rw [distance_of_blocked hb, if_neg (by simp [h])]

lemma ready_of_signal (m : Machine) (d : ℤ) :
    ready { m with owed := false, woken := m.woken || m.place.blocked } d = true := by
  cases m.place <;> simp [ready, Place.blocked]

lemma rank_of_same (hplace : m'.place = m.place) (hready : m'.ready d = m.ready d)
    (hbatch : m'.service.batch = m.service.batch)
    (hcurrent : m'.service.current = m.service.current)
    (hqueue : m'.queue.countP (·.1 < d) = m.queue.countP (·.1 < d))
    (hacts : ¬ acts (m.ready d) mv) : m'.rank d < m.rank d ∨
      m'.rank d = m.rank d ∧ m'.ready d = m.ready d ∧ ¬ acts (m.ready d) mv := by
  have hdistance : m'.distance d = m.distance d := by
    simp only [distance, work, hready, hplace, hbatch, hcurrent]
  exact .inr ⟨by rw [rank, rank, hqueue, hdistance], hready, hacts⟩

lemma rank_take (hsound : Sound m) (hmem : (d, id) ∈ m.queue)
    (hs : m.step .inner = some m') (hp : m'.place = .batch) :
    id ∈ m'.service.batch ∨ (d, id) ∈ m'.queue ∧ m'.rank d < m.rank d := by
  obtain ⟨d₀, ⟨⟨id₀, hfirst⟩, hleast⟩, -, hbatch, hqueue⟩ := batch_taken hsound hs hp
  have hle : d₀ ≤ d := hleast ⟨id, hmem⟩
  rcases hle.eq_or_lt with rfl | hlt
  · refine .inl ?_
    rw [hbatch]
    exact mem_map.mpr ⟨(d₀, id), mem_filter.mpr ⟨hmem, by simp⟩, rfl⟩
  · -- an earlier batch: its entries are gone
    refine .inr ⟨?_, Prod.Lex.toLex_lt_toLex.mpr (.inl ?_)⟩
    · rw [hqueue]
      exact mem_filter.mpr ⟨hmem, by simpa using hlt.ne'⟩
    · rw [hqueue, countP_eq_length_filter, countP_eq_length_filter, filter_comm]
      refine length_filter_lt_length_iff_exists.mpr ⟨(d₀, id₀), ?_, by simp⟩
      exact mem_filter.mpr ⟨hfirst, by simpa using hlt⟩

lemma queued_step (hsound : Sound m) (hrun : m.service.terminating = false)
    (hmem : (d, id) ∈ m.queue) (hs : m.step mv = some m') :
    id ∈ m'.service.batch ∨ (d, id) ∈ m'.queue := by
  cases step_effect hs with
  | innerTake => exact (rank_take hsound hmem hs rfl).imp_right And.left
  | finish | handle => exact .inr (mem_append_left _ hmem)
  | clear hterm =>
    rw [hrun] at hterm
    cases hterm
  | _ => exact .inr hmem

/-- **Progress of an entry**: every step takes its batch or lowers the rank. -/
theorem rank_step (hsound : Sound m) (hrun : m.service.terminating = false)
    (hmem : (d, id) ∈ m.queue) (hclock : d ≤ m.clock) (hlive : mv ≠ .deinit)
    (hthrow : ¬ Throws m.service mv) (hins : ∀ x ∈ inserted m.service mv, d ≤ x.1)
    (hs : m.step mv = some m') :
    id ∈ m'.service.batch ∨ (d, id) ∈ m'.queue ∧ (m'.rank d < m.rank d ∨
      m'.rank d = m.rank d ∧ m'.ready d = m.ready d ∧ ¬ acts (m.ready d) mv) := by
  have hnonempty : m.service.nexts ≠ [] := by
    intro hn
    have hempty : m.queue = [] := (hn ▸ hsound.buckets : Buckets [] m.queue).queue_eq_nil
    exact absurd hmem (hempty ▸ not_mem_nil)
  have hgoing {P : Prop} (h : m.service.terminating = true) : P := by
    rw [hrun] at h
    cases h
  cases step_effect hs with
  | outerReturn hp hterm | wakeReturn hb hterm | innerReturn hp hterm | checkReturn hp hst hterm
  | clear hterm | broadcast hterm => exact hgoing hterm
  | outerWait hp hterm hn | innerIdle hp hterm hn => exact absurd hn hnonempty
  | outerEnter hp hterm hn | checkDone hp hb hc =>
    refine .inr ⟨hmem, .inl (rank_lt_of_distance rfl ?_)⟩
    simp [distance, hp]
  | wakeResume hb hterm =>
    refine .inr ⟨hmem, .inl (rank_lt_of_distance rfl ?_)⟩
    rw [distance_of_blocked hb]
    simp only [distance]
    split_ifs <;> omega
  | innerSleep hp hterm hn hlt =>
    -- the least deadline has come
    have hle := (hn ▸ hsound.buckets).le hmem
    exact absurd (hle.trans hclock) (not_le.mpr hlt)
  | innerTake hp hn hd htake =>
    exact (rank_take hsound hmem hs rfl).imp_right fun h => ⟨h.1, .inl h.2⟩
  | checkTask hp hst hterm =>
    refine .inr ⟨hmem, .inl (rank_lt_of_distance rfl ?_)⟩
    simpa [distance, hp] using work_check hst hterm
  | passThrow hp hst hc => exact absurd (throws_of_pass hst hc) hthrow
  | passed hp hst hc =>
    refine .inr ⟨hmem, .inl (rank_lt_of_distance rfl ?_)⟩
    simpa [distance, hp] using work_pass hst hc
  | finish hp hst =>
    refine .inr ⟨mem_append_left _ hmem,
      .inl (rank_lt_of_distance (countP_inserted m.queue hins) ?_)⟩
    simpa [distance, hp] using work_finish hst _
  | begin howed hst =>
    obtain ⟨-, hb, hc, -⟩ := begin_frame hst
    refine .inr ⟨hmem, rank_of_same rfl rfl hb hc rfl ?_⟩
    cases m.ready d <;> exact Bool.false_ne_true
  | handle howed hst =>
    obtain ⟨hb, hc, -⟩ := handle_frame hst
    -- no handler has to signal, so the worker is not waiting for a signal
    have hready : m.ready d = true := by
      by_contra hnot
      rw [owed_of_not_ready hsound hmem (by simpa using hnot)] at howed
      cases howed
    refine .inr ⟨mem_append_left _ hmem,
      rank_of_same rfl rfl hb hc (countP_inserted m.queue hins) ?_⟩
    rw [hready]
    exact Bool.false_ne_true
  | signal howed =>
    have hready' := ready_of_signal m d
    cases hready : m.ready d with
    | true =>
      rw [← hready]
      refine .inr ⟨hmem, rank_of_same rfl (hready'.trans hready.symm) rfl rfl rfl ?_⟩
      rw [hready]
      exact Bool.false_ne_true
    | false =>
      obtain ⟨-, hmiss⟩ := misses_of_not_ready hready
      have hb : m.place.blocked = true := Place.blocked_of_misses hmiss
      have hlt := distance_lt_of_ready hready hready' hb hb
      exact .inr ⟨hmem, .inl (rank_lt_of_distance rfl hlt)⟩
  | setClock =>
    refine .inr ⟨hmem, rank_of_same rfl rfl rfl rfl rfl ?_⟩
    cases m.ready d <;> exact Bool.false_ne_true
  | deinit => exact absurd rfl hlive

end

/-! ### A task in the hands of the worker -/

section

variable {m m' : Machine} {mv : Move} {id : ℕ}

def State.Awaits (st : State) (id : ℕ) : Prop := id ∈ st.batch ∨ st.current = some (id, .deliver)

lemma place_of_awaits (hsound : Sound m) (hrun : m.service.terminating = false)
    (h : m.service.Awaits id) : m.place = .batch := by
  by_contra hp
  have hr : m.place ≠ .returned := by
    intro hr
    rw [hsound.returned hr] at hrun
    cases hrun
  obtain ⟨hb, hc⟩ := hsound.idle hp hr
  rw [State.Awaits, hb, hc] at h
  simp at h

lemma State.Awaits.check {st st' : State} (h : st.Awaits id) (hkept : Kept id st)
    (hs : Timer.check st = some st') : st'.Awaits id := by
  obtain ⟨hc, x, rest, hb, ⟨hterm, -⟩ | ⟨-, her, rfl⟩ | ⟨-, -, rfl⟩⟩ := check_eq_some hs
  · rw [hkept.running] at hterm
    cases hterm
  · have hmem : id ∈ x :: rest := hb ▸ h.resolve_right (by simp [hc])
    refine .inl ((mem_cons.mp hmem).resolve_left ?_)
    -- the task itself is not erased
    rintro rfl
    rw [hkept.erased_eq_false (hb ▸ mem_cons_self)] at her
    cases her
  · have hmem : id ∈ x :: rest := hb ▸ h.resolve_right (by simp [hc])
    rcases mem_cons.mp hmem with rfl | hrest
    · exact .inr rfl
    · exact .inl hrest

lemma State.Awaits.pass {st st' : State} {returns : Bool} (h : id ∈ st.batch)
    (hs : Timer.pass st returns = some st') (hcur : st'.current ≠ none) : st'.Awaits id := by
  obtain ⟨x, t, -, -, ⟨-, rfl⟩ | ⟨tick, -, ⟨-, rfl⟩ | ⟨-, rfl⟩⟩⟩ := pass_eq_some hs
  · exact absurd rfl hcur
  · exact .inl h
  · exact absurd rfl hcur

lemma State.Awaits.finish {st st' : State} {tb : ℤ} (h : st.Awaits id)
    (hs : Timer.finish st tb = some st') : st'.Awaits id := by
  obtain ⟨x, t, hc, -, ⟨-, rfl⟩ | ⟨-, rfl⟩⟩ := finish_eq_some hs
  · exact .inl (h.resolve_right (by simp [hc]))
  · exact .inl (h.resolve_right (by simp [hc]))

/-- **Progress of a task in the hands of the worker.** -/
theorem work_step (hsound : Sound m) (hkept : Kept id m.service) (hheld : m.service.Awaits id)
    (hlive : mv ≠ .deinit) (hthrow : ¬ Throws m.service mv) (hs : m.step mv = some m') :
    Fires m.service mv id ∨
    m'.service.Awaits id ∧ (m'.work < m.work ∨ m'.work = m.work ∧ ¬ acts true mv) := by
  have hgoing {P : Prop} (h : m.service.terminating = true) : P := by
    rw [hkept.running] at h
    cases h
  have hbusy : m.place = .batch := place_of_awaits hsound hkept.running hheld
  have hother {P : Prop} {p : Place} (h : m.place = p) (hne : p ≠ .batch) : P :=
    absurd (h.symm.trans hbusy) hne
  cases step_effect hs with
  | outerReturn hp | outerWait hp | outerEnter hp | innerReturn hp | innerIdle hp
  | innerSleep hp | innerTake hp => exact hother hp nofun
  | wakeReturn hb | wakeResume hb =>
    rw [hbusy] at hb
    cases hb
  | checkDone hp hb hc =>
    rw [State.Awaits, hb, hc] at hheld
    simp at hheld
  | checkReturn hp hst hterm | clear hterm | broadcast hterm => exact hgoing hterm
  | checkTask hp hst hterm => exact .inr ⟨hheld.check hkept hst, .inl (work_check hst hterm)⟩
  | passThrow hp hst hc => exact absurd (throws_of_pass hst hc) hthrow
  | passed hp hst hcur =>
    rcases hheld with hmem | hnow
    · exact .inr ⟨.pass hmem hst hcur, .inl (work_pass hst hcur)⟩
    · exact .inl ⟨_, rfl, hnow⟩
  | finish hp hst => exact .inr ⟨hheld.finish hst, .inl (work_finish hst _)⟩
  | begin howed hst =>
    obtain ⟨-, hb, hc, -⟩ := begin_frame hst
    refine .inr ⟨?_, .inr ⟨?_, Bool.false_ne_true⟩⟩
    · rwa [State.Awaits, hb, hc]
    · simp only [work, hb, hc]
  | handle howed hst =>
    obtain ⟨hb, hc, -⟩ := handle_frame hst
    refine .inr ⟨?_, .inr ⟨?_, Bool.false_ne_true⟩⟩
    · rwa [State.Awaits, hb, hc]
    · simp only [work, hb, hc]
  | signal | setClock => exact .inr ⟨hheld, .inr ⟨rfl, Bool.false_ne_true⟩⟩
  | deinit => exact absurd rfl hlive

end

/-- A fair run of the service, without exceptions. -/
structure Lively (e : Execution Machine.step) : Prop where
  live : ∀ n, e.act n ≠ .deinit
  fair : ∀ worker, e.Fair (acts worker) (enabled worker)
  clock : Filter.Tendsto (fun n => (e.state n).clock) Filter.atTop Filter.atTop
  delivers : ∀ n, ¬ Throws (e.state n).service (e.act n)

section

variable {e : Execution Machine.step} {id : ℕ} {d : ℤ}

lemma sound_at (h0 : e.state 0 = initial) (n : ℕ) : Sound (e.state n) :=
  Execution.invariant' Sound.step (h0 ▸ sound_initial) n

lemma kept_at (h0 : e.state 0 = initial) (hlively : Lively e)
    (hstop : ∀ n tb, e.act n = .handle tb → ¬ Marks (e.state n).service (.handle tb) id)
    (n : ℕ) : Kept id (e.state n).service := by
  induction n with
  | zero =>
    rw [h0]
    exact kept_initial id
  | succ n ih =>
    rcases step_service (e.next n) with hsame | ⟨a, ha, hstep⟩
    · exact hsame ▸ ih
    · refine ih.step ⟨?_, ?_, ?_⟩ hstep
      · rintro rfl
        exact hlively.live n (Move.action_inj ha rfl)
      · rintro ⟨tb, ty, k, rest, t, rfl, hmarks⟩
        have hact : e.act n = .handle tb := Move.action_inj ha rfl
        exact hstop n tb hact ⟨tb, ty, k, rest, t, rfl, hmarks⟩
      · rintro ⟨returns, x, t, rfl, hc, ht, hfail, -⟩
        have hact : e.act n = .pass returns := Move.action_inj ha rfl
        exact hlively.delivers n ⟨returns, x, t, hact, hc, ht, hfail⟩

lemma fires_of_awaits (h0 : e.state 0 = initial) (hlively : Lively e)
    (hkept : ∀ n, Kept id (e.state n).service) {n : ℕ} (hn : (e.state n).service.Awaits id) :
    ∃ k, n ≤ k ∧ Fires (e.state k).service (e.act k) id := by
  refine Execution.eventually_of_rank (fun k => (e.state k).service.Awaits id)
    (fun k => (e.state k).work) (fun _ => true) hlively.fair (fun k hk => ?_) (fun k hk => ?_) hn
  · have hp := place_of_awaits (sound_at h0 k) (hkept k).running hk
    simp only [enabled, if_true, Machine.WorkerEnabled, hp]
  · rcases work_step (sound_at h0 k) (hkept k) hk (hlively.live k) (hlively.delivers k) (e.next k)
      with hfire | ⟨hk', hrank⟩
    · exact .inl hfire
    · exact .inr ⟨hk', hrank.imp_right fun h => ⟨h.1, rfl, h.2⟩⟩

lemma place_of_pass {m m' : Machine} {returns : Bool} (hs : m.step (.pass returns) = some m') :
    m.place = .batch := by
  cases step_effect hs with
  | passThrow hp | passed hp => exact hp

lemma queued_until_taken (h0 : e.state 0 = initial)
    (hrun : ∀ n, (e.state n).service.terminating = false) {n : ℕ}
    (hn : (d, id) ∈ (e.state n).queue) {k : ℕ} (hk : n ≤ k) :
    (∃ j, n ≤ j ∧ (e.state j).service.Awaits id) ∨ (d, id) ∈ (e.state k).queue := by
  induction k, hk using Nat.le_induction with
  | base => exact .inr hn
  | succ k hk ih =>
    rcases ih with htaken | hmem
    · exact .inl htaken
    · rcases queued_step (sound_at h0 k) (hrun k) hmem (e.next k) with hbatch | hmem
      · exact .inl ⟨k + 1, by omega, .inl hbatch⟩
      · exact .inr hmem

lemma awaits_of_queued (h0 : e.state 0 = initial) (hlively : Lively e)
    (hrun : ∀ n, (e.state n).service.terminating = false)
    (hlate : ∃ N, ∀ k, N ≤ k → ∀ x ∈ inserted (e.state k).service (e.act k), d ≤ x.1)
    {n : ℕ} (hn : (d, id) ∈ (e.state n).queue) : ∃ k, n ≤ k ∧ (e.state k).service.Awaits id := by
  obtain ⟨N₁, hlate⟩ := hlate
  obtain ⟨N₂, hclock⟩ := Filter.tendsto_atTop_atTop.mp hlively.clock d
  -- from `N` on the deadline has come and only later entries are inserted
  set N := max n (max N₁ N₂) with hN
  rcases queued_until_taken h0 hrun hn (by omega : n ≤ N) with htaken | hmem
  · exact htaken
  · have htaken : ∃ k, N ≤ k ∧ id ∈ (e.state (k + 1)).service.batch := by
      refine Execution.eventually_of_rank (fun k => N ≤ k ∧ (d, id) ∈ (e.state k).queue)
        (fun k => (e.state k).rank d) (fun k => (e.state k).ready d) hlively.fair
        (fun k hk => ?_) (fun k hk => ?_) ⟨le_rfl, hmem⟩
      · cases hready : (e.state k).ready d with
        | true =>
          refine workerEnabled_of_ready hready (hclock k (by omega)) fun hr => ?_
          have hterm := (sound_at h0 k).returned hr
          rw [hrun k] at hterm
          cases hterm
        | false => exact .inl (owed_of_not_ready (sound_at h0 k) hk.2 hready)
      · rcases rank_step (sound_at h0 k) (hrun k) hk.2 (hclock k (by omega)) (hlively.live k)
          (hlively.delivers k) (hlate k (by omega)) (e.next k) with hbatch | ⟨hmem', hrank⟩
        · exact .inl hbatch
        · exact .inr ⟨⟨by omega, hmem'⟩, hrank⟩
    obtain ⟨k, hk, hbatch⟩ := htaken
    exact ⟨k + 1, by omega, .inl hbatch⟩

end

/-- **The order in which timers fire, and that they fire** in lively runs. -/
theorem timers_fire_in_order {e : Execution Machine.step} (h0 : e.state 0 = Machine.initial) :
    (∀ n, e.act n = .inner → (e.state (n + 1)).place = .batch →
      ∃ d, IsLeast {x | ∃ id, (x, id) ∈ (e.state n).queue} d ∧ d ≤ (e.state n).clock ∧
        (e.state (n + 1)).service.batch = ((e.state n).queue.filter (·.1 = d)).map Prod.snd) ∧
    (∀ n id, Fires (e.state n).service (e.act n) id →
      ∃ k < n, ∃ d, e.act k = .inner ∧ d ≤ (e.state k).clock ∧ (d, id) ∈ (e.state k).queue ∧
        id ∈ (e.state (k + 1)).service.batch ∧ ∀ j, k < j → j ≤ n → (e.state j).place = .batch) ∧
    (Lively e → ∀ n d id, (d, id) ∈ (e.state n).queue →
      (∀ k tb, e.act k = .handle tb → ¬ Marks (e.state k).service (.handle tb) id) →
      (∃ N, ∀ k, N ≤ k → ∀ x ∈ inserted (e.state k).service (e.act k), d ≤ x.1) →
      ∃ k, n ≤ k ∧ Fires (e.state k).service (e.act k) id) := by
  refine ⟨fun n hact hp => ?_, fun n id hfires => ?_, fun hlively n d id hmem hstop hlate => ?_⟩
  · obtain ⟨d, hleast, hd, hbatch, -⟩ := batch_taken (sound_at h0 n) (hact ▸ e.next n) hp
    exact ⟨d, hleast, hd, hbatch⟩
  · obtain ⟨returns, hact, hcur⟩ := hfires
    have hp : (e.state n).place = .batch :=
      place_of_pass (hact ▸ e.next n : (e.state n).step (.pass returns) = some (e.state (n + 1)))
    obtain ⟨k, hk, d, hin, hd, hbusy, hids⟩ := decision_of_batch h0 hp
    have hholds : (e.state n).service.Holds id := .inr (by rw [State.handling, hcur]; rfl)
    exact ⟨k, hk, d, hin, hd, (hids id hholds).1, (hids id hholds).2, hbusy⟩
  · have hkept := kept_at h0 hlively hstop
    obtain ⟨k, hk, hawaits⟩ := awaits_of_queued h0 hlively (fun n => (hkept n).running) hlate hmem
    obtain ⟨j, hj, hfires⟩ := fires_of_awaits h0 hlively hkept hawaits
    exact ⟨j, hk.trans hj, hfires⟩

/-! ### A run without end

Alarm 0 has the deadline 10. When the clock has passed it, an alarm with the deadline 5 is set and
fires, again and again.
-/

def someAlarm : Task := newTask .alarm someKey 0

def alarmTick (id : ℕ) : Tick := ⟨id, .alarm, 1#32, [], 0, [.localService 7#32]⟩

variable {e : Execution Machine.step} (k n : ℕ)

def calm (m : Machine) : Move → Bool
  | .deinit => false
  | .pass returns =>
    returns && m.service.current.all fun c => (m.service.tasks[c.1]?).all (·.route ≠ [])
  | .handle _ =>
    match m.service.handler with
    | .scan _ _ :: _ => false
    | _ => true
  | _ => true

section

variable {m : Machine} {mv : Move}

lemma calm_live (h : calm m mv = true) : mv ≠ .deinit := by
  rintro rfl
  cases h

lemma calm_delivers (h : calm m mv = true) : ¬ Throws m.service mv := by
  rintro ⟨returns, x, t, rfl, hc, ht, hfail⟩
  simp only [calm, hc, ht, Option.all_some, Bool.and_eq_true, decide_eq_true_eq] at h
  rcases hfail with hroute | hret
  · exact h.2 hroute
  · rw [hret] at h
    cases h.1

lemma calm_stops {tb : ℤ} (h : calm m (.handle tb) = true) (id : ℕ) :
    ¬ Marks m.service (.handle tb) id := by
  rintro ⟨tb', ty, k, rest, t, -, hh, -⟩
  simp only [calm, hh] at h
  cases h

end

lemma tendsto_clock {L : ℕ} (hL : 0 < L) (h : ∀ n, ((n / L : ℕ) : ℤ) ≤ (e.state n).clock) :
    Filter.Tendsto (fun n => (e.state n).clock) Filter.atTop Filter.atTop := by
  refine Filter.tendsto_atTop_atTop.mpr fun b => ⟨L * b.toNat, fun n hn => ?_⟩
  calc b ≤ (b.toNat : ℤ) := Int.self_le_toNat b
    _ ≤ ((n / L : ℕ) : ℤ) := by
        exact_mod_cast (Nat.le_div_iff_mul_le hL).mpr (by rwa [Nat.mul_comm])
    _ ≤ (e.state n).clock := h n

def overdue : ℕ → List Move
  | 0 => [.begin (.setAlarm someKey 0), .handle 10, .signal, .outer] ++
      List.replicate 5 (.setClock 20)
  | k + 1 => [.setClock (20 + (k + 1 : ℕ)), .begin (.setAlarm someKey 0), .handle 5, .signal,
      .inner, .check, .pass true, .finish 0, .check]

/-- The marks after `k` later alarms have fired. -/
def overdueErased : ℕ → ℕ → Bool
  | 0 => Function.update (fun _ => false) 0 false
  | k + 1 => Function.update (overdueErased k) (k + 1) true

def afterOverdue : ℕ → Machine
  | 0 => .initial
  | k + 1 =>
    { service := { State.initial with
        tasks := List.replicate (k + 1) someAlarm
        erased := overdueErased k
        nexts := [(10, [0])]
        ticks := (List.range k).map fun i => alarmTick (i + 1) }
      place := .inner
      clock := 20 + (k : ℕ)
      woken := false
      owed := false
      queue := [(10, 0)]
      meter := ⟨0, 1, k, k, 0⟩ }

def overdueSet (k : ℕ) : Machine :=
  { service := { State.initial with
      tasks := List.replicate (k + 1) someAlarm ++ [someAlarm]
      erased := Function.update (overdueErased k) (k + 1) false
      nexts := [(5, [k + 1]), (10, [0])]
      ticks := (List.range k).map fun i => alarmTick (i + 1) }
    place := .inner
    clock := 20 + (k + 1 : ℕ)
    woken := false
    owed := false
    queue := [(10, 0), (5, k + 1)]
    meter := ⟨0, 1, k, k, 0⟩ }

lemma overdue_request : run Machine.step (afterOverdue (k + 1)) [.setClock (20 + (k + 1 : ℕ)),
      .begin (.setAlarm someKey 0), .handle 5, .signal] = some (overdueSet k) := by
  simp [run, afterOverdue, overdueSet, Machine.step, Machine.begin, Machine.handle, Machine.signal,
    begin, handle, State.initial, Event.sections, inserted, push, Place.blocked, someAlarm]

lemma overdue_fires :
    run Machine.step (overdueSet k) [.inner, .check, .pass true, .finish 0, .check] =
      some (afterOverdue (k + 2)) := by
  have hclock : ¬ (20 + ((k : ℤ) + 1) < 5) := by omega
  have hpop : poppedFrontRoute someAlarm.route = .ok [.localService 7#32] := rfl
  have hty : someAlarm.type = .alarm := rfl
  simp [run, overdueSet, afterOverdue, overdueErased, Machine.step, Machine.inner, Machine.check,
    Machine.pass, Machine.finish, take, check, pass, finish, State.initial, inserted, hclock, hpop,
    hty, range_succ, alarmTick, replicate_succ']
  decide

lemma overdue_run :
    run Machine.step (afterOverdue k) (overdue k) = some (afterOverdue (k + 1)) := by
  cases k with
  | zero => rfl
  | succ k => exact run_append_eq_some.mpr ⟨overdueSet k, overdue_request k, overdue_fires k⟩

/-- What holds at the steps of the `k`-th run. -/
def Starving (k : ℕ) (m : Machine) (mv : Move) : Prop :=
  calm m mv = true ∧ (k : ℤ) ≤ m.clock ∧ m.service.current ≠ some (0, .deliver) ∧
    ∀ x ∈ inserted m.service mv, 5 ≤ x.1

lemma overdue_request_starving :
    Meets Machine.step (Starving (k + 1)) (afterOverdue (k + 1)) [.setClock (20 + (k + 1 : ℕ)),
      .begin (.setAlarm someKey 0), .handle 5, .signal] := by
  simp [Meets, Starving, calm, afterOverdue, Machine.step, Machine.begin, Machine.handle,
    Machine.signal, begin, handle, State.initial, Event.sections, inserted, push, Place.blocked]
  omega

lemma overdue_fires_starving : Meets Machine.step (Starving (k + 1)) (overdueSet k)
      [.inner, .check, .pass true, .finish 0, .check] := by
  have hclock : ¬ (20 + ((k : ℤ) + 1) < 5) := by omega
  have hpop : poppedFrontRoute [.localService 7#32, .localService 8#32] =
      .ok [.localService 7#32] := rfl
  simp [Meets, Starving, calm, overdueSet, Machine.step, Machine.inner, Machine.check, Machine.pass,
    Machine.finish, take, check, pass, finish, State.initial, inserted, hclock, hpop, newTask,
    someKey, someAlarm]
  omega

lemma overdue_starving : Meets Machine.step (Starving k) (afterOverdue k) (overdue k) := by
  cases k with
  | zero =>
    repeat' apply And.intro
    all_goals trivial
  | succ k =>
    exact (overdue_request_starving k).append (overdue_request k) (overdue_fires_starving k)

lemma overdue_length : (overdue k).length = 9 := by
  cases k with
  | zero | succ k => rfl

def overdueExecution : Execution Machine.step := .ofCycles overdue_length (by decide) overdue_run

lemma starving_overdue : Starving (n / 9) (overdueExecution.state n) (overdueExecution.act n) :=
  Execution.ofCycles_forall overdue_starving n

lemma lively_overdue : Lively overdueExecution where
  live n := calm_live (starving_overdue n).1
  delivers n := calm_delivers (starving_overdue n).1
  clock := tendsto_clock (by decide) fun n => (starving_overdue n).2.1
  fair worker := by
    cases worker with
    | true =>
      refine Execution.fair_of_frequently _ (fun n => ⟨4 + 9 * (n + 1), by omega, ?_⟩) _
      rw [overdueExecution, Execution.ofCycles_act (by decide)]
      rfl
    | false =>
      refine Execution.fair_of_frequently _ (fun n => ⟨3 + 9 * (n + 1), by omega, ?_⟩) _
      rw [overdueExecution, Execution.ofCycles_act (by decide)]
      rfl

/-- The alarm of the first request behind alarm 0 fires. -/
theorem timers_fire_in_order_overdue :
    overdueExecution.state 0 = Machine.initial ∧ Lively overdueExecution ∧
      ∃ k, 12 ≤ k ∧ Fires (overdueExecution.state k).service (overdueExecution.act k) 1 := by
  refine ⟨rfl, lively_overdue, ?_⟩
  refine (timers_fire_in_order (e := overdueExecution) rfl).2.2 lively_overdue 12 5 1 ?_ ?_ ?_
  · exact mem_cons_of_mem (10, 0) (mem_singleton_self (5, 1))
  · intro k tb hact
    exact calm_stops (hact ▸ (starving_overdue k).1) 1
  · exact ⟨0, fun k _ => (starving_overdue k).2.2.2⟩

/-- **Alarms with an earlier deadline keep one from firing.** -/
theorem overdue_requests_starve : ∃ e : Execution Machine.step, e.state 0 = Machine.initial ∧
    Lively e ∧ (10, 0) ∈ (e.state 9).queue ∧
    (∀ k tb, e.act k = .handle tb → ¬ Marks (e.state k).service (.handle tb) 0) ∧
    ∀ k, ¬ Fires (e.state k).service (e.act k) 0 := by
  refine ⟨overdueExecution, rfl, lively_overdue, ?_, fun k tb hact => ?_, ?_⟩
  · exact mem_singleton_self (10, 0)
  · exact calm_stops (hact ▸ (starving_overdue k).1) 0
  · rintro k ⟨returns, -, hcur⟩
    exact (starving_overdue k).2.2.1 hcur

end Megatron.Timer
