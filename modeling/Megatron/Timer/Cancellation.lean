import Megatron.Timer.Service

/-!
What is left of a task after `StopTimer`, `StopAlarm` or `ResetAlarm`: it is not put back, and ticks
at most once more (`cancelled_tasks_stay_cancelled`).
-/

namespace Megatron.Timer

open Library List Function Option State

variable {st st' : State} {a : Action} {id : ℕ} {ty : TaskType} {k : Key}

def State.places (st : State) (id : ℕ) : ℕ :=
  st.table.count id + st.batch.count id + st.handling.toList.count id

def Placed (st : State) : Prop := ∀ id, st.places id ≤ if id < st.tasks.length then 1 else 0

lemma placed_initial : Placed initial := fun _ => Nat.zero_le _

lemma Placed.of_le (h : Placed st) (htasks : st'.tasks = st.tasks)
    (hle : ∀ id, st'.places id ≤ st.places id) : Placed st' := fun id =>
  calc st'.places id ≤ st.places id := hle id
    _ ≤ _ := by rw [htasks]; exact h id

lemma inFlight_le_places (st : State) (id : ℕ) : st.inFlight id ≤ st.places id := by
  rw [inFlight, places, handling]
  split_ifs with hc her her
  · simp [hc]
  · simp [hc]
    omega
  · omega
  · omega

section

variable (h : Placed st)
include h

lemma Placed.inFlight_le_one (id : ℕ) : st.inFlight id ≤ 1 := by
  have hp := h id
  have hf := inFlight_le_places st id
  split_ifs at hp <;> omega

lemma Placed.handle {tb : ℤ} (hs : handle st tb = some st') : Placed st' := by
  rcases handle_eq_some hs with ⟨ty, k, rest, -, rfl⟩ | ⟨t, rest, -, rfl⟩
  · exact h
  · -- the new task was nowhere before
    intro id
    have hp := h id
    simp only [places, table, handling, count_push, length_append,
      length_singleton, count_singleton, beq_iff_eq] at hp ⊢
    split_ifs at hp ⊢ <;> omega

lemma Placed.take {now : ℤ} (hs : take st now = some st') : Placed st' := by
  obtain ⟨-, hb, -, d, ids, rest, hn, -, rfl⟩ := take_eq_some hs
  refine h.of_le rfl fun id => ?_
  simp only [places, table, handling, hb, hn, flatMap_cons, count_append, count_nil]
  omega

lemma Placed.check (hs : check st = some st') : Placed st' := by
  obtain ⟨hc, id, rest, hb, ⟨-, rfl⟩ | ⟨-, -, rfl⟩ | ⟨-, -, rfl⟩⟩ := check_eq_some hs <;>
    refine h.of_le rfl fun x => ?_ <;>
    simp only [places, table, handling, hb, hc, count_nil, count_cons,
      map_some, map_none, toList_some, toList_none] <;> omega

lemma Placed.pass {returns : Bool} (hs : pass st returns = some st') : Placed st' := by
  obtain ⟨id, t, hc, -, ⟨-, rfl⟩ | ⟨tick, -, ⟨-, rfl⟩ | ⟨-, rfl⟩⟩⟩ := pass_eq_some hs <;>
    refine h.of_le rfl fun x => ?_ <;>
    simp only [places, table, handling, hc, count_nil, map_some,
      map_none, toList_some, toList_none] <;> omega

lemma Placed.finish {tb : ℤ} (hs : finish st tb = some st') : Placed st' := by
  obtain ⟨id, t, hc, -, ⟨-, rfl⟩ | ⟨-, rfl⟩⟩ := finish_eq_some hs <;>
    refine h.of_le rfl fun x => ?_ <;>
    simp only [places, table, handling, hc, count_push, count_nil,
      map_some, map_none, toList_some, toList_none] <;> omega

theorem Placed.step (hs : step st a = some st') : Placed st' := by
  cases a with
  | begin ev =>
    obtain ⟨-, ⟨-, rfl⟩ | ⟨-, rfl⟩⟩ := begin_eq_some hs
    · exact h
    · exact h
  | handle tb => exact h.handle hs
  | take now => exact h.take hs
  | check => exact h.check hs
  | pass returns => exact h.pass hs
  | finish tb => exact h.finish hs
  | deinit =>
    cases hs
    exact h
  | clear =>
    simp only [Timer.step] at hs
    split_ifs at hs
    cases hs
    refine h.of_le rfl fun id => ?_
    simp only [places, table, handling, flatMap_nil, count_nil]
    omega

end

/-! ### Cancelled tasks -/

def State.Quiet (st : State) (id : ℕ) : Prop := st.terminating = true ∨ st.erased id = true

structure Cancelled (ty : TaskType) (id C R : ℕ) (st : State) : Prop where
  known : ∃ t, st.tasks[id]? = some t ∧ t.type = ty
  queued : id ∈ st.table → st.Quiet id
  taken : ty = .timer → id ∈ st.batch → st.Quiet id
  handled : ty = .timer → st.handling ≠ some id
  ticks : st.ticksOf id + st.inFlight id ≤ C
  reinserted : st.reinserted.count id = R

namespace Cancelled

variable {C R : ℕ}

section

variable (h : Cancelled ty id C R st)
include h

lemma of_keeps (htasks : ∀ t, st.tasks[id]? = some t → st'.tasks[id]? = some t)
    (hquiet : st.Quiet id → st'.Quiet id) (htable : id ∈ st'.table → id ∈ st.table)
    (hbatch : id ∈ st'.batch → id ∈ st.batch)
    (hhandling : st'.handling = some id → st.handling = some id)
    (hticks : st'.ticksOf id + st'.inFlight id ≤ st.ticksOf id + st.inFlight id)
    (hreinserted : st'.reinserted.count id = st.reinserted.count id) : Cancelled ty id C R st' where
  known := by
    obtain ⟨t, ht, hty⟩ := h.known
    exact ⟨t, htasks t ht, hty⟩
  queued hmem := hquiet (h.queued (htable hmem))
  taken hty hmem := hquiet (h.taken hty (hbatch hmem))
  handled hty hcur := h.handled hty (hhandling hcur)
  ticks := hticks.trans h.ticks
  reinserted := hreinserted.trans h.reinserted

lemma handle {tb : ℤ} (hs : handle st tb = some st') : Cancelled ty id C R st' := by
  rcases handle_eq_some hs with ⟨ty', k, rest, -, rfl⟩ | ⟨t, rest, -, rfl⟩
  · refine h.of_keeps (fun _ ht => ht) ?_ (fun hm => hm) (fun hm => hm) (fun hm => hm) ?_ rfl
    · rintro (hterm | her)
      · exact .inl hterm
      · exact .inr (Bool.or_eq_true_iff.mpr (.inl her))
    · -- a mark only takes ticks out of flight
      simp only [ticksOf, inFlight, Bool.or_eq_true]
      split_ifs <;> simp_all
  · obtain ⟨t₀, ht₀, -⟩ := h.known
    have hlt : id < st.tasks.length := (List.getElem?_eq_some_iff.mp ht₀).1
    have hne : id ≠ st.tasks.length := hlt.ne
    refine h.of_keeps (fun _ ht => ?_) ?_ (fun hm => ?_) (fun hm => hm) (fun hm => hm) ?_ rfl
    · rw [List.getElem?_append_left hlt, ht]
    · exact Or.imp_right fun her => (update_of_ne hne _ _).trans her
    · exact (mem_push.mp hm).resolve_left hne
    · simp only [ticksOf, inFlight, update_of_ne hne, le_refl]

lemma take {now : ℤ} (hs : take st now = some st') : Cancelled ty id C R st' := by
  obtain ⟨hterm, hb, hc, d, ids, rest, hn, -, rfl⟩ := take_eq_some hs
  have htable : st.table = ids ++ rest.flatMap Prod.snd := by
    rw [table, hn, flatMap_cons]
  -- the worker takes tasks only while the service runs, so the mark is set
  have herased : id ∈ ids → st.erased id = true := fun hm =>
    (h.queued (htable ▸ mem_append_left _ hm)).resolve_left (by simp [hterm])
  refine ⟨h.known, fun hm => ?_, fun _ hm => .inr (herased hm), ?_, ?_, h.reinserted⟩
  · exact h.queued (htable ▸ mem_append_right _ hm)
  · exact h.handled
  · have hticks := h.ticks
    by_cases hm : id ∈ ids
    · simp only [ticksOf, inFlight, herased hm, if_true] at hticks ⊢
      exact hticks
    · simp only [ticksOf, inFlight, hb, hc, count_nil, count_eq_zero_of_not_mem hm] at hticks ⊢
      exact hticks

lemma check (hs : check st = some st') : Cancelled ty id C R st' := by
  obtain ⟨hc, x, rest, hb, hcases⟩ := check_eq_some hs
  have hrest : id ∈ rest → id ∈ st.batch := fun hm => hb ▸ mem_cons_of_mem x hm
  rcases hcases with ⟨-, rfl⟩ | ⟨-, -, rfl⟩ | ⟨hterm, her, rfl⟩
  · refine h.of_keeps (fun _ ht => ht) (fun hq => hq) (fun hm => hm) (fun hm => ?_)
      (fun hm => hm) ?_ rfl
    · exact absurd hm not_mem_nil
    · simp only [ticksOf, inFlight, count_nil]
      split_ifs <;> omega
  · refine h.of_keeps (fun _ ht => ht) (fun hq => hq) (fun hm => hm) hrest (fun hm => hm) ?_ rfl
    simp only [ticksOf, inFlight, hb, count_cons]
    split_ifs <;> omega
  · refine ⟨h.known, h.queued, fun hty hm => h.taken hty (hrest hm), fun hty hcur => ?_, ?_,
      h.reinserted⟩
    · -- a periodic task in the batch is quiet, but the worker has found it not erased
      cases hcur
      rcases h.taken hty (hb ▸ mem_cons_self) with hq | hq
      · rw [hterm] at hq; cases hq
      · rw [her] at hq; cases hq
    · have hticks := h.ticks
      by_cases hx : x = id
      · subst hx
        simp only [ticksOf, inFlight, hc, hb, her, count_cons_self,
          reduceCtorEq, Bool.false_eq_true, if_true, if_false] at hticks ⊢
        omega
      · simp only [ticksOf, inFlight, hc, hb, count_cons_of_ne hx, hx,
          Option.some.injEq, Prod.mk.injEq, false_and, reduceCtorEq, if_false] at hticks ⊢
        exact hticks

lemma pass {returns : Bool} (hs : pass st returns = some st') : Cancelled ty id C R st' := by
  obtain ⟨x, t, hc, -, hcases⟩ := pass_eq_some hs
  have hcur : st.handling = some x := by rw [handling, hc]; rfl
  have hnil : id ∈ ([] : List ℕ) → id ∈ st.batch := fun hm => absurd hm not_mem_nil
  rcases hcases with ⟨-, rfl⟩ | ⟨tick, rfl, ⟨-, rfl⟩ | ⟨-, rfl⟩⟩
  · refine h.of_keeps (fun _ ht => ht) (fun hq => hq) (fun hm => hm) hnil nofun ?_ rfl
    simp only [ticksOf, inFlight, count_nil, reduceCtorEq, if_false]
    split_ifs <;> omega
  · refine h.of_keeps (fun _ ht => ht) (fun hq => hq) (fun hm => hm) (fun hm => hm)
      (fun hm => hcur.trans hm) ?_ rfl
    simp only [ticksOf, inFlight, hc, map_append, map_singleton, count_append, count_singleton,
      beq_iff_eq, Option.some.injEq, Prod.mk.injEq, reduceCtorEq, and_true, and_false, if_false]
    omega
  · refine h.of_keeps (fun _ ht => ht) (fun hq => hq) (fun hm => hm) hnil nofun ?_ rfl
    simp only [ticksOf, inFlight, hc, map_append, map_singleton, count_append, count_singleton,
      count_nil, beq_iff_eq, Option.some.injEq, Prod.mk.injEq, reduceCtorEq, and_true, if_false]
    split_ifs <;> omega

lemma finish {tb : ℤ} (hs : finish st tb = some st') : Cancelled ty id C R st' := by
  obtain ⟨x, t, hc, ht, ⟨hty, rfl⟩ | ⟨-, rfl⟩⟩ := finish_eq_some hs
  · -- only a periodic task is put back, and a cancelled one is not being handled
    have hne : x ≠ id := by
      rintro rfl
      obtain ⟨t', ht', rfl⟩ := h.known
      cases ht.symm.trans ht'
      exact h.handled hty (by rw [handling, hc]; rfl)
    refine h.of_keeps (fun _ ht => ht) (fun hq => hq) (fun hm => ?_) (fun hm => hm) nofun ?_ ?_
    · exact (mem_push.mp hm).resolve_left hne.symm
    · simp only [ticksOf, inFlight, reduceCtorEq, if_false]
      omega
    · rw [count_append, count_singleton, if_neg (by simpa using hne), add_zero]
  · refine h.of_keeps (fun _ ht => ht) (Or.imp_right fun her => ?_) (fun hm => hm) (fun hm => hm)
      nofun ?_ rfl
    · simp only [update_apply, her, ite_self]
    · simp only [ticksOf, inFlight, update_apply, reduceCtorEq, if_false]
      split_ifs <;> simp_all

/-- **Every step keeps a cancelled task cancelled.** -/
theorem step (hs : step st a = some st') : Cancelled ty id C R st' := by
  cases a with
  | begin ev =>
    obtain ⟨-, ⟨-, rfl⟩ | ⟨-, rfl⟩⟩ := begin_eq_some hs
    · exact h
    · exact ⟨h.known, h.queued, h.taken, h.handled, h.ticks, h.reinserted⟩
  | handle tb => exact h.handle hs
  | take now => exact h.take hs
  | check => exact h.check hs
  | pass returns => exact h.pass hs
  | finish tb => exact h.finish hs
  | deinit =>
    cases hs
    exact ⟨h.known, fun _ => .inl rfl, fun _ _ => .inl rfl, h.handled, h.ticks, h.reinserted⟩
  | clear =>
    simp only [Timer.step] at hs
    split_ifs at hs
    cases hs
    exact ⟨h.known, nofun, h.taken, h.handled, h.ticks, h.reinserted⟩

end

end Cancelled

/-- The step cancels the tasks of a key. -/
inductive Cancels (st : State) (ty : TaskType) (k : Key) : Action → Prop
  | scan {rest : List Section} {tb : ℤ} :
      st.handler = .scan ty k :: rest → Cancels st ty k (.handle tb)
  | refused {ev : Event} {rest : List Section} :
      st.terminating = true → ev.sections = .scan ty k :: rest → Cancels st ty k (.begin ev)

/-- The worker holds no timer of the key. -/
def NotHeld (st : State) (k : Key) : Prop :=
  ∀ id t, st.tasks[id]? = some t → t.isFor .timer k = true →
    (id ∈ st.batch → st.erased id = true) ∧ st.handling ≠ some id

lemma cancelled_of_cancels (hs : step st a = some st') (hcancels : Cancels st ty k a)
    (hheld : ty = .timer → NotHeld st k) {t : Task} (ht : st'.tasks[id]? = some t)
    (hfor : t.isFor ty k = true) :
    Cancelled ty id (st'.ticksOf id + st'.inFlight id) (st'.reinserted.count id) st' := by
  cases hcancels with
  | scan hh =>
    rcases handle_eq_some hs with ⟨ty', k', rest, hh', rfl⟩ | ⟨t', rest, hh', rfl⟩
    · obtain ⟨⟨rfl, rfl⟩, -⟩ : (ty = ty' ∧ k = k') ∧ _ := by
        simpa only [List.cons.injEq, Section.scan.injEq] using hh.symm.trans hh'
      refine ⟨⟨t, ht, t.type_of_isFor hfor⟩, fun hm => .inr ?_, fun hty hm => .inr ?_,
        fun hty => ?_, le_rfl, rfl⟩
      · have hmem : id ∈ st.table := hm
        simp only at ht
        simp [hmem, ht, hfor]
      · have her := ((hheld hty) id t ht (hty ▸ hfor)).1 hm
        simp [her]
      · exact ((hheld hty) id t ht (hty ▸ hfor)).2
    · rw [hh] at hh'
      cases hh'
  | refused hterm _ =>
    obtain ⟨-, ⟨-, rfl⟩ | ⟨hrun, -⟩⟩ := begin_eq_some hs
    · exact ⟨⟨t, ht, t.type_of_isFor hfor⟩, fun _ => .inl hterm, fun _ _ => .inl hterm,
        fun hty => ((hheld hty) id t ht (hty ▸ hfor)).2, le_rfl, rfl⟩
    · rw [hterm] at hrun
      cases hrun

/-! ### No new task with the key -/

structure Unset (ty : TaskType) (k : Key) (ts : List Task) (st : State) : Prop where
  old : ∀ (id : ℕ) (t : Task), st.tasks[id]? = some t → t.isFor ty k = true → ts[id]? = some t
  idle : ∀ s ∈ st.handler, s.inserts ty k = false

lemma Unset.handle {ts : List Task} {tb : ℤ} (h : Unset ty k ts st)
    (hs : handle st tb = some st') : Unset ty k ts st' := by
  rcases handle_eq_some hs with ⟨ty', k', rest, hh, rfl⟩ | ⟨t', rest, hh, rfl⟩
  · exact ⟨h.old, fun s hm => h.idle s (hh ▸ mem_cons_of_mem _ hm)⟩
  · refine ⟨fun id t ht hfor => ?_, fun s hm => h.idle s (hh ▸ mem_cons_of_mem _ hm)⟩
    have hnew : t'.isFor ty k = false := h.idle (.insert t') (hh ▸ mem_cons_self)
    rcases lt_or_ge id st.tasks.length with hlt | hge
    · exact h.old id t (by rwa [List.getElem?_append_left hlt] at ht) hfor
    · simp only [List.getElem?_append_right hge] at ht
      obtain rfl : t' = t := by
        have hm := mem_of_getElem? ht
        exact (mem_singleton.mp hm).symm
      rw [hnew] at hfor
      cases hfor

lemma Unset.step {ts : List Task} (h : Unset ty k ts st) (hsets : a.sets ty k = false)
    (hs : step st a = some st') : Unset ty k ts st' := by
  cases a with
  | begin ev =>
    obtain ⟨-, ⟨-, rfl⟩ | ⟨-, rfl⟩⟩ := begin_eq_some hs
    · exact h
    · exact ⟨h.old, fun s hm => by simpa using any_eq_false.mp hsets s hm⟩
  | handle tb => exact h.handle hs
  | take now =>
    obtain ⟨-, -, -, d, ids, rest, -, -, rfl⟩ := take_eq_some hs
    exact ⟨h.old, h.idle⟩
  | check =>
    obtain ⟨-, id, rest, -, ⟨-, rfl⟩ | ⟨-, -, rfl⟩ | ⟨-, -, rfl⟩⟩ := check_eq_some hs <;>
      exact ⟨h.old, h.idle⟩
  | pass returns =>
    obtain ⟨id, t, -, -, ⟨-, rfl⟩ | ⟨tick, -, ⟨-, rfl⟩ | ⟨-, rfl⟩⟩⟩ := pass_eq_some hs <;>
      exact ⟨h.old, h.idle⟩
  | finish tb =>
    obtain ⟨id, t, -, -, ⟨-, rfl⟩ | ⟨-, rfl⟩⟩ := finish_eq_some hs <;>
      exact ⟨h.old, h.idle⟩
  | deinit =>
    cases hs
    exact ⟨h.old, h.idle⟩
  | clear =>
    simp only [Timer.step] at hs
    split_ifs at hs
    cases hs
    exact ⟨h.old, h.idle⟩

/-! ### Cancellation -/

/-- **Cancellation.** No task with the key is put back, and each ticks at most once more. -/
theorem cancelled_tasks_stay_cancelled {pre post : List Action} {st₁ st₂ st₃ : State}
    (hpre : run step State.initial pre = some st₁) (hs : step st₁ a = some st₂)
    (hcancels : Cancels st₁ ty k a) (hheld : ty = .timer → NotHeld st₁ k)
    (hpost : run step st₂ post = some st₃) :
    (∀ (id : ℕ) (t : Task), st₂.tasks[id]? = some t → t.isFor ty k = true →
      st₃.reinserted.count id = st₂.reinserted.count id ∧
        st₃.ticksOf id ≤ st₂.ticksOf id + st₂.inFlight id ∧ st₂.inFlight id ≤ 1) ∧
    (st₂.handler = [] → (∀ b ∈ post, b.sets ty k = false) →
      ∀ (id : ℕ) (t : Task), st₃.tasks[id]? = some t → t.isFor ty k = true →
        st₂.tasks[id]? = some t) := by
  have hplaced : Placed st₂ := (run_invariant' Placed.step placed_initial hpre).step hs
  refine ⟨fun id t ht hfor => ?_, fun hidle hsets => ?_⟩
  · have hinv :=
      run_invariant' Cancelled.step (cancelled_of_cancels hs hcancels hheld ht hfor) hpost
    have hticks : st₃.ticksOf id ≤ st₂.ticksOf id + st₂.inFlight id :=
      calc st₃.ticksOf id ≤ st₃.ticksOf id + st₃.inFlight id := Nat.le_add_right _ _
        _ ≤ st₂.ticksOf id + st₂.inFlight id := hinv.ticks
    exact ⟨hinv.reinserted, hticks, hplaced.inFlight_le_one id⟩
  · have hunset : Unset ty k st₂.tasks st₂ := ⟨fun _ _ ht _ => ht, by simp [hidle]⟩
    have hmeets : Meets step (fun _ b => b.sets ty k = false) st₂ post :=
      Meets.of_forall fun b hb _ => hsets b hb
    exact (run_invariant Unset.step hunset hmeets hpost).old

def someKey : Key := ⟨1#32, [], [.localService 7#32, .localService 8#32]⟩

def setAndStop : List Action :=
  [.begin (.setTimer someKey 0), .handle 10, .begin (.stopTimer someKey)]

theorem cancelled_tasks_stay_cancelled_beforeDeadline : ∃ st₁ st₂ st₃,
      run step State.initial setAndStop = some st₁ ∧ step st₁ (.handle 0) = some st₂ ∧
      run step st₂ [.take 10, .check] = some st₃ ∧ st₃.reinserted.count 0 = st₂.reinserted.count 0 ∧
      st₃.ticksOf 0 ≤ st₂.ticksOf 0 + st₂.inFlight 0 ∧ st₂.inFlight 0 ≤ 1 := by
  refine ⟨_, _, _, rfl, rfl, rfl, ?_⟩
  have h := @cancelled_tasks_stay_cancelled (.handle 0) .timer someKey setAndStop [.take 10, .check]
    _ _ _ rfl rfl (.scan rfl) (fun _ _ _ _ _ => ⟨nofun, nofun⟩) rfl
  exact h.1 0 (newTask .timer someKey 0) rfl (by decide)

/-- **The timer is put back after `StopTimer` has been handled.** -/
theorem stopped_timer_put_back : ∃ st₁ st₂ st₃, run step State.initial
        [.begin (.setTimer someKey 0), .handle 10, .take 10, .begin (.stopTimer someKey)] =
          some st₁ ∧ Cancels st₁ .timer someKey (.handle 0) ∧ step st₁ (.handle 0) = some st₂ ∧
      st₂.handler = [] ∧
      run step st₂ [.check, .pass true, .finish 20, .take 20, .check, .pass true] = some st₃ ∧
      st₂.tasks[0]? = some (newTask .timer someKey 0) ∧
      st₂.reinserted.count 0 = 0 ∧ st₃.reinserted.count 0 = 1 ∧
      st₂.ticksOf 0 = 0 ∧ st₂.inFlight 0 = 1 ∧ st₃.ticksOf 0 = 2 :=
  ⟨_, _, _, rfl, .scan rfl, rfl, rfl, rfl, rfl, rfl, rfl, rfl, rfl, rfl⟩

end Megatron.Timer
