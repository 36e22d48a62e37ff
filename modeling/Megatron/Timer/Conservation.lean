import Megatron.Timer.Cancellation

/-!
What becomes of a task that is not stopped: it is neither lost nor duplicated (`tasks_conserved`).
-/

namespace Megatron.Timer

open Library List State

variable {st st' : State} {a : Action} {id : ℕ}

def State.pending (st : State) (id : ℕ) : ℕ :=
  st.table.count id + st.batch.count id + st.current.toList.count (id, .deliver)

/-- The step marks the task as erased. -/
def Marks (st : State) (a : Action) (id : ℕ) : Prop :=
  ∃ tb ty k rest t, a = .handle tb ∧ st.handler = .scan ty k :: rest ∧ id ∈ st.table ∧
    st.tasks[id]? = some t ∧ t.isFor ty k = true

def State.Holds (st : State) (id : ℕ) : Prop := id ∈ st.batch ∨ st.handling = some id

/-- An exception makes the worker drop the task. -/
def Drops (st : State) (a : Action) (id : ℕ) : Prop :=
  ∃ returns x t, a = .pass returns ∧ st.current = some (x, .deliver) ∧ st.tasks[x]? = some t ∧
    (t.route = [] ∨ returns = false) ∧ st.Holds id

structure Kept (id : ℕ) (st : State) : Prop where
  placed : Placed st
  running : st.terminating = false
  unborn : st.tasks[id]? = none → st.ticksOf id = 0
  ticked : st.current = some (id, .finish) → 0 < st.ticksOf id
  timer : ∀ t, st.tasks[id]? = some t → t.type = .timer →
    st.erased id = false ∧ st.places id = 1
  alarm : ∀ t, st.tasks[id]? = some t → t.type = .alarm →
    (st.ticksOf id = 0 → st.erased id = false) ∧ st.pending id + st.ticksOf id = 1

lemma kept_initial (id : ℕ) : Kept id initial where
  placed := placed_initial
  running := rfl
  unborn _ := rfl
  ticked := nofun
  timer := nofun
  alarm := nofun

namespace Kept

section

variable (h : Kept id st)
include h

lemma of_same (hplaced : Placed st') (hterm : st'.terminating = st.terminating)
    (htasks : st'.tasks[id]? = st.tasks[id]?) (herased : st'.erased id = st.erased id)
    (hplaces : st'.places id = st.places id) (hpending : st'.pending id = st.pending id)
    (hticks : st'.ticksOf id = st.ticksOf id)
    (hcurrent : st'.current = some (id, .finish) → st.current = some (id, .finish)) :
    Kept id st' where
  placed := hplaced
  running := hterm.trans h.running
  unborn hnone := hticks.trans (h.unborn (htasks.symm.trans hnone))
  ticked hc := hticks ▸ h.ticked (hcurrent hc)
  timer t ht hty := by
    rw [herased, hplaces]
    exact h.timer t (htasks.symm.trans ht) hty
  alarm t ht hty := by
    rw [herased, hpending, hticks]
    exact h.alarm t (htasks.symm.trans ht) hty

lemma handle {tb : ℤ} (hstop : ¬ Marks st (.handle tb) id) (hs : handle st tb = some st') :
    Kept id st' := by
  have hplaced := h.placed.handle hs
  rcases handle_eq_some hs with ⟨ty, k, rest, hh, rfl⟩ | ⟨t, rest, -, rfl⟩
  · refine h.of_same hplaced rfl rfl ?_ rfl rfl rfl (fun hc => hc)
    -- the scan does not find the task
    have hnot : (decide (id ∈ st.table) && (st.tasks[id]?).any (·.isFor ty k)) = false := by
      by_contra hfound
      simp only [Bool.not_eq_false, Bool.and_eq_true, decide_eq_true_eq,
        Option.any_eq_true] at hfound
      obtain ⟨hmem, t, ht, hfor⟩ := hfound
      exact hstop ⟨tb, ty, k, rest, t, rfl, hh, hmem, ht, hfor⟩
    simp only [hnot, Bool.or_false]
  · by_cases hnew : id = st.tasks.length
    · -- the new task is in the table, and was nowhere before
      subst hnew
      have hnone : st.tasks[st.tasks.length]? = none := List.getElem?_eq_none le_rfl
      have hticks : st.ticksOf st.tasks.length = 0 := h.unborn hnone
      have hp := h.placed st.tasks.length
      simp only [lt_irrefl, if_false, Nat.le_zero, places, State.table, Nat.add_eq_zero_iff] at hp
      obtain ⟨⟨htable, hbatch⟩, hhandling⟩ := hp
      have hcurrent (ph : Phase) : st.current.toList.count (st.tasks.length, ph) = 0 := by
        rw [count_eq_zero, Option.mem_toList]
        intro hc
        rw [handling, Option.mem_def.mp hc] at hhandling
        simp at hhandling
      have hplaces : places { st with
            handler := rest
            tasks := st.tasks ++ [t]
            erased := Function.update st.erased st.tasks.length false
            nexts := push tb st.tasks.length st.nexts } st.tasks.length = 1 := by
        simp only [places, State.table, handling, count_push, htable, hbatch, count_singleton_self]
        rw [handling] at hhandling
        omega
      refine ⟨hplaced, h.running, fun _ => hticks, fun hc => ?_, fun _ _ _ => ⟨?_, hplaces⟩,
        fun _ _ _ => ⟨fun _ => ?_, ?_⟩⟩
      · have hzero := hcurrent .finish
        simp only at hc
        rw [hc] at hzero
        simp at hzero
      · exact Function.update_self ..
      · exact Function.update_self ..
      · simp only [ticksOf] at hticks
        simp only [pending, State.table, ticksOf, count_push, htable, hbatch, hcurrent,
          hticks, count_singleton_self]
    · have hcount : [st.tasks.length].count id = 0 := by
        rw [count_singleton, if_neg (by simpa using Ne.symm hnew)]
      refine h.of_same hplaced rfl ?_ (Function.update_of_ne hnew _ _) ?_ ?_ rfl (fun hc => hc)
      · simp only [List.getElem?_append, List.getElem?_singleton]
        split_ifs with hlt hsub
        · rfl
        · omega
        · exact (List.getElem?_eq_none (by omega)).symm
      · simp only [places, State.table, handling, count_push, hcount, add_zero]
      · simp only [pending, State.table, count_push, hcount, add_zero]

lemma take {now : ℤ} (hs : take st now = some st') : Kept id st' := by
  have hplaced := h.placed.take hs
  obtain ⟨-, hb, hc, d, ids, rest, hn, -, rfl⟩ := take_eq_some hs
  refine h.of_same hplaced rfl rfl rfl ?_ ?_ rfl (fun hc => hc)
  · simp only [places, table, handling, hn, hb, flatMap_cons, count_append, count_nil]
    omega
  · simp only [pending, table, hn, hb, flatMap_cons, count_append, count_nil]
    omega

lemma erased_eq_false (hmem : id ∈ st.batch) : st.erased id = false := by
  have hcount : 0 < st.batch.count id := count_pos_iff.mpr hmem
  have hplaces := h.placed id
  have hlt : id < st.tasks.length := by
    by_contra hge
    rw [if_neg hge, places] at hplaces
    omega
  have ht : st.tasks[id]? = some st.tasks[id] := List.getElem?_eq_getElem hlt
  cases hty : st.tasks[id].type with
  | timer => exact (h.timer _ ht hty).1
  | alarm =>
    obtain ⟨herased, hsum⟩ := h.alarm _ ht hty
    rw [pending] at hsum
    exact herased (by omega)

lemma check (hs : check st = some st') : Kept id st' := by
  have hplaced := h.placed.check hs
  obtain ⟨hc, x, rest, hb, ⟨hterm, -⟩ | ⟨-, her, rfl⟩ | ⟨-, -, rfl⟩⟩ := check_eq_some hs
  · rw [h.running] at hterm
    cases hterm
  · -- the worker passes over an erased task, which is another one
    have hne : x ≠ id := by
      rintro rfl
      rw [h.erased_eq_false (hb ▸ mem_cons_self)] at her
      cases her
    refine h.of_same hplaced rfl rfl rfl ?_ ?_ rfl (fun hc => hc)
    · simp only [places, table, handling, hb, count_cons_of_ne hne]
    · simp only [pending, table, hb, count_cons_of_ne hne]
  · refine h.of_same hplaced rfl rfl rfl ?_ ?_ rfl fun hcur => by cases hcur
    · simp only [places, table, handling, hb, hc, count_cons,
        Option.map_some, Option.map_none, Option.toList_some, Option.toList_none, count_nil]
      omega
    · simp only [pending, table, hb, hc, count_cons, Option.toList_some,
        Option.toList_none, count_nil, beq_iff_eq, Prod.mk.injEq, and_true]
      omega

lemma of_throw (hplaced : Placed st') (hb : st'.batch = []) (hc : st'.current = none)
    (hterm : st'.terminating = st.terminating) (htasks : st'.tasks = st.tasks)
    (herased : st'.erased = st.erased) (hnexts : st'.nexts = st.nexts)
    (hticks : st'.ticksOf id = st.ticksOf id) (hnot : ¬ st.Holds id) : Kept id st' := by
  have hbatch : st.batch.count id = 0 := count_eq_zero.mpr fun hm => hnot (.inl hm)
  have hcurrent (ph : Phase) : st.current ≠ some (id, ph) := fun hcur =>
    hnot (.inr (by rw [handling, hcur]; rfl))
  have hhandling : st.handling.toList.count id = 0 :=
    count_eq_zero.mpr fun hm => hnot (.inr (Option.mem_toList.mp hm))
  have hdeliver : st.current.toList.count (id, Phase.deliver) = 0 :=
    count_eq_zero.mpr fun hm => hcurrent .deliver (Option.mem_toList.mp hm)
  refine h.of_same hplaced hterm (by rw [htasks]) (by rw [herased]) ?_ ?_ hticks ?_
  · rw [places, places, table, table, handling, hnexts, hb, hc, hbatch, hhandling]
    rfl
  · rw [pending, pending, table, table, hnexts, hb, hc, hbatch, hdeliver]
    rfl
  · rw [hc]
    rintro ⟨⟩

lemma pass {returns : Bool} (hkeep : ¬ Drops st (.pass returns) id)
    (hs : pass st returns = some st') : Kept id st' := by
  have hplaced := h.placed.pass hs
  obtain ⟨x, t, hc, ht, hcases⟩ := pass_eq_some hs
  have hholds : st.handling = some x := by rw [handling, hc]; rfl
  have hnot (hfail : t.route = [] ∨ returns = false) : ¬ st.Holds id := fun hid =>
    hkeep ⟨returns, x, t, rfl, hc, ht, hfail, hid⟩
  rcases hcases with ⟨hroute, rfl⟩ | ⟨tick, htick, ⟨-, rfl⟩ | ⟨hret, rfl⟩⟩
  · exact h.of_throw hplaced rfl rfl rfl rfl rfl rfl rfl (hnot (.inl hroute))
  · by_cases hx : x = id
    · -- the tick of the task itself
      subst hx
      have hticks : ticksOf { st with
          ticks := st.ticks ++ [tick], current := some (x, .finish) } x = st.ticksOf x + 1 := by
        simp [ticksOf, htick]
      refine ⟨hplaced, h.running, fun hnone => ?_, fun _ => ?_, fun t' ht' hty => ?_,
        fun t' ht' hty => ⟨fun hzero => ?_, ?_⟩⟩
      · rw [show st.tasks[x]? = none from hnone] at ht
        cases ht
      · omega
      · refine ⟨(h.timer t' ht' hty).1, ?_⟩
        rw [← (h.timer t' ht' hty).2]
        simp only [places, table, handling, hc, Option.map_some]
      · omega
      · have hsum := (h.alarm t' ht' hty).2
        rw [hticks]
        simp only [pending, table, hc, Option.toList_some, count_singleton,
          beq_iff_eq, Prod.mk.injEq, reduceCtorEq, and_false, if_true, if_false] at hsum ⊢
        omega
    · refine h.of_same hplaced rfl rfl rfl ?_ ?_ ?_ ?_
      · simp only [places, table, handling, hc, Option.map_some]
      · simp [pending, table, hc, hx]
      · simp [ticksOf, htick, hx]
      · intro hcur
        exact absurd (Prod.mk.inj (Option.some.inj hcur)).1 hx
  · have hfree := hnot (.inr hret)
    have hx : x ≠ id := by
      rintro rfl
      exact hfree (.inr hholds)
    refine h.of_throw hplaced rfl rfl rfl rfl rfl rfl ?_ hfree
    simp [ticksOf, htick, hx]

lemma finish {tb : ℤ} (hs : finish st tb = some st') : Kept id st' := by
  have hplaced := h.placed.finish hs
  obtain ⟨x, t, hc, ht, ⟨hty, rfl⟩ | ⟨hty, rfl⟩⟩ := finish_eq_some hs
  · by_cases hx : x = id
    · -- a periodic task goes from the hands of the worker into the table
      subst hx
      refine ⟨hplaced, h.running, h.unborn, (fun hcur => by cases hcur), fun t' ht' hty' => ?_,
        fun t' ht' hty' => ?_⟩
      · refine ⟨(h.timer t' ht' hty').1, ?_⟩
        rw [← (h.timer t' ht' hty').2]
        simp [places, State.table, handling, hc, count_push]
        omega
      · cases ht.symm.trans ht'
        rw [hty] at hty'
        cases hty'
    · refine h.of_same hplaced rfl rfl rfl ?_ ?_ rfl fun hcur => by cases hcur
      · simp [places, State.table, handling, hc, hx, count_push]
      · simp [pending, State.table, hc, hx, count_push]
  · by_cases hx : x = id
    · subst hx
      have hpos : 0 < st.ticksOf x := h.ticked hc
      refine ⟨hplaced, h.running, h.unborn, (fun hcur => by cases hcur), fun t' ht' hty' => ?_,
        fun t' ht' hty' => ⟨fun hzero => ?_, ?_⟩⟩
      · cases ht.symm.trans ht'
        rw [hty] at hty'
        cases hty'
      · exact absurd hzero hpos.ne'
      · rw [← (h.alarm t' ht' hty').2]
        simp [pending, State.table, ticksOf, hc]
    · refine h.of_same hplaced rfl rfl (Function.update_of_ne (Ne.symm hx) _ _) ?_ ?_ rfl
        fun hcur => by cases hcur
      · simp [places, State.table, handling, hc, hx]
      · simp [pending, State.table, hc, hx]

theorem step (hok : a ≠ .deinit ∧ ¬ Marks st a id ∧ ¬ Drops st a id) (hs : step st a = some st') :
    Kept id st' := by
  obtain ⟨hlive, hstop, hkeep⟩ := hok
  cases a with
  | begin ev =>
    obtain ⟨-, ⟨-, rfl⟩ | ⟨-, rfl⟩⟩ := begin_eq_some hs
    · exact h
    · exact ⟨h.placed, h.running, h.unborn, h.ticked, h.timer, h.alarm⟩
  | handle tb => exact h.handle hstop hs
  | take now => exact h.take hs
  | check => exact h.check hs
  | pass returns => exact h.pass hkeep hs
  | finish tb => exact h.finish hs
  | deinit => exact absurd rfl hlive
  | clear =>
    simp only [Timer.step, h.running, Bool.false_eq_true, if_false] at hs
    cases hs

end

end Kept

/-- **Conservation.** No task is lost or duplicated. -/
theorem tasks_conserved {as : List Action} {t : Task}
    (hrun : run step State.initial as = some st) (hlive : ∀ b ∈ as, b ≠ .deinit)
    (hstop : Meets step (fun s b => ¬ Marks s b id) State.initial as)
    (hkeep : Meets step (fun s b => ¬ Drops s b id) State.initial as)
    (ht : st.tasks[id]? = some t) : (t.type = .timer → st.places id = 1) ∧
      (t.type = .alarm → st.pending id + st.ticksOf id = 1) := by
  have hlive' : Meets step (fun _ b => b ≠ .deinit) State.initial as :=
    Meets.of_forall fun b hb _ => hlive b hb
  have hkept : Kept id st :=
    run_invariant Kept.step (kept_initial id) (hlive'.and (hstop.and hkeep)) hrun
  exact ⟨fun hty => (hkept.timer t ht hty).2, fun hty => (hkept.alarm t ht hty).2⟩

def tickBoth : List Action :=
  [.begin (.setTimer someKey 0), .handle 10, .begin (.setAlarm someKey 0), .handle 10, .take 10,
    .check, .pass true, .finish 20, .check, .pass true]

theorem tasks_conserved_tickBoth : ∃ st, run step State.initial tickBoth = some st ∧
      st.places 0 = 1 ∧ st.pending 1 + st.ticksOf 1 = 1 := by
  have hstop (id : ℕ) : Meets step (fun s b => ¬ Marks s b id) State.initial tickBoth := by
    repeat' apply And.intro
    all_goals first
      | trivial
      | (rintro ⟨tb, ty, k, rest, t, ha, hh, -⟩; first | cases ha; done | cases hh)
  have hkeep (id : ℕ) : Meets step (fun s b => ¬ Drops s b id) State.initial tickBoth := by
    repeat' apply And.intro
    all_goals first
      | trivial
      | (rintro ⟨r, x, t, ha, -⟩; cases ha; done)
      | (rintro ⟨r, x, t, ha, hc, ht, hfail, -⟩; cases ha; cases hc; cases ht; revert hfail; decide)
  refine ⟨_, rfl, ?_, ?_⟩
  · exact (@tasks_conserved _ 0 tickBoth _ rfl (by decide) (hstop 0) (hkeep 0) rfl).1 rfl
  · exact (@tasks_conserved _ 1 tickBoth _ rfl (by decide) (hstop 1) (hkeep 1) rfl).2 rfl

/-- **An exception drops both tasks of the batch.** -/
theorem failed_delivery_drops_tasks : ∃ st, run step State.initial
        [.begin (.setTimer ⟨1#32, [], []⟩ 0), .handle 10, .begin (.setTimer someKey 0), .handle 10,
          .take 10, .check, .pass true] = some st ∧ st.tasks[1]? = some (newTask .timer someKey 0) ∧
      st.erased 0 = false ∧ st.erased 1 = false ∧ st.ticksOf 1 = 0 ∧
      st.places 0 = 0 ∧ st.places 1 = 0 := ⟨_, rfl, rfl, rfl, rfl, rfl, rfl, rfl⟩

end Megatron.Timer
