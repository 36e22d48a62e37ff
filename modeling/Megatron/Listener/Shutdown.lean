import Megatron.Listener.Scheduling
import Mathlib.Algebra.Order.Monoid.Prod
import Mathlib.Data.Prod.Lex
import Mathlib.Tactic.FinCases

/-!
The shutdown of a listener: nobody waits after the last broadcast (`Stopped.step`), and all workers
leave (`shutdown_terminates`).
-/

namespace Megatron.Listener

open Library List Function

variable {ι ε : Type*} {n : ℕ}

def Worker.remaining {α : Type*} : Worker α → ℕ ×ₗ ℕ
  | .exited => toLex (0, 0)
  | .top => toLex (1, 0)
  | .fetch => toLex (1, 0)
  | .batch rest => toLex (2, 2 * rest.length)
  | .handling rest => toLex (2, 2 * rest.length + 1)
  | .testing => toLex (3, 0)
  | .retesting => toLex (3, 0)
  | .taking => toLex (4, 0)
  | .locking => toLex (4, 0)
  | .woken => toLex (4, 0)
  | .sizing => toLex (5, 0)
  | .waiting => toLex (5, 0)

namespace State

variable {s s' : State ι ε n} {a : Action ι ε n} {w : Fin n} {pc : Worker (Item ι ε)}

/-! ### After the last broadcast -/

structure Stopped (s : State ι ε n) : Prop where
  deinit : s.deinit = .joining ∨ s.deinit = .done
  detached : s.attached = false
  terminating : s.terminating = true
  queueTerminating : s.queueTerminating = true
  awake : ∀ w, s.workers w ≠ .waiting
  nonempty : ∀ w, s.workers w = .sizing → s.container ≠ []

lemma Stopped.of_workers (h : s.Stopped) (hdeinit : s'.deinit = s.deinit)
    (hattached : s'.attached = s.attached) (hterm : s'.terminating = s.terminating)
    (hqueue : s'.queueTerminating = s.queueTerminating)
    (hworkers : ∀ v, s'.workers v ≠ .waiting ∧ (s'.workers v = .sizing → s'.container ≠ [])) :
    s'.Stopped where
  deinit := by rw [hdeinit]; exact h.deinit
  detached := hattached.trans h.detached
  terminating := hterm.trans h.terminating
  queueTerminating := hqueue.trans h.queueTerminating
  awake v := (hworkers v).1
  nonempty v := (hworkers v).2

lemma Goes.stopped (h : Goes s (s.workers w) pc) (hs : s.Stopped) :
    pc ≠ .waiting ∧ pc ≠ .sizing ∧ pc.remaining < (s.workers w).remaining := by
  generalize s.workers w = old at h
  cases h with
  | top hterm => exact absurd hs.terminating (by simp [hterm])
  | fetch hatt => exact absurd hs.detached (by simp [hatt])
  | testing hterm | retesting hterm => exact absurd hs.queueTerminating (by simp [hterm])
  | _ => exact ⟨nofun, nofun, by simp [Worker.remaining, Prod.Lex.toLex_lt_toLex]⟩

variable {old : Worker (Item ι ε)}

lemma Acquires.stopped (h : Acquires old pc) :
    pc ≠ .waiting ∧ pc ≠ .sizing ∧ pc.remaining < old.remaining := by
  cases h <;> exact ⟨nofun, nofun, by simp [Worker.remaining, Prod.Lex.toLex_lt_toLex]⟩

lemma Releases.stopped (h : Releases s (s.workers w) pc) (hs : s.Stopped) :
    pc ≠ .waiting ∧ pc ≠ .sizing ∧ pc.remaining < (s.workers w).remaining := by
  have hnonempty := hs.nonempty w
  generalize s.workers w = old at h hnonempty
  cases h with
  | sizing hempty => exact absurd hempty (hnonempty rfl)
  | _ => exact ⟨nofun, nofun, by simp [Worker.remaining, Prod.Lex.toLex_lt_toLex]⟩

lemma DeinitEffect.of_stopped (heff : DeinitEffect s s') (hs : s.Stopped) :
    s' = { s with deinit := .done } := by
  have hd := hs.deinit
  cases heff with
  | joined => rfl
  | _ => simp_all

/-- **Nobody waits after the last broadcast.** -/
lemma Stopped.step [DecidableEq ι] (h : s.Stopped) (hl : s.Locked) (hs : s.step a = some s') :
    s'.Stopped := by
  have hold (v : Fin n) : s.workers v ≠ .waiting ∧ (s.workers v = .sizing → s.container ≠ []) :=
    ⟨h.awake v, h.nonempty v⟩
  have hgoto {w : Fin n} {pc : Worker (Item ι ε)} (hwaiting : pc ≠ .waiting)
      (hsizing : pc ≠ .sizing) (v : Fin n) : update s.workers w pc v ≠ .waiting ∧
        (update s.workers w pc v = .sizing → s.container ≠ []) :=
    forall_goto (Q := fun pc => pc ≠ .waiting ∧ (pc = .sizing → s.container ≠ []))
      ⟨hwaiting, fun h => absurd h hsizing⟩ hold v
  rcases step_effect hs with heff | ⟨-, heff⟩
  · cases heff with
    | go hgo =>
      obtain ⟨hwaiting, hsizing, -⟩ := hgo.stopped h
      exact h.of_workers rfl rfl rfl rfl (hgoto hwaiting hsizing)
    | acquire howner hacq =>
      obtain ⟨hwaiting, hsizing, -⟩ := hacq.stopped
      exact h.of_workers rfl rfl rfl rfl (hgoto hwaiting hsizing)
    | release hrel =>
      obtain ⟨hwaiting, hsizing, -⟩ := hrel.stopped h
      exact h.of_workers rfl rfl rfl rfl (hgoto hwaiting hsizing)
    | @take w res hw hne =>
      have hbatch : (.batch s.container : Worker (Item ι ε)) ≠ .waiting := nofun
      refine h.of_workers rfl rfl rfl rfl fun v => ⟨(hgoto hbatch nofun v).1, fun hv => ?_⟩
      -- the other worker would hold the mutex as well
      have hvw : v ≠ w := by
        rintro rfl
        simp [goto] at hv
      simp only [goto, update_of_ne hvw] at hv
      have howner : s.owner = some v := (hl v).mpr (by rw [hv]; rfl)
      rw [(hl w).mpr (by rw [hw]; rfl)] at howner
      exact absurd (Option.some.inj howner).symm hvw
    | call hw => exact h.of_workers rfl rfl rfl rfl (hgoto nofun nofun)
    | spuriousWakeup hw => exact absurd hw (h.awake _)
    | push hi howner =>
      refine h.of_workers rfl rfl rfl rfl fun v => ⟨h.awake v, fun _ => ?_⟩
      simp [setProducer]
    | signal hi hsig =>
      refine h.of_workers rfl rfl rfl rfl fun v => ?_
      rcases wake_workers hsig.1 v with hv | ⟨hv, -⟩
      · simp only [setProducer, hv]
        exact hold v
      · exact absurd hv (h.awake v)
    | listenToEvent | deref => exact h.of_workers rfl rfl rfl rfl hold
    | refuse | other => exact h
  · rw [heff.of_stopped h]
    exact { h with deinit := .inr rfl }

lemma Stopped.remaining [DecidableEq ι] (h : s.Stopped) (hs : s.step a = some s') :
    s'.total Worker.remaining < s.total Worker.remaining ∨
      s'.workers = s.workers ∧ ∀ w res, a ≠ .worker w res := by
  rcases step_effect hs with heff | ⟨⟨wakes, rfl⟩, heff⟩
  · cases heff with
    | go hgo => exact .inl (total_goto rfl (hgo.stopped h).2.2)
    | acquire howner hacq => exact .inl (total_goto rfl hacq.stopped.2.2)
    | release hrel => exact .inl (total_goto rfl (hrel.stopped h).2.2)
    | take hw hne =>
      refine .inl (total_goto rfl ?_)
      rw [hw]
      simp [Worker.remaining, Prod.Lex.toLex_lt_toLex]
    | call hw =>
      refine .inl (total_goto rfl ?_)
      rw [hw]
      refine Prod.Lex.toLex_lt_toLex.mpr (.inr ⟨rfl, ?_⟩)
      simp only [length_cons]
      omega
    | spuriousWakeup hw => exact absurd hw (h.awake _)
    | signal hi hsig =>
      refine .inr ⟨funext fun v => ?_, nofun⟩
      rcases wake_workers hsig.1 v with hv | ⟨hv, -⟩
      · exact hv
      · exact absurd hv (h.awake v)
    | listenToEvent | refuse | deref | push | other => exact .inr ⟨rfl, nofun⟩
  · rw [heff.of_stopped h]
    exact .inr ⟨rfl, nofun⟩

lemma Effect.ne_exited [DecidableEq ι] {res : HandleResult} (heff : Effect s (.worker w res) s') :
    s.workers w ≠ .exited := by
  intro hw
  have hactive := heff.was_active
  rw [hw] at hactive
  cases hactive

lemma exited_step [DecidableEq ι] (h : s.Stopped) (hs : s.step a = some s')
    (hw : s.workers w = .exited) : s'.workers w = .exited := by
  have hgoto {v : Fin n} {res : HandleResult} {pc : Worker (Item ι ε)}
      (heff : Effect s (.worker v res) s') : update s.workers v pc w = .exited := by
    have hvw : v ≠ w := by
      rintro rfl
      exact heff.ne_exited hw
    rw [update_of_ne hvw.symm]
    exact hw
  rcases step_effect hs with heff | ⟨-, heff⟩
  · cases heff' : heff with
    | go | acquire | release | take | call => exact hgoto heff
    | spuriousWakeup hv => exact absurd hv (h.awake _)
    | signal hi hsig =>
      rcases wake_workers hsig.1 w with hv | ⟨hv, -⟩
      · exact hv.trans hw
      · exact absurd hv (h.awake w)
    | _ => exact hw
  · rw [heff.of_stopped h]
    exact hw

/-- No worker is about to wait at the second broadcast. -/
def Orderly (s : State ι ε n) : Action ι ε n → Prop
  | .deinit _ => s.deinit = .broadcastingAgain → ∀ w, s.workers w = .sizing → s.container ≠ []
  | _ => True

lemma broadcast_ne_waiting (s : State ι ε n) (w : Fin n) : s.broadcast.workers w ≠ .waiting := by
  simp only [broadcast, wake]
  split_ifs with hw
  · rintro ⟨⟩
  · exact mt mem_waiters.mpr hw

lemma stopped_of_step [DecidableEq ι] (hst : s.Staged) (hl : s.Locked) (hok : Orderly s a)
    (hprev : s.deinit = .joining → s.Stopped) (hs : s.step a = some s')
    (hd : s'.deinit = .joining) : s'.Stopped := by
  rcases step_effect hs with heff | ⟨⟨wakes, rfl⟩, heff⟩
  · have hdeinit : s'.deinit = s.deinit := by cases heff <;> rfl
    exact (hprev (hdeinit ▸ hd)).step hl hs
  · cases heff with
    | broadcastAgain hagain =>
      refine ⟨.inl rfl, ?_, ?_, ?_, s.broadcast_ne_waiting, ?_⟩
      · exact Bool.eq_false_iff.mpr fun hatt => by simp [hst.attached.mp hatt] at hagain
      · exact hst.flagged (by rw [hagain]; rfl)
      · exact hst.queueFlagged (by rw [hagain]; rfl)
      · intro w hw
        rcases wake_workers subset_rfl w with hv | ⟨-, hv⟩
        · exact hok hagain w (hv.symm.trans hw)
        · exact absurd (hv.symm.trans hw) nofun
    | signalNull hn hsig =>
      cases n with
      | zero | succ n => cases hd
    | _ => cases hd

/-! ### The `NULL` in the queue -/

def Poison (s : State ι ε n) : Prop :=
  none ∈ s.container ∨ ∃ w, none ∈ (s.workers w).rest ∨ s.workers w = .exited

lemma Goes.poison (h : Goes s old pc) (hnull : none ∈ old.rest) :
    none ∈ pc.rest ∨ pc = .exited := by
  cases h with
  | batchNull => exact .inr rfl
  | handled => exact .inl hnull
  | _ => cases hnull

lemma Acquires.poison (h : Acquires old pc) (hnull : none ∈ old.rest) :
    none ∈ pc.rest ∨ pc = .exited := by
  cases h <;> cases hnull

lemma Releases.poison (h : Releases s old pc)
    (hnull : none ∈ old.rest) : none ∈ pc.rest ∨ pc = .exited := by
  cases h <;> cases hnull

lemma Poison.goto (h : s.Poison) (hcontainer : none ∈ s.container → s'.Poison)
    (hworkers : s'.workers = update s.workers w pc)
    (hrest : none ∈ (s.workers w).rest → none ∈ pc.rest ∨ pc = .exited)
    (hexited : s.workers w ≠ .exited) : s'.Poison := by
  rcases h with hnull | ⟨v, hv⟩
  · exact hcontainer hnull
  · refine .inr ⟨v, ?_⟩
    rw [hworkers]
    by_cases hvw : v = w
    · rw [hvw] at hv ⊢
      rw [update_self]
      exact hrest (hv.resolve_right hexited)
    · rw [update_of_ne hvw]
      exact hv

lemma Poison.wake (h : s.Poison) {wakes : Finset (Fin n)} (hsub : wakes ⊆ s.waiters) :
    (s.wake wakes).Poison := by
  rcases h with hnull | ⟨v, hv⟩
  · exact .inl hnull
  · refine .inr ⟨v, ?_⟩
    rcases wake_workers hsub v with hsame | ⟨hwaiting, -⟩
    · rw [hsame]
      exact hv
    · rw [hwaiting] at hv
      exact absurd hv (not_or.mpr ⟨nofun, nofun⟩)

/-- **The `NULL` works until a worker has left.** -/
lemma Effect.poison [DecidableEq ι] (heff : Effect s a s') (h : s.Poison) : s'.Poison := by
  cases heff' : heff with
  | go hgo => exact h.goto .inl rfl hgo.poison heff.ne_exited
  | acquire howner hacq => exact h.goto .inl rfl hacq.poison heff.ne_exited
  | release hrel => exact h.goto .inl rfl hrel.poison heff.ne_exited
  | @take w res hw hnonempty =>
    refine h.goto (fun hnull => .inr ⟨w, .inl ?_⟩) rfl ?_ heff.ne_exited
    · simp only [State.goto, update_self]
      exact hnull
    · rw [hw]
      nofun
  | @call w x rest res hw =>
    refine h.goto .inl rfl ?_ heff.ne_exited
    rw [hw]
    exact fun hnull => .inl ((mem_cons.mp hnull).resolve_left nofun)
  | @spuriousWakeup w hw =>
    refine h.goto .inl rfl ?_ (by rw [hw]; nofun)
    rw [hw]
    nofun
  | push hi howner => exact h.imp_left (mem_append_left _)
  | signal hi hsig => exact h.wake hsig.1
  | _ => exact h

end State

def Deinit.poisoned : Deinit → Bool
  | .signalling | .flagging | .flaggingQueue | .broadcasting | .broadcastingAgain => true
  | _ => false

namespace State

variable {s s' : State ι ε n} {a : Action ι ε n}

lemma poison_step [DecidableEq ι] (h : s.deinit.poisoned = true → s.Poison)
    (hs : s.step a = some s') (hd : s'.deinit.poisoned = true) : s'.Poison := by
  rcases step_effect hs with heff | ⟨-, heff⟩
  · have hdeinit : s'.deinit = s.deinit := by cases heff <;> rfl
    exact heff.poison (h (hdeinit ▸ hd))
  · cases heff with
    | pushNull => exact .inl (mem_append_right _ (mem_singleton_self _))
    | signalNull hsignalling hsig => exact (h (by rw [hsignalling]; rfl)).wake hsig.1
    | flag hflagging | flagQueue hflagging => exact h (by rw [hflagging]; rfl)
    | broadcast hbroadcasting => exact (h (by rw [hbroadcasting]; rfl)).wake subset_rfl
    | _ => cases hd

lemma orderly_of_single (hn : n = 1) (h : s.deinit.poisoned = true → s.Poison) : Orderly s a := by
  subst hn
  cases a with
  | deinit wakes =>
    intro hd w hw
    rcases h (by rw [hd]; rfl) with hnull | ⟨v, hv⟩
    · exact ne_nil_of_mem hnull
    · obtain rfl : v = w := Subsingleton.elim v w
      rw [hw] at hv
      exact absurd hv (not_or.mpr ⟨nofun, nofun⟩)
  | _ => trivial

end State

/-! ### Fair runs -/

variable [DecidableEq ι] {e : Execution (@State.step ι ε n _)}

lemma all_exit (hfair : ∀ w, e.Fair (Agent.worker w : Agent ι n).Acts (Agent.worker w).Enabled)
    (hl : ∀ m, (e.state m).Locked) {k : ℕ} (hk : (e.state k).Stopped) :
    ∃ m, k ≤ m ∧ ∀ w, (e.state m).workers w = .exited := by
  by_cases hall : ∀ w, (e.state k).workers w = .exited
  · exact ⟨k, le_rfl, hall⟩
  have hgoal : ∃ m, k ≤ m ∧ ∀ w, (e.state (m + 1)).workers w = .exited := by
    refine eventually_of_total
      (fun m => (e.state m).Stopped ∧ ¬ ∀ w, (e.state m).workers w = .exited)
      Worker.remaining hfair hl ?_ ?_ ⟨hk, hall⟩
    · rintro m ⟨hm, hne⟩
      obtain ⟨w, hw⟩ := not_forall.mp hne
      exact ⟨w, State.active_of_ne hw (hm.awake w)⟩
    · rintro m ⟨hm, -⟩
      by_cases hnext : ∀ w, (e.state (m + 1)).workers w = .exited
      · exact .inl hnext
      · exact .inr ⟨⟨hm.step (hl m) (e.next m), hnext⟩, hm.remaining (e.next m)⟩
  obtain ⟨m, hm, hexited⟩ := hgoal
  exact ⟨m + 1, by omega, hexited⟩

/-- **The shutdown terminates** if no worker is on its way to wait at the last broadcast. -/
theorem shutdown_terminates (h0 : e.state 0 = State.init ι ε n)
    (hfair : ∀ w, e.Fair (Agent.worker w : Agent ι n).Acts (Agent.worker w).Enabled)
    (hok : n = 1 ∨ ∀ m, State.Orderly (e.state m) (e.act m)) {k : ℕ}
    (hk : (e.state k).deinit = .joining) :
    ∃ m, k ≤ m ∧ ∀ j, m ≤ j → ∀ w, (e.state j).workers w = .exited := by
  have hl (m : ℕ) : (e.state m).Locked :=
    Execution.invariant' (fun h hs => State.Locked.step h hs) (h0 ▸ State.locked_init) m
  have hst (m : ℕ) : (e.state m).Staged :=
    Execution.invariant' (fun h hs => State.Staged.step h hs) (h0 ▸ State.staged_init) m
  have hpoison (m : ℕ) : (e.state m).deinit.poisoned = true → (e.state m).Poison := by
    induction m with
    | zero =>
      rw [h0]
      nofun
    | succ m ih => exact State.poison_step ih (e.next m)
  have horderly (m : ℕ) : State.Orderly (e.state m) (e.act m) :=
    hok.elim (fun hn => State.orderly_of_single hn (hpoison m)) fun h => h m
  have hstopped (m : ℕ) : (e.state m).deinit = .joining → (e.state m).Stopped := by
    induction m with
    | zero =>
      rw [h0]
      nofun
    | succ m ih => exact State.stopped_of_step (hst m) (hl m) (horderly m) ih (e.next m)
  obtain ⟨m, hm, hexited⟩ := all_exit hfair hl (hstopped k hk)
  have hlater (j : ℕ) (hj : k ≤ j) : (e.state j).Stopped := by
    induction j, hj using Nat.le_induction with
    | base => exact hstopped k hk
    | succ j _ ih => exact ih.step (hl j) (e.next j)
  refine ⟨m, hm, fun j hj w => ?_⟩
  induction j, hj using Nat.le_induction with
  | base => exact hexited w
  | succ j hj ih => exact State.exited_step (hlater j (hm.trans hj)) (e.next j) ih

/-! ### Two workers -/

def stopSleepers : List (Action Unit ℕ 2) :=
  List.replicate 5 (Action.worker 0 .handled) ++ List.replicate 5 (Action.worker 1 .handled) ++
    List.replicate 8 (Action.deinit ∅) ++
    List.replicate 4 (Action.worker 0 .handled) ++ List.replicate 4 (Action.worker 1 .handled)

/-- The listener after `stopSleepers`. -/
def stopped : State Unit ℕ 2 :=
  (run State.step (State.init Unit ℕ 2) stopSleepers).getD (State.init Unit ℕ 2)

lemma run_stopSleepers : run State.step (State.init Unit ℕ 2) stopSleepers = some stopped := rfl

theorem shutdown_terminates_stopSleepers :
    ∃ e : Execution (@State.step Unit ℕ 2 _), e.state 0 = State.init Unit ℕ 2 ∧
      (∀ w, e.Fair (Agent.worker w : Agent Unit 2).Acts (Agent.worker w).Enabled) ∧
      (e.state 18).deinit = .joining ∧ (e.state 18).workers 0 = .woken ∧
      ∃ m, 18 ≤ m ∧ ∀ j, m ≤ j → ∀ w, (e.state j).workers w = .exited := by
  have hmeets : Meets State.step State.Orderly (State.init Unit ℕ 2) stopSleepers := by
    repeat' apply And.intro
    all_goals first | trivial | exact nofun
  let e := Execution.ofRun run_stopSleepers stopped.step_other
  have hfair (w : Fin 2) :
      e.Fair (Agent.worker w : Agent Unit 2).Acts (Agent.worker w).Enabled := by
    refine Execution.ofRun_fair _ ?_
    rintro ⟨a, hacts, s', hs⟩
    obtain ⟨res, rfl⟩ := Agent.acts_worker hacts
    fin_cases w <;> cases hs
  refine ⟨e, rfl, hfair, rfl, rfl, ?_⟩
  exact shutdown_terminates rfl hfair (.inr (Execution.ofRun_forall hmeets trivial)) rfl

def missBroadcast : List (Action Unit ℕ 2) :=
  List.replicate 2 (Action.worker 0 .handled) ++ List.replicate 2 (Action.worker 1 .handled) ++
    List.replicate 4 (Action.deinit ∅) ++
    List.replicate 6 (Action.worker 0 .handled) ++ List.replicate 2 (Action.worker 1 .handled) ++
    List.replicate 4 (Action.deinit ∅) ++ [Action.worker 1 .handled]

/-- The listener after `missBroadcast`. -/
def stalled : State Unit ℕ 2 :=
  (run State.step (State.init Unit ℕ 2) missBroadcast).getD (State.init Unit ℕ 2)

lemma run_missBroadcast : run State.step (State.init Unit ℕ 2) missBroadcast = some stalled := rfl

/-- **A worker sleeps for ever** after the last broadcast. -/
theorem worker_sleeps_for_ever : ∃ e : Execution (@State.step Unit ℕ 2 _),
    e.state 0 = State.init Unit ℕ 2 ∧ (∀ t : Agent Unit 2, e.Fair t.Acts t.Enabled) ∧
    (e.state 21).deinit = .joining ∧ ∀ m, 21 ≤ m → (e.state m).workers 1 = .waiting := by
  refine ⟨Execution.ofRun run_missBroadcast stalled.step_other, rfl, fun t => ?_, rfl,
    fun m hm => ?_⟩
  · refine Execution.ofRun_fair _ ?_
    rintro ⟨a, hacts, s', hs⟩
    cases t with
    | worker w =>
      obtain ⟨res, rfl⟩ := Agent.acts_worker hacts
      fin_cases w <;> cases hs
    | producer i =>
      cases a with
      | producer j wakes => cases hs
      | _ => exact hacts
  · have hlen : missBroadcast.length ≤ m := hm
    rw [Execution.ofRun_state hlen]
    rfl

end Megatron.Listener
