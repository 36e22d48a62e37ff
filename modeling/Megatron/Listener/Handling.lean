import Megatron.Listener.Delivery
import Mathlib.Algebra.Order.Monoid.Prod
import Mathlib.Data.Prod.Lex

/-!
Every event that is given to `listenToEvent` before the shutdown is queued once (`entered_of_run`),
and every queued event is handled (`FairService.handled`).
-/

namespace Megatron.Listener

open Library List Function Worker State Execution

variable {ι ε : Type*} {n : ℕ}

def Worker.distance {α : Type*} : Worker α → ℕ ×ₗ ℕ
  | .taking => toLex (1, 0)
  | .retesting => toLex (2, 0)
  | .sizing => toLex (3, 0)
  | .testing => toLex (4, 0)
  | .locking => toLex (5, 0)
  | .fetch => toLex (6, 0)
  | .top => toLex (7, 0)
  | .batch rest => toLex (8, 2 * rest.length)
  | .handling rest => toLex (8, 2 * rest.length + 1)
  | .woken => toLex (3, 0)
  | .waiting => toLex (4, 0)
  | .exited => toLex (0, 0)

/-- The event of a call of `listenToEvent` that is not in the queue yet. -/
def Producer.unqueued : Producer ε → List ε
  | .checked event => [event]
  | .pushing event => [event]
  | _ => []

/-- The event for which producer `i` calls `listenToEvent`. -/
def Action.call? [DecidableEq ι] (i : ι) : Action ι ε n → Option ε
  | .listenToEvent j event => if j = i then some event else none
  | _ => none

def Worker.load {α : Type*} : Worker α → ℕ
  | .batch rest => 2 * rest.length
  | .handling rest => 2 * rest.length + 1
  | _ => 0

namespace State

variable {s s' : State ι ε n} {a : Action ι ε n} {w : Fin n} {pc : Worker (Item ι ε)}

lemma signal_enabled [DecidableEq ι] {i : ι} (h : s.producers i = .signalling) :
    (Agent.producer i : Agent ι n).Enabled s := by
  have hsig : s.Signals s.waiters := ⟨subset_rfl, id⟩
  refine ⟨.producer i s.waiters, rfl, ?_⟩
  simp only [step, producerStep, h, if_pos hsig]
  exact ⟨_, rfl⟩

lemma Goes.distance (h : Goes s (s.workers w) pc) (hs : s.Serving) (hne : s.container ≠ []) :
    pc.distance < (s.workers w).distance := by
  have hbatch := hs.batches w
  generalize s.workers w = old at h hbatch
  cases h with
  | topExit hterm => exact absurd hterm (by simp [hs.terminating])
  | fetchExit hatt => exact absurd hatt (by simp [hs.attached])
  | taking hempty => exact absurd hempty hne
  | batchNull => exact absurd (mem_cons_self ..) hbatch
  | _ => simp [distance, Prod.Lex.toLex_lt_toLex]

lemma Acquires.distance {old : Worker (Item ι ε)} (h : Acquires old pc) :
    pc.distance < old.distance := by
  cases h <;> simp [distance, Prod.Lex.toLex_lt_toLex]

lemma distance_woken : (woken : Worker (Item ι ε)).distance <
    (waiting : Worker (Item ι ε)).distance := by
  simp [distance, Prod.Lex.toLex_lt_toLex]

lemma Effect.distance [DecidableEq ι] (heff : Effect s a s') (hs : s.Serving)
    (hne : s.container ≠ []) : (∃ w, s'.workers w = .batch s.container) ∨ s'.total distance <
    s.total distance ∨ s'.workers = s.workers ∧ ∀ w res, a ≠ .worker w res := by
  cases heff with
  | go hgo => exact .inr (.inl (total_goto rfl (hgo.distance hs hne)))
  | acquire howner hacq => exact .inr (.inl (total_goto rfl hacq.distance))
  | release hrel => exact absurd (hrel.serving hs).2.2 hne
  | @take w res hw _ =>
    refine .inl ⟨w, ?_⟩
    simp only [goto, update_self]
  | call hw =>
    refine .inr (.inl (total_goto rfl ?_))
    rw [hw]
    refine Prod.Lex.toLex_lt_toLex.mpr (.inr ⟨rfl, ?_⟩)
    simp only [length_cons]
    omega
  | spuriousWakeup hw => exact .inr (.inl (total_goto rfl (hw ▸ distance_woken)))
  | signal hi hsig =>
    right
    refine (total_wake rfl hsig.1 distance_woken).imp_right fun h => ⟨h, ?_⟩
    rintro w res ⟨⟩
  | listenToEvent | refuse | deref | push | other =>
    refine .inr (.inr ⟨rfl, ?_⟩)
    rintro w res ⟨⟩

lemma Effect.mem_container [DecidableEq ι] (heff : Effect s a s') {x : Option (Item ι ε)}
    (hx : x ∈ s.container) : x ∈ s'.container ∨ ∃ w, x ∈ (s'.workers w).rest := by
  cases heff with
  | @take w res hw hne =>
    refine .inr ⟨w, ?_⟩
    simp only [goto, update_self]
    exact hx
  | push hi howner => exact .inl (mem_append_left _ hx)
  | _ => exact .inl hx

lemma active_of_mem_rest {x : Option (Item ι ε)} (h : x ∈ pc.rest) :
    pc.active = true ∧ pc.needsMutex = false := by
  cases pc <;> first | exact ⟨rfl, rfl⟩ | cases h

lemma Effect.active [DecidableEq ι] (heff : Effect s a s') (hs : s.Serving)
    (hne : s'.container ≠ []) (h : ∃ w, (s.workers w).active = true) :
    ∃ w, (s'.workers w).active = true := by
  cases a with
  | worker w res => exact ⟨w, heff.worker_active hs hne⟩
  | spuriousWakeup w =>
    cases heff
    refine ⟨w, ?_⟩
    simp only [goto, update_self]
    rfl
  | listenToEvent i event => cases heff <;> exact h
  | producer i wakes =>
    cases heff with
    | deref | push => exact h
    | signal hi hsig =>
      obtain ⟨w, hw⟩ := h
      refine ⟨w, ?_⟩
      rcases wake_workers hsig.1 w with hv | ⟨-, hv⟩
      · simp only [setProducer, hv, hw]
      · simp only [setProducer, hv]
        rfl
  | deinit wakes => cases heff
  | other =>
    cases heff
    exact h

lemma Effect.signalling [DecidableEq ι] (heff : Effect s a s') (hn : 0 < n) (hs : s.Serving)
    {i : ι} (hi : s.producers i = .signalling) (hsleep : ∀ w, (s.workers w).active = false) :
    (∃ w, (s'.workers w).active = true) ∨
      s'.producers i = .signalling ∧ ¬ (Agent.producer i : Agent ι n).Acts a := by
  cases a with
  | worker w res =>
    have hactive := heff.was_active
    rw [hsleep w] at hactive
    cases hactive
  | spuriousWakeup w =>
    cases heff
    refine .inl ⟨w, ?_⟩
    simp only [goto, update_self]
    rfl
  | listenToEvent j event =>
    cases heff with
    | listenToEvent hj =>
      exact .inr ⟨setProducer_signalling hi (by rw [hj]; rintro ⟨⟩), not_false⟩
    | refuse => exact .inr ⟨hi, not_false⟩
  | producer j wakes =>
    have hother (hj : s.producers j ≠ .signalling) :
        ¬ (Agent.producer i : Agent ι n).Acts (.producer j wakes : Action ι ε n) := by
      rintro rfl
      exact hj hi
    cases heff with
    | deref hj | push hj =>
      have hne : s.producers j ≠ .signalling := by rw [hj]; rintro ⟨⟩
      exact .inr ⟨setProducer_signalling hi hne, hother hne⟩
    | signal hj hsig => exact .inl (hsig.active hn hs)
  | deinit wakes => cases heff
  | other =>
    cases heff
    exact .inr ⟨hi, not_false⟩

lemma Effect.workers_of_rest [DecidableEq ι] (heff : Effect s a s') {x : Option (Item ι ε)}
    (hx : x ∈ (s.workers w).rest) (ha : ¬ (Agent.worker w : Agent ι n).Acts a) :
    s'.workers w = s.workers w := by
  have hgoto {v : Fin n} {pc : Worker (Item ι ε)} (hv : v ≠ w) :
      update s.workers v pc w = s.workers w := update_of_ne hv.symm ..
  cases heff with
  | go | acquire | release | take | call => exact hgoto ha
  | @spuriousWakeup v hv =>
    refine hgoto ?_
    rintro rfl
    rw [hv] at hx
    cases hx
  | signal hi hsig =>
    rcases wake_workers hsig.1 w with hv | ⟨hv, -⟩
    · exact hv
    · rw [hv] at hx
      cases hx
  | _ => rfl

lemma Effect.load [DecidableEq ι] {res : HandleResult} (heff : Effect s (.worker w res) s')
    (hs : s.Serving) {x : Item ι ε} (hx : some x ∈ (s.workers w).rest) : x ∈ s'.handled ∨
      some x ∈ (s'.workers w).rest ∧ (s'.workers w).load < (s.workers w).load := by
  have hbatch := hs.batches w
  cases heff with
  | go hgo =>
    simp only [goto, update_self]
    generalize s.workers w = old at hgo hx hbatch
    cases hgo with
    | batchNull => exact absurd (mem_cons_self ..) hbatch
    | handled => exact .inr ⟨hx, Nat.lt_succ_self _⟩
    | _ => cases hx
  | acquire howner hacq =>
    generalize s.workers w = old at hacq hx
    cases hacq <;> cases hx
  | release hrel =>
    rw [(hrel.serving hs).1] at hx
    cases hx
  | take hw hne =>
    rw [hw] at hx
    cases hx
  | @call w y rest res hw =>
    simp only [goto, update_self]
    rw [hw] at hx ⊢
    rcases mem_cons.mp hx with hxy | hrest
    · cases hxy
      exact .inl (mem_append_right _ (mem_singleton_self _))
    · refine .inr ⟨hrest, ?_⟩
      simp only [load, length_cons]
      omega

/-- The events of producer `i`: those queued, and that of its present call. -/
def entered [DecidableEq ι] (s : State ι ε n) (i : ι) : List ε :=
  (s.queued.filter (·.producer = i)).map Item.event ++ (s.producers i).unqueued

lemma entered_setProducer [DecidableEq ι] {i j : ι} {p : Producer ε} (s : State ι ε n)
    (hp : p.unqueued = (s.producers i).unqueued) :
    (s.setProducer i p).entered j = s.entered j := by
  have hprod : ((s.setProducer i p).producers j).unqueued = (s.producers j).unqueued := by
    by_cases hj : j = i
    · subst hj
      simp only [setProducer, update_self, hp]
    · simp only [setProducer, update_of_ne hj]
  rw [entered, hprod]
  rfl

/-- **A call of `listenToEvent` enters its event, and nothing else does.** -/
lemma Effect.entered [DecidableEq ι] (heff : Effect s a s') (hs : s.Serving) (i : ι) :
    s'.entered i = s.entered i ++ (a.call? i).toList := by
  cases heff with
  | @listenToEvent j event hj | @push j event _ hj =>
    by_cases hij : j = i
    · subst hij
      simp [entered, setProducer, Action.call?, hj, Producer.unqueued]
    · simp [entered, setProducer, Action.call?, hij, update_of_ne (Ne.symm hij)]
  | refuse hatt => exact absurd hs.attached (by simp [hatt])
  | @deref j event p wakes hj hp =>
    rcases hp with rfl | ⟨-, hatt⟩
    · refine (entered_setProducer s ?_).trans (append_nil _).symm
      rw [hj]
      rfl
    · exact absurd hs.attached (by simp [hatt])
  | @signal j wakes hj hsig =>
    refine (entered_setProducer _ ?_).trans (append_nil _).symm
    simp only [wake, hj]
    rfl
  | _ => exact (append_nil _).symm

end State

/-! ### Fair runs -/

section

variable [DecidableEq ι]

structure FairService (e : Execution (@State.step ι ε n _)) : Prop where
  start : e.state 0 = State.init ι ε n
  notCalled : ∀ m, (e.state m).deinit = .notCalled
  fair : ∀ t : Agent ι n, e.Fair t.Acts t.Enabled

variable {e : Execution (@State.step ι ε n _)} {k : ℕ} {x : Item ι ε}

namespace FairService

section

variable (h : FairService e)
include h

lemma effect (m : ℕ) : (e.state m).Effect (e.act m) (e.state (m + 1)) :=
  (notCalled_of_step (e.next m) (h.notCalled (m + 1))).2

lemma sound (hn : 0 < n) (m : ℕ) : (e.state m).Sound := by
  induction m with
  | zero =>
    rw [h.start]
    exact sound_init
  | succ m ih => exact ih.step hn (h.effect m)

lemma locked (m : ℕ) : (e.state m).Locked := by
  refine invariant' (fun h hs => State.Locked.step h hs) ?_ m
  rw [h.start]
  exact locked_init

lemma awakened (hn : 0 < n) (hx : some x ∈ (e.state k).container) :
    ∃ m, k ≤ m ∧ ((∃ w, some x ∈ ((e.state m).workers w).rest) ∨
      some x ∈ (e.state m).container ∧ ∃ w, ((e.state m).workers w).active = true) := by
  by_cases hactive : ∃ w, ((e.state k).workers w).active = true
  · exact ⟨k, le_rfl, .inr ⟨hx, hactive⟩⟩
  have hsleep (w : Fin n) : ((e.state k).workers w).active = false := by
    by_contra hw
    exact hactive ⟨w, by simpa using hw⟩
  obtain ⟨i, hi⟩ := ((h.sound hn k).awake (ne_nil_of_mem hx)).resolve_left hactive
  -- the producer that is about to signal can do so until a worker wakes up
  have hgoal : ∃ m, k ≤ m ∧ ((∃ w, some x ∈ ((e.state (m + 1)).workers w).rest) ∨
      some x ∈ (e.state (m + 1)).container ∧ ∃ w, ((e.state (m + 1)).workers w).active = true) := by
    refine eventually_of_rank
      (fun m => some x ∈ (e.state m).container ∧ (e.state m).producers i = .signalling ∧
        ∀ w, ((e.state m).workers w).active = false)
      (fun _ => 0) (fun _ => Agent.producer i) h.fair ?_ ?_ ⟨hx, hi, hsleep⟩
    · rintro m ⟨-, hm, -⟩
      exact signal_enabled hm
    · rintro m ⟨hmem, hm, hinactive⟩
      rcases (h.effect m).mem_container hmem with hmem' | htaken
      · by_cases hactive' : ∃ w, ((e.state (m + 1)).workers w).active = true
        · exact .inl (.inr ⟨hmem', hactive'⟩)
        · obtain ⟨hm', hact⟩ := ((h.effect m).signalling hn (h.sound hn m).serving hm
            hinactive).resolve_left hactive'
          refine .inr ⟨⟨hmem', hm', fun w => ?_⟩, .inr ⟨rfl, rfl, hact⟩⟩
          by_contra hw
          exact hactive' ⟨w, by simpa using hw⟩
      · exact .inl (.inl htaken)
  obtain ⟨m, hm, hgoal⟩ := hgoal
  exact ⟨m + 1, by omega, hgoal⟩

/-- **A queued event is taken.** -/
theorem taken (hn : 0 < n) (hx : some x ∈ (e.state k).container) :
    ∃ m, k ≤ m ∧ ∃ w, some x ∈ ((e.state m).workers w).rest := by
  obtain ⟨j, hj, htaken | hqueued⟩ := h.awakened hn hx
  · exact ⟨j, hj, htaken⟩
  have hgoal : ∃ m, j ≤ m ∧ ∃ w, some x ∈ ((e.state (m + 1)).workers w).rest := by
    refine eventually_of_total
      (fun m => some x ∈ (e.state m).container ∧ ∃ w, ((e.state m).workers w).active = true)
      distance (fun w => h.fair (.worker w)) h.locked (fun m hm => hm.2) ?_ hqueued
    rintro m ⟨hmem, hactive⟩
    have hs := (h.sound hn m).serving
    rcases (h.effect m).mem_container hmem with hmem' | htaken
    · rcases (h.effect m).distance hs (ne_nil_of_mem hmem) with ⟨w, hw⟩ | hstep
      · refine .inl ⟨w, ?_⟩
        rw [hw]
        exact hmem
      · exact .inr ⟨⟨hmem', (h.effect m).active hs (ne_nil_of_mem hmem') hactive⟩, hstep⟩
    · exact .inl htaken
  obtain ⟨m, hm, hgoal⟩ := hgoal
  exact ⟨m + 1, by omega, hgoal⟩

/-- **What a worker has taken it handles.** -/
theorem worked_off (hn : 0 < n) {w : Fin n} (hx : some x ∈ ((e.state k).workers w).rest) :
    ∃ m, k ≤ m ∧ x ∈ (e.state m).handled := by
  have hgoal : ∃ m, k ≤ m ∧ x ∈ (e.state (m + 1)).handled := by
    refine eventually_of_rank (fun m => some x ∈ ((e.state m).workers w).rest)
      (fun m => ((e.state m).workers w).load) (fun _ => Agent.worker w) h.fair ?_ ?_ hx
    · intro m hm
      obtain ⟨hactive, hmutex⟩ := active_of_mem_rest hm
      exact worker_enabled hactive (.inr hmutex)
    · intro m hm
      have heff := h.effect m
      by_cases hact : (Agent.worker w : Agent ι n).Acts (e.act m)
      · obtain ⟨res, hres⟩ := Agent.acts_worker hact
        rw [hres] at heff
        exact (heff.load (h.sound hn m).serving hm).imp_right fun hload => ⟨hload.1, .inl hload.2⟩
      · have hsame := heff.workers_of_rest hm hact
        refine .inr ⟨?_, .inr ⟨?_, rfl, hact⟩⟩
        · rw [hsame]
          exact hm
        · rw [hsame]
  obtain ⟨m, hm, hgoal⟩ := hgoal
  exact ⟨m + 1, by omega, hgoal⟩

/-- **Every queued event is handled.** -/
theorem handled (hn : 0 < n) (hx : x ∈ (e.state k).queued) :
    ∃ m, k ≤ m ∧ x ∈ (e.state m).handled := by
  rcases (h.sound hn k).accounted.mem hx with hdone | ⟨w, hw⟩ | hqueue
  · exact ⟨k, le_rfl, hdone⟩
  · exact h.worked_off hn (reduceOption_mem_iff.mp hw)
  · obtain ⟨j, hj, w, hw⟩ := h.taken hn (reduceOption_mem_iff.mp hqueue)
    obtain ⟨m, hm, hdone⟩ := h.worked_off hn hw
    exact ⟨m, hj.trans hm, hdone⟩

end

end FairService

lemma sound_of_run (hn : 0 < n) {as : List (Action ι ε n)} {s : State ι ε n}
    (hrun : run step (init ι ε n) as = some s) (hd : s.deinit = .notCalled) :
    s.Sound := by
  have hstep {t t' : State ι ε n} {a : Action ι ε n} (ht : t.deinit = .notCalled → t.Sound)
      (hs : t.step a = some t') (hd' : t'.deinit = .notCalled) : t'.Sound := by
    obtain ⟨hd, heff⟩ := notCalled_of_step hs hd'
    exact (ht hd).step hn heff
  exact run_invariant' hstep (fun _ => sound_init) hrun hd

lemma entered_of_run (hn : 0 < n) {as : List (Action ι ε n)} {s : State ι ε n}
    (hrun : run step (init ι ε n) as = some s) (hd : s.deinit = .notCalled) (i : ι) :
    s.entered i = as.filterMap (Action.call? i) := by
  induction as using List.reverseRecOn generalizing s with
  | nil =>
    cases hrun
    rfl
  | append_singleton as a ih =>
    obtain ⟨m, hm, hlast⟩ := run_append_eq_some.mp hrun
    obtain ⟨s', hs', hnil⟩ := run_cons_eq_some.mp hlast
    cases hnil
    obtain ⟨hmd, heff⟩ := notCalled_of_step hs' hd
    rw [heff.entered (sound_of_run hn hm hmd).serving, ih hm hmd, filterMap_append]
    cases hcall : a.call? i <;> simp [hcall]

/-- **A listener before its shutdown.** The calls of `listenToEvent` of each producer have queued
one item each, in order, except the present call before its `push`. Each item is handled once, and
items are taken in order. In every fair run every queued item is handled. -/
theorem events_handled_exactly_once (hn : 0 < n) :
    (∀ as (s : State ι ε n), run State.step (State.init ι ε n) as = some s → s.deinit = .notCalled →
      (∀ i, (s.queued.filter (·.producer = i)).map Item.event ++ (s.producers i).unqueued =
        as.filterMap (Action.call? i)) ∧ s.queued.Nodup ∧
      (s.handled : Multiset (Item ι ε)) + ∑ w, ((s.workers w).hands : Multiset (Item ι ε)) +
        s.container.reduceOption = s.queued ∧ s.dequeued ++ s.container.reduceOption = s.queued ∧
      (n = 1 → s.handled <+: s.queued) ∧ (s.container ≠ [] →
        (∃ w, (s.workers w).active = true) ∨ ∃ i, s.producers i = .signalling)) ∧
    ∀ e : Execution (@State.step ι ε n _), FairService e → ∀ k x, x ∈ (e.state k).queued →
      ∃ m, k ≤ m ∧ x ∈ (e.state m).handled := by
  refine ⟨fun as s hrun hd => ?_, fun e h k x hx => h.handled hn hx⟩
  have h := sound_of_run hn hrun hd
  have hfifo : s.dequeued ++ s.container.reduceOption = s.queued := h.accounted.fifo
  have honce : (s.handled : Multiset (Item ι ε)) +
      ∑ w, ((s.workers w).hands : Multiset (Item ι ε)) = s.dequeued := h.accounted.once
  refine ⟨entered_of_run hn hrun hd, ?_, ?_, hfifo, ?_, h.awake⟩
  · refine List.Nodup.of_map Item.number ?_
    rw [h.numbered]
    exact nodup_range
  · rw [honce, Multiset.coe_add, hfifo]
  · rintro rfl
    have horder : s.handled ++ (s.workers 0).hands = s.dequeued := h.inOrder rfl 0
    rw [← hfifo, ← horder, append_assoc]
    exact prefix_append ..

end

/-- A worker waits, producer `()` calls `listenToEvent` and the worker handles the event. -/
def handledCall (event : ℕ) (res : HandleResult) : List (Action Unit ℕ 1) :=
  [Action.listenToEvent () event, Action.producer () ∅, Action.producer () ∅,
    Action.producer () {0}] ++ List.replicate 11 (Action.worker 0 res)

def twoEvents : List (Action Unit ℕ 1) :=
  List.replicate 5 (Action.worker 0 .handled) ++ handledCall 7 .commonError ++
    handledCall 8 .handled

def served : State Unit ℕ 1 :=
  (run State.step (State.init Unit ℕ 1) twoEvents).getD (State.init Unit ℕ 1)

lemma run_twoEvents : run step (init Unit ℕ 1) twoEvents = some served := rfl

lemma fairService_twoEvents : FairService (ofRun run_twoEvents served.step_other) where
  start := rfl
  notCalled m := by
    have hmeets : Meets step (fun (s : State Unit ℕ 1) _ => s.deinit = .notCalled)
        (init Unit ℕ 1) twoEvents := by
      repeat' apply And.intro
      all_goals trivial
    exact ofRun_forall hmeets rfl m
  fair t := by
    refine ofRun_fair _ ?_
    rintro ⟨a, hacts, s', hs⟩
    cases t with
    | worker w =>
      obtain ⟨res, rfl⟩ := Agent.acts_worker hacts
      obtain rfl : w = 0 := Subsingleton.elim w 0
      cases hs
    | producer i =>
      cases a with
      | producer j wakes => cases hs
      | _ => exact hacts

theorem events_handled_exactly_once_twoEvents :
    (∃ as, run State.step (State.init Unit ℕ 1) as = some served ∧
      (served.queued.filter (·.producer = ())).map Item.event ++ (served.producers ()).unqueued =
        as.filterMap (Action.call? ()) ∧ as.filterMap (Action.call? ()) = [7, 8] ∧
      served.handled <+: served.queued) ∧
    ∃ e : Execution (@State.step Unit ℕ 1 _), FairService e ∧
    ∃ k, (e.state k).queued = [⟨(), 0, 7⟩, ⟨(), 1, 8⟩] ∧
      ∃ m, k ≤ m ∧ ⟨(), 1, 8⟩ ∈ (e.state m).handled := by
  obtain ⟨hsafe, hlive⟩ := @events_handled_exactly_once Unit ℕ 1 _ Nat.one_pos
  have hserved := hsafe twoEvents served run_twoEvents rfl
  refine ⟨⟨twoEvents, run_twoEvents, hserved.1 (), rfl, hserved.2.2.2.2.1 rfl⟩,
    _, fairService_twoEvents, 23, rfl, ?_⟩
  exact hlive _ fairService_twoEvents 23 _ (mem_cons_of_mem _ (mem_singleton_self _))

end Megatron.Listener
