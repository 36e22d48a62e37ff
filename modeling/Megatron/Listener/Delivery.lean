import Megatron.Library.Pool
import Megatron.Listener.Scheduling

/-!
The events of a listener that is not being shut down: it is a pool (`Serving.pool_step`), and no
wake-up is lost (`Awake.step`).
-/

namespace Megatron.Listener

open Library List Function

variable {ι ε : Type*} {n : ℕ}

namespace State

variable {s s' : State ι ε n} {a : Action ι ε n} {w : Fin n} {pc : Worker (Item ι ε)}

/-- The listener before `deinit`. -/
structure Serving (s : State ι ε n) : Prop where
  notCalled : s.deinit = .notCalled
  attached : s.attached = true
  terminating : s.terminating = false
  queueTerminating : s.queueTerminating = false
  container : none ∉ s.container
  batches : ∀ w, none ∉ (s.workers w).rest
  working : ∀ w, s.workers w ≠ .exited

lemma notCalled_of_step [DecidableEq ι] (hs : s.step a = some s') (hd : s'.deinit = .notCalled) :
    s.deinit = .notCalled ∧ Effect s a s' := by
  rcases step_effect hs with heff | ⟨-, heff⟩
  · refine ⟨?_, heff⟩
    cases heff <;> exact hd
  · cases heff with
    | signalNull hn hsig =>
      cases n with
      | zero | succ n => cases hd
    | _ => cases hd

lemma Goes.serving (h : Goes s (s.workers w) pc) (hs : s.Serving) :
    pc.rest = (s.workers w).rest ∧ pc ≠ .exited ∧ pc ≠ .waiting := by
  have hbatch := hs.batches w
  generalize s.workers w = old at h hbatch
  cases h with
  | topExit hterm => exact absurd hterm (by simp [hs.terminating])
  | fetchExit hatt => exact absurd hatt (by simp [hs.attached])
  | batchNull => exact absurd (mem_cons_self ..) hbatch
  | _ => exact ⟨rfl, nofun, nofun⟩

lemma Acquires.serving {old : Worker (Item ι ε)} (h : Acquires old pc) :
    pc.rest = old.rest ∧ pc ≠ .exited ∧ pc ≠ .waiting := by
  cases h <;> exact ⟨rfl, nofun, nofun⟩

lemma Releases.serving (h : Releases s (s.workers w) pc) (hs : s.Serving) :
    s.workers w = .sizing ∧ pc = .waiting ∧ s.container = [] := by
  generalize s.workers w = old at h
  cases h with
  | testing hterm | retesting hterm => exact absurd hterm (by simp [hs.queueTerminating])
  | sizing hempty => exact ⟨rfl, rfl, hempty⟩

lemma Serving.of_workers (h : s.Serving) (hdeinit : s'.deinit = s.deinit)
    (hattached : s'.attached = s.attached) (hterm : s'.terminating = s.terminating)
    (hqueue : s'.queueTerminating = s.queueTerminating) (hcontainer : none ∉ s'.container)
    (hworkers : ∀ v, none ∉ (s'.workers v).rest ∧ s'.workers v ≠ .exited) : s'.Serving where
  notCalled := hdeinit.trans h.notCalled
  attached := hattached.trans h.attached
  terminating := hterm.trans h.terminating
  queueTerminating := hqueue.trans h.queueTerminating
  container := hcontainer
  batches v := (hworkers v).1
  working v := (hworkers v).2

lemma Serving.step [DecidableEq ι] (h : s.Serving) (heff : Effect s a s') : s'.Serving := by
  have hold (v : Fin n) : none ∉ (s.workers v).rest ∧ s.workers v ≠ .exited :=
    ⟨h.batches v, h.working v⟩
  have hgoto {w : Fin n} {pc : Worker (Item ι ε)} (hrest : none ∉ pc.rest) (hpc : pc ≠ .exited)
      (v : Fin n) : none ∉ (update s.workers w pc v).rest ∧
        update s.workers w pc v ≠ .exited :=
    forall_goto (Q := fun pc => none ∉ pc.rest ∧ pc ≠ .exited) ⟨hrest, hpc⟩ hold v
  cases heff with
  | @go w pc res hgo =>
    obtain ⟨hrest, hpc, -⟩ := hgo.serving h
    exact h.of_workers rfl rfl rfl rfl h.container (hgoto (hrest ▸ h.batches w) hpc)
  | @acquire w pc res howner hacq =>
    obtain ⟨hrest, hpc, -⟩ := hacq.serving
    exact h.of_workers rfl rfl rfl rfl h.container (hgoto (hrest ▸ h.batches w) hpc)
  | release hrel =>
    obtain ⟨-, rfl, -⟩ := hrel.serving h
    exact h.of_workers rfl rfl rfl rfl h.container (hgoto nofun nofun)
  | take hw hne => exact h.of_workers rfl rfl rfl rfl nofun (hgoto h.container nofun)
  | @call w x rest res hw =>
    have hbatch := h.batches w
    rw [hw] at hbatch
    exact h.of_workers rfl rfl rfl rfl h.container
      (hgoto (fun hmem => hbatch (mem_cons_of_mem _ hmem)) nofun)
  | spuriousWakeup hw => exact h.of_workers rfl rfl rfl rfl h.container (hgoto nofun nofun)
  | push hi howner =>
    refine h.of_workers rfl rfl rfl rfl ?_ hold
    simpa [setProducer] using h.container
  | signal hi hsig =>
    refine h.of_workers rfl rfl rfl rfl h.container fun v => ?_
    rcases wake_workers hsig.1 v with hv | ⟨-, hv⟩
    · simp only [setProducer, hv]
      exact hold v
    · simp only [setProducer, hv]
      exact ⟨nofun, nofun⟩
  | listenToEvent | deref => exact h.of_workers rfl rfl rfl rfl h.container hold
  | refuse | other => exact h

/-! ### The queue as a pool -/

def pool (s : State ι ε n) : Pool (Fin n) (Item ι ε) where
  queue := s.container.reduceOption
  hands w := (s.workers w).hands
  queued := s.queued
  dequeued := s.dequeued
  handled := s.handled

lemma pool_hands (h : s.workers w = pc) : s.pool.hands w = pc.hands := by
  rw [← h]
  rfl

lemma pool_goto (s : State ι ε n) (w : Fin n) (pc : Worker (Item ι ε)) :
    (s.goto w pc).pool = { s.pool with hands := update s.pool.hands w pc.hands } := by
  simp only [pool, goto, Pool.mk.injEq, true_and, and_true]
  funext v
  exact apply_update (fun _ => Worker.hands) s.workers w pc v

lemma pool_of_hands (h : pc.rest = (s.workers w).rest) : (s.goto w pc).pool = s.pool := by
  have hhands : pc.hands = s.pool.hands w := by rw [Worker.hands, h]; rfl
  rw [pool_goto, hhands, update_eq_self]

lemma pool_wake {wakes : Finset (Fin n)} (h : wakes ⊆ s.waiters) :
    (s.wake wakes).pool = s.pool := by
  simp only [pool, Pool.mk.injEq]
  refine ⟨rfl, funext fun v => ?_, rfl, rfl, rfl⟩
  rcases wake_workers h v with hv | ⟨hv, hv'⟩
  · rw [hv]
  · rw [hv, hv']
    rfl

/-- **The listener is a pool.** -/
lemma Serving.pool_step [DecidableEq ι] (h : s.Serving) (heff : Effect s a s') :
    s'.pool = s.pool ∨ s.pool.Step s'.pool := by
  cases heff with
  | go hgo => exact .inl (pool_of_hands (hgo.serving h).1)
  | acquire howner hacq => exact .inl (pool_of_hands (s := { s with owner := _ }) hacq.serving.1)
  | release hrel =>
    obtain ⟨hw, rfl, -⟩ := hrel.serving h
    exact .inl (pool_of_hands (s := { s with owner := none }) (by rw [hw]; rfl))
  | @take w res hw hne =>
    right
    rw [pool_goto]
    exact Pool.Step.take w (pool_hands hw)
  | @call w x rest res hw =>
    right
    rw [pool_goto]
    exact Pool.Step.handle (pool_hands hw)
  | spuriousWakeup hw => exact .inl (pool_of_hands (by rw [hw]; rfl))
  | @push i event wakes hi howner =>
    right
    have hpush := Pool.Step.push (p := s.pool) ⟨i, s.queued.length, event⟩
    simp only [pool, setProducer, reduceOption_append]
    exact hpush
  | signal hi hsig => exact .inl (pool_wake hsig.1)
  | _ => exact .inl rfl

/-! ### Wake-ups -/

def Awake (s : State ι ε n) : Prop :=
  s.container ≠ [] → (∃ w, (s.workers w).active = true) ∨ ∃ i, s.producers i = .signalling

lemma Signals.active {wakes : Finset (Fin n)} (hsig : s.Signals wakes) (hn : 0 < n)
    (hs : s.Serving) : ∃ w, ((s.wake wakes).workers w).active = true := by
  rcases s.waiters.eq_empty_or_nonempty with hnone | hsome
  · -- nobody waits, and a worker that does not wait runs
    have hfirst : s.workers ⟨0, hn⟩ ≠ .waiting := by simp [← mem_waiters, hnone]
    refine ⟨⟨0, hn⟩, ?_⟩
    rcases wake_workers hsig.1 ⟨0, hn⟩ with hv | ⟨hv, -⟩
    · rw [hv]
      exact active_of_ne (hs.working _) hfirst
    · exact absurd hv hfirst
  · obtain ⟨w, hw⟩ := hsig.2 hsome
    refine ⟨w, ?_⟩
    simp only [wake, hw, if_true]
    rfl

lemma Effect.worker_active [DecidableEq ι] {res : HandleResult} (heff : Effect s (.worker w res) s')
    (hs : s.Serving) (hne : s'.container ≠ []) : (s'.workers w).active = true := by
  cases heff with
  | go hgo =>
    obtain ⟨-, hexited, hwaiting⟩ := hgo.serving hs
    simp only [goto, update_self]
    exact active_of_ne hexited hwaiting
  | acquire howner hacq =>
    obtain ⟨-, hexited, hwaiting⟩ := hacq.serving
    simp only [goto, update_self]
    exact active_of_ne hexited hwaiting
  | release hrel => exact absurd (hrel.serving hs).2.2 hne
  | take hw hnonempty | call hw =>
    simp only [goto, update_self]
    rfl

lemma setProducer_signalling [DecidableEq ι] {i j : ι} {p : Producer ε}
    (hj : s.producers j = .signalling) (hi : s.producers i ≠ .signalling) :
    (s.setProducer i p).producers j = .signalling := by
  have hne : j ≠ i := fun hji => hi (hji ▸ hj)
  simp only [setProducer, update_of_ne hne]
  exact hj

/-- **No wake-up is lost.** -/
lemma Awake.step [DecidableEq ι] (h : s.Awake) (hn : 0 < n) (hs : s.Serving)
    (heff : Effect s a s') : s'.Awake := by
  intro hne
  have hset {i : ι} {p : Producer ε} (hne : s.container ≠ []) (hi : s.producers i ≠ .signalling) :
      (∃ w, (s.workers w).active = true) ∨ ∃ j, (s.setProducer i p).producers j = .signalling :=
    (h hne).imp_right fun ⟨j, hj⟩ => ⟨j, setProducer_signalling hj hi⟩
  cases a with
  | worker w res => exact .inl ⟨w, heff.worker_active hs hne⟩
  | spuriousWakeup w =>
    cases heff
    refine .inl ⟨w, ?_⟩
    simp only [goto, update_self]
    rfl
  | listenToEvent i event =>
    cases heff with
    | listenToEvent hi hatt => exact hset hne (by rw [hi]; nofun)
    | refuse => exact h hne
  | producer i wakes =>
    cases heff with
    | deref hi => exact hset hne (by rw [hi]; nofun)
    | push hi howner =>
      refine .inr ⟨i, ?_⟩
      simp only [setProducer, update_self]
    | signal hi hsig => exact .inl (hsig.active hn hs)
  | deinit wakes => cases heff
  | other =>
    cases heff
    exact h hne

/-! ### The reachable states -/

/-- What holds in every state before `deinit`. -/
structure Sound (s : State ι ε n) : Prop where
  serving : s.Serving
  accounted : s.pool.Accounted
  inOrder : n = 1 → s.pool.InOrder
  numbered : s.queued.map Item.number = List.range s.queued.length
  awake : s.Awake

lemma sound_init : (init ι ε n).Sound where
  serving := ⟨rfl, rfl, rfl, rfl, nofun, fun _ => nofun, fun _ => nofun⟩
  accounted := ⟨rfl, by simp [pool, init, Worker.hands, Worker.rest]⟩
  inOrder _ _ := rfl
  numbered := rfl
  awake := nofun

lemma Effect.numbered [DecidableEq ι] (heff : Effect s a s')
    (h : s.queued.map Item.number = List.range s.queued.length) :
    s'.queued.map Item.number = List.range s'.queued.length := by
  cases heff with
  | push hi howner =>
    simp only [setProducer, map_append, map_singleton, length_append,
      length_singleton, h, range_succ]
  | _ => exact h

lemma Sound.step [DecidableEq ι] (h : s.Sound) (hn : 0 < n) (heff : Effect s a s') : s'.Sound where
  serving := h.serving.step heff
  accounted := by
    rcases h.serving.pool_step heff with hsame | hstep
    · rw [hsame]
      exact h.accounted
    · exact h.accounted.step hstep
  inOrder := by
    rintro rfl
    rcases h.serving.pool_step heff with hsame | hstep
    · rw [hsame]
      exact h.inOrder rfl
    · exact (h.inOrder rfl).step hstep
  numbered := heff.numbered h.numbered
  awake := h.awake.step hn h.serving heff

end State

end Megatron.Listener
