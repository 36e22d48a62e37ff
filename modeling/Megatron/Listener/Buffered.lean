import Megatron.Library.Runs
import Mathlib.Data.Finset.Filter
import Mathlib.Data.Fintype.Basic
import Mathlib.Data.List.ReduceOption

/-!
A service with a queue of events and worker threads (`corelib/eventDeque.cpp`,
`corelib/listenerBuffered1Thread.cpp`, `corelib/listenerBufferedNThread.cpp`).
-/

namespace Megatron.Listener

open Library Function

structure Item (ι ε : Type*) where
  producer : ι
  number : ℕ
  event : ε
  deriving DecidableEq, Repr

/-- Where a worker is. An entry of the queue is an event, or `NULL`. -/
inductive Worker (α : Type*) where
  | top
  /-- Before `m_container` is read. -/
  | fetch
  | locking
  | testing
  /-- Before the size of the queue is tested. -/
  | sizing
  /-- In the condition wait. -/
  | waiting
  /-- Woken; before the mutex is locked again. -/
  | woken
  | retesting
  /-- Before the queue is taken, if it is not empty. -/
  | taking
  /-- At the head of the loop over the entries taken. -/
  | batch (rest : List (Option α))
  /-- In `handleEvent`. -/
  | handling (rest : List (Option α))
  | exited
  deriving Repr

namespace Worker

variable {α : Type*}

def rest : Worker α → List (Option α)
  | .batch rest => rest
  | .handling rest => rest
  | _ => []

def hands (pc : Worker α) : List α := pc.rest.reduceOption

def isWaiting : Worker α → Bool
  | .waiting => true
  | _ => false

/-- The worker is inside the section of `pop`. -/
def locked : Worker α → Bool
  | .testing | .sizing | .retesting | .taking => true
  | _ => false

lemma eq_waiting {pc : Worker α} (h : pc.isWaiting = true) : pc = .waiting := by
  cases pc <;> first | rfl | cases h

end Worker

/-- Where a producer is in `listenToEvent`. -/
inductive Producer (ε : Type*) where
  | idle
  | checked (event : ε)
  /-- Before the section of `push`. -/
  | pushing (event : ε)
  /-- Before `m_cond.signal`. -/
  | signalling
  deriving Repr

/-- Where the thread is that calls `deinit`. -/
inductive Deinit where
  | notCalled
  /-- Before `clear`. -/
  | clearing
  /-- Before the section of `push` of `NULL`. -/
  | pushing
  | signalling
  /-- Before the flag of the listener is set. -/
  | flagging
  /-- Before the flag of the queue is set. -/
  | flaggingQueue
  /-- Before the broadcast of `EventDeque::deinit`. -/
  | broadcasting
  /-- Before the last broadcast. -/
  | broadcastingAgain
  /-- In `pthread_join`. -/
  | joining
  | done
  deriving DecidableEq, Repr

def Deinit.afterPush : ℕ → Deinit
  | 0 => .done
  | _ + 1 => .flagging

/-- The listener with its `n` workers and its producers `ι`. -/
structure State (ι ε : Type*) (n : ℕ) where
  container : List (Option (Item ι ε))
  owner : Option (Fin n)
  /-- `EventDeque::m_isTerminating`. -/
  queueTerminating : Bool
  /-- `m_isTerminating` of the listener. -/
  terminating : Bool
  /-- `m_container` is valid. -/
  attached : Bool
  workers : Fin n → Worker (Item ι ε)
  producers : ι → Producer ε
  deinit : Deinit
  /-- The events queued, in order. -/
  queued : List (Item ι ε)
  /-- The events taken out of the queue, in order. -/
  dequeued : List (Item ι ε)
  handled : List (Item ι ε)

/-- How `handleEvent` ends. -/
inductive HandleResult where
  | handled
  | unhandled
  | commonError
  | stdException
  deriving DecidableEq, Repr

inductive Action (ι ε : Type*) (n : ℕ) where
  | worker (w : Fin n) (res : HandleResult)
  | spuriousWakeup (w : Fin n)
  /-- A producer calls `listenToEvent`. -/
  | listenToEvent (i : ι) (event : ε)
  /-- The next step of a producer in `listenToEvent`. -/
  | producer (i : ι) (wakes : Finset (Fin n))
  /-- The next step of `deinit`. -/
  | deinit (wakes : Finset (Fin n))
  /-- Something else happens in the program. -/
  | other

namespace State

variable {ι ε : Type*} {n : ℕ} (s : State ι ε n)

def init (ι ε : Type*) (n : ℕ) : State ι ε n where
  container := []
  owner := none
  queueTerminating := false
  terminating := false
  attached := true
  workers _ := .top
  producers _ := .idle
  deinit := .notCalled
  queued := []
  dequeued := []
  handled := []

def goto (w : Fin n) (pc : Worker (Item ι ε)) : State ι ε n :=
  { s with workers := update s.workers w pc }

def wake (wakes : Finset (Fin n)) : State ι ε n :=
  { s with workers := fun w => if w ∈ wakes then .woken else s.workers w }

def waiters : Finset (Fin n) := Finset.univ.filter fun w => (s.workers w).isWaiting

@[simp] lemma mem_waiters {s : State ι ε n} {w : Fin n} :
    w ∈ s.waiters ↔ s.workers w = .waiting := by
  rw [waiters, Finset.mem_filter]
  exact ⟨fun h => Worker.eq_waiting h.2, fun h => ⟨Finset.mem_univ w, by rw [h]; rfl⟩⟩

/-- `m_cond.signal` may wake these workers. -/
def Signals (wakes : Finset (Fin n)) : Prop :=
  wakes ⊆ s.waiters ∧ (s.waiters.Nonempty → wakes.Nonempty)

instance (wakes : Finset (Fin n)) : Decidable (s.Signals wakes) :=
  inferInstanceAs (Decidable (_ ∧ _))

def broadcast : State ι ε n := s.wake s.waiters

/-- `processEvent`: what the handler throws is caught. -/
def processEvent (rest : List (Option (Item ι ε))) : HandleResult → Worker (Item ι ε)
  | .handled => .batch rest
  | .unhandled => .batch rest
  | .commonError => .batch rest
  | .stdException => .batch rest

/-- The next step of `worker`. -/
def workerStep (w : Fin n) (res : HandleResult) : Option (State ι ε n) :=
  match s.workers w with
  | .top => some (s.goto w (if s.terminating then .exited else .fetch))
  | .fetch => some (s.goto w (if s.attached then .locking else .exited))
  | .locking =>
    if s.owner.isSome then none else some (goto { s with owner := some w } w .testing)
  | .testing =>
    if s.queueTerminating then some (goto { s with owner := none } w (.batch []))
    else some (s.goto w .sizing)
  | .sizing =>
    if s.container.isEmpty then some (goto { s with owner := none } w .waiting)
    else some (s.goto w .retesting)
  | .waiting => none
  | .woken =>
    if s.owner.isSome then none else some (goto { s with owner := some w } w .retesting)
  | .retesting =>
    if s.queueTerminating then some (goto { s with owner := none } w (.batch []))
    else some (s.goto w .taking)
  | .taking =>
    if s.container.isEmpty then some (s.goto w .testing)
    else
      let s' := { s with
        container := []
        owner := none
        dequeued := s.dequeued ++ s.container.reduceOption }
      some (s'.goto w (.batch s.container))
  | .batch [] => some (s.goto w .top)
  | .batch (none :: _) => some (s.goto w .exited)
  | .batch (some x :: rest) => some (goto { s with handled := s.handled ++ [x] } w (.handling rest))
  | .handling rest => some (s.goto w (processEvent rest res))
  | .exited => none

section

variable [DecidableEq ι]

def setProducer (i : ι) (p : Producer ε) : State ι ε n :=
  { s with producers := update s.producers i p }

/-- `listenToEvent`, up to the test of `m_container`. -/
def listenToEvent (i : ι) (event : ε) : Option (State ι ε n) :=
  match s.producers i with
  | .idle => if s.attached then some (s.setProducer i (.checked event)) else some s
  | _ => none

/-- The next step of `listenToEvent`. -/
def producerStep (i : ι) (wakes : Finset (Fin n)) : Option (State ι ε n) :=
  match s.producers i with
  | .idle => none
  | .checked event => some (s.setProducer i (if s.attached then .pushing event else .idle))
  | .pushing event =>
    if s.owner.isSome then none
    else
      let x : Item ι ε := ⟨i, s.queued.length, event⟩
      let s' := { s with container := s.container ++ [some x], queued := s.queued ++ [x] }
      some (s'.setProducer i .signalling)
  | .signalling => if s.Signals wakes then some ((s.wake wakes).setProducer i .idle) else none

/-- The next step of `deinit`. -/
def deinitStep (wakes : Finset (Fin n)) : Option (State ι ε n) :=
  match s.deinit with
  | .notCalled => some { s with attached := false, deinit := .clearing }
  | .clearing =>
    if s.owner.isSome then none
    else some { broadcast { s with container := [] } with deinit := .pushing }
  | .pushing =>
    if s.owner.isSome then none
    else some { s with container := s.container ++ [none], deinit := .signalling }
  | .signalling =>
    if s.Signals wakes then
      some { s.wake wakes with deinit := .afterPush n }
    else none
  | .flagging => some { s with terminating := true, deinit := .flaggingQueue }
  | .flaggingQueue => some { s with queueTerminating := true, deinit := .broadcasting }
  | .broadcasting => some { s.broadcast with deinit := .broadcastingAgain }
  | .broadcastingAgain => some { s.broadcast with deinit := .joining }
  | .joining =>
    if ∀ w, (s.workers w matches .exited) then some { s with deinit := .done } else none
  | .done => none

def step (s : State ι ε n) : Action ι ε n → Option (State ι ε n)
  | .worker w res => s.workerStep w res
  | .spuriousWakeup w => if (s.workers w).isWaiting then some (s.goto w .woken) else none
  | .listenToEvent i event => s.listenToEvent i event
  | .producer i wakes => s.producerStep i wakes
  | .deinit wakes => s.deinitStep wakes
  | .other => some s

lemma step_other (s : State ι ε n) : s.step .other = some s := rfl

inductive Goes (s : State ι ε n) : Worker (Item ι ε) → Worker (Item ι ε) → Prop
  | top : s.terminating = false → Goes s .top .fetch
  | topExit : s.terminating = true → Goes s .top .exited
  | fetch : s.attached = true → Goes s .fetch .locking
  | fetchExit : s.attached = false → Goes s .fetch .exited
  | testing : s.queueTerminating = false → Goes s .testing .sizing
  | sizing : s.container ≠ [] → Goes s .sizing .retesting
  | retesting : s.queueTerminating = false → Goes s .retesting .taking
  | taking : s.container = [] → Goes s .taking .testing
  | batchEnd : Goes s (.batch []) .top
  | batchNull {rest : List (Option (Item ι ε))} : Goes s (.batch (none :: rest)) .exited
  | handled {rest : List (Option (Item ι ε))} : Goes s (.handling rest) (.batch rest)

inductive Acquires : Worker (Item ι ε) → Worker (Item ι ε) → Prop
  | locking : Acquires .locking .testing
  | woken : Acquires .woken .retesting

inductive Releases (s : State ι ε n) : Worker (Item ι ε) → Worker (Item ι ε) → Prop
  | testing : s.queueTerminating = true → Releases s .testing (.batch [])
  | sizing : s.container = [] → Releases s .sizing .waiting
  | retesting : s.queueTerminating = true → Releases s .retesting (.batch [])

inductive Effect (s : State ι ε n) : Action ι ε n → State ι ε n → Prop
  | go : Goes s (s.workers w) pc → Effect s (.worker w res) (s.goto w pc)
  | acquire : s.owner = none → Acquires (s.workers w) pc →
      Effect s (.worker w res) (goto { s with owner := some w } w pc)
  | release : Releases s (s.workers w) pc →
      Effect s (.worker w res) (goto { s with owner := none } w pc)
  | take : s.workers w = .taking → s.container ≠ [] → Effect s (.worker w res) (goto { s with
        container := []
        owner := none
        dequeued := s.dequeued ++ s.container.reduceOption } w (.batch s.container))
  | call : s.workers w = .batch (some x :: rest) →
      Effect s (.worker w res) (goto { s with handled := s.handled ++ [x] } w (.handling rest))
  | spuriousWakeup : s.workers w = .waiting → Effect s (.spuriousWakeup w) (s.goto w .woken)
  | listenToEvent : s.producers i = .idle → s.attached = true →
      Effect s (.listenToEvent i event) (s.setProducer i (.checked event))
  | refuse : s.attached = false → Effect s (.listenToEvent i event) s
  | deref : s.producers i = .checked event → p = .pushing event ∨ p = .idle ∧ s.attached = false →
      Effect s (.producer i wakes) (s.setProducer i p)
  | push : s.producers i = .pushing event → s.owner = none →
      Effect s (.producer i wakes) (setProducer { s with
        container := s.container ++ [some ⟨i, s.queued.length, event⟩]
        queued := s.queued ++ [⟨i, s.queued.length, event⟩] } i .signalling)
  | signal : s.producers i = .signalling → s.Signals wakes →
      Effect s (.producer i wakes) ((s.wake wakes).setProducer i .idle)
  | other : Effect s .other s

/-- What a step of `deinit` does. -/
inductive DeinitEffect (s : State ι ε n) : State ι ε n → Prop
  | detach : s.deinit = .notCalled →
      DeinitEffect s { s with attached := false, deinit := .clearing }
  | clear : s.deinit = .clearing → s.owner = none →
      DeinitEffect s { broadcast { s with container := [] } with deinit := .pushing }
  | pushNull : s.deinit = .pushing → s.owner = none →
      DeinitEffect s
        { s with container := s.container ++ [none], deinit := .signalling }
  | signalNull {wakes : Finset (Fin n)} : s.deinit = .signalling → s.Signals wakes →
      DeinitEffect s
        { s.wake wakes with deinit := .afterPush n }
  | flag : s.deinit = .flagging →
      DeinitEffect s { s with terminating := true, deinit := .flaggingQueue }
  | flagQueue : s.deinit = .flaggingQueue →
      DeinitEffect s { s with queueTerminating := true, deinit := .broadcasting }
  | broadcast : s.deinit = .broadcasting →
      DeinitEffect s { s.broadcast with deinit := .broadcastingAgain }
  | broadcastAgain : s.deinit = .broadcastingAgain →
      DeinitEffect s { s.broadcast with deinit := .joining }
  | joined : s.deinit = .joining →
      DeinitEffect s { s with deinit := .done }

variable {s} {s' : State ι ε n}

lemma workerStep_effect {w : Fin n} {res : HandleResult} (h : s.workerStep w res = some s') :
    Effect s (.worker w res) s' := by
  have hgo {pc : Worker (Item ι ε)} (hpc : Goes s (s.workers w) pc) :
      Effect s (.worker w res) (s.goto w pc) := .go hpc
  rw [workerStep] at h
  split at h
  · next hw =>
      cases h
      rw [hw] at hgo
      cases hterm : s.terminating with
      | false => exact hgo (.top hterm)
      | true => exact hgo (.topExit hterm)
  · next hw =>
      cases h
      rw [hw] at hgo
      cases hatt : s.attached with
      | false => exact hgo (.fetchExit hatt)
      | true => exact hgo (.fetch hatt)
  · next hw =>
      split_ifs at h with howner
      cases h
      exact .acquire (by simpa using howner) (hw ▸ .locking)
  · next hw =>
      split_ifs at h with hterm
      · cases h
        exact .release (hw ▸ .testing hterm)
      · cases h
        exact hgo (hw ▸ .testing (by simpa using hterm))
  · next hw =>
      split_ifs at h with hempty
      · cases h
        exact .release (hw ▸ .sizing (by simpa using hempty))
      · cases h
        exact hgo (hw ▸ .sizing (by simpa using hempty))
  · cases h
  · next hw =>
      split_ifs at h with howner
      cases h
      exact .acquire (by simpa using howner) (hw ▸ .woken)
  · next hw =>
      split_ifs at h with hterm
      · cases h
        exact .release (hw ▸ .retesting hterm)
      · cases h
        exact hgo (hw ▸ .retesting (by simpa using hterm))
  · next hw =>
      split_ifs at h with hempty
      · cases h
        exact hgo (hw ▸ .taking (by simpa using hempty))
      · cases h
        exact .take hw (by simpa using hempty)
  · next hw =>
      cases h
      exact hgo (hw ▸ .batchEnd)
  · next hw =>
      cases h
      exact hgo (hw ▸ .batchNull)
  · next hw =>
      cases h
      exact .call hw
  · next rest hw =>
      have hres : processEvent rest res = .batch rest := by cases res <;> rfl
      cases h
      rw [hres]
      exact hgo (hw ▸ .handled)
  · cases h

lemma listenToEvent_effect {i : ι} {event : ε} (h : s.listenToEvent i event = some s') :
    Effect s (.listenToEvent i event) s' := by
  rw [listenToEvent] at h
  split at h
  · next hi =>
      split_ifs at h with hatt
      · cases h
        exact .listenToEvent hi hatt
      · cases h
        exact .refuse (by simpa using hatt)
  · cases h

lemma producerStep_effect {i : ι} {wakes : Finset (Fin n)}
    (h : s.producerStep i wakes = some s') : Effect s (.producer i wakes) s' := by
  rw [producerStep] at h
  split at h
  · cases h
  · next hi =>
      cases h
      refine .deref hi ?_
      split_ifs with hatt
      · exact .inl rfl
      · exact .inr ⟨rfl, by simpa using hatt⟩
  · next hi =>
      split_ifs at h with howner
      cases h
      exact .push hi (by simpa using howner)
  · next hi =>
      split_ifs at h with hsig
      cases h
      exact .signal hi hsig

omit [DecidableEq ι] in
lemma deinitStep_effect {wakes : Finset (Fin n)} (h : s.deinitStep wakes = some s') :
    DeinitEffect s s' := by
  rw [deinitStep] at h
  split at h
  · next hd =>
      cases h
      exact .detach hd
  · next hd =>
      split_ifs at h with howner
      cases h
      exact .clear hd (by simpa using howner)
  · next hd =>
      split_ifs at h with howner
      cases h
      exact .pushNull hd (by simpa using howner)
  · next hd =>
      split_ifs at h with hsig
      · cases h
        exact .signalNull hd hsig
  · next hd =>
      cases h
      exact .flag hd
  · next hd =>
      cases h
      exact .flagQueue hd
  · next hd =>
      cases h
      exact .broadcast hd
  · next hd =>
      cases h
      exact .broadcastAgain hd
  · next hd =>
      split_ifs at h
      cases h
      exact .joined hd
  · cases h

/-- **Every step has its effect.** -/
theorem step_effect {a : Action ι ε n} (h : s.step a = some s') :
    Effect s a s' ∨ (∃ wakes, a = .deinit wakes) ∧ DeinitEffect s s' := by
  cases a with
  | worker w res => exact .inl (workerStep_effect h)
  | spuriousWakeup w =>
    rw [step] at h
    split_ifs at h with hw
    cases h
    exact .inl (.spuriousWakeup (Worker.eq_waiting hw))
  | listenToEvent i event => exact .inl (listenToEvent_effect h)
  | producer i wakes => exact .inl (producerStep_effect h)
  | deinit wakes => exact .inr ⟨⟨wakes, rfl⟩, deinitStep_effect h⟩
  | other =>
    cases h
    exact .inl .other

end

/-! ### The mutex -/

def Locked : Prop := ∀ w, s.owner = some w ↔ (s.workers w).locked = true

variable {s} {s' : State ι ε n} {w : Fin n} {pc : Worker (Item ι ε)}

lemma Goes.locked (h : Goes s (s.workers w) pc) : pc.locked = (s.workers w).locked := by
  generalize s.workers w = old at h
  cases h <;> rfl

lemma Acquires.locked {old : Worker (Item ι ε)} (h : Acquires old pc) :
    pc.locked = true ∧ old.locked = false := by
  cases h <;> exact ⟨rfl, rfl⟩

lemma Releases.locked (h : Releases s (s.workers w) pc) :
    pc.locked = false ∧ (s.workers w).locked = true := by
  generalize s.workers w = old at h
  cases h <;> exact ⟨rfl, rfl⟩

lemma wake_workers {wakes : Finset (Fin n)} (h : wakes ⊆ s.waiters) (v : Fin n) :
    (s.wake wakes).workers v = s.workers v ∨
      s.workers v = .waiting ∧ (s.wake wakes).workers v = .woken := by
  simp only [wake]
  split_ifs with hv
  · exact .inr ⟨mem_waiters.mp (h hv), rfl⟩
  · exact .inl rfl

lemma forall_goto {Q : Worker (Item ι ε) → Prop}
    (hpc : Q pc) (h : ∀ v, Q (s.workers v)) (v : Fin n) : Q (update s.workers w pc v) := by
  by_cases hv : v = w
  · rw [hv, update_self]
    exact hpc
  · rw [update_of_ne hv]
    exact h v

lemma locked_wake {wakes : Finset (Fin n)} (h : wakes ⊆ s.waiters) (v : Fin n) :
    ((s.wake wakes).workers v).locked = (s.workers v).locked := by
  rcases wake_workers h v with hv | ⟨hv, hv'⟩
  · rw [hv]
  · rw [hv, hv']
    rfl

lemma locked_init : (init ι ε n).Locked := fun _ => ⟨nofun, nofun⟩

lemma Locked.of_same (h : s.Locked) (howner : s'.owner = s.owner)
    (hworkers : ∀ v, (s'.workers v).locked = (s.workers v).locked) : s'.Locked := by
  intro v
  rw [howner, hworkers v]
  exact h v

lemma Locked.goto (h : s.Locked) (howner : s'.owner = some w ↔ pc.locked = true)
    (hother : ∀ v, v ≠ w → (s'.owner = some v ↔ s.owner = some v))
    (hworkers : s'.workers = update s.workers w pc) : s'.Locked := by
  intro v
  rw [hworkers]
  by_cases hv : v = w
  · rw [hv, update_self]
    exact howner
  · rw [update_of_ne hv, hother v hv]
    exact h v

lemma Locked.released (h : s.Locked) (hw : (s.workers w).locked = true) (howner : s'.owner = none)
    (hpc : pc.locked = false) (hworkers : s'.workers = update s.workers w pc) : s'.Locked := by
  have hmine : s.owner = some w := (h w).mpr hw
  refine h.goto ?_ ?_ hworkers
  · rw [howner, hpc]
    exact ⟨nofun, nofun⟩
  · intro v hv
    rw [howner, hmine]
    exact ⟨nofun, fun hvw => absurd (Option.some.inj hvw).symm hv⟩

/-- **At most one worker is inside the section of `pop`.** -/
lemma Locked.step [DecidableEq ι] {a : Action ι ε n} (h : s.Locked) (hs : s.step a = some s') :
    s'.Locked := by
  rcases step_effect hs with heff | ⟨-, heff⟩
  · cases heff with
    | @go w pc res hgo =>
      refine h.goto ?_ (fun _ _ => Iff.rfl) rfl
      rw [hgo.locked]
      exact h w
    | @acquire w pc res howner hacq =>
      refine h.goto ?_ ?_ rfl
      · rw [hacq.locked.1]
        exact ⟨fun _ => rfl, fun _ => rfl⟩
      · intro v hv
        rw [howner]
        exact ⟨fun hw => absurd (Option.some.inj hw).symm hv, nofun⟩
    | release hrel => exact h.released hrel.locked.2 rfl hrel.locked.1 rfl
    | take hw hne => exact h.released (hw ▸ rfl) rfl rfl rfl
    | @call w x rest res hw | @spuriousWakeup w hw =>
      refine h.goto ?_ (fun _ _ => Iff.rfl) rfl
      exact (h w).trans (by rw [hw]; rfl)
    | signal hi hsig => exact h.of_same rfl (locked_wake hsig.1)
    | _ => exact h
  · cases heff with
    | clear hd howner | broadcast hd | broadcastAgain hd =>
      exact h.of_same rfl (locked_wake subset_rfl)
    | signalNull hd hsig => exact h.of_same rfl (locked_wake hsig.1)
    | _ => exact h

end State

/-! ### The stages of the shutdown -/

def Deinit.flagged : Deinit → Bool
  | .flaggingQueue | .broadcasting | .broadcastingAgain | .joining => true
  | _ => false

def Deinit.queueFlagged : Deinit → Bool
  | .broadcasting | .broadcastingAgain | .joining => true
  | _ => false

namespace State

variable {ι ε : Type*} {n : ℕ} {s s' : State ι ε n}

/-- The flags tell how far `deinit` has come. -/
structure Staged (s : State ι ε n) : Prop where
  attached : s.attached = true ↔ s.deinit = .notCalled
  flagged : s.deinit.flagged = true → s.terminating = true
  queueFlagged : s.deinit.queueFlagged = true → s.queueTerminating = true
  notFlagged : s.deinit = .notCalled → s.terminating = false ∧ s.queueTerminating = false

lemma Staged.of_same (h : s.Staged) (hdeinit : s'.deinit = s.deinit)
    (hattached : s'.attached = s.attached) (hterm : s'.terminating = s.terminating)
    (hqueue : s'.queueTerminating = s.queueTerminating) : s'.Staged := by
  obtain ⟨h1, h2, h3, h4⟩ := h
  constructor <;> simpa only [hdeinit, hattached, hterm, hqueue]

lemma staged_init : (init ι ε n).Staged :=
  ⟨⟨fun _ => rfl, fun _ => rfl⟩, nofun, nofun, fun _ => ⟨rfl, rfl⟩⟩

lemma Staged.advance (h : s.Staged) (hd : s.deinit ≠ .notCalled) (hd' : s'.deinit ≠ .notCalled)
    (hattached : s'.attached = s.attached)
    (hflag : s'.deinit.flagged = true → s'.terminating = true)
    (hqueue : s'.deinit.queueFlagged = true → s'.queueTerminating = true) : s'.Staged where
  attached := by
    rw [hattached, h.attached]
    exact ⟨fun h => absurd h hd, fun h => absurd h hd'⟩
  flagged := hflag
  queueFlagged := hqueue
  notFlagged hn := absurd hn hd'

/-- **The flags follow the stages of the shutdown.** -/
lemma Staged.step [DecidableEq ι] {a : Action ι ε n} (h : s.Staged) (hs : s.step a = some s') :
    s'.Staged := by
  have hflag := h.flagged
  have hqueue := h.queueFlagged
  rcases step_effect hs with heff | ⟨-, heff⟩
  · cases heff <;> exact h.of_same rfl rfl rfl rfl
  cases heff with
  | detach hd => exact ⟨⟨nofun, nofun⟩, nofun, nofun, nofun⟩
  | clear hd howner | pushNull hd howner | joined hd =>
    exact h.advance (by rw [hd]; nofun) nofun rfl nofun nofun
  | signalNull hd hsig =>
    cases n with
    | zero | succ n => exact h.advance (by rw [hd]; nofun) nofun rfl nofun nofun
  | flag hd => exact h.advance (by rw [hd]; nofun) nofun rfl (fun _ => rfl) nofun
  | flagQueue hd =>
    rw [hd] at hflag
    exact h.advance (by rw [hd]; nofun) nofun rfl hflag fun _ => rfl
  | broadcast hd | broadcastAgain hd =>
    rw [hd] at hflag hqueue
    exact h.advance (by rw [hd]; nofun) nofun rfl hflag hqueue

end State

end Megatron.Listener
