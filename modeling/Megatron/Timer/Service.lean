import Megatron.Corelib.Route
import Megatron.Library.Runs

/-!
The timer service (`modules/timer/timerService.cpp`): a table of tasks by deadline, the handlers
that change it, and the worker thread that passes the ticks.
-/

namespace Megatron.Timer

open List

/-- `task::TYP`. -/
inductive TaskType where
  | alarm
  | timer
  deriving DecidableEq, Repr

/-- What the handlers compare besides the type. -/
structure Key where
  tid : BitVec 32
  data : Bytes
  route : RouteT
  deriving DecidableEq, Repr

/-- The constant members of the class `task`. -/
structure Task where
  type : TaskType
  tid : BitVec 32
  data : Bytes
  cookie : BitVec 64
  route : RouteT
  deriving DecidableEq, Repr

def Task.isFor (t : Task) (ty : TaskType) (k : Key) : Bool :=
  t.data == k.data && t.route == k.route && t.tid == k.tid && t.type == ty

lemma Task.type_of_isFor {t : Task} {ty : TaskType} {k : Key} (h : t.isFor ty k = true) :
    t.type = ty := by
  simp only [Task.isFor, Bool.and_eq_true, beq_iff_eq] at h
  exact h.2

/-- The events of the namespace `timerEvent` that the service handles. -/
inductive Event where
  | setTimer (k : Key) (cookie : BitVec 64)
  | setAlarm (k : Key) (cookie : BitVec 64)
  | resetAlarm (k : Key) (cookie : BitVec 64)
  | stopTimer (k : Key)
  | stopAlarm (k : Key)
  deriving DecidableEq, Repr

inductive Section where
  | scan (ty : TaskType) (k : Key)
  | insert (t : Task)
  deriving DecidableEq, Repr

def newTask (ty : TaskType) (k : Key) (cookie : BitVec 64) : Task :=
  ⟨ty, k.tid, k.data, cookie, k.route⟩

def Event.sections : Event → List Section
  | .setTimer k cookie => [.insert (newTask .timer k cookie)]
  | .setAlarm k cookie => [.insert (newTask .alarm k cookie)]
  | .resetAlarm k cookie => [.scan .alarm k, .insert (newTask .alarm k cookie)]
  | .stopTimer k => [.scan .timer k]
  | .stopAlarm k => [.scan .alarm k]

def Section.inserts (ty : TaskType) (k : Key) : Section → Bool
  | .scan _ _ => false
  | .insert t => t.isFor ty k

/-! ### The state -/

structure Tick where
  task : ℕ
  type : TaskType
  tid : BitVec 32
  data : Bytes
  cookie : BitVec 64
  route : RouteT
  deriving DecidableEq, Repr

inductive Phase where
  | deliver
  | finish
  deriving DecidableEq, Repr

/-- The service. A task is named by its index in `tasks`. -/
structure State where
  tasks : List Task
  erased : ℕ → Bool
  /-- `mx_nexts`, in increasing order of the deadlines. -/
  nexts : List (ℤ × List ℕ)
  /-- The rest of `itSecondCopy`. -/
  batch : List ℕ
  /-- The task the worker handles. -/
  current : Option (ℕ × Phase)
  /-- What the running handler has still to do. -/
  handler : List Section
  /-- `m_isTerminating`. -/
  terminating : Bool
  /-- The ticks handed to `passEvent`. -/
  ticks : List Tick
  /-- The tasks the worker has put back into the table. -/
  reinserted : List ℕ

def State.initial : State where
  tasks := []
  erased := fun _ => false
  nexts := []
  batch := []
  current := none
  handler := []
  terminating := false
  ticks := []
  reinserted := []

namespace State

def table (st : State) : List ℕ := st.nexts.flatMap Prod.snd

def handling (st : State) : Option ℕ := st.current.map Prod.fst

def ticksOf (st : State) (id : ℕ) : ℕ := (st.ticks.map Tick.task).count id

def inFlight (st : State) (id : ℕ) : ℕ :=
  (if st.current = some (id, .deliver) then 1 else 0) +
    (if st.erased id then 0 else st.batch.count id)

end State

/-- `mx_nexts[tb].push_back(t)`. -/
def push (tb : ℤ) (id : ℕ) : List (ℤ × List ℕ) → List (ℤ × List ℕ)
  | [] => [(tb, [id])]
  | (d, ids) :: rest =>
    if tb < d then (tb, [id]) :: (d, ids) :: rest
    else if d = tb then (d, ids ++ [id]) :: rest
    else (d, ids) :: push tb id rest

lemma count_push (tb : ℤ) (id x : ℕ) (l : List (ℤ × List ℕ)) :
    ((push tb id l).flatMap Prod.snd).count x = (l.flatMap Prod.snd).count x + [id].count x := by
  induction l with
  | nil => simp [push]
  | cons e rest ih =>
    obtain ⟨d, ids⟩ := e
    rw [push]
    split_ifs
    · simp only [flatMap_cons, count_append]
      omega
    · simp only [flatMap_cons, count_append]
      omega
    · simp only [flatMap_cons, count_append, ih]
      omega

lemma mem_push {tb : ℤ} {id x : ℕ} {l : List (ℤ × List ℕ)} :
    x ∈ (push tb id l).flatMap Prod.snd ↔ x = id ∨ x ∈ l.flatMap Prod.snd := by
  rw [← mem_singleton, ← count_pos_iff, ← count_pos_iff, ← count_pos_iff, count_push]
  omega

def begin (st : State) (ev : Event) : Option State :=
  if st.handler ≠ [] then none
  else if st.terminating then some st
  else some { st with handler := ev.sections }

/-- The next critical section of the running handler. -/
def handle (st : State) (tb : ℤ) : Option State :=
  match st.handler with
  | [] => none
  | .scan ty k :: rest =>
    some { st with
      handler := rest
      erased := fun id => st.erased id ||
        (decide (id ∈ st.table) && (st.tasks[id]?).any (·.isFor ty k)) }
  | .insert t :: rest =>
    some { st with
      handler := rest
      tasks := st.tasks ++ [t]
      erased := Function.update st.erased st.tasks.length false
      nexts := push tb st.tasks.length st.nexts }

def take (st : State) (now : ℤ) : Option State :=
  if st.terminating = true ∨ st.batch ≠ [] ∨ st.current ≠ none then none
  else
    match st.nexts with
    | [] => none
    | (d, ids) :: rest => if now < d then none else some { st with nexts := rest, batch := ids }

def check (st : State) : Option State :=
  match st.current, st.batch with
  | none, id :: rest =>
    if st.terminating then some { st with batch := [] }
    else if st.erased id then some { st with batch := rest }
    else some { st with batch := rest, current := some (id, .deliver) }
  | _, _ => none

/-- The worker passes the tick. After an exception the tasks not handled are dropped; `passEvent`
itself may throw, if no hop is left for it (`returns` is `false` then). -/
def pass (st : State) (returns : Bool) : Option State :=
  match st.current with
  | some (id, .deliver) =>
    (st.tasks[id]?).map fun t =>
      match poppedFrontRoute t.route with
      | .error _ => { st with batch := [], current := none }
      | .ok r =>
        let ticks := st.ticks ++ [⟨id, t.type, t.tid, t.data, t.cookie, r⟩]
        if returns then { st with ticks := ticks, current := some (id, .finish) }
        else { st with ticks := ticks, batch := [], current := none }
  | _ => none

def finish (st : State) (tb : ℤ) : Option State :=
  match st.current with
  | some (id, .finish) =>
    (st.tasks[id]?).map fun t =>
      match t.type with
      | .timer => { st with
          current := none
          nexts := push tb id st.nexts
          reinserted := st.reinserted ++ [id] }
      | .alarm => { st with current := none, erased := Function.update st.erased id true }
  | _ => none

/-- The steps of the two threads, and those of `deinit`. -/
inductive Action where
  | begin (ev : Event)
  | handle (tb : ℤ)
  | take (now : ℤ)
  | check
  | pass (returns : Bool)
  | finish (tb : ℤ)
  | deinit
  | clear
  deriving DecidableEq, Repr

def step (st : State) : Action → Option State
  | .begin ev => begin st ev
  | .handle tb => handle st tb
  | .take now => take st now
  | .check => check st
  | .pass returns => pass st returns
  | .finish tb => finish st tb
  | .deinit => some { st with terminating := true }
  | .clear => if st.terminating then some { st with nexts := [] } else none

def Action.sets (ty : TaskType) (k : Key) : Action → Bool
  | .begin ev => ev.sections.any (·.inserts ty k)
  | _ => false

section

variable {st st' : State}

lemma begin_eq_some {ev : Event} (h : begin st ev = some st') : st.handler = [] ∧
      (st.terminating = true ∧ st' = st ∨
        st.terminating = false ∧ st' = { st with handler := ev.sections }) := by
  rw [begin] at h
  split_ifs at h with hidle hterm
  · exact ⟨not_not.mp hidle, .inl ⟨hterm, (Option.some.inj h).symm⟩⟩
  · exact ⟨not_not.mp hidle, .inr ⟨by simpa using hterm, (Option.some.inj h).symm⟩⟩

lemma handle_eq_some {tb : ℤ} (h : handle st tb = some st') :
    (∃ ty k rest, st.handler = .scan ty k :: rest ∧ st' = { st with
        handler := rest
        erased := fun id => st.erased id ||
          (decide (id ∈ st.table) && (st.tasks[id]?).any (·.isFor ty k)) }) ∨
    ∃ t rest, st.handler = .insert t :: rest ∧ st' = { st with
        handler := rest
        tasks := st.tasks ++ [t]
        erased := Function.update st.erased st.tasks.length false
        nexts := push tb st.tasks.length st.nexts } := by
  rw [handle] at h
  split at h
  · cases h
  · next ty k rest hh => exact .inl ⟨ty, k, rest, hh, (Option.some.inj h).symm⟩
  · next t rest hh => exact .inr ⟨t, rest, hh, (Option.some.inj h).symm⟩

lemma take_eq_some {now : ℤ} (h : take st now = some st') :
    st.terminating = false ∧ st.batch = [] ∧ st.current = none ∧
      ∃ d ids rest, st.nexts = (d, ids) :: rest ∧ d ≤ now ∧
        st' = { st with nexts := rest, batch := ids } := by
  rw [take] at h
  split_ifs at h with hbusy
  push Not at hbusy
  split at h
  · cases h
  · next d ids rest hn =>
      split_ifs at h with hnow
      refine ⟨by simpa using hbusy.1, hbusy.2.1, hbusy.2.2, d, ids, rest, hn, ?_, ?_⟩
      · exact not_lt.mp hnow
      · exact (Option.some.inj h).symm

lemma check_eq_some (h : check st = some st') :
    st.current = none ∧ ∃ id rest, st.batch = id :: rest ∧
      (st.terminating = true ∧ st' = { st with batch := [] } ∨
        st.terminating = false ∧ st.erased id = true ∧ st' = { st with batch := rest } ∨
        st.terminating = false ∧ st.erased id = false ∧
          st' = { st with batch := rest, current := some (id, .deliver) }) := by
  rw [check] at h
  split at h
  · next id rest hc hb =>
      refine ⟨hc, id, rest, hb, ?_⟩
      split_ifs at h with hterm her <;> have h' := (Option.some.inj h).symm
      · exact .inl ⟨hterm, h'⟩
      · exact .inr (.inl ⟨by simpa using hterm, her, h'⟩)
      · exact .inr (.inr ⟨by simpa using hterm, by simpa using her, h'⟩)
  · cases h

lemma pass_eq_some {returns : Bool} (h : pass st returns = some st') :
    ∃ id t, st.current = some (id, .deliver) ∧ st.tasks[id]? = some t ∧
      (t.route = [] ∧ st' = { st with batch := [], current := none } ∨
        ∃ tick : Tick, tick.task = id ∧ (returns = true ∧
              st' = { st with ticks := st.ticks ++ [tick], current := some (id, .finish) } ∨
            returns = false ∧
              st' = { st with ticks := st.ticks ++ [tick], batch := [], current := none })) := by
  rw [pass] at h
  split at h
  · next id hc =>
      obtain ⟨t, ht, rfl⟩ := Option.map_eq_some_iff.mp h
      refine ⟨id, t, hc, ht, ?_⟩
      split
      · next e he => exact .inl ⟨route_eq_nil_of_error he, rfl⟩
      · next r hr =>
          refine .inr ⟨⟨id, t.type, t.tid, t.data, t.cookie, r⟩, rfl, ?_⟩
          cases returns
          · exact .inr ⟨rfl, rfl⟩
          · exact .inl ⟨rfl, rfl⟩
  · cases h

lemma finish_eq_some {tb : ℤ} (h : finish st tb = some st') :
    ∃ id t, st.current = some (id, .finish) ∧ st.tasks[id]? = some t ∧
      (t.type = .timer ∧ st' = { st with
          current := none
          nexts := push tb id st.nexts
          reinserted := st.reinserted ++ [id] } ∨ t.type = .alarm ∧
          st' = { st with current := none, erased := Function.update st.erased id true }) := by
  rw [finish] at h
  split at h
  · next id hc =>
      obtain ⟨t, ht, rfl⟩ := Option.map_eq_some_iff.mp h
      refine ⟨id, t, hc, ht, ?_⟩
      split
      · next hty => exact .inl ⟨hty, rfl⟩
      · next hty => exact .inr ⟨hty, rfl⟩
  · cases h

end

end Megatron.Timer
