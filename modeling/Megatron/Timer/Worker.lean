import Megatron.Timer.Conservation
import Megatron.Library.Buckets

/-!
The worker thread of the timer service with its loops and its waits
(`modules/timer/timerService.cpp`, `worker`).
-/

namespace Megatron.Timer

open Library Option

inductive Place where
  /-- At the top of the outer loop. -/
  | outer
  /-- In `m_condition.wait()`. -/
  | waiting
  /-- At the top of the inner loop. -/
  | inner
  /-- In `m_condition.timedwait(ts)`. -/
  | timedWaiting (ts : ℤ)
  /-- In the loop over `itSecondCopy`. -/
  | batch
  | returned
  deriving DecidableEq, Repr

def Place.blocked : Place → Bool
  | .waiting | .timedWaiting _ => true
  | _ => false

structure Meter where
  waits : ℕ
  outer : ℕ
  inner : ℕ
  batches : ℕ
  throws : ℕ
  deriving DecidableEq, Repr

structure Machine where
  service : State
  place : Place
  /-- The reading of `getNow()`. -/
  clock : ℤ
  woken : Bool
  owed : Bool
  queue : List (ℤ × ℕ)
  meter : Meter

def Machine.initial : Machine where
  service := .initial
  place := .outer
  clock := 0
  woken := false
  owed := false
  queue := []
  meter := ⟨0, 0, 0, 0, 0⟩

/-- The steps of the worker, of the handlers, of the clock and of `deinit`. -/
inductive Move where
  | outer
  | wake
  | inner
  | check
  | pass (returns : Bool)
  | finish (tb : ℤ)
  | begin (ev : Event)
  | handle (tb : ℤ)
  | signal
  | setClock (now : ℤ)
  | deinit
  | clear
  | broadcast
  deriving DecidableEq, Repr

def Move.ofWorker : Move → Bool
  | .outer | .wake | .inner | .check | .pass _ | .finish _ => true
  | _ => false

def Move.ofHandler : Move → Bool
  | .handle _ | .signal => true
  | _ => false

def inserted (st : State) : Move → Option (ℤ × ℕ)
  | .handle tb =>
    match st.handler with
    | .insert _ :: _ => some (tb, st.tasks.length)
    | _ => none
  | .finish tb =>
    match st.current with
    | some (id, .finish) =>
      if (st.tasks[id]?).any (·.type = .timer) then some (tb, id) else none
    | _ => none
  | _ => none

/-! ### Steps of the worker -/

namespace Machine

variable (m : Machine)

def outer : Option Machine :=
  if m.place ≠ .outer then none
  else
    let m := { m with meter := { m.meter with outer := m.meter.outer + 1 } }
    if m.service.terminating then some { m with place := .returned }
    else if m.service.nexts = [] then some { m with place := .waiting, woken := false }
    else some { m with place := .inner }

def wake : Option Machine :=
  if m.place.blocked then
    let m := { m with meter := ⟨m.meter.waits + 1, 0, 0, 0, 0⟩, woken := false }
    if m.service.terminating then some { m with place := .returned }
    else some { m with place := .inner }
  else none

/-- The top of the inner loop. -/
def inner : Option Machine :=
  if m.place ≠ .inner then none
  else
    let m := { m with meter := { m.meter with inner := m.meter.inner + 1 } }
    if m.service.terminating then some { m with place := .returned }
    else
      match m.service.nexts with
      | [] => some m
      | (d, _) :: _ =>
        if m.clock < d then some { m with place := .timedWaiting d, woken := false }
        else (take m.service m.clock).map fun st => { m with
          service := st
          place := .batch
          queue := m.queue.filter (·.1 ≠ d)
          meter := { m.meter with batches := m.meter.batches + 1 } }

def check : Option Machine :=
  if m.place ≠ .batch then none
  else if m.service.batch = [] ∧ m.service.current = none then some { m with place := .inner }
  else (Timer.check m.service).map fun st =>
    if m.service.terminating then { m with service := st, place := .returned }
    else { m with service := st }

def pass (returns : Bool) : Option Machine :=
  if m.place ≠ .batch then none
  else (Timer.pass m.service returns).map fun st =>
    if st.current = none then { m with
      service := st
      place := .outer
      meter := { m.meter with throws := m.meter.throws + 1 } }
    else { m with service := st }

def finish (tb : ℤ) : Option Machine :=
  if m.place ≠ .batch then none
  else (Timer.finish m.service tb).map fun st => { m with
    service := st
    queue := m.queue ++ (inserted m.service (.finish tb)).toList }

/-! ### Steps of the handlers and of `deinit` -/

def begin (ev : Event) : Option Machine :=
  if m.owed then none
  else (Timer.begin m.service ev).map fun st => { m with service := st }

def handle (tb : ℤ) : Option Machine :=
  if m.owed then none
  else (Timer.handle m.service tb).map fun st => { m with
    service := st
    owed := (inserted m.service (.handle tb)).isSome
    queue := m.queue ++ (inserted m.service (.handle tb)).toList }

def signal : Option Machine :=
  if m.owed then some { m with owed := false, woken := m.woken || m.place.blocked } else none

def step (m : Machine) : Move → Option Machine
  | .outer => m.outer
  | .wake => m.wake
  | .inner => m.inner
  | .check => m.check
  | .pass returns => m.pass returns
  | .finish tb => m.finish tb
  | .begin ev => m.begin ev
  | .handle tb => m.handle tb
  | .signal => m.signal
  | .setClock now => some { m with clock := now }
  | .deinit => some { m with service := { m.service with terminating := true } }
  | .clear =>
    if m.service.terminating then
      some { m with service := { m.service with nexts := [] }, queue := [] }
    else none
  | .broadcast =>
    if m.service.terminating then some { m with woken := m.woken || m.place.blocked } else none

inductive Effect (m : Machine) : Move → Machine → Prop
  | outerReturn : m.place = .outer → m.service.terminating = true →
      Effect m .outer { m with
        place := .returned, meter := { m.meter with outer := m.meter.outer + 1 } }
  | outerWait : m.place = .outer → m.service.terminating = false → m.service.nexts = [] →
      Effect m .outer { m with
        place := .waiting, woken := false
        meter := { m.meter with outer := m.meter.outer + 1 } }
  | outerEnter : m.place = .outer → m.service.terminating = false → m.service.nexts ≠ [] →
      Effect m .outer { m with
        place := .inner, meter := { m.meter with outer := m.meter.outer + 1 } }
  | wakeReturn : m.place.blocked = true → m.service.terminating = true →
      Effect m .wake { m with
        place := .returned, woken := false, meter := ⟨m.meter.waits + 1, 0, 0, 0, 0⟩ }
  | wakeResume : m.place.blocked = true → m.service.terminating = false →
      Effect m .wake { m with
        place := .inner, woken := false, meter := ⟨m.meter.waits + 1, 0, 0, 0, 0⟩ }
  | innerReturn : m.place = .inner → m.service.terminating = true →
      Effect m .inner { m with
        place := .returned, meter := { m.meter with inner := m.meter.inner + 1 } }
  | innerIdle : m.place = .inner → m.service.terminating = false → m.service.nexts = [] →
      Effect m .inner { m with meter := { m.meter with inner := m.meter.inner + 1 } }
  | innerSleep :
      m.place = .inner → m.service.terminating = false → m.service.nexts = (d, ids) :: rest →
      m.clock < d → Effect m .inner { m with
        place := .timedWaiting d, woken := false
        meter := { m.meter with inner := m.meter.inner + 1 } }
  | innerTake : m.place = .inner → m.service.nexts = (d, ids) :: rest → d ≤ m.clock →
      take m.service m.clock = some { m.service with nexts := rest, batch := ids } →
      Effect m .inner { m with
        service := { m.service with nexts := rest, batch := ids }
        place := .batch
        queue := m.queue.filter (·.1 ≠ d)
        meter := { m.meter with
          inner := m.meter.inner + 1, batches := m.meter.batches + 1 } }
  | checkDone : m.place = .batch → m.service.batch = [] → m.service.current = none →
      Effect m .check { m with place := .inner }
  | checkReturn : m.place = .batch → Timer.check m.service = some st →
      m.service.terminating = true → Effect m .check { m with service := st, place := .returned }
  | checkTask : m.place = .batch → Timer.check m.service = some st →
      m.service.terminating = false → Effect m .check { m with service := st }
  | passThrow : m.place = .batch → Timer.pass m.service returns = some st → st.current = none →
      Effect m (.pass returns) { m with
        service := st, place := .outer
        meter := { m.meter with throws := m.meter.throws + 1 } }
  | passed : m.place = .batch → Timer.pass m.service returns = some st → st.current ≠ none →
      Effect m (.pass returns) { m with service := st }
  | finish : m.place = .batch → Timer.finish m.service tb = some st → Effect m (.finish tb) { m with
        service := st, queue := m.queue ++ (inserted m.service (.finish tb)).toList }
  | begin : m.owed = false → Timer.begin m.service ev = some st →
      Effect m (.begin ev) { m with service := st }
  | handle : m.owed = false → Timer.handle m.service tb = some st → Effect m (.handle tb) { m with
        service := st
        owed := (inserted m.service (.handle tb)).isSome
        queue := m.queue ++ (inserted m.service (.handle tb)).toList }
  | signal : m.owed = true →
      Effect m .signal { m with owed := false, woken := m.woken || m.place.blocked }
  | setClock : Effect m (.setClock now) { m with clock := now }
  | deinit : Effect m .deinit { m with service := { m.service with terminating := true } }
  | clear : m.service.terminating = true →
      Effect m .clear { m with service := { m.service with nexts := [] }, queue := [] }
  | broadcast : m.service.terminating = true →
      Effect m .broadcast { m with woken := m.woken || m.place.blocked }

variable {m}
variable {m' : Machine} {mv : Move}

lemma inner_effect (h : m.inner = some m') : Effect m .inner m' := by
  simp only [inner] at h
  split_ifs at h with hp hterm
  · cases h
    exact .innerReturn (not_not.mp hp) hterm
  · have hterm' : m.service.terminating = false := by simpa using hterm
    split at h
    · next hn =>
        cases h
        exact .innerIdle (not_not.mp hp) hterm' hn
    · next d ids rest hn =>
        split_ifs at h with hlt
        · cases h
          exact .innerSleep (not_not.mp hp) hterm' hn hlt
        · obtain ⟨st, htake, rfl⟩ := map_eq_some_iff.mp h
          obtain ⟨-, -, -, d', ids', rest', hn', hd, rfl⟩ := take_eq_some htake
          obtain ⟨⟨rfl, rfl⟩, rfl⟩ : (d = d' ∧ ids = ids') ∧ rest = rest' := by
            simpa using hn.symm.trans hn'
          exact .innerTake (not_not.mp hp) hn hd htake

theorem step_effect (h : step m mv = some m') : Effect m mv m' := by
  cases mv with
  | outer =>
    simp only [step, outer] at h
    split_ifs at h with hp hterm hn <;> cases h
    · exact .outerReturn (not_not.mp hp) hterm
    · exact .outerWait (not_not.mp hp) (by simpa using hterm) hn
    · exact .outerEnter (not_not.mp hp) (by simpa using hterm) hn
  | wake =>
    simp only [step, wake] at h
    split_ifs at h with hb hterm <;> cases h
    · exact .wakeReturn hb hterm
    · exact .wakeResume hb (by simpa using hterm)
  | inner => exact inner_effect h
  | check =>
    simp only [step, check] at h
    split_ifs at h with hp hdone hterm
    · cases h
      exact .checkDone (not_not.mp hp) hdone.1 hdone.2
    · obtain ⟨st, hst, rfl⟩ := map_eq_some_iff.mp h
      exact .checkReturn (not_not.mp hp) hst hterm
    · obtain ⟨st, hst, rfl⟩ := map_eq_some_iff.mp h
      exact .checkTask (not_not.mp hp) hst (by simpa using hterm)
  | pass returns =>
    simp only [step, pass] at h
    split_ifs at h with hp
    obtain ⟨st, hst, hm'⟩ := map_eq_some_iff.mp h
    split_ifs at hm' with hcur <;> subst hm'
    · exact .passThrow (not_not.mp hp) hst hcur
    · exact .passed (not_not.mp hp) hst hcur
  | finish tb =>
    simp only [step, finish] at h
    split_ifs at h with hp
    obtain ⟨st, hst, rfl⟩ := map_eq_some_iff.mp h
    exact .finish (not_not.mp hp) hst
  | begin ev =>
    simp only [step, begin] at h
    split_ifs at h with howed
    obtain ⟨st, hst, rfl⟩ := map_eq_some_iff.mp h
    exact .begin (by simpa using howed) hst
  | handle tb =>
    simp only [step, handle] at h
    split_ifs at h with howed
    obtain ⟨st, hst, rfl⟩ := map_eq_some_iff.mp h
    exact .handle (by simpa using howed) hst
  | signal =>
    simp only [step, signal] at h
    split_ifs at h with howed
    cases h
    exact .signal howed
  | setClock now | deinit =>
    cases h
    constructor
  | clear =>
    simp only [step] at h
    split_ifs at h with hterm
    cases h
    exact .clear hterm
  | broadcast =>
    simp only [step] at h
    split_ifs at h with hterm
    cases h
    exact .broadcast hterm

end Machine

def Move.action (now : ℤ) : Move → Option Action
  | .inner => some (.take now)
  | .check => some .check
  | .pass returns => some (.pass returns)
  | .finish tb => some (.finish tb)
  | .begin ev => some (.begin ev)
  | .handle tb => some (.handle tb)
  | .deinit => some .deinit
  | .clear => some .clear
  | .outer | .wake | .signal | .setClock _ | .broadcast => none

lemma Move.action_inj {now : ℤ} {mv mv' : Move} {a : Action} (h : mv.action now = some a)
    (h' : mv'.action now = some a) : mv = mv' := by
  cases mv <;> cases h <;> cases mv' <;> cases h' <;> rfl

/-- **Every step of the machine is a step of the service or leaves it as it is.** -/
theorem step_service {m m' : Machine} {mv : Move} (h : m.step mv = some m') : m'.service =
    m.service ∨ ∃ a, mv.action m.clock = some a ∧ step m.service a = some m'.service := by
  cases Machine.step_effect h with
  | innerTake hp hn hd htake => exact .inr ⟨_, rfl, htake⟩
  | checkReturn hp hst | checkTask hp hst | passThrow hp hst | passed hp hst | finish hp hst
  | begin howed hst | handle howed hst => exact .inr ⟨_, rfl, hst⟩
  | deinit => exact .inr ⟨_, rfl, rfl⟩
  | clear hterm => exact .inr ⟨_, rfl, if_pos hterm⟩
  | outerReturn | outerWait | outerEnter | wakeReturn | wakeResume | innerReturn | innerIdle
  | innerSleep | checkDone | signal | setClock | broadcast => exact .inl rfl

end Megatron.Timer
