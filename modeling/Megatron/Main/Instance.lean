import Megatron.Corelib.Route
import Megatron.Library.Runs
import Megatron.Library.Table
import Mathlib.Tactic.Simps.Basic

/-!
The table of services of an instance (`main/CInstance.cpp`), used by many callers at once: one call
at a time makes a service (`Exclusive.eq`).
-/

namespace Megatron.Instance

open Library Function

structure EventRef where
  addr : ℕ
  route : RouteT
  deriving DecidableEq, Repr

structure Want where
  sid : ServiceId
  event : Option EventRef
  deriving DecidableEq, Repr

abbrev Result := Except Exn (Option ℕ)

/-- `initService` after it has locked the mutex of the service. -/
inductive Stage where
  /-- The first search in the table of services. -/
  | find
  | findConstructor
  | findPlugin
  /-- `registerPluginDLL`. -/
  | registerPlugin (pn : String)
  | findConstructorAgain
  | checkTerminating (constr : ℕ)
  /-- The second search in the table of services. -/
  | findAgain (constr : ℕ)
  | configure (constr : ℕ)
  | construct (constr : ℕ)
  /-- The constructor is running. -/
  | constructing
  | insert (u : Option ℕ)
  | checkInserted (u : Option ℕ)
  /-- Hand `startService` to the service. -/
  | start (u : Option ℕ)
  /-- `listenToEvent` with `startService` is running. -/
  | starting (u : ℕ)
  | unlock (r : Result)

inductive Op where
  /-- There is no call. -/
  | idle
  /-- `sendEvent` tests `m_terminating`. -/
  | sendEvent (sid : ServiceId) (e : EventRef)
  | enter (w : Want)
  /-- Search the table of services. -/
  | lookup (w : Want)
  /-- `initService` tests `m_terminating`. -/
  | initService (w : Want)
  | initMutex (w : Want)
  | lockInit (w : Want) (m : ℕ)
  | locked (w : Want) (m : ℕ) (s : Stage)
  /-- Return the pointer or hand the event to it. -/
  | finish (w : Want) (r : Result)

/-- An event handed to `listenToEvent`. -/
inductive Delivery where
  | startService
  | event (e : EventRef)
  deriving DecidableEq, Repr

structure Object where
  sid : ServiceId
  isListener : Bool
  deriving DecidableEq, Repr

structure State where
  terminating : Bool
  /-- `config_z` is set. -/
  config : Bool
  /-- `services.container`. -/
  services : ServiceId → Option (Option ℕ)
  /-- `mx_initInProcess`. -/
  mutexes : ServiceId → Option ℕ
  nextMutex : ℕ
  /-- The call that has locked a mutex. -/
  owner : ℕ → Option ℕ
  /-- `service_constructors`. -/
  constructors : ServiceId → Option ℕ
  /-- `pluginInfo.services`. -/
  plugins : ServiceId → Option String
  calls : ℕ → Op
  objects : List Object
  invocations : ServiceId → ℕ
  /-- How often it has thrown. -/
  throws : ServiceId → ℕ
  /-- The events handed to an object. -/
  delivered : ℕ → List Delivery
  returned : List (ServiceId × Result)

def State.initial (config : Bool) (constructors : ServiceId → Option ℕ)
    (plugins : ServiceId → Option String) : State where
  terminating := false
  config := config
  services _ := none
  mutexes _ := none
  nextMutex := 0
  owner _ := none
  constructors := constructors
  plugins := plugins
  calls _ := .idle
  objects := []
  invocations _ := 0
  throws _ := 0
  delivered _ := []
  returned := []

/-- `dynamic_cast<ListenerBase*>` succeeds. -/
def State.isListener (st : State) (u : ℕ) : Bool := (st.objects[u]?).any Object.isListener

inductive Choice where
  | proceed
  | throws (e : Exn)
  | null
  | object (isListener : Bool)
  | registers (l : List (ServiceId × ℕ))

def registerService (constructors : ServiceId → Option ℕ) (r : ServiceId × ℕ) :
    ServiceId → Option ℕ := insertNew constructors r.1 r.2

def nextStage (st : State) (sid : ServiceId) (ch : Choice) : Stage → Option Stage
  | .find =>
    match st.services sid with
    | some u => some (.unlock (.ok u))
    | none => some .findConstructor
  | .findConstructor =>
    match st.constructors sid with
    | some (constr + 1) => some (.checkTerminating (constr + 1))
    | _ => some .findPlugin
  | .findPlugin =>
    let pn := (st.plugins sid).getD ""
    if pn = "" then
      some (.unlock (.error (.commonError "cannot find plugin for service  (sid ")))
    else some (.registerPlugin pn)
  | .registerPlugin _ =>
    match ch with
    | .registers _ => some .findConstructorAgain
    | .throws e => some (.unlock (.error e))
    | _ => none
  | .findConstructorAgain =>
    match st.constructors sid with
    | some constr => some (.checkTerminating constr)
    | none => some (.unlock (.error (.commonError "cannot load service ServiceId ")))
  | .checkTerminating constr =>
    if st.terminating then some (.unlock (.ok none)) else some (.findAgain constr)
  | .findAgain constr =>
    match st.services sid with
    | some u => some (.unlock (.ok u))
    | none => some (.configure constr)
  | .configure constr =>
    if st.config then
      match ch with
      | .proceed => some (.construct constr)
      | .throws e => some (.unlock (.error e))
      | _ => none
    else some (.unlock (.error (.commonError "if(!config_z)")))
  | .construct constr =>
    if constr = 0 then some (.unlock (.error (.commonError "if(constr==0)")))
    else some .constructing
  | .constructing =>
    match ch with
    | .object _ => some (.insert (some st.objects.length))
    | .null => some (.insert none)
    | .throws e => some (.unlock (.error e))
    | _ => none
  | .insert u => some (.checkInserted u)
  | .checkInserted u => if st.terminating then some (.unlock (.ok none)) else some (.start u)
  | .start none => some (.unlock (.ok none))
  | .start (some u) =>
    if st.isListener u then some (.starting u) else some (.unlock (.ok none))
  | .starting u =>
    match ch with
    | .proceed => some (.unlock (.ok (some u)))
    | .throws _ => some (.unlock (.ok none))
    | _ => none
  | .unlock _ => none

def execStage (st : State) (sid : ServiceId) (ch : Choice) : Stage → State
  | .registerPlugin _ =>
    match ch with
    | .registers l => { st with constructors := l.foldl registerService st.constructors }
    | _ => st
  | .construct constr =>
    if constr = 0 then st
    else { st with
      invocations := update st.invocations sid (st.invocations sid + 1) }
  | .constructing =>
    match ch with
    | .object isListener => { st with objects := st.objects ++ [⟨sid, isListener⟩] }
    | .throws _ => { st with throws := update st.throws sid (st.throws sid + 1) }
    | _ => st
  | .insert u => { st with services := insertNew st.services sid u }
  | .start (some u) =>
    if st.isListener u then { st with
      delivered := update st.delivered u (st.delivered u ++ [.startService]) }
    else st
  | _ => st

def next (st : State) (ch : Choice) : Op → Option Op
  | .idle => none
  | .sendEvent sid e =>
    if st.terminating then some .idle
    else some (.enter ⟨sid, some { e with route := e.route.pushBack (.localService sid) }⟩)
  | .enter w => if st.terminating then some .idle else some (.lookup w)
  | .lookup w =>
    match st.services w.sid with
    | some (some u) => some (.finish w (.ok (some u)))
    | _ => some (.initService w)
  | .initService w =>
    if st.terminating then some (.finish w (.ok none)) else some (.initMutex w)
  | .initMutex w => some (.lockInit w ((st.mutexes w.sid).getD st.nextMutex))
  | .lockInit w m => if st.owner m = none then some (.locked w m .find) else none
  | .locked w _ (.unlock r) => some (.finish w r)
  | .locked w m s => (nextStage st w.sid ch s).map (.locked w m)
  | .finish _ _ => some .idle

/-- The end of a call. Only `getServiceOrCreate` throws. -/
def finish (st : State) (w : Want) (r : Result) : State :=
  match w.event, r with
  | none, .ok none =>
    { st with returned := st.returned ++ [(w.sid, .error (.commonError "cannot find service "))] }
  | none, r => { st with returned := st.returned ++ [(w.sid, r)] }
  | some e, .ok (some u) =>
    if st.isListener u then
      { st with delivered := update st.delivered u (st.delivered u ++ [.event e]) }
    else st
  | some _, _ => st

/-- What an operation of call `c` does to the state. -/
def exec (st : State) (c : ℕ) (ch : Choice) : Op → State
  | .enter w =>
    if st.terminating = true ∧ w.event = none then
      { st with returned := st.returned ++ [(w.sid, .ok none)] }
    else st
  | .initMutex w =>
    { st with
      mutexes := insertNew st.mutexes w.sid st.nextMutex
      nextMutex := st.nextMutex + 1 }
  | .lockInit _ m => { st with owner := update st.owner m (some c) }
  | .locked _ m (.unlock _) => { st with owner := update st.owner m none }
  | .locked w _ s => execStage st w.sid ch s
  | .finish w r => finish st w r
  | .idle | .sendEvent _ _ | .lookup _ | .initService _ => st

inductive Request where
  | sendEvent (sid : ServiceId) (e : EventRef)
  | forwardEvent (sid : ServiceId) (e : EventRef)
  | getServiceOrCreate (sid : ServiceId)
  /-- `sendEvent` to a listener that `getServiceOrCreate` has returned. -/
  | sendListener (sid : ServiceId) (l : ℕ) (e : EventRef)

/-- The caller has the pointer that it uses. -/
def Request.Possible (st : State) : Request → Prop
  | .sendListener sid l _ => (sid, .ok (some l)) ∈ st.returned
  | _ => True

instance (st : State) : (r : Request) → Decidable (r.Possible st)
  | .sendListener sid l _ => inferInstanceAs (Decidable ((sid, .ok (some l)) ∈ st.returned))
  | .sendEvent _ _ | .forwardEvent _ _ | .getServiceOrCreate _ => .isTrue trivial

def Request.op : Request → Op
  | .sendEvent sid e => .sendEvent sid e
  | .forwardEvent sid e => .enter ⟨sid, some e⟩
  | .getServiceOrCreate sid => .enter ⟨sid, none⟩
  | .sendListener sid l e =>
    .finish ⟨sid, some { e with route := e.route.pushBack (.listener (.ofNat 64 l)) }⟩
      (.ok (some l))

inductive Action where
  | call (c : ℕ) (r : Request)
  | exec (c : ℕ) (ch : Choice)
  | terminate
  | registerService (sid : ServiceId) (constr : ℕ)

@[simps] def State.setCall (st : State) (c : ℕ) (op : Op) : State :=
  { st with calls := update st.calls c op }

/-- One step; `none` if it is not possible. -/
def step (st : State) : Action → Option State
  | .call c r =>
    match st.calls c with
    | .idle => if r.Possible st then some (st.setCall c r.op) else none
    | _ => none
  | .exec c ch => (next st ch (st.calls c)).map fun op => (exec st c ch (st.calls c)).setCall c op
  | .terminate => some { st with terminating := true }
  | .registerService sid constr =>
    some { st with constructors := registerService st.constructors (sid, constr) }

def execs (c n : ℕ) : List Action := List.replicate n (.exec c .proceed)

section

variable {st st' : State} {c : ℕ} {ch : Choice} {op : Op} {w : Want} {m : ℕ} {s : Stage}

lemma step_call_eq_some {r : Request} (h : step st (.call c r) = some st') :
    st.calls c = .idle ∧ r.Possible st ∧ st' = st.setCall c r.op := by
  rw [step] at h
  split at h
  · next hidle =>
      split_ifs at h with hpossible
      exact ⟨hidle, hpossible, (Option.some.inj h).symm⟩
  · cases h

lemma step_exec_eq_some : step st (.exec c ch) = some st' ↔
    ∃ op, next st ch (st.calls c) = some op ∧ st' = (exec st c ch (st.calls c)).setCall c op := by
  rw [step, Option.map_eq_some_iff]
  simp only [eq_comm]

lemma next_locked_eq_some (h : next st ch (.locked w m s) = some op) :
    (∃ r, s = .unlock r ∧ op = .finish w r) ∨ ∃ s', nextStage st w.sid ch s = some s' ∧
    op = .locked w m s' ∧ exec st c ch (.locked w m s) = execStage st w.sid ch s := by
  cases s with
  | unlock r => exact .inl ⟨r, rfl, (Option.some.inj h).symm⟩
  | _ =>
    simp only [next, Option.map_eq_some_iff] at h
    obtain ⟨s', hs', rfl⟩ := h
    exact .inr ⟨s', hs', rfl, rfl⟩

structure SameServices (st st' : State) : Prop where
  services : st'.services = st.services
  objects : st'.objects = st.objects
  invocations : st'.invocations = st.invocations
  throws : st'.throws = st.throws
  delivered : st'.delivered = st.delivered

inductive Effect (st : State) (ch : Choice) (op : Op) (st' : State) : Prop
  | same (h : SameServices st st')
  | invoke (w : Want) (m constr : ℕ) (hop : op = .locked w m (.construct constr))
      (hconstr : constr ≠ 0)
      (heq : st' = { st with
        invocations := update st.invocations w.sid (st.invocations w.sid + 1) })
  | make (w : Want) (m : ℕ) (isListener : Bool) (hop : op = .locked w m .constructing)
      (hch : ch = .object isListener)
      (heq : st' = { st with objects := st.objects ++ [⟨w.sid, isListener⟩] })
  | throw (w : Want) (m : ℕ) (e : Exn) (hop : op = .locked w m .constructing)
      (hch : ch = .throws e)
      (heq : st' = { st with throws := update st.throws w.sid (st.throws w.sid + 1) })
  | insert (w : Want) (m : ℕ) (u : Option ℕ) (hop : op = .locked w m (.insert u))
      (heq : st' = { st with services := insertNew st.services w.sid u })
  | start (w : Want) (m u : ℕ) (hop : op = .locked w m (.start (some u)))
      (hl : st.isListener u = true)
      (heq : st' = { st with
        delivered := update st.delivered u (st.delivered u ++ [.startService]) })
  | hand (w : Want) (e : EventRef) (u : ℕ) (hop : op = .finish w (.ok (some u)))
      (he : w.event = some e) (hl : st.isListener u = true)
      (heq : st' = { st with
        delivered := update st.delivered u (st.delivered u ++ [.event e]) })

lemma exec_locked_effect (st : State) (c : ℕ) (ch : Choice) (w : Want) (m : ℕ) (s : Stage) :
    Effect st ch (.locked w m s) (exec st c ch (.locked w m s)) := by
  cases s with
  | construct constr =>
    simp only [exec, execStage]
    split_ifs with hconstr
    · exact .same ⟨rfl, rfl, rfl, rfl, rfl⟩
    · exact .invoke w m constr rfl hconstr rfl
  | constructing =>
    cases ch with
    | object isListener => exact .make w m isListener rfl rfl rfl
    | throws e => exact .throw w m e rfl rfl rfl
    | proceed | null | registers l => exact .same ⟨rfl, rfl, rfl, rfl, rfl⟩
  | insert u => exact .insert w m u rfl rfl
  | start u =>
    cases u with
    | none => exact .same ⟨rfl, rfl, rfl, rfl, rfl⟩
    | some u =>
      simp only [exec, execStage]
      split_ifs with hl
      · exact .start w m u rfl hl rfl
      · exact .same ⟨rfl, rfl, rfl, rfl, rfl⟩
  | registerPlugin pn => cases ch <;> exact .same ⟨rfl, rfl, rfl, rfl, rfl⟩
  | _ => exact .same ⟨rfl, rfl, rfl, rfl, rfl⟩

lemma exec_effect (st : State) (c : ℕ) (ch : Choice) (op : Op) :
    Effect st ch op (exec st c ch op) := by
  cases op with
  | locked w m s => exact exec_locked_effect st c ch w m s
  | finish w r =>
    simp only [exec, finish]
    split
    · exact .same ⟨rfl, rfl, rfl, rfl, rfl⟩
    · exact .same ⟨rfl, rfl, rfl, rfl, rfl⟩
    · next e u he =>
        split_ifs with hl
        · exact .hand w e u rfl he hl rfl
        · exact .same ⟨rfl, rfl, rfl, rfl, rfl⟩
    · exact .same ⟨rfl, rfl, rfl, rfl, rfl⟩
  | enter w =>
    rw [exec]
    split_ifs <;> exact .same ⟨rfl, rfl, rfl, rfl, rfl⟩
  | _ => exact .same ⟨rfl, rfl, rfl, rfl, rfl⟩

lemma exec_delivered (st : State) (c : ℕ) (ch : Choice) (op : Op) (u : ℕ) :
    (exec st c ch op).delivered u = st.delivered u ∨
      (∃ w m, op = .locked w m (.start (some u)) ∧ st.isListener u = true ∧
        (exec st c ch op).delivered u = st.delivered u ++ [Delivery.startService]) ∨
      ∃ w e, op = .finish w (.ok (some u)) ∧ w.event = some e ∧ st.isListener u = true ∧
        (exec st c ch op).delivered u = st.delivered u ++ [Delivery.event e] := by
  cases exec_effect st c ch op with
  | same h => exact .inl (congrFun h.delivered u)
  | invoke w m constr hop hconstr heq | make w m isListener hop hch heq
  | throw w m e hop hch heq | insert w m v hop heq => exact .inl (by rw [heq])
  | start w m v hop hl heq =>
    by_cases huv : u = v
    · subst huv
      exact .inr (.inl ⟨w, m, hop, hl, by rw [heq]; exact update_self _ _ _⟩)
    · exact .inl (by rw [heq]; exact update_of_ne huv _ _)
  | hand w e v hop he hl heq =>
    by_cases huv : u = v
    · subst huv
      exact .inr (.inr ⟨w, e, hop, he, hl, by rw [heq]; exact update_self _ _ _⟩)
    · exact .inl (by rw [heq]; exact update_of_ne huv _ _)

structure SameControl (st st' : State) : Prop where
  calls : st'.calls = st.calls
  terminating : st'.terminating = st.terminating
  mutexes : st'.mutexes = st.mutexes
  owner : st'.owner = st.owner

lemma execStage_sameControl (st : State) (sid : ServiceId) (ch : Choice) (s : Stage) :
    SameControl st (execStage st sid ch s) := by
  fun_cases execStage <;> exact ⟨rfl, rfl, rfl, rfl⟩

lemma execStage_returned (st : State) (sid : ServiceId) (ch : Choice) (s : Stage) :
    (execStage st sid ch s).returned = st.returned := by
  fun_cases execStage <;> rfl

lemma finish_sameControl (st : State) (w : Want) (r : Result) : SameControl st (finish st w r) := by
  fun_cases finish <;> exact ⟨rfl, rfl, rfl, rfl⟩

lemma exec_calls_terminating (st : State) (c : ℕ) (ch : Choice) (op : Op) :
    (exec st c ch op).calls = st.calls ∧ (exec st c ch op).terminating = st.terminating := by
  cases op with
  | locked w m s =>
    have hs := execStage_sameControl st w.sid ch s
    cases s with
    | unlock r => exact ⟨rfl, rfl⟩
    | _ => exact ⟨hs.calls, hs.terminating⟩
  | finish w r =>
    have hr := finish_sameControl st w r
    exact ⟨hr.calls, hr.terminating⟩
  | enter w =>
    rw [exec]
    split_ifs <;> exact ⟨rfl, rfl⟩
  | _ => exact ⟨rfl, rfl⟩

@[simp] lemma exec_calls (op : Op) : (exec st c ch op).calls = st.calls :=
  (exec_calls_terminating st c ch op).1

@[simp] lemma exec_terminating (op : Op) : (exec st c ch op).terminating = st.terminating :=
  (exec_calls_terminating st c ch op).2

/-! ### Mutual exclusion -/

def Op.Holds (st : State) (c : ℕ) : Op → Prop
  | .lockInit w m => st.mutexes w.sid = some m
  | .locked w m _ => st.mutexes w.sid = some m ∧ st.owner m = some c
  | _ => True

def Exclusive (st : State) : Prop := ∀ c, (st.calls c).Holds st c

/-- **Mutual exclusion**: one call at a time is inside `initService` for a service. -/
theorem Exclusive.eq (h : Exclusive st) {c₁ c₂ m₁ m₂ : ℕ} {w₁ w₂ : Want} {s₁ s₂ : Stage}
    (h₁ : st.calls c₁ = .locked w₁ m₁ s₁) (h₂ : st.calls c₂ = .locked w₂ m₂ s₂)
    (hsid : w₁.sid = w₂.sid) : c₁ = c₂ := by
  have hc₁ := h c₁
  have hc₂ := h c₂
  rw [h₁] at hc₁
  rw [h₂] at hc₂
  obtain rfl : m₁ = m₂ :=
    Option.some.inj (hc₁.1.symm.trans ((congrArg st.mutexes hsid).trans hc₂.1))
  exact Option.some.inj (hc₁.2.symm.trans hc₂.2)

lemma Op.Holds.mono {op : Op} (h : op.Holds st c)
    (hmutexes : ∀ sid m, st.mutexes sid = some m → st'.mutexes sid = some m)
    (howner : ∀ m, st.owner m = some c → st'.owner m = some c) : op.Holds st' c := by
  cases op with
  | lockInit w m => exact hmutexes _ _ h
  | locked w m s => exact ⟨hmutexes _ _ h.1, howner _ h.2⟩
  | _ => trivial

lemma exec_mutexes {sid : ServiceId} (op : Op) (h : st.mutexes sid = some m) :
    (exec st c ch op).mutexes sid = some m := by
  cases op with
  | initMutex w => exact insertNew_of_some h
  | locked w m s =>
    have hs := execStage_sameControl st w.sid ch s
    cases s with
    | unlock r => exact h
    | _ => exact (congrFun hs.mutexes _).trans h
  | finish w r => exact (congrFun (finish_sameControl st w r).mutexes _).trans h
  | enter w =>
    rw [exec]
    split_ifs <;> exact h
  | _ => exact h

lemma Exclusive.exec_owner (h : Exclusive st) (hnext : next st ch (st.calls c) = some op)
    {c' : ℕ} (hne : c' ≠ c) (howner : st.owner m = some c') :
    (exec st c ch (st.calls c)).owner m = some c' := by
  have hc := h c
  generalize st.calls c = old at hc hnext
  cases old with
  | lockInit w m₀ =>
    have hfree : st.owner m₀ = none := by
      rw [next] at hnext
      split_ifs at hnext with hfree
      exact hfree
    have hm : m ≠ m₀ := by
      rintro rfl
      rw [hfree] at howner
      cases howner
    simp only [exec, update_of_ne hm, howner]
  | locked w m₀ s =>
    rcases next_locked_eq_some hnext with ⟨r, rfl, -⟩ | ⟨s', -, -, hexec⟩
    · have hm : m ≠ m₀ := by
        rintro rfl
        exact hne (Option.some.inj (howner.symm.trans hc.2))
      simp only [exec, update_of_ne hm, howner]
    · rw [hexec, (execStage_sameControl st w.sid ch s).owner, howner]
  | finish w r => exact (congrFun (finish_sameControl st w r).owner m).trans howner
  | enter w =>
    rw [exec]
    split_ifs <;> exact howner
  | _ => exact howner

lemma next_holds (h : (st.calls c).Holds st c) (hnext : next st ch (st.calls c) = some op) :
    op.Holds (exec st c ch (st.calls c)) c := by
  generalize st.calls c = old at h hnext
  cases old with
  | initMutex w =>
    cases hnext
    cases hm : st.mutexes w.sid with
    | some m => exact insertNew_of_some hm
    | none => simp [Op.Holds, exec, insertNew, hm]
  | lockInit w m =>
    rw [next] at hnext
    split_ifs at hnext
    cases hnext
    exact ⟨h, update_self _ _ _⟩
  | locked w m s =>
    rcases next_locked_eq_some (c := c) hnext with ⟨r, rfl, rfl⟩ | ⟨s', -, rfl, hexec⟩
    · trivial
    · have hs := execStage_sameControl st w.sid ch s
      rw [hexec]
      exact ⟨(congrFun hs.mutexes _).trans h.1, (congrFun hs.owner m).trans h.2⟩
  | _ =>
    simp only [next] at hnext
    repeat' split at hnext
    all_goals cases hnext
    all_goals trivial

theorem Exclusive.step {a : Action} (h : Exclusive st) (hs : step st a = some st') :
    Exclusive st' := by
  cases a with
  | call c r =>
    obtain ⟨-, -, rfl⟩ := step_call_eq_some hs
    refine (forall_update_iff _ _).mpr ⟨?_, fun c' _ => (h c').mono ?_ ?_⟩
    · cases r <;> trivial
    · exact fun _ _ hm => hm
    · exact fun _ hm => hm
  | exec c ch =>
    obtain ⟨op, hnext, rfl⟩ := step_exec_eq_some.mp hs
    simp only [Exclusive, State.setCall_calls, exec_calls]
    refine (forall_update_iff _ _).mpr ⟨?_, fun c' hne => (h c').mono ?_ ?_⟩
    · exact (next_holds (h c) hnext).mono (fun _ _ hm => hm) fun _ hm => hm
    · exact fun _ _ hm => exec_mutexes _ hm
    · exact fun _ hm => h.exec_owner hnext hne hm
  | terminate | registerService sid constr =>
    cases hs
    exact fun c => (h c).mono (fun _ _ hm => hm) fun _ hm => hm

end

end Megatron.Instance
