import Megatron.Library.Runs
import Megatron.ObjectProxy.Service

/-!
Deliveries of the threaded object proxy together with objects that come and go: the objects that are
called are alive (`objects_called_alive`).
-/

namespace Megatron.ObjectProxy

open Library Function

variable {β ε : Type}

/-- Where a call of `Threaded::handleEvent` is. -/
inductive Delivery (β ε : Type) where
  | idle
  | found (addr : Addr) (e : ProxyEvent β)
  /-- In `OH_handleObjectEvent`. -/
  | calling (addr : Addr) (e : ProxyEvent β)
  | done (o : Outcome β ε)

def Delivery.handed : Delivery β ε → Option (Addr × ProxyEvent β)
  | .idle => none
  | .found _ _ => none
  | .calling addr e => some (addr, e)
  | .done o => o.handed

structure Call (β : Type) where
  delivery : ℕ
  addr : Addr
  event : ProxyEvent β
  registered : Bool
  deriving DecidableEq, Repr

structure Proxy (β ε : Type) where
  /-- `__mx_handlers`. -/
  handlers : Finset Addr
  deliveries : ℕ → Delivery β ε
  /-- The calls of the objects, in order. -/
  calls : List (Call β)

def Proxy.initial : Proxy β ε := ⟨∅, fun _ => .idle, []⟩

inductive Action (β ε : Type) where
  | addObjectHandler (h : Addr)
  | removeObjectHandler (h : Addr)
  /-- `handleEvent`, up to the release of the lock. -/
  | find (d : ℕ) (e : ProxyEvent β)
  | call (d : ℕ)
  /-- The object returns or throws. -/
  | finish (d : ℕ) (r : Except ε Bool)

def Delivery.afterFind : Found β → Delivery β ε
  | .finished result => .done ⟨none, result.mapError .own⟩
  | .object addr e => .found addr e

def step (s : Proxy β ε) : Action β ε → Option (Proxy β ε)
  | .addObjectHandler h => some { s with handlers := insert h s.handlers }
  | .removeObjectHandler h => some { s with handlers := s.handlers.erase h }
  | .find d e =>
    match s.deliveries d with
    | .idle => some { s with
        deliveries := update s.deliveries d (.afterFind (Threaded.find s.handlers e)) }
    | _ => none
  | .call d =>
    match s.deliveries d with
    | .found addr e => some { s with
        deliveries := update s.deliveries d (.calling addr e)
        calls := s.calls ++ [⟨d, addr, e, decide (addr ∈ s.handlers)⟩] }
    | _ => none
  | .finish d r =>
    match s.deliveries d with
    | .calling addr e => some { s with
        deliveries := update s.deliveries d
          (.done (Threaded.deliver (fun _ _ => r) (.object addr e))) }
    | _ => none

variable {s s' : Proxy β ε} {a : Action β ε}

inductive Effect (s : Proxy β ε) : Action β ε → Proxy β ε → Prop
  | add : Effect s (.addObjectHandler h) { s with handlers := insert h s.handlers }
  | remove : Effect s (.removeObjectHandler h) { s with handlers := s.handlers.erase h }
  | find : s.deliveries d = .idle → Effect s (.find d e) { s with
        deliveries := update s.deliveries d (.afterFind (Threaded.find s.handlers e)) }
  | call : s.deliveries d = .found addr e → Effect s (.call d) { s with
        deliveries := update s.deliveries d (.calling addr e)
        calls := s.calls ++ [⟨d, addr, e, decide (addr ∈ s.handlers)⟩] }
  | finish : s.deliveries d = .calling addr e → Effect s (.finish d r) { s with
        deliveries := update s.deliveries d
          (.done (Threaded.deliver (fun _ _ => r) (.object addr e))) }

theorem step_effect (h : step s a = some s') : Effect s a s' := by
  cases a with
  | addObjectHandler x | removeObjectHandler x =>
    cases h
    constructor
  | find d e =>
    simp only [step] at h
    split at h
    · next hd =>
        cases h
        exact .find hd
    · cases h
  | call d =>
    simp only [step] at h
    split at h
    · next addr e hd =>
        cases h
        exact .call hd
    · cases h
  | finish d r =>
    simp only [step] at h
    split at h
    · next addr e hd =>
        cases h
        exact .finish hd
    · cases h

/-! ### No object is called after its removal -/

def Unhurried (s : Proxy β ε) : Action β ε → Prop
  | .removeObjectHandler h => ∀ d e, s.deliveries d ≠ .found h e
  | _ => True

structure Attached (s : Proxy β ε) : Prop where
  found : ∀ d addr e, s.deliveries d = .found addr e → addr ∈ s.handlers
  called : ∀ c ∈ s.calls, c.registered = true

variable {addr : Addr} {d : ℕ} {e : ProxyEvent β} {handlers : Finset Addr} {x : Delivery β ε}

lemma mem_of_find {e' : ProxyEvent β}
    (h : Threaded.find handlers e = .object addr e') : addr ∈ handlers := by
  have hlookup (e : ProxyEvent β) (h : Threaded.lookup handlers e = .object addr e') :
      addr ∈ handlers := by
    rw [Threaded.lookup] at h
    split at h
    · cases h
    · split at h
      · split_ifs at h with hmem
        cases h
        exact hmem
      · cases h
  cases e with
  | startService route | incomingOnAcceptor inner route => cases h
  | incomingOnConnector inner route | plain e => exact hlookup _ h

lemma update_found {d' : ℕ} (h : update s.deliveries d x d' = .found addr e) :
    x = .found addr e ∨ s.deliveries d' = .found addr e := by
  rw [update_apply] at h
  split_ifs at h
  · exact .inl h
  · exact .inr h

theorem Attached.step (hs : Attached s) (hok : Unhurried s a) (h : step s a = some s') :
    Attached s' := by
  cases step_effect h with
  | add => exact ⟨fun d addr e hd => Finset.mem_insert_of_mem (hs.found d addr e hd), hs.called⟩
  | @remove x =>
    refine ⟨fun d addr e hd => Finset.mem_erase.mpr ⟨?_, hs.found d addr e hd⟩, hs.called⟩
    rintro rfl
    exact hok d e hd
  | @find d e hd =>
    refine ⟨fun d' addr e' hd' => ?_, hs.called⟩
    rcases update_found hd' with hfind | hold
    · cases hres : Threaded.find s.handlers e with
      | finished result =>
        rw [hres] at hfind
        cases hfind
      | object addr₁ e₁ =>
        rw [hres] at hfind
        cases hfind
        exact mem_of_find hres
    · exact hs.found d' addr e' hold
  | @call d addr e hd =>
    refine ⟨fun d' addr' e' hd' => ?_, fun c hc => ?_⟩
    · exact hs.found d' addr' e' ((update_found hd').resolve_left nofun)
    · rcases List.mem_append.mp hc with hc | hc
      · exact hs.called c hc
      · rw [List.mem_singleton.mp hc]
        exact decide_eq_true (hs.found d addr e hd)
  | finish hd =>
    refine ⟨fun d' addr' e' hd' => ?_, hs.called⟩
    exact hs.found d' addr' e' ((update_found hd').resolve_left nofun)

/-! ### Every delivery calls its object once -/

def Proxy.callsOf (s : Proxy β ε) (d : ℕ) : List (Addr × ProxyEvent β) :=
  (s.calls.filter fun c => c.delivery = d).map fun c => (c.addr, c.event)

def Counted (s : Proxy β ε) : Prop := ∀ d, s.callsOf d = (s.deliveries d).handed.toList

lemma handed_afterFind (r : Found β) : (Delivery.afterFind r : Delivery β ε).handed = none := by
  cases r <;> rfl

lemma Counted.update (hs : Counted s) (hx : x.handed = (s.deliveries d).handed) :
    Counted { s with deliveries := Function.update s.deliveries d x } := by
  intro d'
  show s.callsOf d' = (Function.update s.deliveries d x d').handed.toList
  rw [hs d', update_apply]
  split_ifs with hd
  · rw [hx, hd]
  · rfl

/-- **Every step keeps the count.** -/
theorem Counted.step (hs : Counted s) (h : step s a = some s') : Counted s' := by
  cases step_effect h with
  | add | remove => exact hs
  | @find d e hd =>
    apply hs.update
    rw [hd, handed_afterFind]
    rfl
  | @call d addr e hd =>
    intro d'
    have hbefore := hs d'
    simp only [Proxy.callsOf, List.filter_append, List.map_append, update_apply] at *
    rw [hbefore]
    split_ifs with hd'
    · subst hd'
      simp [hd, Delivery.handed]
    · simp [Ne.symm hd']
  | @finish d addr e r hd =>
    apply hs.update
    rw [hd]
    rfl

def Follows (d : ℕ) (addr : Addr) (e : ProxyEvent β) (s : Proxy β ε) : Prop :=
  s.deliveries d = .found addr e ∨ s.deliveries d = .calling addr e ∨
    ∃ o, s.deliveries d = .done o ∧ o.handed = some (addr, e)

lemma Follows.step (hs : Follows d addr e s) (h : step s a = some s') : Follows d addr e s' := by
  -- only a step of the delivery itself changes its state
  have hother {d' : ℕ} {x : Delivery β ε} (hd : d ≠ d') :
      update s.deliveries d' x d = s.deliveries d := by
    rw [update_of_ne hd]
  have hself {d' : ℕ} {x : Delivery β ε} (hd : d = d') :
      update s.deliveries d' x d = x := by
    rw [hd, update_self]
  cases step_effect h with
  | add | remove => exact hs
  | @find d' e' hd' =>
    by_cases hd : d = d'
    · subst hd
      rcases hs with hfound | hcalling | ⟨o, hdone, -⟩
      · cases hd'.symm.trans hfound
      · cases hd'.symm.trans hcalling
      · cases hd'.symm.trans hdone
    · simpa only [Follows, hother hd] using hs
  | @call d' addr' e' hd' =>
    by_cases hd : d = d'
    · subst hd
      rcases hs with hfound | hcalling | ⟨o, hdone, -⟩
      · obtain ⟨rfl, rfl⟩ := Delivery.found.inj (hd'.symm.trans hfound)
        exact .inr (.inl (hself rfl))
      · cases hd'.symm.trans hcalling
      · cases hd'.symm.trans hdone
    · simpa only [Follows, hother hd] using hs
  | @finish d' addr' e' r hd' =>
    by_cases hd : d = d'
    · subst hd
      rcases hs with hfound | hcalling | ⟨o, hdone, -⟩
      · cases hd'.symm.trans hfound
      · obtain ⟨rfl, rfl⟩ := Delivery.calling.inj (hd'.symm.trans hcalling)
        exact .inr (.inr ⟨_, hself rfl, rfl⟩)
      · cases hd'.symm.trans hdone
    · simpa only [Follows, hother hd] using hs

def ProxyEvent.ForObject : ProxyEvent β → Prop
  | .startService _ => False
  | .incomingOnAcceptor _ _ => False
  | .incomingOnConnector _ _ => True
  | .plain _ => True

lemma find_pushHop (hreg : addr ∈ handlers) (he : e.ForObject) :
    Threaded.find handlers (e.pushHop (.objectHandlerThreaded addr)) =
      .object addr e.adoptInner := by
  cases e with
  | startService route | incomingOnAcceptor inner route => exact he.elim
  | incomingOnConnector inner route | plain e =>
    simp [Threaded.find, ProxyEvent.pushHop, ProxyEvent.adoptInner, Threaded.lookup,
      ProxyEvent.route, ProxyEvent.setRoute, hreg, ProxyEvent.shareRoute]

/-- **No destroyed object is called** if none is removed between its lookup and its call. -/
theorem objects_called_alive {as : List (Action β ε)}
    (hrun : run step Proxy.initial as = some s) (hok : Meets step Unhurried Proxy.initial as) :
    (∀ c ∈ s.calls, c.registered = true) ∧ ∀ before d (e : ProxyEvent β) addr after s₁,
        as = before ++ .find d (e.pushHop (.objectHandlerThreaded addr)) :: after →
        run step Proxy.initial before = some s₁ → e.ForObject → addr ∈ s₁.handlers →
        ∀ o, s.deliveries d = .done o → s.callsOf d = [(addr, e.adoptInner)] := by
  have hattached : Attached s :=
    run_invariant Attached.step (s := Proxy.initial) ⟨nofun, nofun⟩ hok hrun
  refine ⟨hattached.called, ?_⟩
  rintro before d e addr after s₁ rfl hbefore he hreg o ho
  have hcounted : Counted s := run_invariant' Counted.step (s := Proxy.initial) (fun d => rfl) hrun
  obtain ⟨t, ht, hrest⟩ := run_append_eq_some.mp hrun
  cases hbefore.symm.trans ht
  obtain ⟨t', ht', hafter⟩ := run_cons_eq_some.mp hrest
  have hfollows : Follows d addr e.adoptInner t' := by
    cases step_effect ht' with
    | find hd =>
      refine .inl ?_
      rw [find_pushHop hreg he]
      exact update_self d _ _
  have hend : Follows d addr e.adoptInner s := run_invariant' Follows.step hfollows hafter
  rw [hcounted d, ho]
  rcases hend with hfound | hcalling | ⟨o', ho', hhanded⟩
  · rw [ho] at hfound
    cases hfound
  · rw [ho] at hcalling
    cases hcalling
  · rw [ho] at ho'
    cases ho'
    rw [Delivery.handed, hhanded]
    rfl

def eventForObject : ProxyEvent Unit :=
  .plain ⟨[.localService 7#32, .objectHandlerThreaded 2#64], ()⟩

def quietLife : List (Action Unit Unit) :=
  [.addObjectHandler 2#64, .find 0 eventForObject, .call 0, .finish 0 (.ok true),
    .removeObjectHandler 2#64]

theorem objects_called_alive_quietLife : ∃ s : Proxy Unit Unit,
    run step Proxy.initial quietLife = some s ∧ (∀ c ∈ s.calls, c.registered = true) ∧
    s.callsOf 0 = [(2#64, .plain ⟨[.localService 7#32], ()⟩)] := by
  have hok : Meets step Unhurried Proxy.initial quietLife := by
    refine ⟨trivial, trivial, trivial, trivial, fun d e => ?_, trivial⟩
    simp only [update_idem, update_apply, Proxy.initial]
    split_ifs <;> exact nofun
  obtain ⟨hcalls, hexact⟩ := @objects_called_alive _ _ _ quietLife rfl hok
  refine ⟨_, rfl, hcalls, ?_⟩
  exact hexact [.addObjectHandler 2#64] 0 (.plain ⟨[.localService 7#32], ()⟩) 2#64 _ _ rfl rfl
    trivial (by decide) _ rfl

/-- **The race**: the object is removed before the call. -/
theorem destroyed_object_called : ∃ s : Proxy Unit Unit, run step Proxy.initial
        [.addObjectHandler 2#64, .find 0 eventForObject, .removeObjectHandler 2#64, .call 0] =
          some s ∧
      s.calls = [⟨0, 2#64, .plain ⟨[.localService 7#32], ()⟩, false⟩] ∧ 2#64 ∉ s.handlers :=
  ⟨_, rfl, rfl, by decide⟩

end Megatron.ObjectProxy
