import Megatron.Main.Construction

/-!
Which event a service receives first. `initService` publishes a service before it hands
`startService` to it, so that another call may be faster (`event_before_startService`).
`startService` is the first event of every service if a search never finds a service that is not
`Settled` (`startService_first`).
-/

namespace Megatron.Instance

open Library Function Option Instance

variable {st st' : State} {sid : ServiceId} {c u : ℕ} {ch : Choice} {op op' : Op} {w : Want}

def Op.Publishes (sid : ServiceId) : Op → Prop
  | .locked w _ (.checkInserted _) => w.sid = sid
  | .locked w _ (.start _) => w.sid = sid
  | _ => False

def Settled (st : State) (sid : ServiceId) : Prop :=
  (∀ c, ¬ (st.calls c).Publishes sid) ∧
    (st.terminating = true → ∀ u, st.services sid = some (some u) → .startService ∈ st.delivered u)

def Op.search : Op → Option Want
  | .lookup w => some w
  | .locked w _ .find => some w
  | .locked w _ (.findAgain _) => some w
  | _ => none

/-- The call searches settled services only. -/
def SettledSearch (st : State) : Action → Prop
  | .exec c _ => ∀ w, (st.calls c).search = some w → Settled st w.sid
  | _ => True

/-! ### Started services -/

def State.Started (st : State) (u : ℕ) : Prop :=
  ∃ o, st.objects[u]? = some o ∧ (o.isListener = true → .startService ∈ st.delivered u)

lemma mem_exec_delivered {d : Delivery} (h : d ∈ st.delivered u) :
    d ∈ (exec st c ch op).delivered u := by
  rcases exec_delivered st c ch op u with heq | ⟨_, _, -, -, heq⟩ | ⟨_, _, -, -, -, heq⟩ <;>
    rw [heq]
  · exact h
  · exact List.mem_append_left _ h
  · exact List.mem_append_left _ h

lemma State.Started.exec (h : st.Started u) : (exec st c ch op).Started u := by
  obtain ⟨o, ho, hstart⟩ := h
  exact ⟨o, exec_objects ho, fun hl => mem_exec_delivered (hstart hl)⟩

lemma isSome_exec_objects (h : (st.objects[u]?).isSome = true) :
    ((exec st c ch op).objects[u]?).isSome = true := by
  obtain ⟨o, ho⟩ := isSome_iff_exists.mp h
  exact isSome_iff_exists.mpr ⟨o, exec_objects ho⟩

def Op.Ready (st : State) : Op → Prop
  | .locked _ _ (.starting u) => st.Started u
  | .locked _ _ (.unlock (.ok (some u))) => st.Started u
  | .finish _ (.ok (some u)) => st.Started u
  | _ => True

lemma Op.Ready.mono (h : op.Ready st) (hst : ∀ u, st.Started u → st'.Started u) : op.Ready st' := by
  cases op with
  | locked w m s =>
    cases s with
    | starting u => exact hst u h
    | unlock r =>
      rcases r with e | _ | u
      · trivial
      · trivial
      · exact hst u h
    | _ => trivial
  | finish w r =>
    rcases r with e | _ | u
    · trivial
    · trivial
    · exact hst u h
  | _ => trivial

/-- **The invariant.** -/
structure Prompt (st : State) : Prop where
  once : Once st
  ready : ∀ c, (st.calls c).Ready st
  published : ∀ sid u, st.services sid = some (some u) →
    st.Started u ∨ (st.objects[u]?).isSome = true ∧
      (st.terminating = true ∨ ∃ c, (st.calls c).Publishes sid)
  first : ∀ u d, (st.delivered u).head? = some d → d = .startService
  returned : ∀ sid u, (sid, .ok (some u)) ∈ st.returned → st.Started u

lemma prompt_initial (config : Bool) (constructors : ServiceId → Option ℕ)
    (plugins : ServiceId → Option String) : Prompt (State.initial config constructors plugins) where
  once := once_initial config constructors plugins
  ready _ := trivial
  published _ _ h := by cases h
  first _ _ h := by cases h
  returned _ _ h := by cases h

lemma exec_services_eq_some {x : Option ℕ} (h : (exec st c ch op).services sid = some x) :
    st.services sid = some x ∨ ∃ w m, op = .locked w m (.insert x) ∧ w.sid = sid := by
  cases exec_effect st c ch op with
  | same hs => exact .inl (by rwa [hs.services] at h)
  | insert w m v hop heq =>
    rw [heq] at h
    rcases insertNew_eq_some h with hold | ⟨-, rfl, rfl⟩
    · exact .inl hold
    · exact .inr ⟨w, m, hop, rfl⟩
  | invoke _ _ _ _ _ heq | make _ _ _ _ _ heq | throw _ _ _ _ _ heq | start _ _ _ _ _ heq
  | hand _ _ _ _ _ _ heq => exact .inl (by rwa [heq] at h)

lemma Op.Publishes.exists_locked (h : op.Publishes sid) :
    ∃ w m v, w.sid = sid ∧ (op = .locked w m (.checkInserted v) ∨ op = .locked w m (.start v)) := by
  cases op with
  | locked w m s =>
    cases s with
    | checkInserted v => exact ⟨w, m, v, h, .inl rfl⟩
    | start v => exact ⟨w, m, v, h, .inr rfl⟩
    | _ => exact h.elim
  | _ => exact h.elim

namespace Prompt

section

variable {a : Action} (h : Prompt st)
include h

lemma started_of_settled (hset : Settled st sid) (hu : st.services sid = some (some u)) :
    st.Started u := by
  rcases h.published sid u hu with hst | ⟨hobj, hterm | ⟨c, hc⟩⟩
  · exact hst
  · obtain ⟨o, ho⟩ := isSome_iff_exists.mp hobj
    exact ⟨o, ho, fun _ => hset.2 hterm u hu⟩
  · exact absurd hc (hset.1 c)

lemma nextStage_ready {m : ℕ} {s s' : Stage} (hc : st.calls c = .locked w m s)
    (hok : ∀ w', (Op.locked w m s).search = some w' → Settled st w'.sid)
    (hnext : nextStage st w.sid ch s = some s') :
    (Op.locked w m s').Ready (exec st c ch (.locked w m s)) := by
  have hready := h.ready c
  have hsound := h.once.sound c
  rw [hc] at hready hsound
  cases s with
  | find | findAgain =>
    simp only [nextStage] at hnext
    split at hnext <;> cases hnext
    · next u hu =>
        cases u with
        | none => trivial
        | some u => exact (h.started_of_settled (hok w rfl) hu).exec
    · trivial
  | start u =>
    rcases u with _ | u
    · cases hnext
      trivial
    · simp only [nextStage] at hnext
      split_ifs at hnext with hl <;> cases hnext
      · obtain ⟨o, ho, -⟩ := (hsound.2 u rfl).made
        exact ⟨o, exec_objects ho, fun _ => by simp [exec, execStage, hl]⟩
      · trivial
  | starting u =>
    simp only [nextStage] at hnext
    split at hnext
    · cases hnext
      exact hready.exec
    · cases hnext
      trivial
    · cases hnext
  | _ =>
    simp only [nextStage] at hnext
    repeat' split at hnext
    all_goals cases hnext
    all_goals trivial

lemma next_ready (hok : SettledSearch st (.exec c ch)) (hnext : next st ch (st.calls c) = some op) :
    op.Ready (exec st c ch (st.calls c)) := by
  have hready := h.ready c
  cases hc : st.calls c with
  | locked w m s =>
    rw [hc] at hnext hready
    simp only [SettledSearch, hc] at hok
    rcases next_locked_eq_some (c := c) hnext with ⟨r, rfl, rfl⟩ | ⟨s', hs', rfl, -⟩
    · rcases r with e | _ | u
      · trivial
      · trivial
      · exact hready.exec
    · exact h.nextStage_ready hc hok hs'
  | lookup w =>
    simp only [hc, next] at hnext
    split at hnext <;> cases hnext
    · next u hu => exact (h.started_of_settled (hok w (by rw [hc]; rfl)) hu).exec
    · trivial
  | _ =>
    simp only [hc, next] at hnext
    repeat' split at hnext
    all_goals cases hnext
    all_goals trivial

lemma exec_first {d : Delivery}
    (hd : ((exec st c ch (st.calls c)).delivered u).head? = some d) :
    d = .startService := by
  rcases exec_delivered st c ch (st.calls c) u with
    heq | ⟨w, m, -, -, heq⟩ | ⟨w, e, hcall, -, hl, heq⟩ <;> rw [heq] at hd
  · exact h.first u d hd
  · by_cases hnil : st.delivered u = []
    · rw [hnil] at hd
      exact (Option.some.inj hd).symm
    · rw [List.head?_append_of_ne_nil _ hnil] at hd
      exact h.first u d hd
  · have hready := h.ready c
    rw [hcall] at hready
    obtain ⟨o, ho, hstart⟩ := hready
    have hmem : .startService ∈ st.delivered u := hstart (by simpa [State.isListener, ho] using hl)
    rw [List.head?_append_of_ne_nil _ (List.ne_nil_of_mem hmem)] at hd
    exact h.first u d hd

lemma publishes_exec (hpub : (st.calls c).Publishes sid) (hu : st.services sid = some (some u))
    (hnext : next st ch (st.calls c) = some op) :
    (exec st c ch (st.calls c)).Started u ∨ st.terminating = true ∨ op.Publishes sid := by
  have hsound := h.once.sound c
  obtain ⟨w, m, v, rfl, hcall | hcall⟩ := hpub.exists_locked <;> rw [hcall] at hnext hsound ⊢
  · simp only [next, nextStage] at hnext
    split_ifs at hnext with hterm
    · exact .inr (.inl hterm)
    · cases hnext
      exact .inr (.inr rfl)
  · -- the service in the table is the one that is started
    cases hsound.1.symm.trans hu
    obtain ⟨o, ho, -⟩ := (hsound.2 u rfl).made
    refine .inl ⟨o, exec_objects ho, fun hl => ?_⟩
    have hlis : st.isListener u = true := by simp [State.isListener, ho, hl]
    simp [exec, execStage, hlis]

lemma exec_published (hnext : next st ch (st.calls c) = some op)
    (hu : (exec st c ch (st.calls c)).services sid = some (some u)) :
    (exec st c ch (st.calls c)).Started u ∨
      ((exec st c ch (st.calls c)).objects[u]?).isSome = true ∧
        (st.terminating = true ∨ ∃ c', (update st.calls c op c').Publishes sid) := by
  rcases exec_services_eq_some hu with hold | ⟨w, m, hcall, rfl⟩
  · rcases h.published sid u hold with hst | ⟨hobj, hterm | ⟨c', hc'⟩⟩
    · exact .inl hst.exec
    · exact .inr ⟨isSome_exec_objects hobj, .inl hterm⟩
    · by_cases hcc : c' = c
      · subst hcc
        rcases h.publishes_exec hc' hold hnext with hst | hterm | hpub
        · exact .inl hst
        · exact .inr ⟨isSome_exec_objects hobj, .inl hterm⟩
        · exact .inr ⟨isSome_exec_objects hobj, .inr ⟨c', by rwa [update_self]⟩⟩
      · exact .inr ⟨isSome_exec_objects hobj, .inr ⟨c', by rwa [update_of_ne hcc]⟩⟩
  · -- the call has just inserted the service
    have hsound := h.once.sound c
    rw [hcall] at hnext hsound ⊢
    cases hnext
    obtain ⟨o, ho, -⟩ := (hsound.2 u rfl).made
    refine .inr ⟨isSome_iff_exists.mpr ⟨o, exec_objects ho⟩, .inr ⟨c, ?_⟩⟩
    rw [update_self]
    rfl

lemma exec (hok : SettledSearch st (.exec c ch)) (hs : step st (.exec c ch) = some st') :
    Prompt st' := by
  have honce := h.once.step hs
  obtain ⟨op, hnext, rfl⟩ := step_exec_eq_some.mp hs
  refine ⟨honce, fun c' => ?_, fun sid u hu => ?_, fun u d => h.exec_first, fun sid u hu => ?_⟩
  · simp only [State.setCall_calls, exec_calls]
    refine (forall_update_iff st.calls fun _ op => op.Ready _).mpr
      ⟨?_, fun c' _ => ?_⟩ c'
    · exact (h.next_ready hok hnext).mono fun _ hst => hst
    · exact (h.ready c').mono fun _ hst => hst.exec
  · simp only [State.setCall_calls, State.setCall_terminating, exec_calls, exec_terminating]
    exact h.exec_published hnext hu
  · rcases mem_exec_returned hu with hold | ⟨w, hcall, -⟩
    · exact (h.returned sid u hold).exec
    · have hready := h.ready c
      rw [hcall] at hready
      exact hready.exec

theorem step (hok : SettledSearch st a) (hs : step st a = some st') : Prompt st' := by
  have honce := h.once.step hs
  cases a with
  | call c r =>
    obtain ⟨hidle, hpossible, rfl⟩ := step_call_eq_some hs
    refine ⟨honce, ?_, fun sid u hu => ?_, h.first, h.returned⟩
    · refine (forall_update_iff st.calls fun _ op => op.Ready _).mpr ⟨?_, fun c' _ => ?_⟩
      · cases r with
        | sendListener sid l e => exact h.returned sid l hpossible
        | _ => trivial
      · exact (h.ready c').mono fun _ hst => hst
    · rcases h.published sid u hu with hst | ⟨hobj, hterm | ⟨c', hc'⟩⟩
      · exact .inl hst
      · exact .inr ⟨hobj, .inl hterm⟩
      · have hne : c' ≠ c := by
          rintro rfl
          rw [hidle] at hc'
          exact hc'
        refine .inr ⟨hobj, .inr ⟨c', ?_⟩⟩
        rwa [State.setCall_calls, update_of_ne hne]
  | exec c ch => exact h.exec hok hs
  | terminate =>
    cases hs
    refine ⟨honce, fun c => (h.ready c).mono fun _ hst => hst, fun sid u hu => ?_, h.first,
      h.returned⟩
    rcases h.published sid u hu with hst | ⟨hobj, -⟩
    · exact .inl hst
    · exact .inr ⟨hobj, .inl rfl⟩
  | registerService sid constr =>
    cases hs
    exact ⟨honce, fun c => (h.ready c).mono fun _ hst => hst, h.published, h.first, h.returned⟩

end

end Prompt

/-- **`startService` comes first** where searches find settled services only. -/
theorem startService_first {config : Bool} {constructors : ServiceId → Option ℕ}
    {plugins : ServiceId → Option String} {as : List Action}
    (hmeets : Meets step SettledSearch (State.initial config constructors plugins) as)
    (hrun : run step (State.initial config constructors plugins) as = some st) (u : ℕ)
    (d : Delivery) (hd : (st.delivered u).head? = some d) : d = .startService :=
  (run_invariant Prompt.step (prompt_initial config constructors plugins) hmeets hrun).first u d hd

def someEvent : EventRef := ⟨0, []⟩

def firstForward : List Action :=
  [Action.call 0 (.forwardEvent 5 someEvent)] ++ execs 0 11 ++ [Action.exec 0 (.object true)] ++
    execs 0 6

theorem startService_first_firstForward :
    ∃ st, run step (State.initial true (fun _ => some 1) (fun _ => none)) firstForward = some st ∧
      st.delivered 0 = [.startService, .event someEvent] ∧
      ∀ d, (st.delivered 0).head? = some d → d = .startService := by
  refine ⟨_, rfl, rfl, fun d hd => ?_⟩
  refine @startService_first _ true (fun _ => some 1) (fun _ => none) firstForward ?_ rfl 0 d hd
  -- the call searches the table three times, and there is no other call
  repeat' apply And.intro
  all_goals first
    | trivial
    | (rintro w ⟨⟩; done)
    | (rintro w ⟨⟩
       refine ⟨fun c => ?_, nofun⟩
       rcases c with _ | c <;> exact id)

/-- **The event is handed over before `startService`.** -/
theorem event_before_startService :
    ∃ st, run step (State.initial true (fun _ => some 1) (fun _ => none))
        ([.call 0 (.getServiceOrCreate 5)] ++ execs 0 11 ++ [.exec 0 (.object true)] ++ execs 0 1 ++
          [.call 1 (.forwardEvent 5 someEvent)] ++ execs 1 3 ++ execs 0 5) = some st ∧
      st.delivered 0 = [.event someEvent, .startService] := ⟨_, rfl, rfl⟩

end Megatron.Instance
