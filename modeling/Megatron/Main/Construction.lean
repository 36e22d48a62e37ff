import Megatron.Main.Instance

/-!
Services are constructed once, in every interleaving of the calls (`services_constructed_once`).
-/

namespace Megatron.Instance

open Library List Function

variable {st st' : State} {sid sid' : ServiceId} {c m u : ℕ} {ch : Choice} {op : Op} {w : Want}
  {s s' : Stage}

structure State.Fresh (st : State) (sid : ServiceId) (u : ℕ) : Prop where
  made : ∃ o, st.objects[u]? = some o ∧ o.sid = sid
  unstarted : .startService ∉ st.delivered u

def Stage.Sound (st : State) (sid : ServiceId) : Stage → Prop
  | .configure _ | .construct _ | .constructing => st.services sid = none
  | .insert u => st.services sid = none ∧ ∀ id ∈ u, st.Fresh sid id
  | .checkInserted u | .start u => st.services sid = some u ∧ ∀ id ∈ u, st.Fresh sid id
  | .starting u => st.services sid = some (some u)
  | .unlock (.ok (some u)) => st.services sid = some (some u)
  | _ => True

def Op.Sound (st : State) : Op → Prop
  | .locked w _ s => s.Sound st w.sid
  | .finish w (.ok (some u)) => st.services w.sid = some (some u)
  | _ => True

structure Keeps (sid : ServiceId) (st st' : State) : Prop where
  services : st'.services sid = st.services sid
  fresh : ∀ u, st.Fresh sid u → st'.Fresh sid u

lemma Stage.Sound.keep (h : s.Sound st sid) (hk : Keeps sid st st') : s.Sound st' sid := by
  have hfresh : ∀ u : Option ℕ, (∀ id ∈ u, st.Fresh sid id) → ∀ id ∈ u, st'.Fresh sid id :=
    fun u hu id hid => hk.fresh id (hu id hid)
  cases s with
  | configure | construct | constructing | starting => exact hk.services.trans h
  | insert u | checkInserted u | start u => exact ⟨hk.services.trans h.1, hfresh u h.2⟩
  | unlock r =>
    rcases r with e | _ | u
    · trivial
    · trivial
    · exact hk.services.trans h
  | _ => trivial

lemma Op.Sound.keep (h : op.Sound st) (hk : ∀ sid, Keeps sid st st') : op.Sound st' := by
  cases op with
  | locked w m s =>
    have hs : s.Sound st w.sid := h
    exact hs.keep (hk w.sid)
  | finish w r =>
    rcases r with e | _ | u
    · trivial
    · trivial
    · exact (hk w.sid).services.trans h
  | _ => trivial

lemma keeps_setCall (st : State) (c : ℕ) (op : Op) (sid : ServiceId) :
    Keeps sid st (st.setCall c op) := ⟨rfl, fun _ hu => ⟨hu.made, hu.unstarted⟩⟩

/-! ### What an operation leaves -/

lemma exec_services {x : Option ℕ} (h : st.services sid = some x) :
    (exec st c ch op).services sid = some x := by
  cases exec_effect st c ch op with
  | same hs => rw [hs.services, h]
  | insert w m v hop heq =>
    rw [heq]
    exact insertNew_of_some h
  | invoke _ _ _ _ _ heq | make _ _ _ _ _ heq | throw _ _ _ _ _ heq | start _ _ _ _ _ heq
  | hand _ _ _ _ _ _ heq => rw [heq, h]

lemma exec_services_of_ne (hsid : ∀ w m s, op = .locked w m s → sid ≠ w.sid) :
    (exec st c ch op).services sid = st.services sid := by
  cases exec_effect st c ch op with
  | same hs => rw [hs.services]
  | insert w m v hop heq =>
    rw [heq]
    exact insertNew_of_ne (hsid w m _ hop)
  | invoke _ _ _ _ _ heq | make _ _ _ _ _ heq | throw _ _ _ _ _ heq | start _ _ _ _ _ heq
  | hand _ _ _ _ _ _ heq => rw [heq]

lemma exec_objects_eq (st : State) (c : ℕ) (ch : Choice) (op : Op) :
    ∃ l, (exec st c ch op).objects = st.objects ++ l := by
  cases exec_effect st c ch op with
  | same hs => exact ⟨[], by rw [hs.objects, append_nil]⟩
  | make w m isListener _ _ heq => exact ⟨[⟨w.sid, isListener⟩], by rw [heq]⟩
  | invoke _ _ _ _ _ heq | throw _ _ _ _ _ heq | insert _ _ _ _ heq | start _ _ _ _ _ heq
  | hand _ _ _ _ _ _ heq => exact ⟨[], by rw [heq, append_nil]⟩

lemma exec_objects {o : Object} (h : st.objects[u]? = some o) :
    (exec st c ch op).objects[u]? = some o := by
  obtain ⟨l, hl⟩ := exec_objects_eq st c ch op
  rw [hl, List.getElem?_append_left (List.getElem?_eq_some_iff.mp h).1, h]

lemma exec_keeps (hop : op.Sound st) (hsid : ∀ w m s, op = .locked w m s → sid ≠ w.sid) :
    Keeps sid st (exec st c ch op) where
  services := exec_services_of_ne hsid
  fresh u hu := by
    obtain ⟨o, ho, rfl⟩ := hu.made
    refine ⟨⟨o, exec_objects ho, rfl⟩, ?_⟩
    rcases exec_delivered st c ch op u with h | ⟨w, m, rfl, -, -⟩ | ⟨w, e, -, -, -, h⟩
    · rw [h]
      exact hu.unstarted
    · -- the object that is being started belongs to another service
      obtain ⟨o', ho', hsid'⟩ := (hop.2 u rfl).made
      cases ho.symm.trans ho'
      exact absurd hsid' (hsid w m _ rfl)
    · rw [h]
      simpa using hu.unstarted

lemma Op.Sound.exec {op' : Op} (h : op'.Sound st) (hop : op.Sound st)
    (hsid : ∀ w m s w' m' s', op = .locked w m s → op' = .locked w' m' s' → w'.sid ≠ w.sid) :
    op'.Sound (exec st c ch op) := by
  cases op' with
  | locked w' m' s' =>
    have hs : s'.Sound st w'.sid := h
    exact hs.keep (exec_keeps hop fun w m s hw => hsid w m s w' m' s' hw rfl)
  | finish w r =>
    rcases r with e | _ | u
    · trivial
    · trivial
    · exact exec_services h
  | _ => trivial

/-! ### What a call knows next -/

lemma nextStage_sound (hs : s.Sound st sid) (hnew : st.delivered st.objects.length = [])
    (h : nextStage st sid ch s = some s') : s'.Sound (execStage st sid ch s) sid := by
  cases s with
  | find | findAgain =>
    simp only [nextStage] at h
    split at h
    · next u hu =>
        cases h
        cases u with
        | none => trivial
        | some u => exact hu
    · next hnone =>
        cases h
        first | exact hnone | trivial
  | configure constr =>
    simp only [nextStage] at h
    repeat' split at h
    all_goals cases h
    all_goals first | exact hs | trivial
  | construct constr =>
    simp only [nextStage, execStage] at h ⊢
    split_ifs at h ⊢ <;> cases h
    · trivial
    · exact hs
  | constructing =>
    cases ch with
    | object isListener =>
      cases h
      refine ⟨hs, ?_⟩
      rintro _ ⟨⟩
      exact ⟨⟨⟨sid, isListener⟩, by simp [execStage], rfl⟩, by simp [execStage, hnew]⟩
    | null =>
      cases h
      exact ⟨hs, fun _ hid => by cases hid⟩
    | throws e =>
      cases h
      trivial
    | proceed | registers l => cases h
  | insert u =>
    cases h
    exact ⟨insertNew_of_none hs.1, fun id hid => ⟨(hs.2 id hid).made, (hs.2 id hid).unstarted⟩⟩
  | checkInserted u =>
    simp only [nextStage] at h
    split_ifs at h <;> cases h
    · trivial
    · exact hs
  | start u =>
    rcases u with _ | u
    · cases h
      trivial
    · simp only [nextStage] at h
      split_ifs at h with hl <;> cases h
      · simp only [execStage, hl, if_true]
        exact hs.1
      · trivial
  | starting u =>
    simp only [nextStage] at h
    split at h
    · cases h
      exact hs
    · cases h
      trivial
    · cases h
  | _ =>
    simp only [nextStage] at h
    repeat' split at h
    all_goals cases h
    all_goals trivial

lemma next_sound (hop : op.Sound st) (hnew : st.delivered st.objects.length = []) {op' : Op}
    (h : next st ch op = some op') : op'.Sound (exec st c ch op) := by
  cases op with
  | locked w m s =>
    rcases next_locked_eq_some (c := c) h with ⟨r, rfl, rfl⟩ | ⟨s', hs', rfl, hexec⟩
    · rcases r with e | _ | u
      · trivial
      · trivial
      · exact hop
    · rw [hexec]
      exact nextStage_sound hop hnew hs'
  | lookup w =>
    simp only [next] at h
    split at h
    · next u hu =>
        cases h
        exact hu
    · cases h
      trivial
  | lockInit w m =>
    simp only [next] at h
    split_ifs at h
    cases h
    trivial
  | _ =>
    simp only [next] at h
    repeat' split at h
    all_goals cases h
    all_goals trivial

lemma exec_invocations (st : State) (c : ℕ) (ch : Choice) (op : Op) (sid : ServiceId) :
    (exec st c ch op).invocations sid = st.invocations sid ∨
      ∃ w m constr, op = .locked w m (.construct constr) ∧ constr ≠ 0 ∧ w.sid = sid ∧
        (exec st c ch op).invocations sid = st.invocations sid + 1 := by
  cases exec_effect st c ch op with
  | same hs => exact .inl (congrFun hs.invocations sid)
  | invoke w m constr hop hconstr heq =>
    by_cases hsid : sid = w.sid
    · subst hsid
      refine .inr ⟨w, m, constr, hop, hconstr, rfl, ?_⟩
      rw [heq]
      exact update_self _ _ _
    · refine .inl ?_
      rw [heq]
      exact update_of_ne hsid _ _
  | make _ _ _ _ _ heq | throw _ _ _ _ _ heq | insert _ _ _ _ heq | start _ _ _ _ _ heq
  | hand _ _ _ _ _ _ heq => exact .inl (by rw [heq])

lemma exec_throws (op : Op) (sid : ServiceId) : st.throws sid ≤ (exec st c ch op).throws sid := by
  cases exec_effect st c ch op with
  | same hs => rw [hs.throws]
  | throw w m e hop hch heq =>
    rw [heq]
    by_cases hsid : sid = w.sid
    · subst hsid
      simp only [update_self]
      omega
    · simp only [update_of_ne hsid, le_refl]
  | invoke _ _ _ _ _ heq | make _ _ _ _ _ heq | insert _ _ _ _ heq | start _ _ _ _ _ heq
  | hand _ _ _ _ _ _ heq => rw [heq]

lemma mem_exec_returned (h : (sid, .ok (some u)) ∈ (exec st c ch op).returned) :
    (sid, .ok (some u)) ∈ st.returned ∨ ∃ w, op = .finish w (.ok (some u)) ∧ w.sid = sid := by
  cases op with
  | locked w m s =>
    refine .inl ?_
    cases s with
    | unlock r => exact h
    | _ => exact execStage_returned st w.sid ch _ ▸ h
  | finish w r =>
    simp only [exec, finish] at h
    split at h
    · exact .inl (by simpa using h)
    · rcases mem_append.mp h with hold | hnew
      · exact .inl hold
      · obtain ⟨rfl, rfl⟩ := Prod.mk.inj (mem_singleton.mp hnew)
        exact .inr ⟨w, rfl, rfl⟩
    · split_ifs at h <;> exact .inl h
    · exact .inl h
  | enter w =>
    rw [exec] at h
    split_ifs at h
    · exact .inl (by simpa using h)
    · exact .inl h
  | _ => exact .inl h

def Op.Builds (sid : ServiceId) : Op → Prop
  | .locked w _ .constructing => w.sid = sid
  | .locked w _ (.insert _) => w.sid = sid
  | _ => False

/-- A service neither in the table nor being built has only had constructors that threw. -/
structure Once (st : State) : Prop where
  exclusive : Exclusive st
  sound : ∀ c, (st.calls c).Sound st
  bound : ∀ sid, st.invocations sid ≤ st.throws sid + 1
  unbuilt : ∀ sid, st.services sid = none → (∀ c, ¬ (st.calls c).Builds sid) →
    st.invocations sid ≤ st.throws sid
  started : ∀ u, (st.delivered u).count .startService ≤ 1
  unborn : ∀ u, st.objects.length ≤ u → st.delivered u = []
  returned : ∀ sid u, (sid, .ok (some u)) ∈ st.returned → st.services sid = some (some u)

lemma once_initial (config : Bool) (constructors : ServiceId → Option ℕ)
    (plugins : ServiceId → Option String) : Once (State.initial config constructors plugins) where
  exclusive _ := trivial
  sound _ := trivial
  bound _ := Nat.zero_le _
  unbuilt _ _ _ := le_rfl
  started _ := Nat.zero_le _
  unborn _ _ := rfl
  returned _ _ h := absurd h not_mem_nil

lemma Op.Builds.exists_locked (h : op.Builds sid) :
    ∃ w m s, op = .locked w m s ∧ w.sid = sid ∧ (s = .constructing ∨ ∃ u, s = .insert u) := by
  cases op with
  | locked w m s =>
    cases s with
    | constructing => exact ⟨w, m, _, rfl, h, .inl rfl⟩
    | insert u => exact ⟨w, m, _, rfl, h, .inr ⟨u, rfl⟩⟩
    | _ => exact h.elim
  | _ => exact h.elim

namespace Once

section

variable {a : Action} (h : Once st)
include h

lemma invocations_le {constr : ℕ} (hc : st.calls c = .locked w m (.construct constr)) :
    st.invocations w.sid ≤ st.throws w.sid := by
  have hnone : st.services w.sid = none := by
    have hs := h.sound c
    rw [hc] at hs
    exact hs
  refine h.unbuilt w.sid hnone fun c' hb => ?_
  obtain ⟨w', m', s', hc', hsid, hs'⟩ := hb.exists_locked
  obtain rfl := h.exclusive.eq hc' hc hsid
  rw [hc, Op.locked.injEq] at hc'
  obtain ⟨-, -, rfl⟩ := hc'
  rcases hs' with hs' | ⟨u, hs'⟩ <;> cases hs'

lemma exec_bound (sid : ServiceId) :
    (exec st c ch (st.calls c)).invocations sid ≤ (exec st c ch (st.calls c)).throws sid + 1 := by
  have hthrows : st.throws sid ≤ (exec st c ch (st.calls c)).throws sid := exec_throws _ sid
  rcases exec_invocations st c ch (st.calls c) sid with heq | ⟨w, m, constr, hc, -, rfl, heq⟩
  · rw [heq]
    exact (h.bound sid).trans (Nat.succ_le_succ hthrows)
  · rw [heq]
    exact Nat.succ_le_succ ((h.invocations_le hc).trans hthrows)

lemma exec_unbuilt (hnext : next st ch (st.calls c) = some op)
    (hnone : (exec st c ch (st.calls c)).services sid = none) (hc : ¬ op.Builds sid)
    (hother : ∀ c' ≠ c, ¬ (st.calls c').Builds sid) :
    (exec st c ch (st.calls c)).invocations sid ≤ (exec st c ch (st.calls c)).throws sid := by
  by_cases hb : (st.calls c).Builds sid
  · obtain ⟨w, m, s, hcall, rfl, rfl | ⟨u, rfl⟩⟩ := hb.exists_locked
    · -- the constructor has thrown, otherwise the call would go on building
      rw [hcall] at hnext ⊢
      cases ch with
      | throws e =>
        simp only [exec, execStage, update_self]
        exact h.bound w.sid
      | object isListener | null =>
        cases hnext
        exact absurd rfl hc
      | proceed | registers l => cases hnext
    · -- the call has inserted its object
      rw [hcall] at hnone
      have hsome := insertNew_self_isSome st.services w.sid u
      simp only [exec, execStage] at hnone
      rw [hnone] at hsome
      cases hsome
  · have hold : st.services sid = none := by
      cases hs : st.services sid with
      | none => rfl
      | some x =>
        rw [exec_services hs] at hnone
        cases hnone
    have hle : st.invocations sid ≤ st.throws sid := h.unbuilt sid hold fun c' => by
      by_cases hcc : c' = c
      · rwa [hcc]
      · exact hother c' hcc
    rcases exec_invocations st c ch (st.calls c) sid with
      heq | ⟨w, m, constr, hcall, hconstr, rfl, -⟩
    · rw [heq]
      exact hle.trans (exec_throws _ sid)
    · -- an invocation makes the call a building one
      rw [hcall] at hnext
      simp only [next, nextStage, if_neg hconstr, Option.map_some, Option.some.injEq] at hnext
      exact absurd (hnext ▸ rfl) hc

lemma exec_started (u : ℕ) : ((exec st c ch (st.calls c)).delivered u).count .startService ≤ 1 := by
  rcases exec_delivered st c ch (st.calls c) u with
    heq | ⟨w, m, hcall, -, heq⟩ | ⟨w, e, -, -, -, heq⟩
  · rw [heq]
    exact h.started u
  · have hs := h.sound c
    rw [hcall] at hs
    rw [heq, count_append, count_eq_zero_of_not_mem (hs.2 u rfl).unstarted]
    simp
  · rw [heq, count_append]
    simpa using h.started u

lemma exec_unborn (hu : (exec st c ch (st.calls c)).objects.length ≤ u) :
    (exec st c ch (st.calls c)).delivered u = [] := by
  have hle : st.objects.length ≤ u := by
    obtain ⟨l, hl⟩ := exec_objects_eq st c ch (st.calls c)
    rw [hl, length_append] at hu
    omega
  have hnot : st.isListener u = false := by
    rw [State.isListener, List.getElem?_eq_none hle]
    rfl
  rcases exec_delivered st c ch (st.calls c) u with heq | ⟨w, m, -, hl, -⟩ | ⟨w, e, -, -, hl, -⟩
  · rw [heq]
    exact h.unborn u hle
  · rw [hnot] at hl
    cases hl
  · rw [hnot] at hl
    cases hl

lemma exec_returned (hmem : (sid, .ok (some u)) ∈ (exec st c ch (st.calls c)).returned) :
    (exec st c ch (st.calls c)).services sid = some (some u) := by
  rcases mem_exec_returned hmem with hold | ⟨w, hcall, rfl⟩
  · exact exec_services (h.returned sid u hold)
  · have hs := h.sound c
    rw [hcall] at hs
    exact exec_services hs

lemma exec_sound (hnext : next st ch (st.calls c) = some op) (c' : ℕ) :
    (update st.calls c op c').Sound (exec st c ch (st.calls c)) := by
  refine (forall_update_iff st.calls fun _ op => op.Sound _).mpr
    ⟨next_sound (h.sound c) (h.unborn _ le_rfl) hnext, fun c' hne => ?_⟩ c'
  refine (h.sound c').exec (h.sound c) fun w m s w' m' s' hw hw' hsid => ?_
  exact hne (h.exclusive.eq hw' hw hsid)

lemma exec (hs : step st (.exec c ch) = some st') : Once st' := by
  obtain ⟨op, hnext, rfl⟩ := step_exec_eq_some.mp hs
  refine ⟨h.exclusive.step hs, fun c' => ?_, h.exec_bound, fun sid hnone hno => ?_, h.exec_started,
    fun u => h.exec_unborn, fun sid u => h.exec_returned⟩
  · simp only [State.setCall_calls, exec_calls]
    exact (h.exec_sound hnext c').keep (keeps_setCall _ _ _)
  · simp only [State.setCall_calls, exec_calls] at hno
    refine h.exec_unbuilt hnext hnone ?_ fun c' hne => ?_
    · simpa only [update_self] using hno c
    · simpa only [update_of_ne hne] using hno c'

lemma call {r : Request} (hs : step st (.call c r) = some st') : Once st' := by
  obtain ⟨hidle, hpossible, rfl⟩ := step_call_eq_some hs
  refine ⟨h.exclusive.step hs, ?_, h.bound, fun sid hnone hno => ?_, h.started, h.unborn,
    h.returned⟩
  · refine (forall_update_iff st.calls fun _ op => op.Sound _).mpr ⟨?_, fun c' _ => ?_⟩
    · cases r with
      | sendListener sid l e => exact h.returned sid l hpossible
      | _ => trivial
    · exact (h.sound c').keep (keeps_setCall _ _ _)
  · refine h.unbuilt sid hnone fun c' => ?_
    by_cases hcc : c' = c
    · rw [hcc, hidle]
      exact id
    · simpa only [State.setCall_calls, update_of_ne hcc] using hno c'

/-- **Every step keeps the invariant.** -/
theorem step (hs : step st a = some st') : Once st' := by
  have hsame : ∀ {st' : State}, st'.services = st.services → st'.objects = st.objects →
      st'.delivered = st.delivered → ∀ sid, Keeps sid st st' := by
    intro st' hsv hob hde sid
    exact ⟨congrFun hsv sid, fun u hu => ⟨hob ▸ hu.made, hde ▸ hu.unstarted⟩⟩
  cases a with
  | call c r => exact h.call hs
  | exec c ch => exact h.exec hs
  | terminate | registerService sid constr =>
    have hex := h.exclusive.step hs
    cases hs
    exact ⟨hex, fun c => (h.sound c).keep (hsame rfl rfl rfl), h.bound, h.unbuilt, h.started,
      h.unborn, h.returned⟩

end

end Once

/-- **Each service is constructed once**, in every interleaving. -/
theorem services_constructed_once {config : Bool} {constructors : ServiceId → Option ℕ}
    {plugins : ServiceId → Option String} {as : List Action}
    (hrun : run step (State.initial config constructors plugins) as = some st) (sid : ServiceId) :
    st.invocations sid ≤ st.throws sid + 1 ∧ (∀ u, (st.delivered u).count .startService ≤ 1) ∧
      ∀ u v, (sid, .ok (some u)) ∈ st.returned → (sid, .ok (some v)) ∈ st.returned → u = v := by
  have h : Once st := run_invariant' Once.step (once_initial config constructors plugins) hrun
  refine ⟨h.bound sid, h.started, fun u v hu hv => ?_⟩
  exact Option.some.inj (Option.some.inj ((h.returned sid u hu).symm.trans (h.returned sid v hv)))

def twoCalls : List Action :=
  [Action.call 0 (.getServiceOrCreate 5), Action.call 1 (.getServiceOrCreate 5)] ++ execs 0 4 ++
    execs 1 4 ++ execs 0 7 ++ [Action.exec 0 (.object true)] ++ execs 0 6 ++ execs 1 4

theorem services_constructed_once_twoCalls :
    ∃ st, run step (State.initial true (fun _ => some 1) (fun _ => none)) twoCalls = some st ∧
      st.invocations 5 = 1 ∧ st.returned = [(5, .ok (some 0)), (5, .ok (some 0))] ∧
      st.invocations 5 ≤ st.throws 5 + 1 ∧ (st.delivered 0).count .startService ≤ 1 := by
  refine ⟨_, rfl, rfl, rfl, ?_⟩
  have h := @services_constructed_once _ true (fun _ => some 1) (fun _ => none) twoCalls rfl 5
  exact ⟨h.1, h.2.1 0⟩

end Megatron.Instance
