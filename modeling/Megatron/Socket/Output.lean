import Megatron.Socket.Service

/-!
The output of a socket: no byte is lost or reordered (`output_stream_conserved`), and in undisturbed
runs the poller waits to write while there is output (`output_not_stalled`).
-/

namespace Megatron.Socket

open Library List Machine

variable {m m' : Machine} {a : Action}

inductive Starts : Machine → Prop
  | connect {req : Request} {calls : Calls} {m : Machine} :
      onAddToConnectTCP req calls = .registered m → Starts m
  | accept (route : RouteT) (secure : Bool) : Starts (.accepted route secure)

lemma registered_eq {req : Request} {calls : Calls}
    (h : onAddToConnectTCP req calls = .registered m) :
    ∃ addr route, req.addr = some addr ∧ poppedFrontRoute req.route = .ok route ∧
      m = { new .connected route req.useSsl with
        esi := { (new .connected route req.useSsl).esi with
          inConnection := true, requestForConnect := some addr, armed := true, registered := true }
        connecting := some (addr, req.route) } := by
  rw [onAddToConnectTCP] at h
  split at h
  · cases h
  · next addr haddr =>
      split_ifs at h
      split at h
      · cases h
      · next route hroute =>
          rw [openTCP] at h
          split at h
          · cases h
          · cases h
          · cases h
          · cases h
            exact ⟨addr, route, haddr, hroute, rfl⟩

/-! ### The byte stream -/

def Conserved (m : Machine) : Prop := m.kernel ++ m.esi.container = m.written.flatten

lemma conserved_of_starts (h : Starts m) : Conserved m := by
  cases h with
  | connect hreq =>
    obtain ⟨addr, route, -, -, rfl⟩ := registered_eq hreq
    rfl
  | accept => rfl

lemma Conserved.of_same (h : Conserved m) (hkernel : m'.kernel = m.kernel)
    (hcontainer : m'.esi.container = m.esi.container) (hwritten : m'.written = m.written) :
    Conserved m' := by
  rw [Conserved, hkernel, hcontainer, hwritten]
  exact h

lemma established_output (m : Machine) : m.established.kernel = m.kernel ∧
    m.established.esi.container = m.esi.container ∧ m.established.written = m.written := by
  rw [established]
  split_ifs <;> exact ⟨rfl, rfl, rfl⟩

lemma handshake_frame {e e' : Esi}
    (h : e' = e ∨ e' = e.setArmed true ∨ e' = { e with sslConnected := true }) :
    e'.container = e.container ∧ e'.closed = e.closed ∧ (e.armed = true → e'.armed = true) := by
  rcases h with rfl | rfl | rfl
  · exact ⟨rfl, rfl, fun harmed => harmed⟩
  · obtain ⟨hcontainer, hclosed⟩ := Esi.setArmed_frame e true
    refine ⟨hcontainer, hclosed, fun harmed => ?_⟩
    rw [Esi.setArmed]
    split_ifs
    · exact harmed
    · rfl
  · exact ⟨rfl, rfl, fun harmed => harmed⟩

lemma Conserved.closeSocket (h : Conserved m) (reason : String) (errNo : ℤ) :
    Conserved (closeSocket m reason errNo) := by
  obtain ⟨hk, hc, hw, -⟩ := closeSocket_output m reason errNo
  exact h.of_same hk hc hw

/-- **Every step keeps the stream.** -/
theorem Conserved.step (h : Conserved m) (hs : m.step a = some m') : Conserved m' := by
  cases step_effect hs with
  | connectError =>
    refine Conserved.of_same (Conserved.closeSocket ?_ _ _) rfl rfl rfl
    exact h.of_same rfl rfl rfl
  | eventError => exact h.closeSocket _ _
  | recvHandshake hp hsec hssl he => exact h.of_same rfl (handshake_frame he).1 rfl
  | recvEof | closeMarked | closeError =>
    apply Conserved.closeSocket
    exact h.of_same rfl rfl rfl
  | writable hp he =>
    obtain ⟨hk, hc, hw⟩ := established_output { m with esi := _ }
    exact h.of_same hk (hc.trans (handshake_frame (he.imp_right .inl)).1) hw
  | stopWrite | startWrite => exact h.of_same rfl (Esi.setArmed_frame _ _).1 rfl
  | sendEmpty hp hempty =>
    refine h.of_same rfl ?_ rfl
    rw [Esi.drop_container, hempty, drop_nil]
  | send hp hne hlen =>
    -- what the kernel takes leaves the buffer
    have hstream : m.kernel ++ m.esi.container = m.written.flatten := h
    simp only [Conserved, Esi.drop_container]
    rw [append_assoc, take_append_drop, hstream]
  | append | appendAndClose =>
    have hstream : m.kernel ++ m.esi.container = m.written.flatten := h
    simp only [Conserved, ← append_assoc, hstream, flatten_append, flatten_cons,
      flatten_nil, append_nil]
  | _ => exact h.of_same rfl rfl rfl

/-- The strings that `write_`, `write_buf` and `write_and_close` append in a step. -/
def Action.strings : Action → List Bytes
  | .append s | .appendAndClose s => [s]
  | _ => []

lemma written_step (hs : m.step a = some m') : m'.written = m.written ++ a.strings := by
  have hclose (m : Machine) (reason : String) (errNo : ℤ) :
      (closeSocket m reason errNo).written = m.written := (closeSocket_output m reason errNo).2.2.1
  cases step_effect hs with
  | connectError => exact (hclose _ _ _).trans (append_nil _).symm
  | eventError | recvEof | closeMarked | closeError =>
    exact (hclose _ _ _).trans (append_nil _).symm
  | writable hp he => exact (established_output _).2.2.trans (append_nil _).symm
  | append | appendAndClose => rfl
  | _ => exact (append_nil _).symm

lemma written_run {as : List Action} (hrun : run step m as = some m') :
    m'.written = m.written ++ as.flatMap Action.strings := by
  induction as generalizing m with
  | nil =>
    cases hrun
    exact (append_nil _).symm
  | cons a as ih =>
    obtain ⟨t, ht, hrest⟩ := run_cons_eq_some.mp hrun
    rw [ih hrest, written_step ht, flatMap_cons, append_assoc]

lemma written_of_starts (h : Starts m) : m.written = [] := by
  cases h with
  | connect hreq =>
    obtain ⟨addr, route, -, -, rfl⟩ := registered_eq hreq
    rfl
  | accept => rfl

lemma written_run_of_starts {m₀ : Machine} {as : List Action} (hstart : Starts m₀)
    (hrun : run step m₀ as = some m) : m.written = as.flatMap Action.strings := by
  rw [written_run hrun, written_of_starts hstart, nil_append]

lemma conserved_run {m₀ : Machine} {as : List Action} (hstart : Starts m₀)
    (hrun : run step m₀ as = some m) :
    m.kernel ++ m.esi.container = (as.flatMap Action.strings).flatten := by
  have h : Conserved m := run_invariant' Conserved.step (conserved_of_starts hstart) hrun
  rwa [Conserved, written_run_of_starts hstart hrun] at h

/-- **The output byte stream**: what the kernel has accepted and what is buffered are the strings
that were appended, in the order of the appends. -/
theorem output_stream_conserved {m₀ : Machine} {as : List Action} (hstart : Starts m₀)
    (hrun : run step m₀ as = some m) :
    m.kernel ++ m.esi.container = (as.flatMap Action.strings).flatten ∧
      m.kernel <+: (as.flatMap Action.strings).flatten ∧
      m.written = as.flatMap Action.strings := by
  have h := conserved_run hstart hrun
  exact ⟨h, ⟨m.esi.container, h⟩, written_run_of_starts hstart hrun⟩

def someRequest : Request :=
  ⟨some (.inet 80#16 1#32), false, [.localService 7#32, .localService 8#32]⟩

def goodCalls : Calls := ⟨true, true, none, none, none⟩

def someSocket : Machine :=
  { new .connected [.localService 7#32] false with
    esi := { (new .connected [.localService 7#32] false).esi with
      inConnection := true, requestForConnect := some (.inet 80#16 1#32), armed := true
      registered := true }
    connecting := some (.inet 80#16 1#32, [.localService 7#32, .localService 8#32]) }

lemma starts_someSocket : Starts someSocket :=
  .connect (rfl : onAddToConnectTCP someRequest goodCalls = .registered someSocket)

def writeTwice : List Action :=
  [.connect .inProgress, .event none false true, .writable .other, .append [1, 2, 3], .testSize,
    .report, .startWrite, .event none false true, .append [4, 5], .writable .other, .send 4 0]

theorem output_stream_conserved_writeTwice :
    ∃ m, run step someSocket (writeTwice ++ [.appendAndClose [6]]) = some m ∧
      m.kernel = [1, 2, 3, 4] ∧ m.esi.container = [5, 6] ∧
      m.kernel ++ m.esi.container = [[1, 2, 3], [4, 5], [6]].flatten ∧
      m.written = [[1, 2, 3], [4, 5], [6]] := by
  obtain ⟨h, -, hwritten⟩ :=
    @output_stream_conserved _ _ (writeTwice ++ [.appendAndClose [6]]) starts_someSocket rfl
  exact ⟨_, rfl, rfl, rfl, h, hwritten⟩

/-! ### Interest in writing -/

def Action.appends : Action → Bool
  | .append _ | .appendAndClose _ => true
  | _ => false

/-- Nothing is appended while the poller disarms the socket. -/
def Undisturbed (m : Machine) (a : Action) : Prop := a.appends = true → m.poller ≠ .disarming

structure Flowing (m : Machine) : Prop where
  armed : m.esi.closed = false → m.esi.container ≠ [] → m.esi.armed = true ∨ 0 < m.starting
  disarming : m.poller = .disarming → m.esi.container = []

lemma flowing_of_starts (h : Starts m) : Flowing m := by
  cases h with
  | connect hreq =>
    obtain ⟨addr, route, -, -, rfl⟩ := registered_eq hreq
    exact ⟨fun _ _ => .inl rfl, nofun⟩
  | accept => exact ⟨fun _ hne => absurd rfl hne, nofun⟩

lemma Flowing.closeSocket (h : Flowing m) (reason : String) (errNo : ℤ) :
    Flowing (closeSocket m reason errNo) := by
  obtain ⟨-, hc, -, hclosed, hp⟩ := closeSocket_output m reason errNo
  refine ⟨fun hopen => ?_, fun hdis => ?_⟩
  · rw [hclosed] at hopen
    cases hopen
  · rw [hc]
    exact h.disarming (hp.symm.trans hdis)

lemma Flowing.of_same (h : Flowing m) (hclosed : m'.esi.closed = m.esi.closed)
    (hcontainer : m'.esi.container = m.esi.container)
    (harmed : m.esi.armed = true → m'.esi.armed = true) (hstarting : m'.starting = m.starting)
    (hpoller : m'.poller = .disarming → m.poller = .disarming) : Flowing m' where
  armed hopen hne := by
    rw [hclosed] at hopen
    rw [hcontainer] at hne
    rw [hstarting]
    exact (h.armed hopen hne).imp_left harmed
  disarming hdis := by
    rw [hcontainer]
    exact h.disarming (hpoller hdis)

lemma established_flow (m : Machine) :
    m.established.esi.closed = m.esi.closed ∧ m.established.esi.armed = m.esi.armed ∧
      m.established.starting = m.starting ∧ m.established.poller ≠ .disarming := by
  rw [established]
  split_ifs <;> exact ⟨rfl, rfl, rfl, nofun⟩

lemma afterInput_ne (writable : Bool) : Poller.afterInput writable ≠ .disarming := by
  cases writable <;> exact nofun

lemma ready_ne (readable writable : Bool) : Poller.ready readable writable ≠ .disarming := by
  cases readable
  · exact afterInput_ne writable
  · exact nofun

lemma Flowing.append (h : m.poller ≠ .disarming) (hpoller : m'.poller = m.poller)
    (hstarting : m'.starting = m.starting + 1) : Flowing m' where
  armed _ _ := .inr (hstarting ▸ Nat.succ_pos _)
  disarming hdis := absurd (hpoller.symm.trans hdis) h

lemma Flowing.send (h : Flowing m) {res res' errno : ℤ}
    (hesi : m'.esi = m.esi.drop res) (hpoller : m'.poller = .sent res' errno)
    (hstarting : m'.starting = m.starting) : Flowing m' where
  armed hopen hne := by
    rw [hesi] at hopen hne ⊢
    rw [Esi.drop_armed hne, hstarting]
    refine h.armed ((Esi.drop_closed _ _).symm.trans hopen) fun hempty => hne ?_
    rw [Esi.drop_container, hempty, drop_nil]
  disarming hdis := by
    rw [hpoller] at hdis
    cases hdis

theorem Flowing.step (h : Flowing m) (hok : Undisturbed m a) (hs : m.step a = some m') :
    Flowing m' := by
  cases step_effect hs with
  | connectDone | connectPending => exact ⟨h.armed, h.disarming⟩
  | connectError =>
    refine Flowing.of_same (Flowing.closeSocket ?_ _ _) rfl rfl (fun harmed => harmed) rfl
      (fun hdis => hdis)
    exact ⟨h.armed, h.disarming⟩
  | eventSkip => exact h
  | eventError => exact h.closeSocket _ _
  | eventReady => exact ⟨h.armed, fun hdis => absurd hdis (ready_ne _ _)⟩
  | recvHandshake hp hsec hssl he =>
    obtain ⟨hcontainer, hclosed, harmed⟩ := handshake_frame he
    exact h.of_same hclosed hcontainer harmed rfl fun hdis => absurd hdis (afterInput_ne _)
  | recvNothing | recvData => exact ⟨h.armed, fun hdis => absurd hdis (afterInput_ne _)⟩
  | recvEof =>
    apply Flowing.closeSocket
    exact ⟨h.armed, fun hdis => absurd hdis (afterInput_ne _)⟩
  | writableDone | testFull hp hne | report | testSent | testSentNone | testMark | notify
  | notifyNone | closeNone => exact ⟨h.armed, nofun⟩
  | writable hp he =>
    obtain ⟨hcontainer, hclosed, harmed⟩ := handshake_frame (he.imp_right .inl)
    obtain ⟨-, hc, -⟩ := established_output { m with esi := _ }
    obtain ⟨hcl, har, hst, hne⟩ := established_flow { m with esi := _ }
    exact h.of_same (hcl.trans hclosed) (hc.trans hcontainer) (fun h => har.trans (harmed h)) hst
      fun hdis => absurd hdis hne
  | testEmpty hp hempty => exact ⟨h.armed, fun _ => hempty⟩
  | stopWrite hp =>
    have hempty := h.disarming hp
    refine ⟨fun _ hne => absurd ?_ hne, nofun⟩
    exact (Esi.setArmed_frame _ _).1.trans hempty
  | sendEmpty hp hempty | send hp hne hlen => exact h.send rfl rfl rfl
  | closeMarked hp | closeError hp =>
    apply Flowing.closeSocket
    exact ⟨h.armed, nofun⟩
  | append | appendAndClose => exact Flowing.append (hok rfl) rfl rfl
  | startWrite hpos =>
    refine ⟨fun hopen _ => .inl (Esi.setArmed_armed ?_ _), fun hdis => ?_⟩
    · exact (Esi.setArmed_frame _ _).2.symm.trans hopen
    · exact (Esi.setArmed_frame _ _).1.trans (h.disarming hdis)

/-- **No stalled output** in an undisturbed run. -/
theorem output_not_stalled {m₀ : Machine} {as : List Action} (hstart : Starts m₀)
    (hrun : run step m₀ as = some m) (hok : Meets step Undisturbed m₀ as) :
    m.esi.closed = false → m.esi.container ≠ [] → m.esi.armed = true ∨ 0 < m.starting :=
  (run_invariant Flowing.step (flowing_of_starts hstart) hok hrun).armed

theorem output_not_stalled_writeTwice : ∃ m, run step someSocket writeTwice = some m ∧
    m.esi.container ≠ [] ∧ (m.esi.armed = true ∨ 0 < m.starting) := by
  have hok : Meets step Undisturbed someSocket writeTwice := by
    repeat' apply And.intro
    all_goals first
      | trivial
      | exact nofun
  refine ⟨_, rfl, nofun, ?_⟩
  exact @output_not_stalled _ _ writeTwice starts_someSocket rfl hok rfl nofun

/-- **The poller takes back the interest that the writer has declared.** -/
theorem output_stalls_after_connect : Starts someSocket ∧ ∃ m, run step someSocket
          [.connect .inProgress, .event none false true, .writable .other, .testSize,
            .append [1], .startWrite, .stopWrite, .report] = some m ∧
        m.esi.closed = false ∧ m.esi.container = [1] ∧ m.esi.armed = false ∧ m.starting = 0 ∧
        m.poller = .idle := ⟨starts_someSocket, _, rfl, rfl, rfl, rfl, rfl, rfl⟩

end Megatron.Socket
