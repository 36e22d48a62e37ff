import Megatron.Socket.Session

/-!
Results of `::recv` and `::send` on an established TCP connection without TLS, and which of them end
it (`fatal_results_end_connection`).
-/

namespace Megatron.Socket

open Library Machine Poller

variable {m m' : Machine} {a : Action}

/-- Errors after which the call is repeated. -/
def transient (errno : ℤ) : Bool := errno == 11 || errno == 4 || errno == 105

/-- The call reports an error, or the end of the stream. -/
def Fatal (m : Machine) : Action → Prop
  | .recv _ bytes errno =>
    m.esi.closed = false ∧ (bytes = some [] ∨ bytes = none ∧ transient errno = false)
  | .send res errno => m.esi.container ≠ [] ∧ res = -1 ∧ transient errno = false
  | _ => False

def Tolerable (m : Machine) : Action → Prop
  | .recv _ none errno => m.esi.closed = false → transient errno = true
  | .send res errno => m.esi.container ≠ [] → res = -1 → errno ≠ 4
  | _ => True

/-- `epoll` reports an error. -/
def Action.reportsError : Action → Bool
  | .event (some _) _ _ => true
  | _ => false

lemma retryLater_of_transient {errno : ℤ} (h : errno ≠ 4) : retryLater errno = transient errno := by
  simp only [retryLater, transient]
  grind

/-! ### From a fatal result to the end -/

def Poller.doomed : Poller → Bool
  | .sent res errno => res == -1 && !retryLater errno
  | .drained res errno => res == -1 && !retryLater errno
  | .notifying res errno _ => res == -1 && !retryLater errno
  | .closing res errno _ => res == -1 && !retryLater errno
  | _ => false

def Poller.stepsLeft : Poller → ℕ
  | .sent _ _ => 4
  | .drained _ _ => 3
  | .notifying _ _ _ => 2
  | .closing _ _ _ => 1
  | _ => 0

lemma fatal_step (hok : Tolerable m a) (hfatal : Fatal m a) (hsecure : m.esi.secure = false)
    (hs : m.step a = some m') : m'.esi.closed = true ∨ m'.poller.doomed = true := by
  cases step_effect hs with
  | recvHandshake hp hsec => exact absurd (hsecure.symm.trans hsec) nofun
  | recvNothing hp hssl hnone =>
    obtain ⟨hopen, hbytes⟩ := hfatal
    rcases hnone with hclosed | rfl
    · exact absurd (hopen.symm.trans hclosed) nofun
    · rcases hbytes with hbytes | ⟨-, herrno⟩
      · cases hbytes
      · exact absurd ((hok hopen).symm.trans herrno) nofun
  | recvEof => exact .inl (closeSocket_output _ _ _).2.2.2.1
  | recvData => rcases hfatal.2 with h | ⟨h, -⟩ <;> cases h
  | sendEmpty hp hempty => exact absurd hempty hfatal.1
  | send hp hne hlen =>
    obtain ⟨-, rfl, herrno⟩ := hfatal
    refine .inr ?_
    simp [doomed, retryLater_of_transient (hok hne rfl), herrno]
  | _ => exact hfatal.elim

lemma doomed_step (h : m.poller.doomed = true) (hs : m.step a = some m') :
    m'.esi.closed = true ∨ m'.poller.doomed = true ∧ (m'.poller.stepsLeft < m.poller.stepsLeft ∨
        m'.poller.stepsLeft = m.poller.stepsLeft ∧ a.ofPoller = false) := by
  cases step_effect hs with
  | connectDone | connectPending | append | appendAndClose | startWrite =>
    exact .inr ⟨h, .inr ⟨rfl, rfl⟩⟩
  | connectError | closeMarked | closeError => exact .inl (closeSocket_output _ _ _).2.2.2.1
  | testSent hp hres =>
    rw [hp] at h
    exact .inr ⟨h, .inl (by simp [hp, stepsLeft])⟩
  | testSentNone hp hne | testMark hp | notify hp hempty | notifyNone hp hne =>
    rw [hp] at h ⊢
    exact .inr ⟨h, .inl (by simp [stepsLeft])⟩
  | closeNone hp hretry =>
    rw [hp] at h
    simp only [doomed, Bool.and_eq_true, beq_iff_eq, Bool.not_eq_true'] at h
    exact absurd ((hretry h.1).symm.trans h.2) nofun
  | _ => simp_all [doomed]

/-! ### While no result is fatal -/

structure Unharmed (m : Machine) : Prop where
  opened : m.esi.closed = false
  spared : m.poller.doomed = false
  marked : m.poller.willClose = true → m.esi.markedToDestroyOnSend = true

lemma Unharmed.goto (h : Unharmed m) (hclosed : m'.esi.closed = m.esi.closed)
    (hspared : m'.poller.doomed = false) (hstay : m'.poller.willClose = false) : Unharmed m' :=
  ⟨hclosed.trans h.opened, hspared, fun hp => absurd (hstay.symm.trans hp) nofun⟩

lemma Unharmed.of_same (h : Unharmed m) (hclosed : m'.esi.closed = m.esi.closed)
    (hpoller : m'.poller = m.poller)
    (hmarked : m.esi.markedToDestroyOnSend = true → m'.esi.markedToDestroyOnSend = true) :
    Unharmed m' :=
  ⟨hclosed.trans h.opened, hpoller ▸ h.spared, fun hp => hmarked (h.marked (hpoller ▸ hp))⟩

lemma Unharmed.early (h : Unharmed m) (hclosed : m'.esi.closed = m.esi.closed)
    (hearly : m'.poller.early = true) : Unharmed m' := by
  refine h.goto hclosed ?_ ?_ <;> cases hp : m'.poller <;> rw [hp] at hearly <;>
    first | rfl | cases hearly

theorem Unharmed.step (h : Unharmed m) {t : StreamType} {owner : RouteT}
    (hsession : Session t owner m) (hmark : m.esi.markedToDestroyOnSend = false)
    (hok : Tolerable m a) (hfatal : ¬ Fatal m a) (hevent : a.reportsError = false)
    (hs : m.step a = some m') : Unharmed m' := by
  have hspared := h.spared
  have hmarked := h.marked
  have hover := hsession.attempt_over hs
  cases step_effect hs with
  | connectDone | connectPending | connectError | testEmpty | testFull | stopWrite | report =>
    cases hover
  | eventSkip => exact h
  | eventError => cases hevent
  | eventReady => exact h.early rfl (ready_early _ _)
  | recvHandshake hp hsec hssl he => exact h.early (handshake_frame he).2.1 (afterInput_early _)
  | recvNothing | recvData => exact h.early rfl (afterInput_early _)
  | recvEof hp hssl hopen => exact absurd ⟨hopen, .inl rfl⟩ hfatal
  | writableDone hp hsec hin => exact absurd (hsession.inConnection.symm.trans hin) nofun
  | writable hp he =>
    obtain ⟨e, htouched, heq⟩ := hsession.writable hs
    rw [heq, h.opened]
    exact h.goto htouched.owner.closed rfl rfl
  | sendEmpty => exact h.goto (Esi.drop_closed _ _) rfl rfl
  | @send errno res hp hne hlen =>
    refine h.goto (Esi.drop_closed _ _) ?_ rfl
    -- the error is one of those that are passed over
    by_cases hres : res = -1
    · have htransient : transient errno = true := by
        by_contra hnot
        exact hfatal ⟨hne, hres, Bool.eq_false_of_not_eq_true hnot⟩
      simp [doomed, retryLater_of_transient (hok hne hres), htransient]
    · simp [doomed, hres]
  | testSent hp | testSentNone hp hne =>
    rw [hp] at hspared
    exact h.goto rfl hspared rfl
  | testMark hp =>
    rw [hp] at hspared
    exact ⟨h.opened, hspared, fun hm => hm⟩
  | notify hp hempty | notifyNone hp hne =>
    rw [hp] at hspared hmarked
    exact ⟨h.opened, hspared, hmarked⟩
  | closeMarked hp =>
    rw [hp] at hmarked
    exact absurd (hmark.symm.trans (hmarked rfl)) nofun
  | closeError hp hretry =>
    rw [hp] at hspared
    simp [doomed, hretry] at hspared
  | closeNone => exact h.goto rfl rfl rfl
  | append => exact h.of_same rfl rfl fun hm => hm
  | appendAndClose => exact h.of_same rfl rfl fun _ => rfl
  | startWrite =>
    exact h.of_same (Esi.setArmed_frame _ _).2 rfl fun hm =>
      (sameInput_setArmed _ _).marked.trans hm

/-! ### What is read -/

def Machine.received (m : Machine) : Action → Bytes
  | .recv _ (some bs) _ => if m.esi.closed then [] else bs
  | _ => []

def Esi.Clear (e : Esi) : Prop := e.secure = true → e.sslConnected = true

lemma clear_of_plain {e : Esi} (h : e.secure = false) : e.Clear :=
  fun hsecure => absurd (h.symm.trans hsecure) nofun

lemma input_step (hclear : m.esi.Clear) (hs : m.step a = some m') :
    m'.esi.inBuffer = m.esi.inBuffer ++ m.received a ∧ m'.esi.secure = m.esi.secure ∧
      m'.esi.sslConnected = m.esi.sslConnected := by
  have hsame {e : Esi} (h : SameInput m.esi e) (hnone : m.received a = []) :
      e.inBuffer = m.esi.inBuffer ++ m.received a ∧ e.secure = m.esi.secure ∧
        e.sslConnected = m.esi.sslConnected := by
    rw [hnone, List.append_nil]
    exact ⟨h.inBuffer, h.secure, h.sslConnected⟩
  cases step_effect hs with
  | connectError => exact hsame (sameInput_closeSocket { m with connecting := none } _ _) rfl
  | eventError => exact hsame (sameInput_closeSocket _ _ _) rfl
  | recvHandshake hp hsec hssl | writableDone hp hsec hin hssl =>
    exact absurd ((hclear hsec).symm.trans hssl) nofun
  | @recvNothing writable bytes hs errno hp hssl hnone =>
    refine hsame ⟨rfl, rfl, rfl, rfl⟩ ?_
    rcases hnone with hclosed | rfl
    · cases bytes with
      | none => rfl
      | some bs => simp [received, hclosed]
    · rfl
  | @recvEof writable hs errno hp hssl hopen =>
    refine hsame (sameInput_closeSocket { m with poller := .afterInput writable } _ _) ?_
    simp [received]
  | recvData hp hssl hopen =>
    refine ⟨?_, rfl, rfl⟩
    simp [received, Machine.deliver, hopen]
  | @writable e hs hp he =>
    have hest := sameInput_established { m with esi := e }
    rcases he with rfl | rfl
    · exact hsame hest rfl
    · have harm := sameInput_setArmed m.esi true
      exact hsame ⟨hest.secure.trans harm.secure, hest.sslConnected.trans harm.sslConnected,
        hest.inBuffer.trans harm.inBuffer, hest.marked.trans harm.marked⟩ rfl
  | stopWrite | startWrite => exact hsame (sameInput_setArmed _ _) rfl
  | sendEmpty | send => exact hsame (sameInput_drop _ _) rfl
  | closeMarked | closeError =>
    exact hsame (sameInput_closeSocket { m with poller := .idle } _ _) rfl
  | appendAndClose => exact ⟨(List.append_nil _).symm, rfl, rfl⟩
  | _ => exact hsame ⟨rfl, rfl, rfl, rfl⟩ rfl

section

variable {e : Execution step}

lemma session_at (hstart : Established (e.state 0)) (n : ℕ) :
    Session (e.state 0).esi.streamType (e.state 0).esi.route (e.state n) :=
  Execution.invariant' Session.step hstart.session n

lemma secure_at (hplain : (e.state 0).esi.secure = false) (n : ℕ) :
    (e.state n).esi.secure = false :=
  Execution.invariant' (fun h hs => (input_step (clear_of_plain h) hs).2.1.trans h) hplain n

lemma inBuffer_at (hplain : (e.state 0).esi.secure = false) (n : ℕ) : (e.state n).esi.inBuffer =
    (e.state 0).esi.inBuffer ++ (List.range n).flatMap fun k => (e.state k).received (e.act k) := by
  induction n with
  | zero => simp
  | succ n ih =>
    rw [(input_step (clear_of_plain (secure_at hplain n)) (e.next n)).1, ih, List.range_succ,
      List.flatMap_append, List.append_assoc, List.flatMap_singleton]

lemma closed_of_doomed (hfair : e.Fair (fun a => a.ofPoller = true) inHandler) {n : ℕ}
    (h : (e.state n).poller.doomed = true) : ∃ m, n ≤ m ∧ (e.state (m + 1)).esi.closed = true := by
  refine Execution.eventually_of_rank (fun m => (e.state m).poller.doomed = true)
    (fun m => (e.state m).poller.stepsLeft) (fun _ => ()) (fun _ => hfair)
    (fun m hm hidle => ?_) (fun m hm => ?_) h
  · rw [hidle] at hm
    cases hm
  · rcases doomed_step hm (e.next m) with hclosed | ⟨hdoomed, hlt | ⟨hsame, hother⟩⟩
    · exact .inl hclosed
    · exact .inr ⟨hdoomed, .inl hlt⟩
    · exact .inr ⟨hdoomed, .inr ⟨hsame, rfl, by simp [hother]⟩⟩

lemma unmarked_before {n : ℕ} (h : (e.state (n + 1)).esi.markedToDestroyOnSend = false) :
    (e.state n).esi.markedToDestroyOnSend = false := by
  by_contra hmarked
  have := marked_step (e.next n) (Bool.eq_true_of_not_eq_false hmarked)
  rw [h] at this
  cases this

lemma unharmed_at (hstart : Established (e.state 0)) (hok : ∀ n, Tolerable (e.state n) (e.act n))
    {n : ℕ} (hno : ∀ k < n, ¬ Fatal (e.state k) (e.act k) ∧ (e.act k).reportsError = false)
    (hmarked : (e.state n).esi.markedToDestroyOnSend = false) : Unharmed (e.state n) := by
  induction n with
  | zero => exact ⟨hstart.opened, by rw [hstart.poller]; rfl, by rw [hstart.poller]; exact nofun⟩
  | succ n ih =>
    have hbefore := unmarked_before hmarked
    have hsession := session_at hstart n
    obtain ⟨hfatal, hevent⟩ := hno n (Nat.lt_succ_self n)
    exact (ih (fun k hk => hno k (Nat.lt_succ_of_lt hk)) hbefore).step hsession hbefore
      (hok n) hfatal hevent (e.next n)

/-- **Results of `::recv` and `::send`.** After a fatal one the connection ends; otherwise it stays.
-/
theorem fatal_results_end_connection (hstart : Established (e.state 0))
    (hplain : (e.state 0).esi.secure = false)
    (hfair : e.Fair (fun a => a.ofPoller = true) inHandler)
    (hok : ∀ n, Tolerable (e.state n) (e.act n)) :
    (∀ n, Fatal (e.state n) (e.act n) → ∃ m, n < m ∧ ∀ k, m ≤ k →
        Ended (e.state 0).esi.streamType (e.state 0).esi.route (e.state k)) ∧
      (∀ n, (∀ k < n, ¬ Fatal (e.state k) (e.act k) ∧ (e.act k).reportsError = false) →
        (e.state n).esi.markedToDestroyOnSend = false →
          (e.state n).esi.closed = false ∧ (e.state n).esi.registered = true ∧
            (e.state n).farewells = []) ∧
      ∀ n, (e.state n).kernel ++ (e.state n).esi.container = (e.state n).written.flatten ∧
        (e.state n).esi.inBuffer = (e.state 0).esi.inBuffer ++
          (List.range n).flatMap fun k => (e.state k).received (e.act k) := by
  refine ⟨fun n hfatal => ?_, fun n hno hmarked => ?_, fun n => ?_⟩
  · have hclosed : ∃ m, n < m ∧ (e.state m).esi.closed = true := by
      rcases fatal_step (hok n) hfatal (secure_at hplain n) (e.next n) with hclosed | hdoomed
      · exact ⟨n + 1, Nat.lt_succ_self n, hclosed⟩
      · obtain ⟨m, hm, hclosed⟩ := closed_of_doomed hfair hdoomed
        exact ⟨m + 1, by omega, hclosed⟩
    obtain ⟨m, hm, hclosed⟩ := hclosed
    refine ⟨m, hm, fun k hk => (session_at hstart k).ended ?_⟩
    exact Execution.invariant (fun _ _ => True) (fun h _ hs => closed_step hs h)
      (fun _ => trivial) hclosed hk
  · have hunharmed := unharmed_at hstart hok hno hmarked
    have hsession := session_at hstart n
    refine ⟨hunharmed.opened, ?_, hsession.silent hunharmed.opened⟩
    rw [hsession.registered, hunharmed.opened]
    rfl
  · exact ⟨(session_at hstart n).conserved, inBuffer_at hplain n⟩

end

def someAccepted : Machine := .accepted [.localService 7#32] false

lemma established_someAccepted : Established someAccepted := ⟨rfl, rfl, rfl, rfl, rfl, rfl, rfl⟩

def brokenPipe : List Action :=
  [.append [1, 2], .startWrite, .event none true true, .recv .other none 11, .writable .other,
    .send 1 0, .testSent, .notify, .close,
    .event none false true, .writable .other, .send (-1) 32, .testSent, .notify, .close]

def pipeEnd : Machine :=
  { someAccepted with
    esi := { someAccepted.esi with
      registered := false, closed := true, armed := true, container := [2] }
    delivered := [⟨.accepted, [.localService 7#32]⟩,
      ⟨.disaccepted "send result (-1)", [.localService 7#32]⟩]
    kernel := [1]
    written := [[1, 2]] }

lemma run_brokenPipe : run step someAccepted brokenPipe = some pipeEnd := rfl

theorem fatal_results_end_connection_brokenPipe :
    ∃ e : Execution step, e.state 0 = someAccepted ∧ Fatal (e.state 11) (e.act 11) ∧
      ∃ m, 11 < m ∧ ∀ k, m ≤ k → Ended .accepted [.localService 7#32] (e.state k) := by
  let e := Execution.ofRun run_brokenPipe (rfl : pipeEnd.step (.event none false false) = _)
  have hmeets : Meets step Tolerable someAccepted brokenPipe := by
    repeat' apply And.intro
    all_goals first | trivial | exact fun _ => rfl | exact fun _ => nofun
  have hfatal : Fatal (e.state 11) (e.act 11) := ⟨nofun, rfl, rfl⟩
  refine ⟨e, rfl, hfatal, ?_⟩
  exact (fatal_results_end_connection (e := e) established_someAccepted rfl
    (Execution.ofRun_fair _ fun h => h rfl) (Execution.ofRun_forall hmeets trivial)).1 11 hfatal

/-- **Two results are handled wrongly**, of `::recv` and of `::send`. -/
theorem fatal_result_ignored :
    (∃ m, Fatal ({ someAccepted with poller := .input false }) (.recv .other none 104) ∧
      run step someAccepted [.event none true false, .recv .other none 104] = some m ∧
      m = someAccepted) ∧
    ∃ m, transient 4 = true ∧ run step someAccepted
        [.append [1], .startWrite, .event none false true, .writable .other, .send (-1) 4,
          .testSent, .notify, .close] = some m ∧
      m.esi.closed = true ∧ m.kernel = [] ∧ m.written = [[1]] :=
  ⟨⟨_, ⟨rfl, .inr ⟨rfl, rfl⟩⟩, rfl, rfl⟩, ⟨_, rfl, rfl, rfl, rfl, rfl⟩⟩

end Megatron.Socket
