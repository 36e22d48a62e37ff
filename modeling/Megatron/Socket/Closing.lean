import Megatron.Socket.Errors

/-!
`write_and_close` on an established connection: the string is appended, the buffer is marked, and
the poller closes the socket when it has emptied the buffer. Timely steps keep the mark
(`MarkKept.step`), so that the socket is closed (`marked_socket_closes`).
-/

namespace Megatron.Socket

open Library List Poller Machine Execution

variable {m m' : Machine} {a : Action} {t : StreamType} {owner : RouteT}

def Poller.isDrained : Poller → Bool
  | .drained _ _ => true
  | _ => false

def Poller.seesMark : Poller → Bool
  | .sent res _ => decide (0 < res)
  | .drained _ _ => true
  | _ => false

/-- No bytes are appended between the test of the size and the close. -/
def Timely (m : Machine) : Action → Prop
  | .append s =>
    m.poller.willClose = true ∨ m.poller.isDrained = true ∧ m.esi.markedToDestroyOnSend = true →
      s = []
  | .appendAndClose s =>
    (m.poller.willClose = true → s = []) ∧
    (m.poller.isDrained = true → m.esi.container ++ s = []) ∧
    (m.esi.markedToDestroyOnSend = false → m.esi.container ++ s = [] → m.poller.seesMark = true)
  | _ => True

def Peaceful (m : Machine) : Action → Prop
  | .event (some _) _ _ => False
  | .recv _ (some []) _ => m.esi.closed = true
  | .send res errno => m.esi.container ≠ [] → res = -1 → retryLater errno = true
  | _ => True

/-! ### The mark -/

structure MarkKept (m : Machine) : Prop where
  spared : m.poller.doomed = false
  found : m.poller.willClose = true → m.esi.markedToDestroyOnSend = true
  pending : m.esi.closed = false → m.esi.markedToDestroyOnSend = true →
    m.esi.container ≠ [] ∨ m.poller.seesMark = true ∨ m.poller.willClose = true
  emptied : m.poller.willClose = true ∨
    m.poller.isDrained = true ∧ m.esi.markedToDestroyOnSend = true → m.esi.container = []

def Poller.neutral : Poller → Bool
  | .sent _ _ | .drained _ _ | .notifying _ _ _ | .closing _ _ _ => false
  | _ => true

lemma Poller.neutral_spec {p : Poller} (h : p.neutral = true) :
    p.doomed = false ∧ p.willClose = false ∧ p.seesMark = false ∧ p.isDrained = false := by
  cases p <;> first | exact ⟨rfl, rfl, rfl, rfl⟩ | cases h

lemma Poller.early_neutral {p : Poller} (h : p.early = true) : p.neutral = true := by
  cases p <;> first | rfl | cases h

lemma MarkKept.leave (h : MarkKept m) (hp : m.poller.seesMark = false)
    (hw : m.poller.willClose = false) (hp' : m'.poller.neutral = true)
    (hclosed : m'.esi.closed = m.esi.closed) (hcontainer : m'.esi.container = m.esi.container)
    (hmarked : m'.esi.markedToDestroyOnSend = m.esi.markedToDestroyOnSend) : MarkKept m' := by
  obtain ⟨hspared, hclose, -, hdrained⟩ := neutral_spec hp'
  refine ⟨hspared, fun hfound => ?_, fun hopen hmark => .inl ?_, fun hor => ?_⟩
  · rw [hclose] at hfound
    cases hfound
  · rw [hcontainer]
    have := h.pending (hclosed.symm.trans hopen) (hmarked.symm.trans hmark)
    simpa [hp, hw] using this
  · rw [hclose, hdrained] at hor
    rcases hor with hor | ⟨hor, -⟩ <;> cases hor

lemma MarkKept.enter (h : MarkKept m) (hp : m.poller.neutral = true) (hp' : m'.poller.early = true)
    (hclosed : m'.esi.closed = m.esi.closed) (hcontainer : m'.esi.container = m.esi.container)
    (hmarked : m'.esi.markedToDestroyOnSend = m.esi.markedToDestroyOnSend) : MarkKept m' := by
  obtain ⟨-, hclose, hsees, -⟩ := neutral_spec hp
  exact h.leave hsees hclose (early_neutral hp') hclosed hcontainer hmarked

lemma MarkKept.stay (h : MarkKept m) (hp : m'.poller = m.poller)
    (hclosed : m'.esi.closed = m.esi.closed) (hcontainer : m'.esi.container = m.esi.container)
    (hmarked : m'.esi.markedToDestroyOnSend = m.esi.markedToDestroyOnSend) : MarkKept m' := by
  constructor
  · rw [hp]
    exact h.spared
  · rw [hp, hmarked]
    exact h.found
  · rw [hp, hmarked, hclosed, hcontainer]
    exact h.pending
  · rw [hp, hmarked, hcontainer]
    exact h.emptied

lemma markKept_of_closed (hp : m.poller.neutral = true) (hclosed : m.esi.closed = true) :
    MarkKept m := by
  obtain ⟨hspared, hclose, -, hdrained⟩ := neutral_spec hp
  refine ⟨hspared, fun hfound => ?_, fun hopen => ?_, fun hor => ?_⟩
  · rw [hclose] at hfound
    cases hfound
  · rw [hclosed] at hopen
    cases hopen
  · rw [hclose, hdrained] at hor
    rcases hor with hor | ⟨hor, -⟩ <;> cases hor

lemma markKept_sent {res errno : ℤ} (hne : m.esi.container ≠ [])
    (hpeace : res = -1 → retryLater errno = true) (hesi : m'.esi = m.esi.drop res)
    (hpoller : m'.poller = .sent res errno) : MarkKept m' := by
  constructor
  · rw [hpoller]
    by_cases hres : res = -1
    · simp [doomed, hpeace hres]
    · simp [doomed, hres]
  · rw [hpoller]
    rintro ⟨⟩
  · intro _ _
    rw [hpoller, hesi, Esi.drop_container]
    -- an empty buffer has been emptied by this call
    by_cases hres : 0 < res
    · exact .inr (.inl (by simp [seesMark, hres]))
    · refine .inl ?_
      rwa [Int.toNat_of_nonpos (not_lt.mp hres), drop_zero]
  · rw [hpoller]
    rintro (hor | ⟨hor, -⟩) <;> cases hor

lemma MarkKept.append (h : MarkKept m) {s : Bytes} (htimely : Timely m (.append s))
    (hp : m'.poller = m.poller) (hclosed : m'.esi.closed = m.esi.closed)
    (hcontainer : m'.esi.container = m.esi.container ++ s)
    (hmarked : m'.esi.markedToDestroyOnSend = m.esi.markedToDestroyOnSend) : MarkKept m' := by
  refine ⟨hp ▸ h.spared, ?_, fun hopen hmark => ?_, fun hor => ?_⟩
  · rw [hp, hmarked]
    exact h.found
  · rw [hp, hcontainer]
    refine (h.pending (hclosed ▸ hopen) (hmarked ▸ hmark)).imp_left fun hne happ => ?_
    exact hne (append_eq_nil_iff.mp happ).1
  · rw [hp, hmarked] at hor
    rw [hcontainer, h.emptied hor, htimely hor]
    rfl

lemma MarkKept.appendAndClose (h : MarkKept m) {s : Bytes}
    (htimely : Timely m (.appendAndClose s)) (hp : m'.poller = m.poller)
    (hclosed : m'.esi.closed = m.esi.closed) (hcontainer : m'.esi.container = m.esi.container ++ s)
    (hmarked : m'.esi.markedToDestroyOnSend = true) : MarkKept m' := by
  obtain ⟨hclosing, hdrained, hfirst⟩ := htimely
  refine ⟨hp ▸ h.spared, fun _ => hmarked, fun hopen _ => ?_, fun hor => ?_⟩
  · rw [hp, hcontainer]
    by_cases hempty : m.esi.container ++ s = []
    · refine .inr ?_
      cases hmark : m.esi.markedToDestroyOnSend with
      | false => exact .inl (hfirst hmark hempty)
      | true =>
        refine (h.pending (hclosed ▸ hopen) hmark).resolve_left fun hne => ?_
        exact hne (append_eq_nil_iff.mp hempty).1
    · exact .inl hempty
  · rw [hp] at hor
    rw [hcontainer]
    rcases hor with hor | ⟨hor, -⟩
    · rw [h.emptied (.inl hor), hclosing hor]
      rfl
    · exact hdrained hor

/-- **Every timely step keeps the mark.** -/
theorem MarkKept.step (h : MarkKept m) (hsession : Session t owner m) (hpeace : Peaceful m a)
    (htimely : Timely m a) (hs : m.step a = some m') : MarkKept m' := by
  have hspared := h.spared
  have hfound := h.found
  have hpending := h.pending
  have hemptied := h.emptied
  have hover := hsession.attempt_over hs
  cases step_effect hs with
  | connectDone | connectPending | connectError | testEmpty | testFull | stopWrite | report =>
    cases hover
  | eventSkip => exact h
  | eventError => exact hpeace.elim
  | eventReady hp => exact h.enter (by rw [hp]; rfl) (ready_early _ _) rfl rfl rfl
  | recvHandshake hp hsec hssl he =>
    have htouched := touched_of_handshake he
    exact h.enter (by rw [hp]; rfl) (afterInput_early _) htouched.owner.closed
      htouched.container htouched.marked
  | recvNothing hp | recvData hp => exact h.enter (by rw [hp]; rfl) (afterInput_early _) rfl rfl rfl
  | recvEof hp hssl hopen => exact absurd (hopen.symm.trans hpeace) nofun
  | writableDone hp hsec hin => exact absurd (hsession.inConnection.symm.trans hin) nofun
  | writable hp he =>
    obtain ⟨e, htouched, heq⟩ := hsession.writable hs
    rw [heq]
    refine h.leave (by rw [hp]; rfl) (by rw [hp]; rfl) ?_ htouched.owner.closed
      htouched.container htouched.marked
    dsimp only
    split_ifs <;> rfl
  | sendEmpty hp hempty =>
    rw [hp] at hpending
    refine ⟨rfl, nofun, fun hopen hmark => ?_, ?_⟩
    · have := hpending ((Esi.drop_closed _ _).symm.trans hopen)
        ((sameInput_drop _ _).marked.symm.trans hmark)
      simp [hempty, seesMark, willClose] at this
    · rintro (hor | ⟨hor, -⟩) <;> cases hor
  | send hp hne hlen => exact markKept_sent hne (hpeace hne) rfl rfl
  | testSent hp hres hempty =>
    rw [hp] at hspared
    exact ⟨hspared, nofun, fun _ _ => .inr (.inl rfl), fun _ => hempty⟩
  | testSentNone hp hne =>
    rw [hp] at hspared hpending
    refine ⟨hspared, nofun, fun hopen hmark => .inl ?_, ?_⟩
    · rcases hpending hopen hmark with hc | hsees | hclose
      · exact hc
      · exact hne (by simpa [seesMark] using hsees)
      · cases hclose
    · rintro (hor | ⟨hor, -⟩) <;> cases hor
  | testMark hp =>
    rw [hp] at hspared hemptied
    refine ⟨hspared, fun hmark => hmark, fun _ hmark => .inr (.inr hmark), ?_⟩
    rintro (hmark | ⟨hor, -⟩)
    · exact hemptied (.inr ⟨rfl, hmark⟩)
    · cases hor
  | notify hp hempty | notifyNone hp hne =>
    rw [hp] at hspared hfound hpending hemptied
    exact ⟨hspared, hfound, hpending, hemptied⟩
  | closeMarked hp =>
    refine markKept_of_closed ?_ (closeSocket_output _ _ _).2.2.2.1
    rw [(closeSocket_output _ _ _).2.2.2.2]
    rfl
  | closeError hp hfatal =>
    rw [hp] at hspared
    simp [doomed, hfatal] at hspared
  | closeNone hp hretry => exact h.leave (by rw [hp]; rfl) (by rw [hp]; rfl) rfl rfl rfl rfl
  | append => exact h.append htimely rfl rfl rfl rfl
  | appendAndClose => exact h.appendAndClose htimely rfl rfl rfl rfl
  | startWrite hpos =>
    exact h.stay rfl (Esi.setArmed_frame _ _).2 (Esi.setArmed_frame _ _).1
      (sameInput_setArmed _ _).marked

lemma emptied_of_closes (h : MarkKept m) (hsession : Session t owner m) (hpeace : Peaceful m a)
    (hs : m.step a = some m') (hopen : m.esi.closed = false) (hclosed : m'.esi.closed = true) :
    m.esi.container = [] ∧ a = .close := by
  have hstay {e : Esi} (he : e.closed = m.esi.closed) (hcl : e.closed = true) : False := by
    rw [he, hopen] at hcl
    cases hcl
  have hover := hsession.attempt_over hs
  cases step_effect hs with
  | connectError => cases hover
  | eventError => exact hpeace.elim
  | recvHandshake hp hsec hssl he => exact (hstay (handshake_frame he).2.1 hclosed).elim
  | recvEof hp hssl hopen => exact absurd (hopen.symm.trans hpeace) nofun
  | writable hp he =>
    rw [(established_flow _).1] at hclosed
    exact (hstay (handshake_frame (he.imp_right .inl)).2.1 hclosed).elim
  | stopWrite | startWrite => exact (hstay (Esi.setArmed_frame _ _).2 hclosed).elim
  | sendEmpty | send => exact (hstay (Esi.drop_closed _ _) hclosed).elim
  | closeMarked hp => exact ⟨h.emptied (.inl (by rw [hp]; rfl)), rfl⟩
  | closeError hp hfatal =>
    have hspared := h.spared
    rw [hp] at hspared
    simp [doomed, hfatal] at hspared
  | _ => exact (hstay rfl hclosed).elim

/-! ### The way to the end -/

inductive Agent where
  /-- The poller thread, inside a handler. -/
  | poller
  /-- `epoll_wait`, which reports writability. -/
  | epoll
  | writers
  deriving DecidableEq, Repr

def Agent.Acts : Agent → Action → Prop
  | .poller, a => a.ofPoller = true
  | .epoll, a => ∃ readable, a = .event none readable true
  | .writers, a => a = .startWrite

def Agent.Enabled : Agent → Machine → Prop
  | .poller, m => m.inHandler
  | .epoll, m => m.esi.armed = true ∧ m.esi.closed = false
  | .writers, m => 0 < m.starting

/-- `::send` is called: the buffer is not empty. -/
def Trying (m : Machine) : Action → Prop
  | .send _ _ => m.esi.container ≠ []
  | _ => False

/-- `::send` is called and takes bytes. -/
def Accepted (m : Machine) : Action → Prop
  | .send res _ => m.esi.container ≠ [] ∧ 0 < res
  | _ => False

def Poller.outbound : Poller → ℕ
  | .input true => 3
  | .output => 2
  | .sending => 1
  | _ => 0

/-- How far `send` is away. -/
def Machine.stage (m : Machine) : ℕ :=
  if m.poller.outbound = 0 then if m.esi.armed then 4 else 5 else m.poller.outbound

/-- Who brings `send` nearer. -/
def Machine.helper (m : Machine) : Agent :=
  if m.poller.outbound = 0 then if m.esi.armed then .epoll else .writers else .poller

def Nearer (m : Machine) (a : Action) (m' : Machine) : Prop :=
  m'.stage < m.stage ∨ m'.stage = m.stage ∧ m'.helper = m.helper ∧ ¬ m.helper.Acts a

lemma helper_enabled (hflowing : Flowing m) (hopen : m.esi.closed = false)
    (hne : m.esi.container ≠ []) : m.helper.Enabled m := by
  rw [helper]
  split_ifs with hplace harmed
  · exact ⟨harmed, hopen⟩
  · exact (hflowing.armed hopen hne).resolve_left harmed
  · intro hidle
    rw [hidle] at hplace
    exact hplace rfl

lemma outbound_lt (p : Poller) : p.outbound < 4 := by
  rcases p with _ | ⟨_ | _⟩ <;> exact Nat.lt_of_sub_eq_succ rfl

lemma helper_of_stage (h : m'.stage = m.stage) : m'.helper = m.helper := by
  have hlt := outbound_lt m.poller
  have hlt' := outbound_lt m'.poller
  unfold stage at h
  unfold helper
  split_ifs at h ⊢ <;> first | rfl | omega

lemma nearer_of_le (hle : m'.stage ≤ m.stage) (hacts : m'.stage = m.stage → ¬ m.helper.Acts a) :
    Nearer m a m' := by
  rcases hle.lt_or_eq with hlt | heq
  · exact .inl hlt
  · exact .inr ⟨heq, helper_of_stage heq, hacts heq⟩

lemma nearer_move (hpos : m'.poller.outbound ≠ 0)
    (hlt : m'.poller.outbound < m.poller.outbound) : Nearer m a m' := by
  refine .inl ?_
  rwa [stage, stage, if_neg hpos, if_neg (Nat.ne_zero_of_lt hlt)]

lemma nearer_wait (hplace : m.poller.outbound = 0) (hplace' : m'.poller.outbound = 0)
    (harmed : m.esi.armed = true → m'.esi.armed = true)
    (hepoll : ∀ readable, a ≠ .event none readable true) (hwriters : a ≠ .startWrite) :
    Nearer m a m' := by
  refine nearer_of_le ?_ fun _ => ?_
  · rw [stage, stage, if_pos hplace, if_pos hplace']
    cases harm : m.esi.armed with
    | true => rw [harmed harm]
    | false =>
      rw [if_neg Bool.false_ne_true]
      split_ifs <;> decide
  · rw [helper, if_pos hplace]
    split_ifs
    · exact fun ⟨readable, hact⟩ => hepoll readable hact
    · exact hwriters

lemma nearer_input {writable : Bool} {hs : Handshake} {bytes : Option Bytes} {errno : ℤ}
    (hp : m.poller = .input writable) (hp' : m'.poller = .afterInput writable)
    (harmed : m.esi.armed = true → m'.esi.armed = true) : Nearer m (.recv hs bytes errno) m' := by
  cases writable with
  | true =>
    refine nearer_move ?_ ?_
    · rw [hp']
      exact nofun
    · rw [hp, hp']
      decide
  | false => exact nearer_wait (by rw [hp]; rfl) (by rw [hp']; rfl) harmed nofun nofun

lemma nearer_event (readable writable : Bool) (hp : m.poller = .idle) :
    Nearer m (.event none readable writable) { m with poller := .ready readable writable } := by
  have hplace : m.poller.outbound = 0 := by rw [hp]; rfl
  cases writable with
  | false => exact nearer_wait hplace (by cases readable <;> rfl) id nofun nofun
  | true =>
    have hpos : (ready readable true).outbound ≠ 0 := by cases readable <;> decide
    have hlt := outbound_lt (ready readable true)
    refine .inl ?_
    rw [stage, stage, if_neg hpos, if_pos hplace]
    dsimp only
    split_ifs <;> omega

lemma nearer_startWrite (hopen : m.esi.closed = false) : Nearer m .startWrite
      { m with esi := m.esi.setArmed true, starting := m.starting - 1 } := by
  have harmed : (m.esi.setArmed true).armed = true := by
    rw [Esi.setArmed, hopen]
    rfl
  refine nearer_of_le ?_ fun heq => ?_
  · rw [stage, stage, harmed, if_pos rfl]
    dsimp only
    split_ifs <;> omega
  · -- the writers help only where the interest in writability is missing, which is now there
    rw [stage, stage, harmed, if_pos rfl] at heq
    rw [helper]
    split_ifs at heq ⊢
    · rintro ⟨readable, ⟨⟩⟩
    · cases heq
    · rintro ⟨⟩

/-- While the buffer is not empty, every step brings `send` nearer. -/
theorem nearer_step (hsession : Session t owner m) (hpeace : Peaceful m a)
    (hopen : m.esi.closed = false) (hne : m.esi.container ≠ []) (hquiet : a.appends = false)
    (hs : m.step a = some m') (hopen' : m'.esi.closed = false) :
    Trying m a ∨ m'.esi.container ≠ [] ∧ Nearer m a m' := by
  have hover := hsession.attempt_over hs
  cases step_effect hs with
  | connectDone | connectPending | connectError | testEmpty | testFull | stopWrite | report =>
    cases hover
  | eventSkip hp hgone =>
    have hregistered := hsession.registered
    simp [hopen] at hgone hregistered
    exact absurd (hregistered.symm.trans hgone) nofun
  | eventError => exact hpeace.elim
  | eventReady hp => exact .inr ⟨hne, nearer_event _ _ hp⟩
  | recvHandshake hp hsec hssl he =>
    have htouched := touched_of_handshake he
    exact .inr ⟨ne_of_eq_of_ne htouched.container hne, nearer_input hp rfl htouched.armed⟩
  | recvNothing hp | recvData hp => exact .inr ⟨hne, nearer_input hp rfl id⟩
  | recvEof hp hssl => exact absurd (hopen.symm.trans hpeace) nofun
  | writableDone hp hsec hin => exact absurd (hsession.inConnection.symm.trans hin) nofun
  | writable hp he =>
    obtain ⟨e, htouched, heq⟩ := hsession.writable hs
    rw [heq, hopen]
    refine .inr ⟨ne_of_eq_of_ne htouched.container hne, nearer_move nofun ?_⟩
    rw [hp]
    exact Nat.one_lt_two
  | sendEmpty hp hempty | testSent hp hres hempty | notify hp hempty => exact absurd hempty hne
  | send => exact .inl hne
  | testSentNone hp | testMark hp | notifyNone hp | closeNone hp =>
    exact .inr ⟨hne, nearer_wait (by rw [hp]; rfl) rfl id nofun nofun⟩
  | closeMarked hp | closeError hp =>
    exact absurd (hopen'.symm.trans (closeSocket_output _ _ _).2.2.2.1) nofun
  | append | appendAndClose => cases hquiet
  | startWrite =>
    exact .inr ⟨ne_of_eq_of_ne (Esi.setArmed_frame _ _).1 hne, nearer_startWrite hopen⟩

lemma length_step (hquiet : a.appends = false) (hs : m.step a = some m') : m'.esi.container.length ≤
    m.esi.container.length ∧ (Accepted m a → m'.esi.container.length < m.esi.container.length) := by
  have hstay {e : Esi} (he : e.container = m.esi.container) (hno : ¬ Accepted m a) :
      e.container.length ≤ m.esi.container.length ∧
        (Accepted m a → e.container.length < m.esi.container.length) :=
    ⟨(congrArg List.length he).le, fun hacc => absurd hacc hno⟩
  cases step_effect hs with
  | connectError => exact hstay (closeSocket_output { m with connecting := none } _ _).2.1 id
  | eventError => exact hstay (closeSocket_output _ _ _).2.1 id
  | recvHandshake hp hsec hssl he => exact hstay (handshake_frame he).1 id
  | @recvEof writable hs errno hp hssl hopen =>
    exact hstay (closeSocket_output { m with poller := .afterInput writable } _ _).2.1 id
  | @writable e hs hp he =>
    exact hstay ((established_output { m with esi := e }).2.1.trans
      (handshake_frame (he.imp_right .inl)).1) id
  | stopWrite | startWrite => exact hstay (Esi.setArmed_frame _ _).1 id
  | sendEmpty hp hempty => exact hstay (Esi.drop_container _ _) fun hacc => hacc.1 hempty
  | @send errno res hp hne hlen =>
    have hdrop : (m.esi.drop res).container = m.esi.container.drop res.toNat :=
      Esi.drop_container _ _
    have hpos := length_pos_of_ne_nil hne
    dsimp only
    rw [hdrop, length_drop]
    refine ⟨Nat.sub_le _ _, fun hacc => ?_⟩
    have hres : 0 < res := hacc.2
    omega
  | closeMarked | closeError =>
    exact hstay (closeSocket_output { m with poller := .idle } _ _).2.1 id
  | append | appendAndClose => cases hquiet
  | _ => exact hstay rfl id

theorem finishing_step (h : MarkKept m) (hsession : Session t owner m)
    (hopen : m.esi.closed = false) (hmarked : m.esi.markedToDestroyOnSend = true)
    (hempty : m.esi.container = []) (hquiet : a.appends = false) (hs : m.step a = some m') :
    m'.esi.closed = true ∨ m'.esi.container = [] ∧ (m'.poller.stepsLeft < m.poller.stepsLeft ∨
        m'.poller.stepsLeft = m.poller.stepsLeft ∧ a.ofPoller = false) := by
  have hway := (h.pending hopen hmarked).resolve_left (fun hne => hne hempty)
  have hover := hsession.attempt_over hs
  cases step_effect hs with
  | connectDone | connectPending | connectError => cases hover
  | testSent hp | testMark hp | notify hp =>
    rw [hp]
    exact .inr ⟨hempty, .inl (by simp [stepsLeft])⟩
  | closeMarked | closeError => exact .inl (closeSocket_output _ _ _).2.2.2.1
  | append | appendAndClose => cases hquiet
  | startWrite => exact .inr ⟨(Esi.setArmed_frame _ _).1.trans hempty, .inr ⟨rfl, rfl⟩⟩
  | _ => simp_all [seesMark, willClose]

structure Served (e : Execution step) : Prop where
  start : Established (e.state 0)
  flowing : Flowing (e.state 0)
  unmarked : (e.state 0).esi.markedToDestroyOnSend = false
  finite : ∃ N, ∀ n, N ≤ n → (e.act n).appends = false
  accepts : ∀ n, Trying (e.state n) (e.act n) → ∃ k, n ≤ k ∧ Accepted (e.state k) (e.act k)
  peaceful : ∀ n, Peaceful (e.state n) (e.act n)
  fair : ∀ agent : Agent, e.Fair agent.Acts agent.Enabled

section

variable {e : Execution step}

lemma markKept_at (h : Served e) (htimely : ∀ n, Timely (e.state n) (e.act n)) (n : ℕ) :
    MarkKept (e.state n) := by
  induction n with
  | zero =>
    have hidle := h.start.poller
    refine ⟨by rw [hidle]; rfl, by rw [hidle]; exact nofun, fun _ hmarked => ?_, ?_⟩
    · rw [h.unmarked] at hmarked
      cases hmarked
    · rw [hidle]
      rintro (hor | ⟨hor, -⟩) <;> cases hor
  | succ n ih => exact ih.step (session_at h.start n) (h.peaceful n) (htimely n) (e.next n)

lemma flowing_at (h : Served e) (n : ℕ) : Flowing (e.state n) := by
  induction n with
  | zero => exact h.flowing
  | succ n ih =>
    refine ih.step (fun _ hdis => ?_) (e.next n)
    have := (session_at h.start n).connects
    rw [hdis] at this
    cases this

lemma marked_at {n k : ℕ} (hk : n ≤ k) (h : (e.state n).esi.markedToDestroyOnSend = true) :
    (e.state k).esi.markedToDestroyOnSend = true :=
  invariant (fun _ _ => True) (fun hm _ hs => marked_step hs hm) (fun _ => trivial) h hk

lemma closed_at {n k : ℕ} (hk : n ≤ k) (h : (e.state n).esi.closed = true) :
    (e.state k).esi.closed = true :=
  invariant (fun _ _ => True) (fun hc _ hs => closed_step hs hc) (fun _ => trivial) h hk

section

variable {N : ℕ} (h : Served e) (htimely : ∀ n, Timely (e.state n) (e.act n))
  (hquiet : ∀ n, N ≤ n → (e.act n).appends = false)

include h htimely hquiet

lemma tries_to_send {n : ℕ} (hn : N ≤ n) (hopen : (e.state n).esi.closed = false)
    (hne : (e.state n).esi.container ≠ []) : ∃ k, n ≤ k ∧ Trying (e.state k) (e.act k) := by
  refine eventually_of_rank
    (fun k => N ≤ k ∧ (e.state k).esi.closed = false ∧ (e.state k).esi.container ≠ [])
    (fun k => (e.state k).stage) (fun k => (e.state k).helper) h.fair
    (fun k hk => helper_enabled (flowing_at h k) hk.2.1 hk.2.2) (fun k hk => ?_) ⟨hn, hopen, hne⟩
  obtain ⟨hk, hopen, hne⟩ := hk
  have hsession := session_at h.start k
  have hopen' : (e.state (k + 1)).esi.closed = false := by
    by_contra hclosed
    exact hne (emptied_of_closes (markKept_at h htimely k) hsession (h.peaceful k) (e.next k) hopen
      (Bool.eq_true_of_not_eq_false hclosed)).1
  rcases nearer_step hsession (h.peaceful k) hopen hne (hquiet k hk) (e.next k) hopen'
    with htrying | ⟨hne', hnearer⟩
  · exact .inl htrying
  · exact .inr ⟨⟨Nat.le_succ_of_le hk, hopen', hne'⟩, hnearer⟩

lemma closes_of_empty {n : ℕ} (hn : N ≤ n) (hopen : (e.state n).esi.closed = false)
    (hmarked : (e.state n).esi.markedToDestroyOnSend = true)
    (hempty : (e.state n).esi.container = []) :
    ∃ k, n ≤ k ∧ (e.state (k + 1)).esi.closed = true := by
  refine eventually_of_rank
    (fun k => N ≤ k ∧ (e.state k).esi.closed = false ∧
      (e.state k).esi.markedToDestroyOnSend = true ∧ (e.state k).esi.container = [])
    (fun k => (e.state k).poller.stepsLeft) (fun _ => Agent.poller) h.fair
    (fun k hk hidle => ?_) (fun k hk => ?_) ⟨hn, hopen, hmarked, hempty⟩
  · obtain ⟨-, hopen, hmarked, hempty⟩ := hk
    have hway := (markKept_at h htimely k).pending hopen hmarked
    rw [hidle] at hway
    simp [hempty, seesMark, willClose] at hway
  · obtain ⟨hk, hopen, hmarked, hempty⟩ := hk
    cases hclosed : (e.state (k + 1)).esi.closed with
    | true => exact .inl rfl
    | false =>
      have hstep := finishing_step (markKept_at h htimely k) (session_at h.start k) hopen hmarked
        hempty (hquiet k hk) (e.next k)
      obtain ⟨hempty', hrank⟩ := hstep.resolve_left (by rw [hclosed]; exact nofun)
      refine .inr ⟨⟨Nat.le_succ_of_le hk, rfl, marked_step (e.next k) hmarked, hempty'⟩, ?_⟩
      refine hrank.imp_right fun ⟨hsame, hother⟩ => ⟨hsame, rfl, fun hacts => ?_⟩
      exact absurd (hother.symm.trans hacts) nofun

omit h htimely in
lemma length_at {n k : ℕ} (hn : N ≤ n) (hk : n ≤ k) :
    (e.state k).esi.container.length ≤ (e.state n).esi.container.length := by
  induction k, hk using Nat.le_induction with
  | base => exact le_rfl
  | succ k hk ih => exact (length_step (hquiet k (hn.trans hk)) (e.next k)).1.trans ih

lemma closes_of_marked {n : ℕ} (hn : N ≤ n)
    (hmarked : (e.state n).esi.markedToDestroyOnSend = true) :
    ∃ k, n ≤ k ∧ (e.state k).esi.closed = true := by
  induction hlen : (e.state n).esi.container.length using Nat.strong_induction_on
    generalizing n with
  | h len ih =>
    cases hopen : (e.state n).esi.closed with
    | true => exact ⟨n, le_rfl, hopen⟩
    | false =>
      by_cases hempty : (e.state n).esi.container = []
      · obtain ⟨k, hk, hclosed⟩ := closes_of_empty h htimely hquiet hn hopen hmarked hempty
        exact ⟨k + 1, Nat.le_succ_of_le hk, hclosed⟩
      · obtain ⟨k, hk, htrying⟩ := tries_to_send h htimely hquiet hn hopen hempty
        obtain ⟨l, hl, haccepted⟩ := h.accepts k htrying
        have hnl : n ≤ l := hk.trans hl
        have hnl' : n ≤ l + 1 := Nat.le_succ_of_le hnl
        have hshorter := (length_step (hquiet l (hn.trans hnl)) (e.next l)).2 haccepted
        have hle := length_at hquiet hn hnl
        obtain ⟨j, hj, hclosed⟩ := ih _ (by omega) (hn.trans hnl') (marked_at hnl' hmarked) rfl
        exact ⟨j, by omega, hclosed⟩

end

/-- **`write_and_close` closes** if the calls of the writers are timely. -/
theorem marked_socket_closes (h : Served e) (htimely : ∀ n, Timely (e.state n) (e.act n)) {k : ℕ}
    {s : Bytes} (hcall : e.act k = .appendAndClose s) (hopen : (e.state k).esi.closed = false) :
    ∃ n, k < n ∧ (∀ j, (e.state j).esi.closed = true ↔ n < j) ∧
      (e.state n).esi.container = [] ∧ (e.state n).kernel = (e.state n).written.flatten ∧
      ∀ j, n < j → Ended (e.state 0).esi.streamType (e.state 0).esi.route (e.state j) := by
  obtain ⟨N, hquiet⟩ := h.finite
  obtain ⟨hopen', hmarked⟩ : (e.state (k + 1)).esi.closed = false ∧
      (e.state (k + 1)).esi.markedToDestroyOnSend = true := by
    have hnext := e.next k
    rw [hcall] at hnext
    rw [← Option.some.inj hnext]
    exact ⟨hopen, rfl⟩
  have hexists : ∃ j, (e.state j).esi.closed = true := by
    obtain ⟨j, -, hclosed⟩ := closes_of_marked h htimely hquiet (le_max_right (k + 1) N)
      (marked_at (le_max_left _ _) hmarked)
    exact ⟨j, hclosed⟩
  -- the first time at which the socket is closed comes after the call
  have hfirst := Nat.find_spec hexists
  have hbefore (j : ℕ) (hj : j < Nat.find hexists) := Nat.find_min hexists hj
  have hlate : k + 1 < Nat.find hexists := by
    by_contra hle
    have := closed_at (not_lt.mp hle) hfirst
    rw [hopen'] at this
    cases this
  obtain ⟨n, hn⟩ : ∃ n, Nat.find hexists = n + 1 := Nat.exists_eq_add_one.mpr (by omega)
  rw [hn] at hfirst hbefore hlate
  have hclosed_iff (j : ℕ) : (e.state j).esi.closed = true ↔ n < j :=
    ⟨fun hc => by_contra fun hle => hbefore j (by omega) hc, fun hlt => closed_at hlt hfirst⟩
  have hempty := (emptied_of_closes (markKept_at h htimely n) (session_at h.start n) (h.peaceful n)
    (e.next n) (Bool.eq_false_of_not_eq_true (hbefore n (Nat.lt_succ_self n))) hfirst).1
  refine ⟨n, by omega, hclosed_iff, hempty, ?_, fun j hj => ?_⟩
  · have hconserved := (session_at h.start n).conserved
    rwa [Conserved, hempty, append_nil] at hconserved
  · exact (session_at h.start j).ended ((hclosed_iff j).mpr hj)

end

section

variable {as : List Action} {hrun : run step someAccepted as = some m'}
  {hrest : m'.step (.event none false false) = some m'}

lemma served_ofRun
    (hmeets : Meets step (fun m a => Peaceful m a ∧ (Trying m a → Accepted m a)) someAccepted as)
    (hidle : m'.poller = .idle) (hstarting : m'.starting = 0)
    (harmed : ¬ (m'.esi.armed = true ∧ m'.esi.closed = false)) : Served (ofRun hrun hrest) := by
  have hend : Peaceful m' (.event none false false) ∧
      (Trying m' (.event none false false) → Accepted m' (.event none false false)) := ⟨trivial, id⟩
  have hall (n : ℕ) :
      Peaceful ((ofRun hrun hrest).state n) ((ofRun hrun hrest).act n) ∧
        (Trying ((ofRun hrun hrest).state n) ((ofRun hrun hrest).act n) →
          Accepted ((ofRun hrun hrest).state n) ((ofRun hrun hrest).act n)) :=
    ofRun_forall hmeets hend n
  refine ⟨established_someAccepted, ⟨fun _ hne => absurd rfl hne, nofun⟩, rfl, ?_,
    fun n htrying => ⟨n, le_rfl, (hall n).2 htrying⟩, fun n => (hall n).1, fun agent => ?_⟩
  · refine ⟨as.length, fun n hn => ?_⟩
    simp only [ofRun]
    rw [getD_eq_default _ _ hn]
    rfl
  · cases agent with
    | poller => exact ofRun_fair _ fun h => h hidle
    | epoll => exact ofRun_fair _ harmed
    | writers => exact ofRun_fair _ fun h => absurd hstarting (Nat.ne_of_gt h)

end

def twoWrites : List Action :=
  [.append [1], .appendAndClose [2], .startWrite, .startWrite,
    .event none false true, .writable .other, .send 1 0, .testSent, .notify, .close,
    .event none false true, .writable .other, .send 1 0, .testSent, .testMark, .notify, .close]

def twoWritesEnd : Machine :=
  { someAccepted with
    esi := { someAccepted.esi with
      registered := false, closed := true, armed := false, markedToDestroyOnSend := true }
    delivered := [⟨.accepted, [.localService 7#32]⟩, ⟨.notifyOutBufferEmpty, [.localService 7#32]⟩,
      ⟨.disaccepted "marked to destroy on send", [.localService 7#32]⟩]
    kernel := [1, 2]
    written := [[1], [2]] }

lemma run_twoWrites : run step someAccepted twoWrites = some twoWritesEnd := rfl

theorem marked_socket_closes_twoWrites : ∃ e : Execution step, e.state 0 = someAccepted ∧
    e.act 1 = .appendAndClose [2] ∧ ∃ n, 1 < n ∧ (∀ j, (e.state j).esi.closed = true ↔ n < j) ∧
    (e.state n).kernel = (e.state n).written.flatten := by
  let e := ofRun run_twoWrites (rfl : twoWritesEnd.step (.event none false false) = _)
  have hserved : Served e := by
    refine served_ofRun ?_ rfl rfl nofun
    repeat' apply And.intro
    all_goals first | trivial | exact fun _ h => absurd h (by decide) |
      exact fun h => ⟨h, by decide⟩ | exact nofun
  have htimely : ∀ n, Timely (e.state n) (e.act n) := by
    refine ofRun_forall ?_ trivial
    repeat' apply And.intro
    all_goals first | trivial | (rintro (hor | ⟨hor, -⟩) <;> cases hor)
  obtain ⟨n, hn, hclosed, -, hsent, -⟩ :=
    marked_socket_closes (e := e) hserved htimely (rfl : e.act 1 = .appendAndClose [2]) rfl
  exact ⟨e, rfl, rfl, n, hn, hclosed, hsent⟩

/-- `write_and_close` of an empty string. -/
def emptyWrite : List Action :=
  [.appendAndClose [], .startWrite, .event none false true, .writable .other, .send 0 0,
    .testSent, .notify, .close]

def emptyWriteEnd : Machine :=
  { someAccepted with
    esi := { someAccepted.esi with markedToDestroyOnSend := true }
    delivered := [⟨.accepted, [.localService 7#32]⟩, ⟨.notifyOutBufferEmpty, [.localService 7#32]⟩]
    written := [[]] }

lemma run_emptyWrite : run step someAccepted emptyWrite = some emptyWriteEnd := rfl

def lateWrite : List Action :=
  [.append [1], .startWrite, .event none false true, .writable .other, .send 1 0, .testSent,
    .appendAndClose [2], .testMark, .notify, .close, .startWrite]

def lateWriteEnd : Machine :=
  { someAccepted with
    esi := { someAccepted.esi with
      registered := false, closed := true, markedToDestroyOnSend := true, container := [2] }
    delivered := [⟨.accepted, [.localService 7#32]⟩,
      ⟨.disaccepted "marked to destroy on send", [.localService 7#32]⟩]
    kernel := [1]
    written := [[1], [2]] }

lemma run_lateWrite : run step someAccepted lateWrite = some lateWriteEnd := rfl

/-- **The mark can be missed, and found too early.** -/
theorem mark_missed_or_early :
    (∃ e : Execution step, Served e ∧ e.act 0 = .appendAndClose [] ∧
      ∀ n, (e.state n).esi.closed = false) ∧
    ∃ e : Execution step, Served e ∧ e.act 6 = .appendAndClose [2] ∧
      (e.state 6).esi.closed = false ∧
      ∃ n, (e.state n).esi.closed = false ∧ (e.state (n + 1)).esi.closed = true ∧
        (e.state n).esi.container = [2] := by
  constructor
  · refine ⟨ofRun run_emptyWrite
      (rfl : emptyWriteEnd.step (.event none false false) = _), ?_, rfl, ?_⟩
    · refine served_ofRun ?_ rfl rfl nofun
      repeat' apply And.intro
      all_goals first | trivial | exact fun h => absurd rfl h | exact nofun
    · refine ofRun_forall (Q := fun (m : Machine) _ => m.esi.closed = false) ?_ rfl
      repeat' apply And.intro
      all_goals trivial
  · refine ⟨ofRun run_lateWrite
      (rfl : lateWriteEnd.step (.event none false false) = _), ?_, rfl, rfl, 9, rfl, rfl, rfl⟩
    refine served_ofRun ?_ rfl rfl nofun
    repeat' apply And.intro
    all_goals first | trivial | exact fun _ h => absurd h (by decide) |
      exact fun h => ⟨h, by decide⟩ | exact nofun

end Megatron.Socket
