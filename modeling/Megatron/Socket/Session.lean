import Megatron.Library.Fair
import Megatron.Socket.Output

/-!
An established connection, outgoing or accepted, from its first event to its end (`Session.step`).
-/

namespace Megatron.Socket

open Library Machine

def SocketEvent.isFarewell : SocketEvent → Bool
  | .connectFailed _ _ | .disconnected _ | .disaccepted _ => true
  | _ => false

def Machine.farewells (m : Machine) : List Delivery :=
  m.delivered.filter fun x => x.event.isFarewell

def StreamType.bye (reason : String) : StreamType → SocketEvent
  | .connected => .disconnected reason
  | .accepted => .disaccepted reason

lemma StreamType.bye_isFarewell (t : StreamType) (reason : String) :
    (t.bye reason).isFarewell = true := by
  cases t <;> rfl

structure Established (m : Machine) : Prop where
  connecting : m.connecting = none
  inConnection : m.esi.inConnection = false
  opened : m.esi.closed = false
  registered : m.esi.registered = true
  poller : m.poller = .idle
  farewells : m.farewells = []
  conserved : Conserved m

def Poller.sends : Poller → Bool
  | .sending | .sent _ _ | .drained _ _ | .notifying _ _ _ | .closing _ _ _ => true
  | _ => false

def Poller.connects : Poller → Bool
  | .established | .disarming | .reporting => true
  | _ => false

def Poller.willClose : Poller → Bool
  | .notifying _ _ needToClose | .closing _ _ needToClose => needToClose
  | _ => false

structure Session (t : StreamType) (owner : RouteT) (m : Machine) : Prop where
  streamType : m.esi.streamType = t
  route : m.esi.route = owner
  connecting : m.connecting = none
  inConnection : m.esi.inConnection = false
  registered : m.esi.registered = !m.esi.closed
  silent : m.esi.closed = false → m.farewells = []
  told : m.esi.closed = true → ∃ reason, m.farewells = [⟨t.bye reason, owner⟩]
  connects : m.poller.connects = false
  sends : m.poller.sends = true → m.esi.closed = false
  conserved : Conserved m

structure Ended (t : StreamType) (owner : RouteT) (m : Machine) : Prop where
  removed : m.esi.registered = false
  closed : m.esi.closed = true
  told : ∃ reason, m.farewells = [⟨t.bye reason, owner⟩]

variable {m m' : Machine} {a : Action} {t : StreamType} {owner : RouteT}

lemma Established.session (h : Established m) : Session m.esi.streamType m.esi.route m where
  streamType := rfl
  route := rfl
  connecting := h.connecting
  inConnection := h.inConnection
  registered := by rw [h.registered, h.opened]; rfl
  silent _ := h.farewells
  told hclosed := by
    rw [h.opened] at hclosed
    cases hclosed
  connects := by rw [h.poller]; rfl
  sends hsends := h.opened
  conserved := h.conserved

lemma Session.ended (h : Session t owner m) (hclosed : m.esi.closed = true) : Ended t owner m :=
  ⟨by rw [h.registered, hclosed]; rfl, hclosed, h.told hclosed⟩

structure SameOwner (e e' : Esi) : Prop where
  streamType : e'.streamType = e.streamType
  route : e'.route = e.route
  inConnection : e'.inConnection = e.inConnection
  closed : e'.closed = e.closed
  registered : e'.registered = e.registered

variable {p : Poller} (e : Esi) (armed : Bool) (res : ℤ)

lemma SameOwner.refl : SameOwner e e := ⟨rfl, rfl, rfl, rfl, rfl⟩

lemma sameOwner_setArmed : SameOwner e (e.setArmed armed) := by
  rw [Esi.setArmed]
  split_ifs <;> exact ⟨rfl, rfl, rfl, rfl, rfl⟩

lemma sameOwner_drop : SameOwner e (e.drop res) := by
  rw [Esi.drop, Esi.setArmed]
  split_ifs <;> exact ⟨rfl, rfl, rfl, rfl, rfl⟩

structure SameInput (e e' : Esi) : Prop where
  secure : e'.secure = e.secure
  sslConnected : e'.sslConnected = e.sslConnected
  inBuffer : e'.inBuffer = e.inBuffer
  marked : e'.markedToDestroyOnSend = e.markedToDestroyOnSend

lemma sameInput_setArmed : SameInput e (e.setArmed armed) := by
  rw [Esi.setArmed]
  split_ifs <;> exact ⟨rfl, rfl, rfl, rfl⟩

lemma sameInput_drop : SameInput e (e.drop res) := by
  rw [Esi.drop, Esi.setArmed]
  split_ifs <;> exact ⟨rfl, rfl, rfl, rfl⟩

lemma sameInput_closeSocket (m : Machine) (reason : String) (errNo : ℤ) :
    SameInput m.esi (closeSocket m reason errNo).esi := by
  cases hclosed : m.esi.closed with
  | true =>
    rw [closeSocket, if_pos hclosed]
    exact ⟨rfl, rfl, rfl, rfl⟩
  | false =>
    rw [closeSocket_eq hclosed]
    exact ⟨rfl, rfl, rfl, rfl⟩

lemma sameInput_established (m : Machine) : SameInput m.esi m.established.esi := by
  rw [established]
  split_ifs <;> exact ⟨rfl, rfl, rfl, rfl⟩

structure Touched (e e' : Esi) : Prop where
  owner : SameOwner e e'
  container : e'.container = e.container
  marked : e'.markedToDestroyOnSend = e.markedToDestroyOnSend
  armed : e.armed = true → e'.armed = true

lemma touched_of_handshake {e e' : Esi}
    (h : e' = e ∨ e' = e.setArmed true ∨ e' = { e with sslConnected := true }) :
    Touched e e' := by
  obtain ⟨hcontainer, -, harmed⟩ := handshake_frame h
  refine ⟨?_, hcontainer, ?_, harmed⟩ <;> rcases h with rfl | rfl | rfl
  · exact .refl _
  · exact sameOwner_setArmed _ _
  · exact ⟨rfl, rfl, rfl, rfl, rfl⟩
  · rfl
  · exact (sameInput_setArmed _ _).marked
  · rfl

lemma Session.move (h : Session t owner m) (he : SameOwner m.esi m'.esi)
    (hconnecting : m'.connecting = m.connecting) (hfarewells : m'.farewells = m.farewells)
    (hconnects : m'.poller.connects = false)
    (hsends : m'.poller.sends = true → m.esi.closed = false) (hconserved : Conserved m') :
    Session t owner m' where
  streamType := he.streamType.trans h.streamType
  route := he.route.trans h.route
  connecting := hconnecting.trans h.connecting
  inConnection := he.inConnection.trans h.inConnection
  registered := by rw [he.registered, he.closed, h.registered]
  silent hopen := hfarewells.trans (h.silent (he.closed.symm.trans hopen))
  told hclosed := by
    rw [hfarewells]
    exact h.told (he.closed.symm.trans hclosed)
  connects := hconnects
  sends hs := he.closed.trans (hsends hs)
  conserved := hconserved

lemma farewells_deliver {ev : SocketEvent} (hev : ev.isFarewell = false) (route : RouteT) :
    (m.deliver ev route).farewells = m.farewells := by
  simp [farewells, Machine.deliver, hev]

lemma Session.closeSocket (h : Session t owner m) (hopen : m.esi.closed = false)
    (hsends : m.poller.sends = false) (reason : String) (errNo : ℤ) :
    Session t owner (closeSocket m reason errNo) := by
  have hbye : m.esi.farewell reason errNo = some (t.bye reason) := by
    rw [Esi.farewell, h.streamType, h.inConnection]
    cases t <;> rfl
  have hsilent : m.delivered.filter (fun x => x.event.isFarewell) = [] := h.silent hopen
  have hconserved := h.conserved.closeSocket reason errNo
  rw [closeSocket_eq hopen, hbye] at hconserved ⊢
  refine ⟨h.streamType, h.route, h.connecting, h.inConnection, rfl, nofun, fun _ => ⟨reason, ?_⟩,
    h.connects, fun hs => ?_, hconserved⟩
  · simp [farewells, hsilent, t.bye_isFarewell reason, h.route]
  · rw [hsends] at hs
    cases hs

def Poller.early : Poller → Bool
  | .idle | .input _ | .output => true
  | _ => false

lemma afterInput_early (writable : Bool) : (Poller.afterInput writable).early = true := by
  cases writable <;> rfl

lemma ready_early (readable writable : Bool) : (Poller.ready readable writable).early = true := by
  cases readable
  · exact afterInput_early writable
  · rfl

lemma Poller.early_place (h : p.early = true) : p.connects = false ∧ p.sends = false := by
  cases p <;> first | exact ⟨rfl, rfl⟩ | cases h

lemma Session.afterInput (h : Session t owner m) (writable : Bool) :
    Session t owner { m with poller := .afterInput writable } := by
  obtain ⟨hconnects, hsends⟩ := Poller.early_place (afterInput_early writable)
  refine h.move (.refl _) rfl rfl hconnects (fun hs => ?_) (h.conserved.of_same rfl rfl rfl)
  rw [hsends] at hs
  cases hs

lemma Session.sending (h : Session t owner m) (hs : m.poller.sends = true)
    (hconnects : p.connects = false) : Session t owner { m with poller := p } :=
  h.move (.refl _) rfl rfl hconnects (fun _ => h.sends hs) (h.conserved.of_same rfl rfl rfl)

lemma Session.idle (h : Session t owner m) : Session t owner { m with poller := .idle } :=
  h.move (.refl _) rfl rfl rfl nofun (h.conserved.of_same rfl rfl rfl)

lemma established_eq (h : m.esi.inConnection = false) :
    m.established = { m with poller := if m.esi.closed then .idle else .sending } := by
  rw [established, if_neg (by simp [h])]
  split_ifs <;> rfl

def Action.connects : Action → Bool
  | .connect _ | .testSize | .stopWrite | .report => true
  | _ => false

lemma Session.attempt_over (h : Session t owner m) (hs : m.step a = some m') :
    a.connects = false := by
  have hplace := h.connects
  cases step_effect hs with
  | connectDone hc | connectError hc => exact absurd (h.connecting.symm.trans hc) nofun
  | connectPending hc => exact absurd h.connecting hc
  | testEmpty hp | testFull hp | stopWrite hp | report hp => rw [hp] at hplace; cases hplace
  | _ => rfl

lemma Session.writable (h : Session t owner m) {hand : Handshake}
    (hs : m.step (.writable hand) = some m') : ∃ e, Touched m.esi e ∧
      m' = { m with esi := e, poller := if m.esi.closed then .idle else .sending } := by
  cases step_effect hs with
  | writableDone hp hsec hin => exact absurd (h.inConnection.symm.trans hin) nofun
  | @writable e hand hp he =>
    have htouched := touched_of_handshake (he.imp_right .inl)
    refine ⟨e, htouched, ?_⟩
    rw [established_eq (m := { m with esi := e })
      (htouched.owner.inConnection.trans h.inConnection)]
    dsimp only
    rw [htouched.owner.closed]

/-- **Every step of an established connection.** -/
theorem Session.step (h : Session t owner m) (hs : m.step a = some m') : Session t owner m' := by
  have hconserved := h.conserved.step hs
  have hover := h.attempt_over hs
  cases step_effect hs with
  | connectDone | connectPending | connectError | testEmpty | testFull | stopWrite | report =>
    cases hover
  | eventSkip => exact h
  | eventError hp hopen => exact h.closeSocket hopen (by rw [hp]; rfl) _ _
  | @eventReady readable writable hp hopen =>
    obtain ⟨hconnects, -⟩ := Poller.early_place (ready_early readable writable)
    exact h.move (.refl _) rfl rfl hconnects (fun _ => hopen) hconserved
  | @recvHandshake writable e hand bytes errno hp hsec hssl he =>
    have hafter := h.afterInput writable
    exact hafter.move (touched_of_handshake he).owner rfl rfl hafter.connects hafter.sends
      hconserved
  | @recvNothing writable => exact h.afterInput writable
  | @recvEof writable hs errno hp hssl hopen =>
    exact (h.afterInput writable).closeSocket hopen
      (Poller.early_place (afterInput_early writable)).2 _ _
  | @recvData writable hs b bs errno hp hssl hopen =>
    have hafter := h.afterInput writable
    refine hafter.move ⟨rfl, rfl, rfl, rfl, rfl⟩ rfl ?_ hafter.connects hafter.sends hconserved
    exact farewells_deliver rfl _
  | writableDone hp hsec hin hssl => exact absurd (h.inConnection.symm.trans hin) nofun
  | writable hp he =>
    obtain ⟨e, htouched, heq⟩ := h.writable hs
    rw [heq] at hconserved ⊢
    refine h.move htouched.owner rfl rfl ?_ (fun hsends => ?_) hconserved
    · dsimp only
      split_ifs <;> rfl
    · dsimp only at hsends
      split_ifs at hsends with hclosed
      · cases hsends
      · exact Bool.eq_false_of_not_eq_true hclosed
  | sendEmpty hp hempty | send hp hne hlen =>
    exact h.move (sameOwner_drop _ _) rfl rfl rfl (fun _ => h.sends (by rw [hp]; rfl)) hconserved
  | testSent hp hres hempty | testSentNone hp hne | testMark hp | notifyNone hp hne =>
    exact h.sending (by rw [hp]; rfl) rfl
  | notify hp hempty =>
    refine h.move (.refl _) rfl ?_ rfl (fun _ => h.sends (by rw [hp]; rfl)) hconserved
    exact farewells_deliver rfl _
  | closeMarked hp | closeError hp hfatal =>
    exact h.idle.closeSocket (h.sends (by rw [hp]; rfl)) rfl _ _
  | closeNone hp hretry => exact h.idle
  | append | appendAndClose =>
    exact h.move ⟨rfl, rfl, rfl, rfl, rfl⟩ rfl rfl h.connects h.sends hconserved
  | startWrite hpos => exact h.move (sameOwner_setArmed _ _) rfl rfl h.connects h.sends hconserved

lemma closed_step (hs : m.step a = some m') (hclosed : m.esi.closed = true) :
    m'.esi.closed = true := by
  cases step_effect hs with
  | connectError | eventError | recvEof | closeMarked | closeError =>
    exact (closeSocket_output _ _ _).2.2.2.1
  | recvHandshake hp hsec hssl he => exact (handshake_frame he).2.1.trans hclosed
  | writable hp he =>
    rw [(established_flow _).1]
    exact (handshake_frame (he.imp_right .inl)).2.1.trans hclosed
  | stopWrite | startWrite => exact (Esi.setArmed_frame _ _).2.trans hclosed
  | sendEmpty | send => exact (Esi.drop_closed _ _).trans hclosed
  | _ => exact hclosed

lemma marked_step (hs : m.step a = some m') (hmarked : m.esi.markedToDestroyOnSend = true) :
    m'.esi.markedToDestroyOnSend = true := by
  cases step_effect hs with
  | connectError =>
    exact (sameInput_closeSocket { m with connecting := none } _ _).marked.trans hmarked
  | eventError => exact (sameInput_closeSocket _ _ _).marked.trans hmarked
  | recvHandshake hp hsec hssl he => exact (touched_of_handshake he).marked.trans hmarked
  | @recvEof writable hs errno hp hssl hopen =>
    exact (sameInput_closeSocket { m with poller := .afterInput writable } _ _).marked.trans
      hmarked
  | @writable e hs hp he =>
    refine (sameInput_established { m with esi := e }).marked.trans ?_
    exact (touched_of_handshake (he.imp_right .inl)).marked.trans hmarked
  | stopWrite | startWrite => exact (sameInput_setArmed _ _).marked.trans hmarked
  | sendEmpty | send => exact (sameInput_drop _ _).marked.trans hmarked
  | closeMarked | closeError =>
    exact (sameInput_closeSocket { m with poller := .idle } _ _).marked.trans hmarked
  | appendAndClose => rfl
  | _ => exact hmarked

def Action.ofPoller : Action → Bool
  | .recv _ _ _ | .writable _ | .testSize | .stopWrite | .report | .send _ _ | .testSent
  | .testMark | .notify | .close => true
  | _ => false

def Machine.inHandler (m : Machine) : Prop := m.poller ≠ .idle

end Megatron.Socket
