import Megatron.Socket.Output

/-!
The events of an outgoing connection follow a protocol in orderly runs (`Follows.step`,
`connection_protocol`).
-/

namespace Megatron.Socket

open Library List

inductive Phase where
  | pending
  | failed
  | connected
  | ended
  deriving DecidableEq, Repr

def Phase.next : Phase → SocketEvent → Option Phase
  | .pending, .connectFailed _ _ => some .failed
  | .pending, .connected => some .connected
  | .connected, .streamRead => some .connected
  | .connected, .notifyOutBufferEmpty => some .connected
  | .connected, .disconnected _ => some .ended
  | _, _ => none

def SocketEvent.isTraffic : SocketEvent → Bool
  | .streamRead | .notifyOutBufferEmpty => true
  | _ => false

def Phase.Word : Phase → List SocketEvent → Prop
  | .pending, evs => evs = []
  | .failed, evs => ∃ addr errno, evs = [.connectFailed addr errno]
  | .connected, evs => ∃ body, evs = .connected :: body ∧ ∀ ev ∈ body, ev.isTraffic = true
  | .ended, evs => ∃ body reason, evs = .connected :: body ++ [.disconnected reason] ∧
      ∀ ev ∈ body, ev.isTraffic = true

variable {calls : Calls} {evs : List SocketEvent} {req : Request} (e : Esi)

lemma Phase.Word.snoc {ph ph' : Phase} {ev : SocketEvent}
    (h : ph.Word evs) (hnext : ph.next ev = some ph') : ph'.Word (evs ++ [ev]) := by
  cases ph with
  | pending =>
    obtain rfl : evs = [] := h
    cases ev with
    | connectFailed addr errno =>
      cases hnext
      exact ⟨addr, errno, rfl⟩
    | connected =>
      cases hnext
      exact ⟨[], rfl, nofun⟩
    | _ => cases hnext
  | connected =>
    obtain ⟨body, rfl, hbody⟩ := h
    have htraffic (hev : ev.isTraffic = true) : ∀ x ∈ body ++ [ev], x.isTraffic = true := by
      intro x hx
      rcases mem_append.mp hx with hx | hx
      · exact hbody x hx
      · exact mem_singleton.mp hx ▸ hev
    cases ev with
    | streamRead =>
      cases hnext
      exact ⟨body ++ [.streamRead], rfl, htraffic rfl⟩
    | notifyOutBufferEmpty =>
      cases hnext
      exact ⟨body ++ [.notifyOutBufferEmpty], rfl, htraffic rfl⟩
    | disconnected reason =>
      cases hnext
      exact ⟨body, reason, rfl, hbody⟩
    | _ => cases hnext
  | failed | ended => cases ev <;> cases hnext

/-! ### The phase of a socket -/

def Poller.reports : Poller → Bool
  | .established | .disarming | .reporting => true
  | _ => false

def Machine.phase (m : Machine) : Phase :=
  if m.esi.closed then if m.esi.inConnection then .failed else .ended
  else if m.esi.inConnection || m.poller.reports then .pending
  else .connected

def Poller.Fits : Poller → Esi → Prop
  | .idle, _ => True
  | .input _, e => e.closed = false
  | .output, e => e.closed = true → e.secure = true → e.sslConnected = true
  | _, e => e.closed = false ∧ e.inConnection = false

structure Follows (addr : Msockaddr) (requester : RouteT) (m : Machine) : Prop where
  streamType : m.esi.streamType = .connected
  route : m.esi.route = requester
  request : m.esi.requestForConnect = some addr
  defined : m.undefined = false
  destination : ∀ x ∈ m.delivered, x.route = requester
  word : m.phase.Word (m.delivered.map Delivery.event)
  registered : m.esi.registered = !m.esi.closed
  fits : m.poller.Fits m.esi

structure SameConnection (e e' : Esi) : Prop where
  streamType : e'.streamType = e.streamType
  route : e'.route = e.route
  request : e'.requestForConnect = e.requestForConnect
  closed : e'.closed = e.closed
  registered : e'.registered = e.registered

lemma SameConnection.refl : SameConnection e e := ⟨rfl, rfl, rfl, rfl, rfl⟩

structure SameSession (e e' : Esi) : Prop extends SameConnection e e' where
  inConnection : e'.inConnection = e.inConnection
  secure : e'.secure = e.secure
  sslConnected : e'.sslConnected = e.sslConnected

lemma sameSession_setArmed (armed : Bool) : SameSession e (e.setArmed armed) := by
  rw [Esi.setArmed]
  split_ifs <;> exact ⟨⟨rfl, rfl, rfl, rfl, rfl⟩, rfl, rfl, rfl⟩

lemma sameSession_drop (res : ℤ) : SameSession e (e.drop res) := by
  rw [Esi.drop, Esi.setArmed]
  split_ifs <;> exact ⟨⟨rfl, rfl, rfl, rfl, rfl⟩, rfl, rfl, rfl⟩

lemma Poller.Fits.of_same {p : Poller} {e e' : Esi} (h : p.Fits e) (he : SameSession e e') :
    p.Fits e' := by
  cases p with
  | idle => trivial
  | input => exact he.closed.trans h
  | output =>
    intro hclosed hsecure
    rw [he.sslConnected]
    exact h (he.closed ▸ hclosed) (he.secure ▸ hsecure)
  | _ => exact ⟨he.closed.trans h.1, he.inConnection.trans h.2⟩

section

variable {addr : Msockaddr} {requester : RouteT} {m m' : Machine} {a : Action}

lemma phase_of_same (hclosed : m'.esi.closed = m.esi.closed)
    (hin : m'.esi.inConnection = m.esi.inConnection)
    (hreports : m'.poller.reports = m.poller.reports) : m'.phase = m.phase := by
  simp only [Machine.phase, hclosed, hin, hreports]

lemma phase_connected (hopen : m.esi.closed = false) (hin : m.esi.inConnection = false)
    (hreports : m.poller.reports = false) : m.phase = .connected := by
  simp [Machine.phase, hopen, hin, hreports]

section

variable (h : Follows addr requester m)
include h

lemma Follows.silent (he : SameConnection m.esi m'.esi) (hphase : m'.phase = m.phase)
    (hfits : m'.poller.Fits m'.esi) (hdelivered : m'.delivered = m.delivered)
    (hundefined : m'.undefined = m.undefined) : Follows addr requester m' where
  streamType := he.streamType.trans h.streamType
  route := he.route.trans h.route
  request := he.request.trans h.request
  defined := hundefined.trans h.defined
  destination := by
    rw [hdelivered]
    exact h.destination
  word := by
    rw [hphase, hdelivered]
    exact h.word
  registered := by
    rw [he.registered, he.closed]
    exact h.registered
  fits := hfits

lemma Follows.move (he : SameSession m.esi m'.esi) (hreports : m'.poller.reports = m.poller.reports)
    (hfits : m'.poller.Fits m.esi) (hdelivered : m'.delivered = m.delivered)
    (hundefined : m'.undefined = m.undefined) : Follows addr requester m' :=
  h.silent he.toSameConnection (phase_of_same he.closed he.inConnection hreports)
    (hfits.of_same he) hdelivered hundefined

lemma Follows.goto {p : Poller} (hreports : p.reports = m.poller.reports) (hfits : p.Fits m.esi) :
    Follows addr requester { m with poller := p } :=
  h.silent (.refl _) (phase_of_same rfl rfl hreports) hfits rfl rfl

lemma Follows.next {p q : Poller} (hp : m.poller = p) (hreports : q.reports = p.reports)
    (hfits : p.Fits m.esi → q.Fits m.esi) : Follows addr requester { m with poller := q } := by
  subst hp
  exact h.goto hreports (hfits h.fits)

lemma Follows.event (ev : SocketEvent)
    (hdelivered : m'.delivered = m.delivered ++ [⟨ev, m.esi.route⟩])
    (hnext : m.phase.next ev = some m'.phase) (hstream : m'.esi.streamType = m.esi.streamType)
    (hroute : m'.esi.route = m.esi.route)
    (hrequest : m'.esi.requestForConnect = m.esi.requestForConnect)
    (hundefined : m'.undefined = m.undefined) (hregistered : m'.esi.registered = !m'.esi.closed)
    (hfits : m'.poller.Fits m'.esi) : Follows addr requester m' where
  streamType := hstream.trans h.streamType
  route := hroute.trans h.route
  request := hrequest.trans h.request
  defined := hundefined.trans h.defined
  destination := by
    intro x hx
    rw [hdelivered] at hx
    rcases mem_append.mp hx with hx | hx
    · exact h.destination x hx
    · rw [mem_singleton.mp hx]
      exact h.route
  word := by
    rw [hdelivered, map_append]
    exact h.word.snoc hnext
  registered := hregistered
  fits := hfits

lemma Follows.closeSocket (hopen : m.esi.closed = false) (hreports : m.poller.reports = false)
    (hfits : m.poller.Fits { m.esi with registered := false, closed := true })
    (reason : String) (errNo : ℤ) : Follows addr requester (closeSocket m reason errNo) := by
  rw [closeSocket_eq hopen]
  cases hin : m.esi.inConnection with
  | true =>
    have hbye : m.esi.farewell reason errNo = some (.connectFailed addr errNo) := by
      simp [Esi.farewell, h.streamType, hin, h.request]
    refine h.event (.connectFailed addr errNo) ?_ ?_ rfl rfl rfl ?_ rfl hfits
    · simp [hbye]
    · simp [Machine.phase, hopen, hin, Phase.next]
    · simp [hbye]
  | false =>
    have hbye : m.esi.farewell reason errNo = some (.disconnected reason) := by
      simp [Esi.farewell, h.streamType, hin]
    refine h.event (.disconnected reason) ?_ ?_ rfl rfl rfl ?_ rfl hfits
    · simp [hbye]
    · simp [Machine.phase, hopen, hin, hreports, Phase.next]
    · simp [hbye]

end

lemma afterInput_reports (writable : Bool) : (Poller.afterInput writable).reports = false := by
  cases writable <;> rfl

lemma afterInput_fits {e : Esi} (h : e.closed = false) (writable : Bool) :
    (Poller.afterInput writable).Fits e := by
  cases writable with
  | false => trivial
  | true =>
    intro hclosed
    rw [h] at hclosed
    cases hclosed

lemma Follows.afterInput (h : Follows addr requester m) {writable : Bool}
    (hp : m.poller = .input writable) (hopen : m.esi.closed = false) :
    Follows addr requester { m with poller := .afterInput writable } := by
  refine h.goto ?_ (afterInput_fits hopen writable)
  rw [afterInput_reports, hp]
  rfl

lemma Follows.established (h : Follows addr requester m) (hp : m.poller = .output) :
    Follows addr requester m.established := by
  rw [Machine.established]
  split_ifs with hin hreg hclosed
  · -- the socket is connected, and this has still to be reported
    have hopen : m.esi.closed = false := by simpa [hreg] using h.registered.symm
    refine h.silent ⟨rfl, rfl, rfl, rfl, rfl⟩ ?_ ⟨hopen, rfl⟩ rfl rfl
    simp [Machine.phase, hopen, hin, Poller.reports]
  · exact h.goto (by rw [hp]; rfl) trivial
  · exact h.goto (by rw [hp]; rfl) trivial
  · refine h.goto (by rw [hp]; rfl) ⟨?_, ?_⟩
    · simpa using hclosed
    · simpa using hin

/-- No data comes before `connect` is done. -/
def Orderly (m : Machine) : Action → Prop
  | .connect res => res = .inProgress
  | .recv _ (some (_ :: _)) _ =>
    (m.esi.secure = true → m.esi.sslConnected = true) → m.esi.inConnection = false
  | _ => True

/-- **Every orderly step follows the protocol.** -/
theorem Follows.step (h : Follows addr requester m) (hok : Orderly m a)
    (hs : m.step a = some m') : Follows addr requester m' := by
  have hfits := h.fits
  cases Machine.step_effect hs with
  | connectDone | connectError => cases hok
  | connectPending => exact h.silent (.refl _) (phase_of_same rfl rfl rfl) h.fits rfl rfl
  | eventSkip => exact h
  | eventError hp hopen => exact h.closeSocket hopen (by rw [hp]; rfl) (by rw [hp]; trivial) _ _
  | @eventReady readable writable hp hopen =>
    refine h.goto ?_ ?_
    · rw [hp]
      cases readable
      · exact afterInput_reports writable
      · rfl
    · cases readable
      · exact afterInput_fits hopen writable
      · exact hopen
  | @recvHandshake writable e hs bytes errno hp hsec hssl he =>
    rw [hp] at hfits
    have hfollows := h.afterInput hp hfits
    rcases he with rfl | rfl | rfl
    · exact hfollows
    · exact hfollows.move (sameSession_setArmed _ _) rfl hfollows.fits rfl rfl
    · refine hfollows.silent ⟨rfl, rfl, rfl, rfl, rfl⟩ (phase_of_same rfl rfl rfl) ?_ rfl rfl
      apply afterInput_fits
      exact hfits
  | recvNothing hp hssl hnone =>
    rw [hp] at hfits
    exact h.afterInput hp hfits
  | @recvEof writable hs errno hp hssl hopen =>
    refine (h.afterInput hp hopen).closeSocket hopen (afterInput_reports writable) ?_ _ _
    cases writable with
    | false => trivial
    | true => exact fun _ hsec => hssl hsec
  | @recvData writable hs b bs errno hp hssl hopen =>
    have hin : m.esi.inConnection = false := hok hssl
    refine h.event .streamRead rfl ?_ rfl rfl rfl rfl h.registered ?_
    · rw [phase_connected hopen hin (by rw [hp]; rfl), phase_connected]
      · rfl
      · exact hopen
      · exact hin
      · exact afterInput_reports writable
    · apply afterInput_fits
      exact hopen
  | writableDone hp hsec hin hssl =>
    have hopen : m.esi.closed = false := by
      by_contra hclosed
      rw [hp] at hfits
      rw [hfits (by simpa using hclosed) hsec] at hssl
      cases hssl
    refine h.event .connected rfl ?_ rfl rfl rfl rfl h.registered trivial
    simp [Machine.phase, Machine.deliver, hopen, hin, Poller.reports, Phase.next]
  | writable hp he =>
    refine Follows.established ?_ hp
    rcases he with rfl | rfl
    · exact h
    · exact h.move (sameSession_setArmed _ _) rfl h.fits rfl rfl
  | testEmpty hp hempty | testFull hp hne | testSent hp hres hempty | testSentNone hp hne
  | testMark hp | notifyNone hp hne => exact h.next hp rfl id
  | stopWrite hp =>
    rw [hp] at hfits
    exact h.move (sameSession_setArmed _ _) (by rw [hp]; rfl) hfits rfl rfl
  | report hp =>
    rw [hp] at hfits
    refine h.event .connected rfl ?_ rfl rfl rfl rfl h.registered trivial
    simp [Machine.phase, Machine.deliver, hfits.1, hfits.2, hp, Poller.reports, Phase.next]
  | sendEmpty hp hempty | send hp hne hlen =>
    rw [hp] at hfits
    exact h.move (sameSession_drop _ _) (by rw [hp]; rfl) hfits rfl rfl
  | notify hp hempty =>
    rw [hp] at hfits
    refine h.event .notifyOutBufferEmpty rfl ?_ rfl rfl rfl rfl h.registered hfits
    simp [Machine.phase, Machine.deliver, hfits.1, hfits.2, hp, Poller.reports, Phase.next]
  | closeMarked hp | closeError hp hfatal =>
    rw [hp] at hfits
    have hidle := h.next hp (q := .idle) rfl fun _ => trivial
    exact hidle.closeSocket hfits.1 rfl trivial _ _
  | closeNone hp hretry => exact h.next hp rfl fun _ => trivial
  | append | appendAndClose =>
    exact h.move ⟨⟨rfl, rfl, rfl, rfl, rfl⟩, rfl, rfl, rfl⟩ rfl hfits rfl rfl
  | startWrite hpos => exact h.move (sameSession_setArmed _ _) rfl hfits rfl rfl

/-- **Every orderly run follows the protocol.** -/
theorem Follows.run {as : List Action} (h : Follows addr requester m)
    (hrun : run Machine.step m as = some m') (hok : Meets Machine.step Orderly m as) :
    Follows addr requester m' := run_invariant (fun h hok hs => h.step hok hs) h hok hrun

end

/-! ### The request -/

structure Succeeds (req : Request) (calls : Calls) : Prop where
  route : req.route ≠ []
  socket : calls.socket = true
  ssl : req.useSsl = true → calls.ssl = true
  reuseAddr : ∃ addr, req.addr = some addr ∧ (addr.family = 1#16 ∨ calls.reuseAddr = none)
  ioctl : calls.ioctl = none
  linger : calls.linger = none

def Opened.Unanswered : Opened → Prop
  | .threw | .gaveUp => True
  | .failed m => m.delivered = [] ∧ m.undefined = true
  | .registered _ => False

lemma closeSocket_unanswered (route : RouteT) (secure : Bool) (reason : String) (errno : ℤ) :
    (Opened.failed (closeSocket { Machine.new .connected route secure with
        esi := { (Machine.new .connected route secure).esi with inConnection := true } }
      reason errno)).Unanswered := by
  rw [closeSocket_eq rfl]
  exact ⟨rfl, rfl⟩

lemma unanswered_of_not_succeeds (h : ¬ Succeeds req calls) :
    (onAddToConnectTCP req calls).Unanswered := by
  rw [onAddToConnectTCP]
  split
  · trivial
  next addr haddr =>
    split_ifs with hsocket hssl
    · trivial
    · trivial
    split
    · trivial
    next route hroute =>
      simp only [openTCP]
      split
      · exact closeSocket_unanswered route req.useSsl _ _
      · exact closeSocket_unanswered route req.useSsl _ _
      · exact closeSocket_unanswered route req.useSsl _ _
      next hreuse hioctl hlinger =>
        refine h ⟨?_, by simpa using hsocket, by simpa using hssl, ⟨addr, haddr, ?_⟩, hioctl,
          hlinger⟩
        · rintro hnil
          rw [hnil] at hroute
          cases hroute
        · by_cases hunix : addr.family = 1#16
          · exact .inl hunix
          · exact .inr (by simpa [hunix] using hreuse)

lemma registered_of_succeeds (h : Succeeds req calls) :
    ∃ m, onAddToConnectTCP req calls = .registered m := by
  obtain ⟨addr, haddr, hreuse⟩ := h.reuseAddr
  obtain ⟨route, hop, hroute⟩ := (eq_nil_or_concat' req.route).resolve_left h.route
  have hpopped : poppedFrontRoute req.route = .ok route := by
    rw [hroute]
    exact poppedFrontRoute_pushBack route hop
  have hnone : (if addr.family = 1#16 then none else calls.reuseAddr) = none := by
    rcases hreuse with hunix | hnone
    · rw [if_pos hunix]
    · rw [hnone, ite_self]
  have hssl : (req.useSsl && !calls.ssl) = false := by
    cases huse : req.useSsl with
    | false => rfl
    | true => rw [h.ssl huse]; rfl
  simp only [onAddToConnectTCP, haddr, h.socket, hssl, hpopped, openTCP, hnone, h.ioctl, h.linger]
  exact ⟨_, rfl⟩

lemma follows_of_registered {m : Machine} (h : onAddToConnectTCP req calls = .registered m) :
    ∃ addr requester, req.addr = some addr ∧ poppedFrontRoute req.route = .ok requester ∧
      Follows addr requester m := by
  obtain ⟨addr, requester, haddr, hroute, rfl⟩ := registered_eq h
  refine ⟨addr, requester, haddr, hroute, ?_⟩
  exact ⟨rfl, rfl, rfl, rfl, nofun, rfl, rfl, trivial⟩

/-- **The events of an outgoing connection** are those of the protocol in every orderly run. -/
theorem connection_protocol (req : Request) (calls : Calls) :
    (¬ Succeeds req calls → (onAddToConnectTCP req calls).Unanswered) ∧
      (Succeeds req calls → ∃ m₀ requester, onAddToConnectTCP req calls = .registered m₀ ∧
        poppedFrontRoute req.route = .ok requester ∧
        ∀ as m, Meets Machine.step Orderly m₀ as → run Machine.step m₀ as = some m →
          m.undefined = false ∧ (∀ x ∈ m.delivered, x.route = requester) ∧
            m.phase.Word (m.delivered.map Delivery.event)) := by
  refine ⟨unanswered_of_not_succeeds, fun hcalls => ?_⟩
  obtain ⟨m₀, hm₀⟩ := registered_of_succeeds hcalls
  obtain ⟨addr, requester, -, hroute, hfollows⟩ := follows_of_registered hm₀
  refine ⟨m₀, requester, hm₀, hroute, fun as m hok hrun => ?_⟩
  have h := hfollows.run hrun hok
  exact ⟨h.defined, h.destination, h.word⟩

def shortTalk : List Action :=
  [.connect .inProgress, .event none false true, .writable .other, .testSize, .stopWrite, .report,
    .event none true false, .recv .other (some [7#8]) 0,
    .event none true false, .recv .other (some []) 0]

lemma succeeds_someRequest : Succeeds someRequest goodCalls :=
  ⟨by decide, rfl, fun _ => rfl, ⟨_, rfl, .inr rfl⟩, rfl, rfl⟩

theorem connection_protocol_shortTalk : ∃ m, run Machine.step someSocket shortTalk = some m ∧
      m.phase.Word (m.delivered.map Delivery.event) ∧ m.delivered.map Delivery.event =
        [.connected, .streamRead, .disconnected "recv 0, resetted by peer"] := by
  have hok : Meets Machine.step Orderly someSocket shortTalk := by
    repeat' apply And.intro
    all_goals first | trivial | rfl | exact fun _ => rfl
  obtain ⟨m₀, requester, hm₀, -, h⟩ := (connection_protocol someRequest goodCalls).2
    succeeds_someRequest
  obtain rfl : someSocket = m₀ := Opened.registered.inj (Eq.trans (by rfl) hm₀)
  exact ⟨_, rfl, (h shortTalk _ hok rfl).2.2, rfl⟩

/-- **The protocol is broken** in five ways. -/
theorem connection_protocol_broken :
    onAddToConnectTCP someRequest { goodCalls with socket := false } = .gaveUp ∧
      (∃ m, onAddToConnectTCP someRequest { goodCalls with reuseAddr := some 22 } = .failed m ∧
        m.delivered = [] ∧ m.undefined = true) ∧
      onAddToConnectTCP someRequest goodCalls = .registered someSocket ∧
      (∃ m, run Machine.step someSocket [.connect (.error 111 111)] = some m ∧
        m.delivered.map Delivery.route = [someSocket.esi.route, someRequest.route] ∧
        someSocket.esi.route ≠ someRequest.route ∧ ∃ addr, m.delivered.map Delivery.event =
          [.connectFailed addr 111, .connectFailed addr 111]) ∧
      (∃ m, run Machine.step someSocket
          [.connect .done, .event none false true, .writable .other, .testSize, .stopWrite,
            .report] = some m ∧ m.delivered.map Delivery.event = [.connected, .connected]) ∧
      (∃ m, run Machine.step someSocket
          [.connect .inProgress, .event none true true, .recv .other (some [7#8]) 0,
            .writable .other, .testSize, .stopWrite, .report] = some m ∧
        m.delivered.map Delivery.event = [.streamRead, .connected]) :=
  ⟨rfl, ⟨_, rfl, rfl, rfl⟩, rfl, ⟨_, rfl, rfl, by decide, _, rfl⟩, ⟨_, rfl, rfl⟩, ⟨_, rfl, rfl⟩⟩

end Megatron.Socket
