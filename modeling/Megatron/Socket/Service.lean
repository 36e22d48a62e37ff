import Megatron.Corelib.Msockaddr
import Megatron.Corelib.Route
import Megatron.Library.Runs

/-!
One socket of the socket service (`modules/socket/socketService.cpp`,
`corelib/epoll_socket_info.cpp`, `corelib/networkMultiplexor.cpp`): the request to
connect, the poller thread of the socket, and threads that write to it.
-/

namespace Megatron.Socket

open Library

inductive StreamType where
  | accepted
  | connected
  deriving DecidableEq, Repr

inductive SocketEvent where
  | accepted
  | connected
  | connectFailed (addr : Msockaddr) (errno : ℤ)
  | streamRead
  | notifyOutBufferEmpty
  | disconnected (reason : String)
  | disaccepted (reason : String)
  deriving DecidableEq, Repr

structure Delivery where
  event : SocketEvent
  route : RouteT
  deriving DecidableEq, Repr

/-- The class `epoll_socket_info`. -/
structure Esi where
  streamType : StreamType
  route : RouteT
  /-- The socket has a `secure_context`. -/
  secure : Bool
  sslConnected : Bool
  inConnection : Bool
  requestForConnect : Option Msockaddr
  /-- The file descriptor is -1. -/
  closed : Bool
  /-- The socket is in the container of its poller. -/
  registered : Bool
  /-- The interest of `epoll` in `EPOLLOUT`. -/
  armed : Bool
  container : Bytes
  markedToDestroyOnSend : Bool
  inBuffer : Bytes
  deriving DecidableEq, Repr

inductive Poller where
  | idle
  | input (writable : Bool)
  /-- Before `onEPOLLOUT`. -/
  | output
  | established
  | disarming
  /-- Before `Connected` is passed. -/
  | reporting
  /-- Before `outBuffer_.send`. -/
  | sending
  /-- After `outBuffer_.send`. -/
  | sent (res errno : ℤ)
  | drained (res errno : ℤ)
  /-- Before the second test of the buffer size. -/
  | notifying (res errno : ℤ) (needToClose : Bool)
  /-- Before the socket is closed, if it is to be. -/
  | closing (res errno : ℤ) (needToClose : Bool)
  deriving DecidableEq, Repr

/-- After `onEPOLLIN`. -/
def Poller.afterInput : Bool → Poller
  | true => .output
  | false => .idle

def Poller.ready (readable writable : Bool) : Poller :=
  if readable then .input writable else .afterInput writable

/-- The event `AddToConnectTCP`; `none` is an unknown family. -/
structure Request where
  addr : Option Msockaddr
  useSsl : Bool
  route : RouteT
  deriving DecidableEq, Repr

structure Machine where
  esi : Esi
  connecting : Option (Msockaddr × RouteT)
  poller : Poller
  starting : ℕ
  /-- The events passed, in order. -/
  delivered : List Delivery
  undefined : Bool
  /-- The bytes that the kernel has accepted. -/
  kernel : Bytes
  /-- The strings that have been appended, in order. -/
  written : List Bytes
  deriving DecidableEq, Repr

/-- `passEvent` of an event of the socket. -/
def Machine.deliver (m : Machine) (event : SocketEvent) (route : RouteT) : Machine :=
  { m with delivered := m.delivered ++ [⟨event, route⟩] }

def Esi.farewell (e : Esi) (reason : String) (errNo : ℤ) : Option SocketEvent :=
  match e.streamType with
  | .connected =>
    if e.inConnection then e.requestForConnect.map fun addr => .connectFailed addr errNo
    else some (.disconnected reason)
  | .accepted => some (.disaccepted reason)

def closeSocket (m : Machine) (reason : String) (errNo : ℤ) : Machine :=
  if m.esi.closed then m
  else
    let m' := match m.esi.farewell reason errNo with
      | some event => m.deliver event m.esi.route
      | none => { m with undefined := true }
    { m' with esi := { m.esi with registered := false, closed := true } }

lemma closeSocket_eq {m : Machine} (h : m.esi.closed = false) (reason : String) (errNo : ℤ) :
    closeSocket m reason errNo = { m with
      esi := { m.esi with registered := false, closed := true }
      delivered := m.delivered ++
        ((m.esi.farewell reason errNo).map fun event => ⟨event, m.esi.route⟩).toList
      undefined := m.undefined || (m.esi.farewell reason errNo).isNone } := by
  simp only [closeSocket, h, Bool.false_eq_true, if_false]
  cases m.esi.farewell reason errNo with
  | none => simp
  | some event => simp [Machine.deliver]

lemma closeSocket_output (m : Machine) (reason : String) (errNo : ℤ) :
    (closeSocket m reason errNo).kernel = m.kernel ∧
    (closeSocket m reason errNo).esi.container = m.esi.container ∧
    (closeSocket m reason errNo).written = m.written ∧ (closeSocket m reason errNo).esi.closed =
    true ∧ (closeSocket m reason errNo).poller = m.poller := by
  cases hclosed : m.esi.closed with
  | true => simp [closeSocket, hclosed]
  | false =>
    rw [closeSocket_eq hclosed]
    exact ⟨rfl, rfl, rfl, rfl, rfl⟩

/-! ### The request -/

/-- The results of the calls up to the registration of the socket. -/
structure Calls where
  /-- `::socket` returns a descriptor. -/
  socket : Bool
  /-- The set-up of TLS does not throw. -/
  ssl : Bool
  reuseAddr : Option ℤ
  /-- `ioctl` of `FIONBIO`. -/
  ioctl : Option ℤ
  /-- `setsockopt` of `SO_LINGER`. -/
  linger : Option ℤ
  deriving DecidableEq, Repr

inductive Opened where
  /-- An exception leaves the handler. -/
  | threw
  /-- `::socket` has failed; the handler returns. -/
  | gaveUp
  /-- A later call has failed; the socket is closed. -/
  | failed (m : Machine)
  | registered (m : Machine)

def Machine.new (streamType : StreamType) (route : RouteT) (secure : Bool) : Machine where
  esi :=
    { streamType, route, secure
      sslConnected := false
      inConnection := false
      requestForConnect := none
      closed := false
      registered := false
      armed := false
      container := []
      markedToDestroyOnSend := false
      inBuffer := [] }
  connecting := none
  poller := .idle
  starting := 0
  delivered := []
  undefined := false
  kernel := []
  written := []

def openTCP (addr : Msockaddr) (request route : RouteT) (secure : Bool) (calls : Calls) : Opened :=
  let m := Machine.new .connected route secure
  let m := { m with esi := { m.esi with inConnection := true } }
  match (if addr.family = 1#16 then none else calls.reuseAddr), calls.ioctl, calls.linger with
  | some errno, _, _ => .failed (closeSocket m "setsockopt" errno)
  | none, some errno, _ => .failed (closeSocket m "ioctl" errno)
  | none, none, some errno => .failed (closeSocket m "SP_LINGER" errno)
  | none, none, none => .registered { m with
      esi := { m.esi with requestForConnect := some addr, armed := true, registered := true }
      connecting := some (addr, request) }

def onAddToConnectTCP (req : Request) (calls : Calls) : Opened :=
  match req.addr with
  | none => .threw
  | some addr =>
    if !calls.socket then .gaveUp
    else if req.useSsl && !calls.ssl then .threw
    else
      match poppedFrontRoute req.route with
      | .error _ => .threw
      | .ok route => openTCP addr req.route route req.useSsl calls

/-- An accepted socket, at the end of `handle_accepted1`. -/
def Machine.accepted (route : RouteT) (secure : Bool) : Machine :=
  let m := Machine.new .accepted route secure
  Machine.deliver { m with esi := { m.esi with registered := true } } .accepted route

/-- The result of `::connect`. After an error `errno` is read twice. -/
inductive ConnectResult where
  | done
  | inProgress
  | error (errno errno' : ℤ)
  deriving DecidableEq, Repr

/-- The result of `SSL_do_handshake`. -/
inductive Handshake where
  | done
  | wantWrite
  | other
  deriving DecidableEq, Repr

inductive Action where
  | connect (res : ConnectResult)
  | event (error : Option ℤ) (readable writable : Bool)
  /-- `::recv` returns -1 if there are no bytes. -/
  | recv (handshake : Handshake) (bytes : Option Bytes) (errno : ℤ)
  | writable (handshake : Handshake)
  | testSize
  | stopWrite
  | report
  | send (res errno : ℤ)
  | testSent
  | testMark
  | notify
  | close
  | append (s : Bytes)
  | appendAndClose (s : Bytes)
  | startWrite
  deriving DecidableEq, Repr

/-- `sockStartWrite` and `sockStopWrite`. -/
def Esi.setArmed (e : Esi) (armed : Bool) : Esi := if e.closed then e else { e with armed := armed }

lemma Esi.setArmed_frame (e : Esi) (armed : Bool) :
    (e.setArmed armed).container = e.container ∧ (e.setArmed armed).closed = e.closed := by
  rw [Esi.setArmed]
  split_ifs
  · exact ⟨rfl, rfl⟩
  · exact ⟨rfl, rfl⟩

lemma Esi.setArmed_armed {e : Esi} (h : e.closed = false) (armed : Bool) :
    (e.setArmed armed).armed = armed := by
  rw [Esi.setArmed, h]
  rfl

def Esi.drop (e : Esi) (res : ℤ) : Esi :=
  let e := { e with container := e.container.drop res.toNat }
  if e.container = [] then e.setArmed false else e

lemma Esi.drop_container (e : Esi) (res : ℤ) :
    (e.drop res).container = e.container.drop res.toNat := by
  rw [Esi.drop]
  split_ifs
  · exact (Esi.setArmed_frame _ _).1
  · rfl

lemma Esi.drop_armed {e : Esi} {res : ℤ} (h : (e.drop res).container ≠ []) :
    (e.drop res).armed = e.armed := by
  rw [Esi.drop_container] at h
  rw [Esi.drop, if_neg h]

lemma Esi.drop_closed (e : Esi) (res : ℤ) : (e.drop res).closed = e.closed := by
  rw [Esi.drop]
  split_ifs
  · exact (Esi.setArmed_frame _ _).2
  · rfl

namespace Machine

variable (m : Machine)

/-- The rest of `on_AddToConnectTCP`. -/
def connect (res : ConnectResult) : Option Machine :=
  m.connecting.map fun (addr, request) =>
    let m := { m with connecting := none }
    match res with
    | .done => m.deliver .connected request
    | .inProgress => m
    | .error errno errno' =>
      (closeSocket m "connect" errno).deliver (.connectFailed addr errno') request

def event (error : Option ℤ) (readable writable : Bool) : Option Machine :=
  if m.poller ≠ .idle then none
  else if !m.esi.registered || m.esi.closed then some m
  else
    match error with
    | some errno => some (closeSocket m "EPOLERR" errno)
    | none => some { m with poller := .ready readable writable }

/-- `onEPOLLIN_STREAMTYPE_CONNECTED_or_STREAMTYPE_ACCEPTED`. -/
def recv (handshake : Handshake) (bytes : Option Bytes) (errno : ℤ) : Option Machine :=
  match m.poller with
  | .input writable =>
    let m := { m with poller := .afterInput writable }
    if m.esi.secure && !m.esi.sslConnected then
      match handshake with
      | .done => some { m with esi := { m.esi with sslConnected := true } }
      | .wantWrite => some { m with esi := m.esi.setArmed true }
      | .other => some m
    else if m.esi.closed then some m
    else
      match bytes with
      | none => some m
      | some [] => some (closeSocket m "recv 0, resetted by peer" errno)
      | some bs =>
        let m := { m with esi := { m.esi with inBuffer := m.esi.inBuffer ++ bs } }
        some (m.deliver .streamRead m.esi.route)
  | _ => none

def established : Machine :=
  if m.esi.inConnection then
    if m.esi.registered then
      { m with esi := { m.esi with inConnection := false }, poller := .established }
    else { m with poller := .idle }
  else if m.esi.closed then { m with poller := .idle }
  else { m with poller := .sending }

/-- `onEPOLLOUT`, up to the first use of the send buffer. -/
def writable (handshake : Handshake) : Option Machine :=
  if m.poller ≠ .output then none
  else if m.esi.secure && m.esi.inConnection && !m.esi.sslConnected then
    match handshake with
    | .done =>
      let m := { m with
        esi := { m.esi with sslConnected := true, inConnection := false }, poller := .idle }
      some (m.deliver .connected m.esi.route)
    | .wantWrite => some (established { m with esi := m.esi.setArmed true })
    | .other => some m.established
  else some m.established

def send (res errno : ℤ) : Option Machine :=
  if m.poller ≠ .sending then none
  else if m.esi.container = [] then
    some { m with esi := m.esi.drop 0, poller := .sent 0 errno }
  else if m.esi.container.length < res then none
  else some { m with
    esi := m.esi.drop res
    kernel := m.kernel ++ m.esi.container.take res.toNat
    poller := .sent res errno }

/-- `ENOBUFS` and `EAGAIN`. -/
def retryLater (errno : ℤ) : Bool := errno == 105 || errno == 11

def step (m : Machine) : Action → Option Machine
  | .connect res => m.connect res
  | .event error readable writable => m.event error readable writable
  | .recv handshake bytes errno => m.recv handshake bytes errno
  | .writable handshake => m.writable handshake
  | .testSize =>
    if m.poller = .established then
      some { m with poller := if m.esi.container = [] then .disarming else .reporting }
    else none
  | .stopWrite =>
    if m.poller = .disarming then
      some { m with esi := m.esi.setArmed false, poller := .reporting }
    else none
  | .report =>
    if m.poller = .reporting then
      some { m.deliver .connected m.esi.route with poller := .idle }
    else none
  | .send res errno => m.send res errno
  | .testSent =>
    match m.poller with
    | .sent res errno =>
      some { m with poller :=
        if 0 < res ∧ m.esi.container = [] then .drained res errno else .notifying res errno false }
    | _ => none
  | .testMark =>
    match m.poller with
    | .drained res errno =>
      some { m with poller := .notifying res errno m.esi.markedToDestroyOnSend }
    | _ => none
  | .notify =>
    match m.poller with
    | .notifying res errno needToClose =>
      let m' := if m.esi.container = [] then m.deliver .notifyOutBufferEmpty m.esi.route else m
      some { m' with poller := .closing res errno needToClose }
    | _ => none
  | .close =>
    match m.poller with
    | .closing res errno needToClose =>
      let m := { m with poller := .idle }
      if needToClose then some (closeSocket m "marked to destroy on send" 0)
      else if res = -1 ∧ retryLater errno = false then
        some (closeSocket m "send result (-1)" 0)
      else some m
    | _ => none
  | .append s => some { m with
      esi := { m.esi with container := m.esi.container ++ s }
      starting := m.starting + 1
      written := m.written ++ [s] }
  | .appendAndClose s => some { m with
      esi := { m.esi with container := m.esi.container ++ s, markedToDestroyOnSend := true }
      starting := m.starting + 1
      written := m.written ++ [s] }
  | .startWrite =>
    if m.starting = 0 then none
    else some { m with esi := m.esi.setArmed true, starting := m.starting - 1 }

inductive Effect (m : Machine) : Action → Machine → Prop
  | connectDone : m.connecting = some (addr, request) →
      Effect m (.connect .done) (deliver { m with connecting := none } .connected request)
  | connectPending : m.connecting ≠ none →
      Effect m (.connect .inProgress) { m with connecting := none }
  | connectError : m.connecting = some (addr, request) → Effect m (.connect (.error errno errno'))
        ((closeSocket { m with connecting := none } "connect" errno).deliver
          (.connectFailed addr errno') request)
  | eventSkip : m.poller = .idle → m.esi.registered = false ∨ m.esi.closed = true →
      Effect m (.event error readable writes) m
  | eventError : m.poller = .idle → m.esi.closed = false →
      Effect m (.event (some errno) readable writes) (closeSocket m "EPOLERR" errno)
  | eventReady : m.poller = .idle → m.esi.closed = false →
      Effect m (.event none readable writes) { m with poller := .ready readable writes }
  | recvHandshake : m.poller = .input writes → m.esi.secure = true → m.esi.sslConnected = false →
      e = m.esi ∨ e = m.esi.setArmed true ∨ e = { m.esi with sslConnected := true } →
      Effect m (.recv h bytes errno) { m with esi := e, poller := .afterInput writes }
  | recvNothing : m.poller = .input writes → (m.esi.secure = true → m.esi.sslConnected = true) →
      m.esi.closed = true ∨ bytes = none →
      Effect m (.recv h bytes errno) { m with poller := .afterInput writes }
  | recvEof : m.poller = .input writes →
      (m.esi.secure = true → m.esi.sslConnected = true) → m.esi.closed = false →
      Effect m (.recv h (some []) errno) (closeSocket { m with poller := .afterInput writes }
          "recv 0, resetted by peer" errno)
  | recvData : m.poller = .input writes → (m.esi.secure = true → m.esi.sslConnected = true) →
      m.esi.closed = false → Effect m (.recv h (some (b :: bs)) errno) (deliver { m with
            esi := { m.esi with inBuffer := m.esi.inBuffer ++ b :: bs }
            poller := .afterInput writes }
          .streamRead m.esi.route)
  | writableDone : m.poller = .output → m.esi.secure = true →
      m.esi.inConnection = true → m.esi.sslConnected = false → Effect m (.writable h)
        (deliver { m with
            esi := { m.esi with sslConnected := true, inConnection := false }, poller := .idle }
          .connected m.esi.route)
  | writable : m.poller = .output → e = m.esi ∨ e = m.esi.setArmed true →
      Effect m (.writable h) (established { m with esi := e })
  | testEmpty : m.poller = .established → m.esi.container = [] →
      Effect m .testSize { m with poller := .disarming }
  | testFull : m.poller = .established → m.esi.container ≠ [] →
      Effect m .testSize { m with poller := .reporting }
  | stopWrite : m.poller = .disarming →
      Effect m .stopWrite { m with esi := m.esi.setArmed false, poller := .reporting }
  | report : m.poller = .reporting →
      Effect m .report { m.deliver .connected m.esi.route with poller := .idle }
  | sendEmpty : m.poller = .sending → m.esi.container = [] →
      Effect m (.send res errno) { m with esi := m.esi.drop 0, poller := .sent 0 errno }
  | send {res : ℤ} : m.poller = .sending → m.esi.container ≠ [] → res ≤ m.esi.container.length →
      Effect m (.send res errno) { m with
        esi := m.esi.drop res
        kernel := m.kernel ++ m.esi.container.take res.toNat
        poller := .sent res errno }
  | testSent : m.poller = .sent res errno → 0 < res → m.esi.container = [] →
      Effect m .testSent { m with poller := .drained res errno }
  | testSentNone : m.poller = .sent res errno → (0 < res → m.esi.container ≠ []) →
      Effect m .testSent { m with poller := .notifying res errno false }
  | testMark : m.poller = .drained res errno →
      Effect m .testMark { m with poller := .notifying res errno m.esi.markedToDestroyOnSend }
  | notify : m.poller = .notifying res errno needToClose → m.esi.container = [] →
      Effect m .notify { m.deliver .notifyOutBufferEmpty m.esi.route with
        poller := .closing res errno needToClose }
  | notifyNone : m.poller = .notifying res errno needToClose → m.esi.container ≠ [] →
      Effect m .notify { m with poller := .closing res errno needToClose }
  | closeMarked : m.poller = .closing res errno true →
      Effect m .close (closeSocket { m with poller := .idle } "marked to destroy on send" 0)
  | closeError : m.poller = .closing (-1) errno false → retryLater errno = false →
      Effect m .close (closeSocket { m with poller := .idle } "send result (-1)" 0)
  | closeNone : m.poller = .closing res errno false →
      (res = -1 → retryLater errno = true) → Effect m .close { m with poller := .idle }
  | append : Effect m (.append s) { m with
      esi := { m.esi with container := m.esi.container ++ s }
      starting := m.starting + 1
      written := m.written ++ [s] }
  | appendAndClose : Effect m (.appendAndClose s) { m with
      esi := { m.esi with container := m.esi.container ++ s, markedToDestroyOnSend := true }
      starting := m.starting + 1
      written := m.written ++ [s] }
  | startWrite : 0 < m.starting →
      Effect m .startWrite { m with esi := m.esi.setArmed true, starting := m.starting - 1 }

variable {m}
variable {m' : Machine} {a : Action}

lemma connect_effect {res : ConnectResult} (h : m.connect res = some m') :
    Effect m (.connect res) m' := by
  obtain ⟨⟨addr, request⟩, hc, rfl⟩ := Option.map_eq_some_iff.mp h
  cases res with
  | done => exact .connectDone hc
  | inProgress => exact .connectPending (by simp [hc])
  | error errno errno' => exact .connectError hc

lemma event_effect {error : Option ℤ} {readable writable : Bool}
    (h : m.event error readable writable = some m') :
    Effect m (.event error readable writable) m' := by
  simp only [event] at h
  split_ifs at h with hp hskip
  · cases h
    exact .eventSkip (not_not.mp hp) (by simpa using hskip)
  · rw [Bool.or_eq_true, not_or] at hskip
    have hopen : m.esi.closed = false := by simpa using hskip.2
    cases error with
    | some errno =>
      cases h
      exact .eventError (not_not.mp hp) hopen
    | none =>
      cases h
      exact .eventReady (not_not.mp hp) hopen

lemma recv_effect {hs : Handshake} {bytes : Option Bytes} {errno : ℤ}
    (h : m.recv hs bytes errno = some m') : Effect m (.recv hs bytes errno) m' := by
  simp only [recv] at h
  split at h
  · next writable hp =>
      split_ifs at h with htls hclosed
      · rw [Bool.and_eq_true, Bool.not_eq_true'] at htls
        cases hs with
        | done =>
          cases h
          exact .recvHandshake hp htls.1 htls.2 (.inr (.inr rfl))
        | wantWrite =>
          cases h
          exact .recvHandshake hp htls.1 htls.2 (.inr (.inl rfl))
        | other =>
          cases h
          exact .recvHandshake hp htls.1 htls.2 (.inl rfl)
      · have hssl : m.esi.secure = true → m.esi.sslConnected = true := by simpa using htls
        cases h
        exact .recvNothing hp hssl (.inl hclosed)
      · have hssl : m.esi.secure = true → m.esi.sslConnected = true := by simpa using htls
        match bytes, h with
        | none, h =>
          cases h
          exact .recvNothing hp hssl (.inr rfl)
        | some [], h =>
          cases h
          exact .recvEof hp hssl (by simpa using hclosed)
        | some (b :: bs), h =>
          cases h
          exact .recvData hp hssl (by simpa using hclosed)
  · cases h

lemma writable_effect {hs : Handshake} (h : m.writable hs = some m') :
    Effect m (.writable hs) m' := by
  simp only [Machine.writable] at h
  split_ifs at h with hp htls
  · simp only [Bool.and_eq_true, Bool.not_eq_true'] at htls
    cases hs with
    | done =>
      cases h
      exact .writableDone (not_not.mp hp) htls.1.1 htls.1.2 htls.2
    | wantWrite =>
      cases h
      exact .writable (not_not.mp hp) (.inr rfl)
    | other =>
      cases h
      exact .writable (not_not.mp hp) (.inl rfl)
  · cases h
    exact .writable (not_not.mp hp) (.inl rfl)

lemma send_effect {res errno : ℤ} (h : m.send res errno = some m') :
    Effect m (.send res errno) m' := by
  rw [send] at h
  split_ifs at h with hp hempty hlen
  · cases h
    exact .sendEmpty (not_not.mp hp) hempty
  · cases h
    exact .send (not_not.mp hp) hempty (not_lt.mp hlen)

theorem step_effect (h : step m a = some m') : Effect m a m' := by
  cases a with
  | connect res => exact connect_effect h
  | event error readable writable => exact event_effect h
  | recv hs bytes errno => exact recv_effect h
  | writable hs => exact writable_effect h
  | testSize =>
    simp only [step] at h
    split_ifs at h with hp hempty <;> cases h
    · exact .testEmpty hp hempty
    · exact .testFull hp hempty
  | stopWrite =>
    simp only [step] at h
    split_ifs at h with hp
    cases h
    exact .stopWrite hp
  | report =>
    simp only [step] at h
    split_ifs at h with hp
    cases h
    exact .report hp
  | send res errno => exact send_effect h
  | testSent =>
    simp only [step] at h
    split at h
    · next res errno hp =>
        split_ifs at h with hempty <;> cases h
        · exact .testSent hp hempty.1 hempty.2
        · exact .testSentNone hp fun hres hcontainer => hempty ⟨hres, hcontainer⟩
    · cases h
  | testMark =>
    simp only [step] at h
    split at h
    · next res errno hp =>
        cases h
        exact .testMark hp
    · cases h
  | notify =>
    simp only [step] at h
    split at h
    · next res errno needToClose hp =>
        split_ifs at h with hempty <;> cases h
        · exact .notify hp hempty
        · exact .notifyNone hp hempty
    · cases h
  | close =>
    simp only [step] at h
    split at h
    · next res errno needToClose hp =>
        split_ifs at h with hmarked hfatal <;> cases h
        · exact .closeMarked (hmarked ▸ hp)
        · obtain ⟨rfl, hretry⟩ := hfatal
          exact .closeError (Bool.eq_false_of_not_eq_true hmarked ▸ hp) hretry
        · refine .closeNone (Bool.eq_false_of_not_eq_true hmarked ▸ hp) fun hres => ?_
          exact Bool.eq_true_of_not_eq_false fun hretry => hfatal ⟨hres, hretry⟩
    · cases h
  | append s | appendAndClose s =>
    cases h
    constructor
  | startWrite =>
    simp only [step] at h
    split_ifs at h with hzero
    cases h
    exact .startWrite (Nat.pos_of_ne_zero hzero)

end Machine

end Megatron.Socket
