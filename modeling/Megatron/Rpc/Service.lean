import Megatron.Events.Packing

/-!
The handlers of the RPC service (`modules/rpc/rpcService.cpp`), each run from
its beginning to its end. A handler changes the tables of the service and produces outputs.
-/

namespace Megatron

open Library Reader Ensures Decodes

abbrev SocketId := BitVec 64

/-- The class `RPC::Session`; a socket object is named by its id. -/
structure Session where
  socketId : SocketId
  esi : Option SocketId
  outCache : List Bytes
  deriving DecidableEq, Repr

/-- The tables of the service (`__sessions`). -/
structure RpcState where
  /-- A map by equality: the `std::map` while `Msockaddr.OrderedIn` holds of what is looked up. -/
  sa2sess : Msockaddr → Option Session
  sock2sess : SocketId → Option Session
  passCache : SocketId → List Bytes
  subscribers : List RouteT

inductive RpcNotice where
  | connected (esi : SocketId)
  | accepted (esi : SocketId)
  | connectFailed (addr : Msockaddr)
  | disconnected (esi : SocketId) (addr : Msockaddr)
  | disaccepted (esi : SocketId)
  deriving DecidableEq, Repr

inductive RpcOutput where
  | sendPacket (esi : SocketId) (buf : Bytes)
  | connect (socketId : SocketId) (addr : Msockaddr)
  | incomingOnAcceptor (dst : ServiceId) (esi : SocketId) (e : Event)
  | incomingOnConnector (dst : ServiceId) (esi : SocketId) (connectAddr : Msockaddr) (e : Event)
  /-- A notice passed to a subscriber. -/
  | notify (subscriber : RouteT) (notice : RpcNotice)
  /-- The call `esi->close(reason)`. -/
  | close (esi : SocketId) (reason : String)
  deriving DecidableEq, Repr

def RpcState.initial : RpcState := ⟨fun _ => none, fun _ => none, fun _ => [], []⟩

def flushed (esi : SocketId) (outCache : List Bytes) : List RpcOutput :=
  outCache.map (.sendPacket esi)

def addSendPacket (S : Session) (P : Bytes) : Session × List RpcOutput :=
  match S.esi with
  | none => ({ S with outCache := S.outCache ++ [P] }, [])
  | some esi => ({ S with outCache := [] }, flushed esi S.outCache ++ [.sendPacket esi P])

/-! ### Connections -/

def notifySubscribers (st : RpcState) (notice : RpcNotice) : List RpcOutput :=
  st.subscribers.map (.notify · notice)

def onConnected (st : RpcState) (esi : SocketId) (requestForConnect : Option Msockaddr) :
    Except Exn (RpcState × List RpcOutput) :=
  match requestForConnect with
  | none => .error (.commonError "if(!E->esi->request_for_connect.has_value())")
  | some addr =>
    match st.sa2sess addr with
    | none => .error (.commonError "2cannot find RPC session on connected")
    | some S =>
      let S' : Session := ⟨S.socketId, some esi, []⟩
      .ok ({ st with sa2sess := Function.update st.sa2sess addr (some S') },
        notifySubscribers st (.connected esi) ++ flushed esi S.outCache)

def onAccepted (st : RpcState) (esi : SocketId) : RpcState × List RpcOutput :=
  let S := (st.sock2sess esi).getD ⟨esi, some esi, []⟩
  ({ st with
      sock2sess := Function.update st.sock2sess esi (some S)
      passCache := Function.update st.passCache esi [] },
    flushed esi (st.passCache esi) ++ notifySubscribers st (.accepted esi))

def onConnectFailed (st : RpcState) (requestForConnect : Option Msockaddr) (addr : Msockaddr) :
    Except Exn (RpcState × List RpcOutput) :=
  match requestForConnect with
  | none => .error (.commonError "if(!e->esi->request_for_connect.valid())")
  | some a =>
    .ok ({ st with sa2sess := Function.update st.sa2sess a none },
      notifySubscribers st (.connectFailed addr))

def onDisconnected (st : RpcState) (esi : SocketId) (requestForConnect : Option Msockaddr) :
    Except Exn (RpcState × List RpcOutput) :=
  match requestForConnect with
  | none => .error (.commonError "if(!e->esi->request_for_connect.valid())")
  | some a =>
    .ok ({ st with sa2sess := Function.update st.sa2sess a none },
      notifySubscribers st (.disconnected esi a))

def onDisaccepted (st : RpcState) (esi : SocketId) : RpcState × List RpcOutput :=
  ({ st with sock2sess := Function.update st.sock2sess esi none },
    notifySubscribers st (.disaccepted esi))

section

variable (T : Inet6Text) (reg : Registry)

/-- The packet written by `on_PassPacket`. -/
def passedPacket (e : Event) : Bytes := [putInt true 0x70#8, packEvent T e].flatten

/-- The packet written by `on_SendPacket`. -/
def sentPacket (destination : ServiceId) (e : Event) : Bytes :=
  [putInt true 0x73#8, putInt true destination, packEvent T e].flatten

def onPassPacket (st : RpcState) (socketIdTo : SocketId) (e : Event) : RpcState × List RpcOutput :=
  match st.sock2sess socketIdTo with
  | some S =>
    let r := addSendPacket S (passedPacket T e)
    ({ st with sock2sess := Function.update st.sock2sess socketIdTo (some r.1) }, r.2)
  | none =>
    let cache := st.passCache socketIdTo ++ [passedPacket T e]
    ({ st with passCache := Function.update st.passCache socketIdTo cache }, [])

/-- `RPC::Service::on_SendPacket`; `sockId` is a new socket id. -/
def onSendPacket (st : RpcState) (sockId : SocketId) (addressTo : Msockaddr)
    (destination : ServiceId) (e : Event) : RpcState × List RpcOutput :=
  match st.sa2sess addressTo with
  | some S =>
    let r := addSendPacket S (sentPacket T destination e)
    ({ st with sa2sess := Function.update st.sa2sess addressTo (some r.1) }, r.2)
  | none =>
    let r := addSendPacket ⟨sockId, none, []⟩ (sentPacket T destination e)
    ({ st with sa2sess := Function.update st.sa2sess addressTo (some r.1) },
      .connect sockId addressTo :: r.2)

/-- The common body of the two packet handlers. -/
def packetBody (esi : SocketId) (incoming : ServiceId → Event → Except Exn RpcOutput)
    (other : Reader (List RpcOutput)) : Reader (List RpcOutput) := do
  let direction ← getInt 32
  if direction = 0x70#32 then do
    match ← unpackEvent T reg with
    | none => pure []
    | some e =>
      match e.route.popBack with
      | .error x => fail x
      | .ok (.localService id, route) =>
        match incoming id ⟨route, e.body⟩ with
        | .ok out => pure [out]
        | .error x => fail x
      | .ok _ => fail (.commonError "!(r->type==Route::LOCALSERVICE")
  else if direction = 0x73#32 then do
    let dst ← getInt 32
    match ← unpackEvent T reg with
    | none => pure []
    | some e =>
      let route := (e.route.pushBack (.remoteAddr esi)).pushBack (.localService dst)
      match incoming dst ⟨route, e.body⟩ with
      | .ok out => pure [out]
      | .error x => fail x
  else other

/-- The body of `on_PacketOnAcceptor`. -/
def acceptorBody (esi : SocketId) : Reader (List RpcOutput) :=
  packetBody T reg esi (fun dst e => .ok (.incomingOnAcceptor dst esi e)) (pure [])

def incomingFromConnector (esi : SocketId) (requestForConnect : Option Msockaddr)
    (dst : ServiceId) (e : Event) : Except Exn RpcOutput :=
  match requestForConnect with
  | some addr => .ok (.incomingOnConnector dst esi addr e)
  | none => .error (.commonError "if(!E->esi->request_for_connect_.has_value())")

/-- The body of `on_PacketOnConnector`. -/
def connectorBody (esi : SocketId) (requestForConnect : Option Msockaddr) :
    Reader (List RpcOutput) :=
  packetBody T reg esi (incomingFromConnector esi requestForConnect)
    (fail (.commonError "invalid direction"))

/-- The `catch` block: whatever is thrown, the socket is closed. -/
def closeOnError (esi : SocketId) (reason : String) (body : Reader (List RpcOutput))
    (buf : Bytes) : List RpcOutput :=
  match (body (InBuffer.ofBytes buf)).1 with
  | .ok outs => outs
  | .error _ => [.close esi reason]

def onPacketOnAcceptor (esi : SocketId) (buf : Bytes) : List RpcOutput :=
  closeOnError esi "broken packet in RPC" (acceptorBody T reg esi) buf

def onPacketOnConnector (esi : SocketId) (requestForConnect : Option Msockaddr)
    (buf : Bytes) : List RpcOutput :=
  closeOnError esi "broken packet int RPC" (connectorBody T reg esi requestForConnect) buf

variable {T reg}

structure Event.Sendable (reg : Registry) (e : Event) : Prop where
  running : reg.isTerminating = false
  wellFormed : e.WellFormed
  registered : e.body.cls ∈ reg.eventConstructors
  entries : e.body.entries < 2 ^ 32

variable {P : RpcOutput → Prop} {body : EventBody} {dst : ServiceId} {e : Event} {esi : SocketId}
variable {incoming : ServiceId → Event → Except Exn RpcOutput} {other : Reader (List RpcOutput)}
variable {out : RpcOutput} {route : RouteT}

lemma Event.Sendable.decodes (h : e.Sendable reg) :
    (unpackEvent T reg).Decodes (packEvent T e) (some e) :=
  unpackEvent_decodes T reg h.running h.wellFormed h.registered h.entries

private lemma closeOnError_of_decodes {reason : String}
    {body : Reader (List RpcOutput)} {buf : Bytes} {outs : List RpcOutput}
    (h : body.Decodes buf outs) : closeOnError esi reason body buf = outs := by
  have hbuf : (InBuffer.ofBytes buf).unread = buf ++ [] := by
    rw [unread_ofBytes, List.append_nil]
  rw [closeOnError, h.apply hbuf]

lemma packetBody_ensures {Q : RouteT → Prop}
    (hevent : (unpackEvent T reg).Ensures fun o => ∀ e, o = some e → Q e.route)
    (hpop : ∀ r hop route, Q r → r.popBack = .ok (hop, route) → Q route)
    (hpush : ∀ r dst, Q r → Q ((r.pushBack (.remoteAddr esi)).pushBack (.localService dst)))
    (hincoming : ∀ dst e out, Q e.route → incoming dst e = .ok out → P out)
    (hother : other.Ensures fun outs => ∀ o ∈ outs, P o) :
    (packetBody T reg esi incoming other).Ensures fun outs => ∀ o ∈ outs, P o := by
  have hin {dst : ServiceId} {e : Event} {out : RpcOutput} (hroute : Q e.route)
      (h : incoming dst e = .ok out) :
      (pure [out] : Reader (List RpcOutput)).Ensures fun outs => ∀ o ∈ outs, P o :=
    Ensures.pure (List.forall_mem_singleton.mpr (hincoming dst e out hroute h))
  refine skip fun direction => ?_
  split_ifs
  · refine bind hevent fun event hroute => ?_
    cases event with
    | none => exact Ensures.pure (by simp)
    | some e =>
      simp only
      split
      · exact fail _
      · next route hback =>
          split
          · next h => exact hin (hpop _ _ route (hroute e rfl) hback) h
          · exact fail _
      · exact fail _
  · refine skip fun dst => bind hevent fun event hroute => ?_
    cases event with
    | none => exact Ensures.pure (by simp)
    | some e =>
      simp only
      split
      · next h => exact hin (hpush _ dst (hroute e rfl)) h
      · exact fail _
  · exact hother

lemma packetBody_send (h : e.Sendable reg)
    (hout : incoming dst ⟨(e.route.pushBack (.remoteAddr esi)).pushBack (.localService dst),
      e.body⟩ = .ok out) :
    (packetBody T reg esi incoming other).Decodes (sentPacket T dst e) [out] := by
  refine field (getInt_decodes (by norm_num) true (0x73#32)) ?_
  refine field (getInt_decodes (by norm_num) true dst) ?_
  refine field h.decodes ?_
  simp only [hout]
  exact pure _

lemma packetBody_pass (h : (Event.mk (route.pushBack (.localService dst)) body).Sendable reg)
    (hout : incoming dst ⟨route, body⟩ = .ok out) : (packetBody T reg esi incoming other).Decodes
      (passedPacket T ⟨route.pushBack (.localService dst), body⟩) [out] := by
  refine field (getInt_decodes (by norm_num) true (0x70#32)) ?_
  refine field h.decodes ?_
  simp only [RouteT.popBack_pushBack, hout]
  exact pure _

lemma onPacketOnAcceptor_send (h : e.Sendable reg) :
    onPacketOnAcceptor T reg esi (sentPacket T dst e) = [.incomingOnAcceptor dst esi
          ⟨(e.route.pushBack (.remoteAddr esi)).pushBack (.localService dst), e.body⟩] :=
  closeOnError_of_decodes (packetBody_send h rfl)

lemma onPacketOnConnector_pass {addr : Msockaddr}
    (h : (Event.mk (route.pushBack (.localService dst)) body).Sendable reg) :
    onPacketOnConnector T reg esi (some addr)
        (passedPacket T ⟨route.pushBack (.localService dst), body⟩)
      = [.incomingOnConnector dst esi addr ⟨route, body⟩] :=
  closeOnError_of_decodes (packetBody_pass h rfl)

end

end Megatron
