import Megatron.Library.Runs
import Megatron.Oscar.Service
import Megatron.Rpc.Service

/-!
The RPC service together with Oscar and the socket layer (`modules/socket/socketService.cpp`,
`corelib/epoll_socket_info.cpp`): its sessions refer to live sockets (`Agrees.step`,
`sessions_refer_to_live_sockets`).
-/

namespace Megatron.Sockets

open Library List Function Option

structure SocketInfo where
  streamType : StreamType
  inConnection : Bool
  requestForConnect : Option Msockaddr
  inBuffer : Bytes
  /-- `fd_` is not -1. -/
  isOpen : Bool
  closing : Bool
  /-- The event `Accepted` is still to be delivered. -/
  acceptedDue : Bool
  deriving DecidableEq, Repr

structure Node where
  rpc : RpcState
  socks : SocketId → Option SocketInfo

def Node.initial (subscribers : List RouteT) : Node :=
  ⟨{ RpcState.initial with subscribers := subscribers }, fun _ => none⟩

/-- A socket that `on_AddToConnectTCP` has made. -/
def connecting (addr : Msockaddr) : SocketInfo where
  streamType := .connected
  inConnection := true
  requestForConnect := some addr
  inBuffer := []
  isOpen := true
  closing := false
  acceptedDue := false

/-- A socket that `handle_accepted1` has made. -/
def acceptedSocket : SocketInfo where
  streamType := .accepted
  inConnection := false
  requestForConnect := none
  inBuffer := []
  isOpen := true
  closing := false
  acceptedDue := true

def SocketInfo.close (k : SocketInfo) : SocketInfo := { k with isOpen := false }

def perform (socks : SocketId → Option SocketInfo) : RpcOutput → SocketId → Option SocketInfo
  | .connect socketId addr => update socks socketId (some (connecting addr))
  | .close esi _ => update socks esi ((socks esi).map SocketInfo.close)
  | _ => socks

def Node.after (nd : Node) (r : RpcState × List RpcOutput) : Node :=
  ⟨r.1, r.2.foldl perform nd.socks⟩

def Node.afterOrSame (nd : Node) : Except Exn (RpcState × List RpcOutput) → Node
  | .ok r => nd.after r
  | .error _ => nd

inductive Action where
  | sendPacket (newSocketId : SocketId) (addressTo : Msockaddr) (destination : ServiceId)
      (e : Event)
  | passPacket (socketIdTo : SocketId) (e : Event)
  | accept (s : SocketId)
  /-- `Accepted` is delivered. -/
  | accepted (s : SocketId)
  /-- `Connected` is delivered. If `connect` succeeds at once, `on_AddToConnectTCP` passes it
  whatever has become of the socket in the thread that polls it, and `inConnection_` stays set. -/
  | connected (s : SocketId) (atOnce : Bool)
  /-- Bytes are received and `StreamRead` is delivered. -/
  | streamRead (s : SocketId) (bytes : Bytes)
  /-- `closeSocket` begins. -/
  | closeSocket (s : SocketId)
  | notice (s : SocketId)
  /-- `epoll_ctl` fails in `sockStartWrite`. -/
  | epollFails (s : SocketId)

section

variable (T : Inet6Text) (reg : Registry) (maxPacketSize : BitVec 64)

def onPacket (s : SocketId) (k : SocketInfo) (req : Bytes) : List RpcOutput :=
  match packetEvent k.streamType req with
  | .onConnector buf => onPacketOnConnector T reg s k.requestForConnect buf
  | .onAcceptor buf => onPacketOnAcceptor T reg s buf

def received (k : SocketInfo) (bytes : Bytes) : Drained Bytes Byte :=
  (oscarFraming maxPacketSize).drain (k.inBuffer ++ bytes)

def readOutputs (s : SocketId) (k : SocketInfo) (bytes : Bytes) : List RpcOutput :=
  let d := received maxPacketSize k bytes
  d.items.flatMap (onPacket T reg s k) ++
    if d.bad then [.close s "oscar: invalid start byte"] else []

/-- The handler of the notice that `closeSocket` sends. -/
def onNotice (st : RpcState) (s : SocketId) (k : SocketInfo) :
    Except Exn (RpcState × List RpcOutput) :=
  match k.streamType, k.requestForConnect with
  | .connected, some addr =>
    if k.inConnection then onConnectFailed st k.requestForConnect addr
    else onDisconnected st s k.requestForConnect
  | .accepted, _ => .ok (onDisaccepted st s)
  | _, _ => .error (.commonError "invalid case")

/-- One event; `none` if it cannot happen. -/
def step (nd : Node) : Action → Option Node
  | .sendPacket newSocketId addressTo destination e =>
    match nd.socks newSocketId with
    | some _ => none
    | none => some (nd.after (onSendPacket T nd.rpc newSocketId addressTo destination e))
  | .passPacket socketIdTo e => some (nd.after (onPassPacket T nd.rpc socketIdTo e))
  | .accept s =>
    match nd.socks s with
    | some _ => none
    | none => some { nd with socks := update nd.socks s (some acceptedSocket) }
  | .accepted s =>
    match nd.socks s with
    | none => none
    | some k =>
      if k.acceptedDue then
        let socks := update nd.socks s (some { k with acceptedDue := false })
        some (Node.after ⟨nd.rpc, socks⟩ (onAccepted nd.rpc s))
      else none
  | .connected s atOnce =>
    match nd.socks s with
    | none => none
    | some k =>
      if k.streamType == .connected && (atOnce || k.inConnection) then
        let k' := { k with inConnection := atOnce && k.inConnection }
        let socks := update nd.socks s (some k')
        some (Node.afterOrSame ⟨nd.rpc, socks⟩ (onConnected nd.rpc s k.requestForConnect))
      else none
  | .streamRead s bytes =>
    match nd.socks s with
    | none => none
    | some k =>
      if k.isOpen && !k.closing then
        let buffer := (received maxPacketSize k bytes).buffer
        let socks := update nd.socks s (some { k with inBuffer := buffer })
        some (Node.after ⟨nd.rpc, socks⟩ (nd.rpc, readOutputs T reg maxPacketSize s k bytes))
      else none
  | .closeSocket s =>
    match nd.socks s with
    | none => none
    | some k =>
      if k.isOpen && !k.closing then
        some { nd with socks := update nd.socks s (some { k with closing := true }) }
      else none
  | .notice s =>
    match nd.socks s with
    | none => none
    | some k =>
      if k.closing then
        let socks := update nd.socks s
          (some { k with closing := false, isOpen := false })
        some (Node.afterOrSame ⟨nd.rpc, socks⟩ (onNotice nd.rpc s k))
      else none
  | .epollFails s =>
    match nd.socks s with
    | none => none
    | some k => some { nd with socks := update nd.socks s (some k.close) }

inductive Effect (nd : Node) : Action → Node → Prop
  | sendPacket : nd.socks newSocketId = none →
      Effect nd (.sendPacket newSocketId addressTo destination e)
        (nd.after (onSendPacket T nd.rpc newSocketId addressTo destination e))
  | passPacket :
      Effect nd (.passPacket socketIdTo e) (nd.after (onPassPacket T nd.rpc socketIdTo e))
  | accept : nd.socks s = none → Effect nd (.accept s)
      { nd with socks := update nd.socks s (some acceptedSocket) }
  | accepted : nd.socks s = some k → k.acceptedDue = true → Effect nd (.accepted s) (Node.after
        ⟨nd.rpc, update nd.socks s (some { k with acceptedDue := false })⟩
        (onAccepted nd.rpc s))
  | connected : nd.socks s = some k →
      k.streamType = .connected → Effect nd (.connected s atOnce) (Node.afterOrSame
        ⟨nd.rpc, update nd.socks s (some { k with inConnection := atOnce && k.inConnection })⟩
        (onConnected nd.rpc s k.requestForConnect))
  | streamRead : nd.socks s = some k →
      k.isOpen = true → k.closing = false → Effect nd (.streamRead s bytes) (Node.after
        ⟨nd.rpc, update nd.socks s
          (some { k with inBuffer := (received maxPacketSize k bytes).buffer })⟩
        (nd.rpc, readOutputs T reg maxPacketSize s k bytes))
  | closeSocket : nd.socks s = some k → k.isOpen = true →
      k.closing = false → Effect nd (.closeSocket s)
        { nd with socks := update nd.socks s (some { k with closing := true }) }
  | notice : nd.socks s = some k → k.closing = true → Effect nd (.notice s) (Node.afterOrSame
        ⟨nd.rpc, update nd.socks s (some { k with closing := false, isOpen := false })⟩
        (onNotice nd.rpc s k))
  | epollFails : nd.socks s = some k → Effect nd (.epollFails s)
      { nd with socks := update nd.socks s (some k.close) }

variable {T reg maxPacketSize}

theorem step_effect {nd nd' : Node} {act : Action}
    (hs : step T reg maxPacketSize nd act = some nd') : Effect T reg maxPacketSize nd act nd' := by
  cases act with
  | sendPacket newSocketId addressTo destination e =>
    rw [step] at hs
    split at hs
    · cases hs
    · next hnone =>
        cases hs
        exact .sendPacket hnone
  | passPacket socketIdTo e =>
    cases hs
    exact .passPacket
  | accept s =>
    rw [step] at hs
    split at hs
    · cases hs
    · next hnone =>
        cases hs
        exact .accept hnone
  | accepted s =>
    rw [step] at hs
    split at hs
    · cases hs
    · next k hk =>
        split_ifs at hs with hdue
        cases hs
        exact .accepted hk hdue
  | connected s atOnce =>
    rw [step] at hs
    split at hs
    · cases hs
    · next k hk =>
        split_ifs at hs with hcond
        cases hs
        simp only [Bool.and_eq_true, beq_iff_eq] at hcond
        exact .connected hk hcond.1
  | streamRead s bytes =>
    rw [step] at hs
    split at hs
    · cases hs
    · next k hk =>
        split_ifs at hs with hcond
        cases hs
        simp only [Bool.and_eq_true, Bool.not_eq_true'] at hcond
        exact .streamRead hk hcond.1 hcond.2
  | closeSocket s =>
    rw [step] at hs
    split at hs
    · cases hs
    · next k hk =>
        split_ifs at hs with hcond
        cases hs
        simp only [Bool.and_eq_true, Bool.not_eq_true'] at hcond
        exact .closeSocket hk hcond.1 hcond.2
  | notice s =>
    rw [step] at hs
    split at hs
    · cases hs
    · next k hk =>
        split_ifs at hs with hclosing
        cases hs
        exact .notice hk hclosing
  | epollFails s =>
    rw [step] at hs
    split at hs
    · cases hs
    · next k hk =>
        cases hs
        exact .epollFails hk

end

/-! ### Outputs that leave the sockets alone -/

def Quiet : RpcOutput → Prop
  | .connect _ _ | .close _ _ => False
  | _ => True

lemma foldl_perform_of_quiet {outs : List RpcOutput} (h : ∀ o ∈ outs, Quiet o)
    (socks : SocketId → Option SocketInfo) : outs.foldl perform socks = socks := by
  induction outs with
  | nil => rfl
  | cons o outs ih =>
    obtain ⟨ho, hrest⟩ := forall_mem_cons.mp h
    have hperform : perform socks o = socks := by
      cases o with
      | connect | close => exact ho.elim
      | _ => rfl
    rw [foldl_cons, hperform, ih hrest]

lemma quiet_flushed (esi : SocketId) (outCache : List Bytes) :
    ∀ o ∈ flushed esi outCache, Quiet o := by
  intro o ho
  obtain ⟨buf, -, rfl⟩ := mem_map.mp ho
  trivial

lemma quiet_addSendPacket (S : Session) (P : Bytes) : ∀ o ∈ (addSendPacket S P).2, Quiet o := by
  intro o ho
  rw [addSendPacket] at ho
  split at ho
  · cases ho
  · rcases mem_append.mp ho with ho | ho
    · exact quiet_flushed _ _ o ho
    · rw [mem_singleton.mp ho]
      trivial

lemma quiet_notifySubscribers (st : RpcState) (notice : RpcNotice) :
    ∀ o ∈ notifySubscribers st notice, Quiet o := by
  intro o ho
  obtain ⟨route, -, rfl⟩ := mem_map.mp ho
  trivial

lemma quiet_onAccepted (st : RpcState) (esi : SocketId) : ∀ o ∈ (onAccepted st esi).2, Quiet o := by
  intro o ho
  rcases mem_append.mp ho with ho | ho
  · exact quiet_flushed _ _ o ho
  · exact quiet_notifySubscribers _ _ o ho

lemma quiet_connected (st : RpcState) (esi : SocketId) (S : Session) :
    ∀ o ∈ notifySubscribers st (.connected esi) ++ flushed esi S.outCache, Quiet o := by
  intro o ho
  rcases mem_append.mp ho with ho | ho
  · exact quiet_notifySubscribers _ _ o ho
  · exact quiet_flushed _ _ o ho

section

variable {T : Inet6Text} {reg : Registry} {esi : SocketId}

lemma packetBody_quiet {incoming : ServiceId → Event → Except Exn RpcOutput}
    {other : Reader (List RpcOutput)}
    (hincoming : ∀ dst e out, incoming dst e = .ok out → Quiet out)
    (hother : other.Ensures fun outs => ∀ o ∈ outs, Quiet o) :
    (packetBody T reg esi incoming other).Ensures fun outs => ∀ o ∈ outs, Quiet o :=
  packetBody_ensures (Q := fun _ => True) (fun _ _ _ _ _ _ => trivial) (fun _ _ _ _ _ => trivial)
    (fun _ _ _ => trivial) (fun dst e out _ h => hincoming dst e out h) hother

lemma acceptorBody_ensures : (acceptorBody T reg esi).Ensures fun outs => ∀ o ∈ outs, Quiet o := by
  refine packetBody_quiet (fun dst e out h => ?_) (Reader.Ensures.pure (by simp))
  cases h
  trivial

lemma connectorBody_ensures (requestForConnect : Option Msockaddr) :
    (connectorBody T reg esi requestForConnect).Ensures fun outs => ∀ o ∈ outs, Quiet o := by
  refine packetBody_quiet (fun dst e out h => ?_) (Reader.Ensures.fail _)
  cases requestForConnect with
  | none => cases h
  | some addr =>
    cases h
    trivial

variable (T reg) (maxPacketSize : BitVec 64)

def Readable (s : SocketId) (k : SocketInfo) (req : Bytes) : Prop :=
  match packetEvent k.streamType req with
  | .onConnector buf =>
    ∃ outs, (connectorBody T reg s k.requestForConnect (InBuffer.ofBytes buf)).1 = .ok outs
  | .onAcceptor buf => ∃ outs, (acceptorBody T reg s (InBuffer.ofBytes buf)).1 = .ok outs

def Intact (s : SocketId) (k : SocketInfo) (bytes : Bytes) : Prop :=
  (received maxPacketSize k bytes).bad = false ∧
    ∀ req ∈ (received maxPacketSize k bytes).items, Readable T reg s k req

variable {T reg maxPacketSize} {s : SocketId} {k : SocketInfo} {bytes : Bytes}

private lemma closeOnError_quiet {reason : String} {body : Reader (List RpcOutput)} {buf : Bytes}
    (hbody : body.Ensures fun outs => ∀ o ∈ outs, Quiet o)
    (h : ∃ outs, (body (InBuffer.ofBytes buf)).1 = .ok outs) :
    ∀ o ∈ closeOnError esi reason body buf, Quiet o := by
  obtain ⟨outs, houts⟩ := h
  rw [closeOnError, houts]
  exact hbody (InBuffer.ofBytes buf) _ outs (Prod.ext houts rfl)

lemma Readable.quiet {req : Bytes} (h : Readable T reg s k req) :
    ∀ o ∈ onPacket T reg s k req, Quiet o := by
  rw [Readable] at h
  rw [onPacket]
  split at h
  · exact closeOnError_quiet (connectorBody_ensures _) h
  · exact closeOnError_quiet acceptorBody_ensures h

lemma Intact.quiet (h : Intact T reg maxPacketSize s k bytes) :
    ∀ o ∈ readOutputs T reg maxPacketSize s k bytes, Quiet o := by
  intro o ho
  rw [readOutputs, h.1] at ho
  simp only [Bool.false_eq_true, if_false, append_nil, mem_flatMap] at ho
  obtain ⟨req, hreq, ho⟩ := ho
  exact (h.2 req hreq).quiet o ho

end

def SocketInfo.Live (k : SocketInfo) : Prop := k.isOpen = true ∨ k.closing = true

structure SocketInfo.Proper (k : SocketInfo) : Prop where
  connector : k.inConnection = true → k.streamType = .connected
  acceptor : k.acceptedDue = true → k.streamType = .accepted

/-- Every session refers to a live socket of its kind. -/
structure Agrees (nd : Node) : Prop where
  proper : ∀ s k, nd.socks s = some k → k.Proper
  connectors : ∀ a S s, nd.rpc.sa2sess a = some S → S.esi = some s →
    ∃ k, nd.socks s = some k ∧ k.streamType = .connected ∧ k.requestForConnect = some a ∧ k.Live
  acceptors : ∀ s S, nd.rpc.sock2sess s = some S → S.esi = some s ∧
    ∃ k, nd.socks s = some k ∧ k.streamType = .accepted ∧ k.Live

section

variable {nd : Node} {s : SocketId} {k k' : SocketInfo} {a : Msockaddr} {S : Session}

lemma Agrees.setSocket (h : Agrees nd) (hproper : k'.Proper)
    (hconn : ∀ a S, nd.rpc.sa2sess a = some S → S.esi ≠ some s) (hacc : nd.rpc.sock2sess s = none) :
    Agrees { nd with socks := update nd.socks s (some k') } where
  proper := (forall_update_iff nd.socks fun _ o => ∀ k, o = some k → k.Proper).mpr
    ⟨fun k hk => Option.some.inj hk ▸ hproper, fun s' _ => h.proper s'⟩
  connectors a S s' hS hs' := by
    have hne : s' ≠ s := by
      rintro rfl
      exact hconn a S hS hs'
    simpa only [update_of_ne hne] using h.connectors a S s' hS hs'
  acceptors s' S hS := by
    have hne : s' ≠ s := by
      rintro rfl
      simp [hacc] at hS
    simpa only [update_of_ne hne] using h.acceptors s' S hS

lemma Agrees.openSocket (h : Agrees nd) (hnone : nd.socks s = none) (hproper : k'.Proper) :
    Agrees { nd with socks := update nd.socks s (some k') } := by
  refine h.setSocket hproper (fun a S hS hs => ?_) ?_
  · obtain ⟨k, hk, -⟩ := h.connectors a S s hS hs
    simp [hnone] at hk
  · rw [eq_none_iff_forall_ne_some]
    intro S hS
    obtain ⟨-, k, hk, -⟩ := h.acceptors s S hS
    simp [hnone] at hk

lemma Agrees.updateSocket (h : Agrees nd) (hk : nd.socks s = some k) (hproper : k'.Proper)
    (htype : k'.streamType = k.streamType) (hreq : k'.requestForConnect = k.requestForConnect)
    (hlive : k.Live → k'.Live) :
    Agrees { nd with socks := update nd.socks s (some k') } where
  proper := (forall_update_iff nd.socks fun _ o => ∀ k, o = some k → k.Proper).mpr
    ⟨fun k hk => Option.some.inj hk ▸ hproper, fun s' _ => h.proper s'⟩
  connectors a S s' hS hs' := by
    obtain ⟨k₀, hk₀, ht, hr, hl⟩ := h.connectors a S s' hS hs'
    by_cases hss : s' = s
    · subst hss
      cases hk.symm.trans hk₀
      exact ⟨k', by simp, htype.trans ht, hreq.trans hr, hlive hl⟩
    · exact ⟨k₀, by simpa [hss] using hk₀, ht, hr, hl⟩
  acceptors s' S hS := by
    obtain ⟨hesi, k₀, hk₀, ht, hl⟩ := h.acceptors s' S hS
    refine ⟨hesi, ?_⟩
    by_cases hss : s' = s
    · subst hss
      cases hk.symm.trans hk₀
      exact ⟨k', by simp, htype.trans ht, hlive hl⟩
    · exact ⟨k₀, by simpa [hss] using hk₀, ht, hl⟩

lemma Agrees.setConnector (h : Agrees nd) {o : Option Session} {rpc : RpcState}
    (hsa : rpc.sa2sess = update nd.rpc.sa2sess a o)
    (hsock : rpc.sock2sess = nd.rpc.sock2sess)
    (ho : ∀ S s, o = some S → S.esi = some s → ∃ k, nd.socks s = some k ∧
      k.streamType = .connected ∧ k.requestForConnect = some a ∧ k.Live) :
    Agrees ⟨rpc, nd.socks⟩ where
  proper := h.proper
  connectors a' S s hS hs := by
    have hS' : update nd.rpc.sa2sess a o a' = some S := hsa ▸ hS
    by_cases haa : a' = a
    · subst haa
      rw [update_self] at hS'
      exact ho S s hS' hs
    · rw [update_of_ne haa] at hS'
      exact h.connectors a' S s hS' hs
  acceptors s S hS := h.acceptors s S (hsock ▸ hS)

lemma Agrees.setAcceptor (h : Agrees nd) {o : Option Session} {rpc : RpcState}
    (hsa : rpc.sa2sess = nd.rpc.sa2sess)
    (hsock : rpc.sock2sess = update nd.rpc.sock2sess s o)
    (ho : ∀ S, o = some S → S.esi = some s ∧ ∃ k, nd.socks s = some k ∧
      k.streamType = .accepted ∧ k.Live) : Agrees ⟨rpc, nd.socks⟩ where
  proper := h.proper
  connectors a S s hS hs := h.connectors a S s (hsa ▸ hS) hs
  acceptors s' S hS := by
    have hS' : update nd.rpc.sock2sess s o s' = some S := hsock ▸ hS
    by_cases hss : s' = s
    · subst hss
      rw [update_self] at hS'
      exact ho S hS'
    · rw [update_of_ne hss] at hS'
      exact h.acceptors s' S hS'

lemma addSendPacket_esi (S : Session) (P : Bytes) : (addSendPacket S P).1.esi = S.esi := by
  rw [addSendPacket]
  split <;> rfl

variable {T : Inet6Text} {reg : Registry} {maxPacketSize : BitVec 64} {nd' : Node}

lemma Agrees.sendPacket (h : Agrees nd) {sockId : SocketId} (hnone : nd.socks sockId = none)
    (destination : ServiceId) (e : Event) :
    Agrees (nd.after (onSendPacket T nd.rpc sockId a destination e)) := by
  rw [onSendPacket]
  split
  · rename_i S hS
    rw [Node.after, foldl_perform_of_quiet (quiet_addSendPacket _ _)]
    refine h.setConnector rfl rfl fun S' s hS' hs => h.connectors a S s hS ?_
    rw [← Option.some.inj hS', addSendPacket_esi] at hs
    exact hs
  · -- a new session waits for the socket that is made for it
    have hopen : Agrees { nd with
        socks := update nd.socks sockId (some (connecting a)) } :=
      h.openSocket hnone ⟨fun _ => rfl, by simp [connecting]⟩
    refine hopen.setConnector rfl rfl fun S' s hS' hs => ?_
    rw [← Option.some.inj hS', addSendPacket_esi] at hs
    cases hs

lemma Agrees.passPacket (h : Agrees nd) (e : Event) :
    Agrees (nd.after (onPassPacket T nd.rpc s e)) := by
  rw [onPassPacket]
  split
  · rename_i S hS
    rw [Node.after, foldl_perform_of_quiet (quiet_addSendPacket _ _)]
    refine h.setAcceptor rfl rfl fun S' hS' => ?_
    rw [← Option.some.inj hS', addSendPacket_esi]
    exact h.acceptors s S hS
  · exact ⟨h.proper, h.connectors, h.acceptors⟩

lemma Agrees.accepted (h : Agrees nd) (hk : nd.socks s = some k) (htype : k.streamType = .accepted)
    (hlive : k.Live) : Agrees (nd.after (onAccepted nd.rpc s)) := by
  rw [Node.after, foldl_perform_of_quiet (quiet_onAccepted _ _)]
  refine h.setAcceptor rfl rfl fun S hS => ⟨?_, k, hk, htype, hlive⟩
  cases hold : nd.rpc.sock2sess s with
  | none =>
    rw [hold, getD_none] at hS
    rw [← Option.some.inj hS]
  | some S' =>
    rw [hold, getD_some] at hS
    rw [← Option.some.inj hS]
    exact (h.acceptors s S' hold).1

lemma Agrees.connected (h : Agrees nd) (hk : nd.socks s = some k)
    (htype : k.streamType = .connected) (hlive : k.Live) :
    Agrees (nd.afterOrSame (onConnected nd.rpc s k.requestForConnect)) := by
  cases hreq : k.requestForConnect with
  | none => exact h
  | some addr =>
    simp only [onConnected]
    split
    · exact h
    · rw [Node.afterOrSame, Node.after, foldl_perform_of_quiet (quiet_connected _ _ _)]
      refine h.setConnector rfl rfl fun S s' hS hs' => ?_
      rw [← Option.some.inj hS] at hs'
      exact ⟨k, Option.some.inj hs' ▸ hk, htype, hreq, hlive⟩

lemma Agrees.notice (h : Agrees nd) (hk : nd.socks s = some k) (hproper : k'.Proper) :
    Agrees (Node.afterOrSame ⟨nd.rpc, update nd.socks s (some k')⟩ (onNotice nd.rpc s k)) := by
  -- which session refers to the socket
  have hconn {a : Msockaddr} {S : Session} (hS : nd.rpc.sa2sess a = some S) (hs : S.esi = some s) :
      k.streamType = .connected ∧ k.requestForConnect = some a := by
    obtain ⟨k₀, hk₀, ht, hr, -⟩ := h.connectors a S s hS hs
    cases hk.symm.trans hk₀
    exact ⟨ht, hr⟩
  have hacc {S : Session} (hS : nd.rpc.sock2sess s = some S) : k.streamType = .accepted := by
    obtain ⟨-, k₀, hk₀, ht, -⟩ := h.acceptors s S hS
    cases hk.symm.trans hk₀
    exact ht
  have hnoAcc (ht : k.streamType ≠ .accepted) : nd.rpc.sock2sess s = none :=
    eq_none_iff_forall_ne_some.mpr fun S hS => ht (hacc hS)
  -- after the entry of the address has been erased
  have herase {addr : Msockaddr} {notice : RpcNotice} (ht : k.streamType = .connected)
      (hr : k.requestForConnect = some addr) :
      Agrees (Node.after ⟨nd.rpc, update nd.socks s (some k')⟩
        ({ nd.rpc with sa2sess := update nd.rpc.sa2sess addr none },
          notifySubscribers nd.rpc notice)) := by
    have hnd : Agrees ⟨{ nd.rpc with sa2sess := update nd.rpc.sa2sess addr none },
        nd.socks⟩ := h.setConnector rfl rfl (by simp)
    rw [Node.after, foldl_perform_of_quiet (quiet_notifySubscribers _ _)]
    refine hnd.setSocket hproper (fun a S hS hs => ?_) (hnoAcc (by simp [ht]))
    by_cases haa : a = addr
    · simp [haa] at hS
    · have hS' : nd.rpc.sa2sess a = some S := by simpa [haa] using hS
      exact haa (Option.some.inj ((hconn hS' hs).2.symm.trans hr))
  rw [onNotice]
  split
  · rename_i addr ht hr
    rw [hr]
    split_ifs
    · exact herase ht hr
    · exact herase ht hr
  · rename_i ht
    have hnd : Agrees ⟨{ nd.rpc with sock2sess := update nd.rpc.sock2sess s none },
        nd.socks⟩ := h.setAcceptor rfl rfl (by simp)
    rw [Node.afterOrSame, Node.after, onDisaccepted,
      foldl_perform_of_quiet (quiet_notifySubscribers _ _)]
    refine hnd.setSocket hproper (fun a S hS hs => ?_) (by simp)
    have := (hconn hS hs).1
    simp [ht] at this
  · rename_i hnoAcc' hnoConn
    refine h.setSocket hproper (fun a S hS hs => ?_) (hnoAcc ?_)
    · exact hnoConn a (hconn hS hs).1 (hconn hS hs).2
    · exact hnoAcc'

variable (T reg maxPacketSize)

/-- What a socket is connected to is ordered among the keys of `sa2sess`. -/
def OrderedPeer (nd : Node) (k : SocketInfo) : Prop :=
  ∀ a, k.requestForConnect = some a → a.OrderedIn nd.rpc.sa2sess

/-- No socket is closed without a notice, none is listed after it was closed, and the table of
addresses is asked for ordered ones only. -/
def Calm (nd : Node) : Action → Prop
  | .sendPacket _ addressTo _ _ => addressTo.OrderedIn nd.rpc.sa2sess
  | .streamRead s bytes => ∀ k, nd.socks s = some k → Intact T reg maxPacketSize s k bytes
  | .accepted s => ∀ k, nd.socks s = some k → k.isOpen = true
  | .connected s _ => ∀ k, nd.socks s = some k → k.isOpen = true ∧ OrderedPeer nd k
  | .notice s => ∀ k, nd.socks s = some k → OrderedPeer nd k
  | .epollFails _ => False
  | _ => True

variable {T reg maxPacketSize}

theorem Agrees.step {act : Action} (h : Agrees nd) (hcalm : Calm T reg maxPacketSize nd act)
    (hs : step T reg maxPacketSize nd act = some nd') : Agrees nd' := by
  cases step_effect hs with
  | @sendPacket newSocketId addressTo destination e hnone => exact h.sendPacket hnone destination e
  | @passPacket socketIdTo e => exact h.passPacket e
  | accept hnone => exact h.openSocket hnone ⟨by simp [acceptedSocket], fun _ => rfl⟩
  | @accepted s k hk hdue =>
    have hproper := h.proper s k hk
    have hlive : k.Live := .inl (hcalm k hk)
    have h₁ : Agrees { nd with
        socks := update nd.socks s (some { k with acceptedDue := false }) } :=
      h.updateSocket hk ⟨hproper.connector, by simp⟩ rfl rfl id
    exact h₁.accepted (update_self ..) (hproper.acceptor hdue) hlive
  | @connected s k atOnce hk htype =>
    have hproper := h.proper s k hk
    have h₁ : Agrees { nd with
        socks := update nd.socks s (some { k with inConnection := atOnce && k.inConnection }) } :=
      h.updateSocket hk ⟨fun _ => htype, hproper.acceptor⟩ rfl rfl id
    exact h₁.connected (k := { k with inConnection := atOnce && k.inConnection }) (update_self ..)
      htype (.inl (hcalm k hk).1)
  | @streamRead s k bytes hk hopen hclosing =>
    have hproper := h.proper s k hk
    rw [Node.after, foldl_perform_of_quiet (hcalm k hk).quiet]
    exact h.updateSocket hk ⟨hproper.connector, hproper.acceptor⟩ rfl rfl id
  | @closeSocket s k hk hopen hclosing =>
    have hproper := h.proper s k hk
    exact h.updateSocket hk ⟨hproper.connector, hproper.acceptor⟩ rfl rfl fun _ => .inr rfl
  | @notice s k hk hclosing =>
    have hproper := h.proper s k hk
    exact h.notice hk ⟨hproper.connector, hproper.acceptor⟩
  | epollFails => exact hcalm.elim

end

def Node.Live (nd : Node) (s : SocketId) : Prop := ∃ k, nd.socks s = some k ∧ k.Live

end Megatron.Sockets
