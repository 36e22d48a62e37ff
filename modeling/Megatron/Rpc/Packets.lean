import Megatron.Rpc.Service

/-!
What becomes of a packet that the RPC service receives (`on_PacketOnAcceptor` and
`on_PacketOnConnector` of `modules/rpc/rpcService.cpp`, `sendEvent` and `forwardEvent` of
`main/CInstance.cpp`).
-/

namespace Megatron

open Library Reader.Ensures Reader

/-- The services of an instance. -/
structure Directory where
  /-- `services.container`, without null pointers. -/
  services : ServiceId → Option Bool
  initService : ServiceId → Except Exn (Option Bool)

namespace Directory

/-- The `try` block of `forwardEvent`. -/
def deliver (d : Directory) (svs : ServiceId) : Except Exn Unit := do
  let u ← match d.services svs with
    | some u => .ok (some u)
    | none => d.initService svs
  match u with
  | none => .error (.commonError "Service '' not registered")
  | some false => .error (.commonError "if(!l)")
  | some true => .ok ()

/-- `forwardEvent`: whether the event is handed to a service. -/
def forwardEvent (d : Directory) (svs : ServiceId) : Bool :=
  match d.deliver svs with
  | .ok _ => true
  | .error _ => false

end Directory

def RpcOutput.destination? : RpcOutput → Option ServiceId
  | .incomingOnAcceptor dst _ _ => some dst
  | .incomingOnConnector dst _ _ _ => some dst
  | .sendPacket .. | .connect .. | .notify .. | .close .. => none

def effects (d : Directory) (outs : List RpcOutput) : List RpcOutput :=
  outs.filter fun o => match o.destination? with
    | some dst => d.forwardEvent dst
    | none => true

inductive PacketSocket where
  | acceptor
  | connector (requestForConnect : Option Msockaddr)
  deriving DecidableEq, Repr

namespace PacketSocket

def onPacket (T : Inet6Text) (reg : Registry) (esi : SocketId) : PacketSocket → Bytes →
    List RpcOutput
  | .acceptor => onPacketOnAcceptor T reg esi
  | .connector requestForConnect => onPacketOnConnector T reg esi requestForConnect

def canDispatch : PacketSocket → Bool
  | .acceptor => true
  | .connector requestForConnect => requestForConnect.isSome

def Dispatched (esi : SocketId) (os : List RpcOutput) : PacketSocket → Prop
  | .acceptor => ∃ dst e, os = [.incomingOnAcceptor dst esi e]
  | .connector requestForConnect =>
    ∃ dst addr e, requestForConnect = some addr ∧ os = [.incomingOnConnector dst esi addr e]

end PacketSocket

def ClosedOnly (esi : SocketId) (os : List RpcOutput) : Prop := ∃ reason, os = [.close esi reason]

/-! ### The forms of a packet -/

inductive PacketForm where
  /-- An event for a service. -/
  | addressed (dst : ServiceId)
  /-- The direction is neither `'p'` nor `'s'`. -/
  | unknownDirection
  | broken
  deriving DecidableEq, Repr

section

variable (T : Inet6Text) (reg : Registry)

def passedForm (b : InBuffer) : PacketForm :=
  match (unpackEvent T reg b).1 with
  | .ok (some e) =>
    match e.route.getLast? with
    | some (.localService id) => .addressed id
    | _ => .broken
  | _ => .broken

def sentForm (b : InBuffer) : PacketForm :=
  match getInt 32 b with
  | (.ok dst, b') =>
    match (unpackEvent T reg b').1 with
    | .ok (some _) => .addressed dst
    | _ => .broken
  | _ => .broken

def packetForm (buf : Bytes) : PacketForm :=
  match getInt 32 (InBuffer.ofBytes buf) with
  | (.ok direction, b) =>
    if direction = 0x70#32 then passedForm T reg b
    else if direction = 0x73#32 then sentForm T reg b
    else .unknownDirection
  | _ => .broken

variable {T reg}

lemma unpackEvent_isSome (hrun : reg.isTerminating = false) :
    (unpackEvent T reg).Ensures fun o => o.isSome = true := by
  rw [unpackEvent, hrun]
  refine skip fun id => skip fun r => ?_
  cases reg.constructor? id with
  | none => exact fail _
  | some c => exact skip fun body => pure rfl

lemma unpackEvent_cases (hrun : reg.isTerminating = false) (b : InBuffer) :
    (∃ e b', unpackEvent T reg b = (.ok (some e), b')) ∨
      ∃ x b', unpackEvent T reg b = (.error x, b') := by
  rcases h : unpackEvent T reg b with ⟨x | o, b'⟩
  · exact .inr ⟨x, b', rfl⟩
  · obtain ⟨e, rfl⟩ := Option.isSome_iff_exists.mp (unpackEvent_isSome hrun b b' o h)
    exact .inl ⟨e, b', rfl⟩

end

section

variable {T : Inet6Text} {reg : Registry} {esi : SocketId}
  {incoming : ServiceId → Event → Except Exn RpcOutput} {other : Reader (List RpcOutput)}

def BodyDoes (incoming : ServiceId → Event → Except Exn RpcOutput)
    (other : Reader (List RpcOutput)) (r : Except Exn (List RpcOutput)) : PacketForm → Prop
  | .addressed dst => ∃ e, r = (incoming dst e).map fun out => [out]
  | .unknownDirection => ∃ b, r = (other b).1
  | .broken => ∃ x, r = .error x

variable {body : Reader (List RpcOutput)} {buf : Bytes} {dst : ServiceId} {outs : List RpcOutput}
variable {r : Except Exn RpcOutput} {reason : String} (requestForConnect : Option Msockaddr)

lemma bodyDoes_incoming {e : Event} {b : InBuffer} (h : incoming dst e = r) :
    BodyDoes incoming other ((match r with
        | .ok out => (pure [out] : Reader (List RpcOutput))
        | .error x => fail x) b).1 (.addressed dst) := by
  refine ⟨e, ?_⟩
  rw [h]
  cases r <;> rfl

/-- **What the common body does with a packet.** -/
lemma packetBody_form (hrun : reg.isTerminating = false) (buf : Bytes) :
    BodyDoes incoming other (packetBody T reg esi incoming other (InBuffer.ofBytes buf)).1
      (packetForm T reg buf) := by
  rw [packetBody, packetForm]
  rcases hdir : getInt 32 (InBuffer.ofBytes buf) with ⟨x | direction, b⟩
  · rw [bind_of_error hdir]
    exact ⟨x, rfl⟩
  rw [bind_of_ok hdir]
  by_cases hp : direction = 0x70#32
  · simp only [if_pos hp, passedForm]
    rcases @unpackEvent_cases T reg hrun b with ⟨e, b', he⟩ | ⟨x, b', he⟩
    · rw [bind_of_ok he, he]
      simp only [RouteT.popBack]
      rcases hlast : e.route.getLast? with - | hop
      · exact ⟨_, rfl⟩
      · cases hop with
        | localService id => exact bodyDoes_incoming rfl
        | remoteAddr addr | objectHandlerPolled addr | socketRoute id
        | objectHandlerThreaded addr | thread id | listener id => exact ⟨_, rfl⟩
    · rw [bind_of_error he, he]
      exact ⟨x, rfl⟩
  · by_cases hs : direction = 0x73#32
    · simp only [if_neg hp, if_pos hs, sentForm]
      rcases hdst : getInt 32 b with ⟨x | dst, b₁⟩
      · rw [bind_of_error hdst]
        exact ⟨x, rfl⟩
      rw [bind_of_ok hdst]
      rcases @unpackEvent_cases T reg hrun b₁ with ⟨e, b', he⟩ | ⟨x, b', he⟩
      · simp only [bind_of_ok he, he]
        exact bodyDoes_incoming rfl
      · rw [bind_of_error he]
        simp only [he]
        exact ⟨x, rfl⟩
    · simp only [if_neg hp, if_neg hs]
      exact ⟨b, rfl⟩

lemma closeOnError_ok (h : (body (InBuffer.ofBytes buf)).1 = .ok outs) :
    closeOnError esi reason body buf = outs := by
  rw [closeOnError, h]

lemma closeOnError_error {x : Exn} (h : (body (InBuffer.ofBytes buf)).1 = .error x) :
    ClosedOnly esi (closeOnError esi reason body buf) := by
  rw [closeOnError, h]
  exact ⟨reason, rfl⟩

variable (esi)

section

variable (hrun : reg.isTerminating = false)
include hrun

lemma acceptorBody_form (buf : Bytes) :
    BodyDoes (fun dst e => .ok (.incomingOnAcceptor dst esi e)) (pure [])
      (acceptorBody T reg esi (InBuffer.ofBytes buf)).1 (packetForm T reg buf) :=
  packetBody_form hrun buf

lemma connectorBody_form (buf : Bytes) : BodyDoes (incomingFromConnector esi requestForConnect)
      (Reader.fail (.commonError "invalid direction"))
      (connectorBody T reg esi requestForConnect (InBuffer.ofBytes buf)).1 (packetForm T reg buf) :=
  packetBody_form hrun buf

lemma onPacket_addressed (kind : PacketSocket) (h : packetForm T reg buf = .addressed dst) :
    (kind.canDispatch = true ∧ ∃ out,
    kind.onPacket T reg esi buf = [out] ∧ out.destination? = some dst ∧ kind.Dispatched esi [out]) ∨
    kind.canDispatch = false ∧ ClosedOnly esi (kind.onPacket T reg esi buf) := by
  cases kind with
  | acceptor =>
    obtain ⟨e, hbody⟩ := h ▸ acceptorBody_form esi hrun buf
    exact .inl ⟨rfl, _, closeOnError_ok hbody, rfl, _, _, rfl⟩
  | connector requestForConnect =>
    obtain ⟨e, hbody⟩ := h ▸ connectorBody_form esi requestForConnect hrun buf
    cases requestForConnect with
    | none => exact .inr ⟨rfl, closeOnError_error hbody⟩
    | some addr => exact .inl ⟨rfl, _, closeOnError_ok hbody, rfl, _, addr, _, rfl, rfl⟩

lemma onPacket_unknownDirection (h : packetForm T reg buf = .unknownDirection) :
    onPacketOnAcceptor T reg esi buf = [] ∧
    ∀ requestForConnect, ClosedOnly esi (onPacketOnConnector T reg esi requestForConnect buf) := by
  constructor
  · obtain ⟨b, hbody⟩ := h ▸ acceptorBody_form esi hrun buf
    exact closeOnError_ok hbody
  · intro requestForConnect
    obtain ⟨b, hbody⟩ := h ▸ connectorBody_form esi requestForConnect hrun buf
    exact closeOnError_error hbody

lemma onPacket_broken (kind : PacketSocket) (h : packetForm T reg buf = .broken) :
    ClosedOnly esi (kind.onPacket T reg esi buf) := by
  cases kind with
  | acceptor =>
    obtain ⟨x, hbody⟩ := h ▸ acceptorBody_form esi hrun buf
    exact closeOnError_error hbody
  | connector requestForConnect =>
    obtain ⟨x, hbody⟩ := h ▸ connectorBody_form esi requestForConnect hrun buf
    exact closeOnError_error hbody

end

end

lemma ClosedOnly.effects {esi : SocketId} {os : List RpcOutput} (h : ClosedOnly esi os)
    (d : Directory) : ClosedOnly esi (Megatron.effects d os) := by
  obtain ⟨reason, rfl⟩ := h
  exact ⟨reason, rfl⟩

lemma effects_singleton {d : Directory} {out : RpcOutput} {dst : ServiceId}
    (h : out.destination? = some dst) :
    effects d [out] = if d.forwardEvent dst then [out] else [] := by
  rw [effects, List.filter_singleton, h]
  show (bif d.forwardEvent dst then [out] else []) = _
  cases d.forwardEvent dst with
  | true | false => rfl

lemma not_one_effect_nil (kind : PacketSocket) (esi : SocketId) :
    ¬ (kind.Dispatched esi [] ∨ ClosedOnly esi []) := by
  rintro (h | ⟨reason, h⟩)
  · cases kind with
    | acceptor =>
      obtain ⟨dst, e, h⟩ := h
      cases h
    | connector requestForConnect =>
      obtain ⟨dst, addr, e, -, h⟩ := h
      cases h
  · cases h

/-- The packet is dispatched, or the socket is closed. -/
def OneEffect (T : Inet6Text) (reg : Registry) (d : Directory) (esi : SocketId)
    (kind : PacketSocket) (buf : Bytes) : Prop :=
  (kind.Dispatched esi (effects d (kind.onPacket T reg esi buf)) ∨
    ClosedOnly esi (effects d (kind.onPacket T reg esi buf))) ∧
  ((∀ dst, packetForm T reg buf ≠ .addressed dst) →
    ClosedOnly esi (effects d (kind.onPacket T reg esi buf)))

/-- **When a packet has exactly one effect**: `'p'` or `'s'`, for a service that can be found. -/
theorem packet_one_effect_iff (T : Inet6Text) (reg : Registry) (hrun : reg.isTerminating = false)
    (d : Directory) (esi : SocketId) (kind : PacketSocket) (buf : Bytes) :
    OneEffect T reg d esi kind buf ↔ (kind = .acceptor → packetForm T reg buf ≠ .unknownDirection) ∧
        ∀ dst, packetForm T reg buf = .addressed dst → kind.canDispatch = true →
          d.forwardEvent dst = true := by
  cases hform : packetForm T reg buf with
  | addressed dst =>
    have hmalformed : ¬ ∀ dst', PacketForm.addressed dst ≠ .addressed dst' := fun h => h dst rfl
    rcases onPacket_addressed esi hrun kind hform with
      ⟨hcan, out, hout, hdst, hdispatched⟩ | ⟨hcan, hclosed⟩
    · rw [OneEffect, hform, hout, effects_singleton hdst]
      cases hforward : d.forwardEvent dst with
      | true =>
        refine iff_of_true ⟨.inl hdispatched, fun h => absurd h hmalformed⟩ ⟨?_, ?_⟩
        · rintro - ⟨⟩
        · rintro dst' ⟨⟩ -
          exact hforward
      | false =>
        refine iff_of_false (fun h => not_one_effect_nil kind esi h.1) fun h => ?_
        have htrue := h.2 dst rfl hcan
        rw [hforward] at htrue
        cases htrue
    · rw [OneEffect, hform]
      refine iff_of_true ⟨.inr (hclosed.effects d), fun _ => hclosed.effects d⟩ ⟨?_, ?_⟩
      · rintro - ⟨⟩
      · intro dst' _ htrue
        rw [hcan] at htrue
        cases htrue
  | unknownDirection =>
    obtain ⟨hacceptor, hconnector⟩ := onPacket_unknownDirection esi hrun hform
    have hnone : ∀ dst, PacketForm.unknownDirection = .addressed dst →
        kind.canDispatch = true → d.forwardEvent dst = true := by
      rintro dst ⟨⟩
    rw [OneEffect, hform]
    cases kind with
    | acceptor =>
      refine iff_of_false (fun h => ?_) fun h => h.1 rfl rfl
      rw [PacketSocket.onPacket, hacceptor] at h
      exact not_one_effect_nil .acceptor esi h.1
    | connector requestForConnect =>
      have hclosed := (hconnector requestForConnect).effects d
      refine iff_of_true ⟨.inr hclosed, fun _ => hclosed⟩ ⟨?_, hnone⟩
      rintro ⟨⟩
  | broken =>
    have hclosed := (onPacket_broken esi hrun kind hform).effects d
    rw [OneEffect, hform]
    refine iff_of_true ⟨.inr hclosed, fun _ => hclosed⟩ ⟨?_, ?_⟩
    · rintro - ⟨⟩
    · rintro dst ⟨⟩

/-! ### Packets that are sent -/

lemma packetForm_sentPacket {T : Inet6Text} {reg : Registry} {dst : ServiceId} {e : Event}
    (h : e.Sendable reg) : packetForm T reg (sentPacket T dst e) = .addressed dst := by
  have hsent : onPacketOnAcceptor T reg 0#64 (sentPacket T dst e) = [.incomingOnAcceptor dst 0#64
        ⟨(e.route.pushBack (.remoteAddr 0#64)).pushBack (.localService dst), e.body⟩] :=
    onPacketOnAcceptor_send h
  cases hform : packetForm T reg (sentPacket T dst e) with
  | addressed dst' =>
    rcases onPacket_addressed 0#64 h.running .acceptor hform with
      ⟨-, out, hout, hdst, -⟩ | ⟨hcan, -⟩
    · obtain ⟨rfl, -⟩ := List.cons.inj (hsent.symm.trans hout)
      cases hdst
      rfl
    · cases hcan
  | unknownDirection =>
    rw [(onPacket_unknownDirection 0#64 h.running hform).1] at hsent
    cases hsent
  | broken =>
    obtain ⟨reason, hclosed⟩ := onPacket_broken 0#64 h.running .acceptor hform
    cases hsent.symm.trans hclosed

def requestForFive : Bytes := sentPacket hexText 5#32 ⟨[], .getBindPortsREQ⟩

lemma packetForm_requestForFive :
    packetForm hexText fullRegistry requestForFive = .addressed 5#32 :=
  packetForm_sentPacket {
    running := rfl
    wellFormed := ⟨⟨by simp, by simp⟩, trivial⟩
    registered := EventClass.mem_all _
    entries := by norm_num [EventBody.entries] }

theorem request_one_effect :
    OneEffect hexText fullRegistry ⟨fun _ => some true, fun _ => .ok none⟩ 0#64 .acceptor
      requestForFive := by
  refine (packet_one_effect_iff hexText fullRegistry rfl ⟨fun _ => some true, fun _ => .ok none⟩
    0#64 .acceptor requestForFive).mpr ⟨fun _ => ?_, fun dst _ _ => rfl⟩
  rw [packetForm_requestForFive]
  rintro ⟨⟩

/-- **The direction `'x'` has no effect.** -/
theorem packets_without_effect : onPacketOnAcceptor hexText fullRegistry 0#64 [0x78#8] = [] ∧
      onPacketOnConnector hexText fullRegistry 0#64 none [0x78#8] =
        [.close 0#64 "broken packet int RPC"] ∧ ∀ kind : PacketSocket, kind.canDispatch = true →
        effects ⟨fun _ => none, fun _ => .ok none⟩
          (kind.onPacket hexText fullRegistry 0#64 requestForFive) = [] := by
  refine ⟨by decide, by decide, fun kind hcan => ?_⟩
  rcases onPacket_addressed 0#64 rfl kind packetForm_requestForFive with
    ⟨-, out, hout, hdst, -⟩ | ⟨hnot, -⟩
  · rw [hout, effects_singleton hdst]
    rfl
  · rw [hcan] at hnot
    cases hnot

end Megatron
