import Megatron.Rpc.Service

/-!
Events travelling between nodes: `passEvent` and `sendEvent` of `main/CInstance.cpp`, the RPC
services of the nodes, and the connections between them. One hop outwards (`sendEventAt_live`) and
one hop back (`passEventAt_live`) give the whole way (`reply_retraces_route`).
-/

namespace Megatron

open Library List Option RouteT

def objectProxyPolled : ServiceId := ghash "@g_ObjectProxyPolled"

def objectProxyThreaded : ServiceId := ghash "@g_ObjectProxyThreaded"

/-- Where `passEvent` hands an event on to. -/
inductive Dispatch where
  /-- `forwardEvent` to a local service. -/
  | service (svs : ServiceId) (e : Event)
  /-- `listenToEvent` of a listener. -/
  | listener (id : BitVec 64) (e : Event)
  /-- `forwardEvent` of `rpcEvent::PassPacket` to the RPC service. -/
  | passPacket (socketIdTo : SocketId) (e : Event)
  deriving DecidableEq, Repr

def passEvent (terminating : Bool) (e : Event) : Except Exn (Option Dispatch) :=
  if terminating then .ok none
  else
    match e.route.popBack with
    | .error x => .error x
    | .ok (.localService id, route) => .ok (some (.service id ⟨route, e.body⟩))
    | .ok (.listener id, route) => .ok (some (.listener id ⟨route, e.body⟩))
    | .ok (.objectHandlerPolled _, _) => .ok (some (.service objectProxyPolled e))
    | .ok (.objectHandlerThreaded _, _) => .ok (some (.service objectProxyThreaded e))
    | .ok (.remoteAddr addr, route) => .ok (some (.passPacket addr ⟨route, e.body⟩))
    | .ok (r, _) =>
      .error (.commonError ("passEvent: invalid route type " ++ toString r.type.toNat))

/-! ### Nodes and connections -/

section

variable {ν : Type}

inductive SocketEnd (ν : Type) where
  | acceptor (node : ν) (esi : SocketId)
  | connector (node : ν) (esi : SocketId) (requestForConnect : Msockaddr)

structure Network (ν : Type) where
  text : Inet6Text
  addr : ν → Msockaddr
  registry : ν → Registry
  terminating : ν → Bool
  newSocketId : ν → SocketId
  rpc : ν → RpcState
  peer : ν → SocketId → Option (SocketEnd ν)

inductive ArrivalKind where
  | direct
  | onConnector
  | onAcceptor
  deriving DecidableEq, Repr

structure Arrival (ν : Type) where
  node : ν
  service : ServiceId
  kind : ArrivalKind
  event : Event

def Arrival.place (a : Arrival ν) : ν × ServiceId := (a.node, a.service)

namespace Network

def arrivalsAt (net : Network ν) (node : ν) (outs : List RpcOutput) : List (Arrival ν) :=
  if net.terminating node then []
  else
    outs.filterMap fun
      | .incomingOnAcceptor dst _ e => some ⟨node, dst, .onAcceptor, e⟩
      | .incomingOnConnector dst _ _ e => some ⟨node, dst, .onConnector, e⟩
      | _ => none

def transmit (net : Network ν) (node : ν) (esi : SocketId) (buf : Bytes) : List (Arrival ν) :=
  match net.peer node esi with
  | none => []
  | some (.acceptor other esi') =>
    net.arrivalsAt other (onPacketOnAcceptor net.text (net.registry other) esi' buf)
  | some (.connector other esi' requestForConnect) =>
    net.arrivalsAt other (onPacketOnConnector net.text (net.registry other) esi'
      (some requestForConnect) buf)

def transmitAll (net : Network ν) (node : ν) (outs : List RpcOutput) : List (Arrival ν) :=
  outs.flatMap fun
    | .sendPacket esi buf => net.transmit node esi buf
    | _ => []

variable [DecidableEq ν]

def afterHandler (net : Network ν) (node : ν) (r : RpcState × List RpcOutput) :
    Option (Network ν × Arrival ν) :=
  let net' := { net with rpc := Function.update net.rpc node r.1 }
  match net'.transmitAll node r.2 with
  | [a] => some (net', a)
  | _ => none

/-- `sendEvent(addr, svs, e)` on a node. -/
def sendEventAt (net : Network ν) (node : ν) (addr : Msockaddr) (svs : ServiceId)
    (e : Event) : Option (Network ν × Arrival ν) :=
  if net.terminating node then none
  else net.afterHandler node
    (onSendPacket net.text (net.rpc node) (net.newSocketId node) addr svs e)

/-- `passEvent(e)` on a node. -/
def passEventAt (net : Network ν) (node : ν) (e : Event) : Option (Network ν × Arrival ν) :=
  match passEvent (net.terminating node) e with
  | .ok (some (.passPacket socketIdTo e)) =>
    net.afterHandler node (onPassPacket net.text (net.rpc node) socketIdTo e)
  | .ok (some (.service svs e)) => some (net, ⟨node, svs, .direct, e⟩)
  | _ => none

end Network

inductive ServiceStep (ν : Type) where
  | forward (target : ν) (service : ServiceId) (body : EventBody)
  | answer (body : EventBody)
  /-- Pass an event with the route of the received one. -/
  | reply (body : EventBody)

variable [DecidableEq ν]

def act (net : Network ν) (a : Arrival ν) : ServiceStep ν → Option (Network ν × Arrival ν)
  | .forward target service body =>
    net.sendEventAt a.node (net.addr target) service ⟨a.event.route, body⟩
  | .answer body =>
    match poppedFrontRoute a.event.route with
    | .ok route => net.passEventAt a.node ⟨route, body⟩
    | .error _ => none
  | .reply body => net.passEventAt a.node ⟨a.event.route, body⟩

def converse (net : Network ν) (a : Arrival ν) :
    List (ServiceStep ν) → Option (Network ν × List (Arrival ν))
  | [] => some (net, [])
  | s :: ss => do
      let r ← act net a s
      let rest ← converse r.1 r.2 ss
      some (rest.1, r.2 :: rest.2)

/-! ### One hop -/

structure Network.Live (net : Network ν) (a b : ν) (s : SocketId) : Prop where
  connected : ∃ sid c, (net.rpc a).sa2sess (net.addr b) = some ⟨sid, some c, []⟩ ∧
    net.peer a c = some (.acceptor b s) ∧ net.peer b s = some (.connector a c (net.addr b))
  accepted : (net.rpc b).sock2sess s = some ⟨s, some s, []⟩

structure Network.Carries (net : Network ν) (n : ν) (body : EventBody) : Prop where
  running : net.terminating n = false
  unpacking : (net.registry n).isTerminating = false
  wellFormed : body.WellFormed
  registered : body.cls ∈ (net.registry n).eventConstructors
  entries : body.entries < 2 ^ 32

omit [DecidableEq ν] in
lemma Network.Carries.sendable {net : Network ν} {n : ν} {body : EventBody} (h : net.Carries n body)
    {route : RouteT} (hr : route.Packable) : (Event.mk route body).Sendable (net.registry n) :=
  ⟨h.unpacking, ⟨hr, h.wellFormed⟩, h.registered, h.entries⟩

private lemma addSendPacket_live (sid c : SocketId) (P : Bytes) :
    addSendPacket ⟨sid, some c, []⟩ P = (⟨sid, some c, []⟩, [.sendPacket c P]) := rfl

private lemma afterHandler_eq {net : Network ν} {node : ν} {st : RpcState} {c : SocketId}
    {P : Bytes} {a : Arrival ν} (hst : st = net.rpc node) (ht : net.transmit node c P = [a]) :
    net.afterHandler node (st, [.sendPacket c P]) = some (net, a) := by
  have hnet : { net with rpc := Function.update net.rpc node st } = net := by
    rw [hst, Function.update_eq_self]
  rw [Network.afterHandler]
  simp only [hnet, Network.transmitAll, flatMap_cons, flatMap_nil, append_nil, ht]

def hopOut (route : RouteT) (s : SocketId) (dst : ServiceId) : RouteT :=
  (route.pushBack (.remoteAddr s)).pushBack (.localService dst)

/-- **One hop outwards.** -/
lemma sendEventAt_live {net : Network ν} {a b : ν} {s : SocketId} {dst : ServiceId}
    {route : RouteT} {body : EventBody} (hl : net.Live a b s) (ha : net.terminating a = false)
    (hc : net.Carries b body) (hr : route.Packable) :
    net.sendEventAt a (net.addr b) dst ⟨route, body⟩
      = some (net, ⟨b, dst, .onAcceptor, ⟨hopOut route s dst, body⟩⟩) := by
  obtain ⟨sid, c, hsess, hpeer, -⟩ := hl.connected
  rw [Network.sendEventAt, ha, onSendPacket, hsess]
  simp only [addSendPacket_live]
  refine afterHandler_eq ?_ ?_
  · rw [← hsess, Function.update_eq_self]
  · rw [Network.transmit, hpeer]
    simp only [onPacketOnAcceptor_send (hc.sendable hr)]
    rw [Network.arrivalsAt, hc.running]
    rfl

/-- **One hop back.** -/
lemma passEventAt_live {net : Network ν} {a b : ν} {s : SocketId} {dst : ServiceId}
    {route : RouteT} {body : EventBody} (hl : net.Live a b s) (hb : net.terminating b = false)
    (hc : net.Carries a body) (hr : (route.pushBack (.localService dst)).Packable) :
    net.passEventAt b ⟨(route.pushBack (.localService dst)).pushBack (.remoteAddr s), body⟩
      = some (net, ⟨a, dst, .onConnector, ⟨route, body⟩⟩) := by
  obtain ⟨sid, c, -, -, hpeer⟩ := hl.connected
  rw [Network.passEventAt, hb, passEvent]
  simp only [popBack_pushBack, Bool.false_eq_true, if_false]
  rw [onPassPacket, hl.accepted]
  simp only [addSendPacket_live]
  refine afterHandler_eq ?_ ?_
  · rw [← hl.accepted, Function.update_eq_self]
  · rw [Network.transmit, hpeer]
    simp only [onPacketOnConnector_pass (hc.sendable hr)]
    rw [Network.arrivalsAt, hc.running]
    rfl

/-! ### A chain of nodes -/

structure Stop (ν : Type) where
  node : ν
  service : ServiceId
  accepted : SocketId
  request : EventBody
  reply : EventBody

def Stop.place (s : Stop ν) : ν × ServiceId := (s.node, s.service)

def Network.Chain (net : Network ν) : ν → List (Stop ν) → Prop
  | _, [] => True
  | n, s :: ss =>
    net.Live n s.node s.accepted ∧ net.Carries s.node s.request ∧ net.Carries n s.reply ∧
      net.Chain s.node ss

/-- The last node of a chain that starts at `n`. -/
def lastNode (n : ν) (stops : List (Stop ν)) : ν := (stops.getLast?.map Stop.node).getD n

/-- The last service of a chain that starts at `X`. -/
def lastService (X : ServiceId) (stops : List (Stop ν)) : ServiceId :=
  (stops.getLast?.map Stop.service).getD X

def outRoute (route : RouteT) (stops : List (Stop ν)) : RouteT :=
  stops.foldl (fun route s => hopOut route s.accepted s.service) route

section

omit [DecidableEq ν]

variable {n : ν} {X : ServiceId} {net : Network ν}

@[simp] lemma lastNode_append (pre : List (Stop ν)) (s : Stop ν) :
    lastNode n (pre ++ [s]) = s.node := by
  simp [lastNode]

@[simp] lemma lastService_append (pre : List (Stop ν)) (s : Stop ν) :
    lastService X (pre ++ [s]) = s.service := by
  simp [lastService]

lemma outRoute_append (route : RouteT) (pre : List (Stop ν)) (s : Stop ν) :
    outRoute route (pre ++ [s]) = hopOut (outRoute route pre) s.accepted s.service := by
  simp [outRoute]

lemma lastNode_cons (s : Stop ν) (ss : List (Stop ν)) :
    lastNode n (s :: ss) = lastNode s.node ss := by
  cases ss with
  | nil => rfl
  | cons s' ss => simp [lastNode, List.getLast?_cons]

lemma Network.Chain.append {pre : List (Stop ν)} {s : Stop ν} (h : net.Chain n (pre ++ [s])) :
    net.Chain n pre ∧ net.Live (lastNode n pre) s.node s.accepted ∧
      net.Carries s.node s.request ∧ net.Carries (lastNode n pre) s.reply := by
  induction pre generalizing n with
  | nil => exact ⟨trivial, h.1, h.2.1, h.2.2.1⟩
  | cons t pre ih =>
    obtain ⟨hl, hreq, hrep, hrest⟩ := h
    obtain ⟨hpre, hs⟩ := ih hrest
    rw [lastNode_cons]
    exact ⟨⟨hl, hreq, hrep, hpre⟩, hs⟩

lemma isListener_outRoute {route : RouteT} (h : ∀ hop ∈ route, hop.isListener = false)
    (stops : List (Stop ν)) : ∀ hop ∈ outRoute route stops, hop.isListener = false := by
  induction stops generalizing route with
  | nil => exact h
  | cons s ss ih =>
    refine ih fun hop hhop => ?_
    simp only [hopOut, pushBack, mem_append, mem_singleton] at hhop
    rcases hhop with (hhop | rfl) | rfl
    · exact h hop hhop
    · rfl
    · rfl

lemma length_outRoute (route : RouteT) (stops : List (Stop ν)) :
    (outRoute route stops).length = route.length + 2 * stops.length := by
  induction stops generalizing route with
  | nil => simp [outRoute]
  | cons s ss ih =>
    have hs : outRoute route (s :: ss) = outRoute (hopOut route s.accepted s.service) ss := rfl
    rw [hs, ih]
    simp only [hopOut, pushBack, length_append, length_cons, length_nil]
    omega

lemma outRoute_packable {route : RouteT} (h : ∀ hop ∈ route, hop.isListener = false)
    {stops : List (Stop ν)} (hlen : route.length + 2 * stops.length < 2 ^ 64) :
    (outRoute route stops).Packable := ⟨isListener_outRoute h stops, by rwa [length_outRoute]⟩

end

/-! ### The way out and the way back -/

def outSteps (stops : List (Stop ν)) : List (ServiceStep ν) :=
  stops.map fun s => .forward s.node s.service s.request

def replySteps (stops : List (Stop ν)) : List (ServiceStep ν) :=
  stops.reverse.map fun s => .reply s.reply

def backSteps (stops : List (Stop ν)) : List (ServiceStep ν) :=
  match stops.getLast? with
  | none => []
  | some s => .answer s.reply :: replySteps stops.dropLast

def outArrivals (route : RouteT) : List (Stop ν) → List (Arrival ν)
  | [] => []
  | s :: ss =>
    ⟨s.node, s.service, .onAcceptor, ⟨hopOut route s.accepted s.service, s.request⟩⟩ ::
      outArrivals (hopOut route s.accepted s.service) ss

lemma converse_append (net : Network ν) (a : Arrival ν) (ss ss' : List (ServiceStep ν)) :
    converse net a (ss ++ ss') = (do
      let r ← converse net a ss
      let r' ← converse r.1 (r.2.getLast?.getD a) ss'
      some (r'.1, r.2 ++ r'.2)) := by
  induction ss generalizing net a with
  | nil => simp [converse]
  | cons s ss ih =>
    rw [cons_append, converse, converse]
    cases hact : act net a s with
    | none => rfl
    | some r =>
      simp only [bind_eq_bind, bind_some, ih, bind_assoc]
      congr 1
      funext r'
      simp [List.getLast?_cons]

lemma converse_out {net : Network ν} {stops : List (Stop ν)} {a : Arrival ν}
    (hchain : net.Chain a.node stops) (hr : ∀ hop ∈ a.event.route, hop.isListener = false)
    (hlen : a.event.route.length + 2 * stops.length < 2 ^ 64) :
    converse net a (outSteps stops) = some (net, outArrivals a.event.route stops) := by
  induction stops generalizing a with
  | nil => rfl
  | cons s ss ih =>
    obtain ⟨hl, hreq, hrep, hrest⟩ := hchain
    rw [length_cons] at hlen
    have hpack : RouteT.Packable a.event.route := ⟨hr, by omega⟩
    have hact : act net a (.forward s.node s.service s.request)
        = some (net, ⟨s.node, s.service, .onAcceptor,
            ⟨hopOut a.event.route s.accepted s.service, s.request⟩⟩) :=
      sendEventAt_live hl hrep.running hreq hpack
    have hstep : outRoute a.event.route [s] = hopOut a.event.route s.accepted s.service := rfl
    have hhop : (hopOut a.event.route s.accepted s.service).length
        = a.event.route.length + 2 := by
      rw [← hstep, length_outRoute]
      rfl
    have hnext := ih (a := ⟨s.node, s.service, .onAcceptor,
      ⟨hopOut a.event.route s.accepted s.service, s.request⟩⟩) hrest
      (by rw [← hstep]; exact isListener_outRoute hr [s]) (by simp only [hhop]; omega)
    rw [outSteps, map_cons, converse, hact]
    simp only [bind_eq_bind, bind_some]
    rw [← outSteps, hnext]
    rfl

omit [DecidableEq ν] in
lemma getLast_outArrivals (route : RouteT) (pre : List (Stop ν)) (s : Stop ν) :
    (outArrivals route (pre ++ [s])).getLast? = some ⟨s.node, s.service, .onAcceptor,
          ⟨hopOut (outRoute route pre) s.accepted s.service, s.request⟩⟩ := by
  induction pre generalizing route with
  | nil => rfl
  | cons t pre ih =>
    rw [cons_append, outArrivals, List.getLast?_cons, ih]
    rfl

omit [DecidableEq ν] in
lemma outArrivals_spec (route : RouteT) (stops : List (Stop ν)) :
    (outArrivals route stops).map Arrival.place = stops.map Stop.place ∧
      ∀ a ∈ outArrivals route stops, a.kind = .onAcceptor := by
  induction stops generalizing route with
  | nil => exact ⟨rfl, by simp [outArrivals]⟩
  | cons s ss ih =>
    obtain ⟨hmap, hkind⟩ := ih (hopOut route s.accepted s.service)
    refine ⟨?_, ?_⟩
    · rw [outArrivals, map_cons, map_cons, hmap]
      rfl
    · rw [outArrivals, forall_mem_cons]
      exact ⟨rfl, hkind⟩

omit [DecidableEq ν] in
lemma outRoute_eq_pushBack (route : RouteT) (X : ServiceId) (stops : List (Stop ν)) :
    outRoute (route.pushBack (.localService X)) stops
      = pushBack (outRoute (route.pushBack (.localService X)) stops).dropLast
          (.localService (lastService X stops)) := by
  rcases eq_nil_or_concat' stops with rfl | ⟨pre, s, rfl⟩
  · simp [outRoute, pushBack, lastService]
  · rw [outRoute_append, lastService_append, hopOut]
    simp [pushBack]

omit [DecidableEq ν] in
lemma places_eq_concat (n : ν) (X : ServiceId) (stops : List (Stop ν)) :
    (n, X) :: stops.map Stop.place
      = ((n, X) :: stops.map Stop.place).dropLast ++ [(lastNode n stops, lastService X stops)] := by
  rcases eq_nil_or_concat' stops with rfl | ⟨pre, s, rfl⟩
  · rfl
  · rw [map_append, map_singleton, ← cons_append, dropLast_concat,
      lastNode_append, lastService_append]
    rfl

omit [DecidableEq ν] in
lemma replySteps_append (pre : List (Stop ν)) (s : Stop ν) :
    replySteps (pre ++ [s]) = .reply s.reply :: replySteps pre := by
  simp [replySteps]

lemma converse_back {net : Network ν} {n : ν} {X : ServiceId} {route : RouteT}
    (hr : ∀ hop ∈ route.pushBack (.localService X), hop.isListener = false)
    {stops : List (Stop ν)} (hchain : net.Chain n stops)
    (hlen : (route.pushBack (.localService X)).length + 2 * stops.length < 2 ^ 64)
    {b : Arrival ν} (hnode : b.node = lastNode n stops) (hroute : b.event.route
      = (outRoute (route.pushBack (.localService X)) stops).dropLast) :
    ∃ back, converse net b (replySteps stops) = some (net, back) ∧
      back.map Arrival.place = (((n, X) :: stops.map Stop.place).dropLast).reverse ∧
      (∀ a ∈ back, a.kind = .onConnector) ∧ (back.getLast?.getD b).event.route = route := by
  induction stops using List.reverseRecOn generalizing b with
  | nil =>
    refine ⟨[], rfl, rfl, by simp, ?_⟩
    rw [List.getLast?_nil, getD_none, hroute]
    simp [outRoute, pushBack]
  | append_singleton pre s ih =>
    obtain ⟨hpre, hl, hreq, hrep⟩ := hchain.append
    rw [length_append, length_singleton] at hlen
    have hlast := outRoute_eq_pushBack route X pre
    have hb : b.event.route = pushBack
        (pushBack (outRoute (route.pushBack (.localService X)) pre).dropLast
          (.localService (lastService X pre))) (.remoteAddr s.accepted) := by
      rw [hroute, outRoute_append, ← hlast, hopOut]
      simp [pushBack]
    have hact : act net b (.reply s.reply)
        = some (net, ⟨lastNode n pre, lastService X pre, .onConnector,
            ⟨(outRoute (route.pushBack (.localService X)) pre).dropLast, s.reply⟩⟩) := by
      rw [act, hnode, lastNode_append, hb]
      refine passEventAt_live hl hreq.running hrep ?_
      rw [← hlast]
      exact outRoute_packable hr (by omega)
    obtain ⟨back, hconv, hplace, hkind, hend⟩ := ih hpre (by omega) (b :=
      ⟨lastNode n pre, lastService X pre, .onConnector,
        ⟨(outRoute (route.pushBack (.localService X)) pre).dropLast, s.reply⟩⟩) rfl rfl
    refine ⟨⟨lastNode n pre, lastService X pre, .onConnector,
      ⟨(outRoute (route.pushBack (.localService X)) pre).dropLast, s.reply⟩⟩ :: back,
      ?_, ?_, forall_mem_cons.mpr ⟨rfl, hkind⟩, ?_⟩
    · rw [replySteps_append, converse, hact]
      simp only [bind_eq_bind, bind_some, hconv]
    · rw [map_append, map_singleton, ← cons_append, dropLast_concat,
        places_eq_concat n X pre, reverse_append, map_cons, hplace]
      rfl
    · rw [List.getLast?_cons]
      exact hend

lemma converse_answer {net : Network ν} {a : Arrival ν} {route : RouteT} {body : EventBody}
    (h : poppedFrontRoute a.event.route = .ok route) (ss : List (ServiceStep ν)) :
    converse net a (.answer body :: ss)
      = converse net { a with event := ⟨route, a.event.body⟩ } (.reply body :: ss) := by
  simp [converse, act, h]

/-- **Replies retrace the route**, through the services in reverse order. -/
theorem reply_retraces_route (net : Network ν)
    (n : ν) (X : ServiceId) (r : RouteT) (body : EventBody) (stops : List (Stop ν))
    (hne : stops ≠ []) (hchain : net.Chain n stops) (hlisten : ∀ hop ∈ r, hop.isListener = false)
    (hlast : r.getLast? = some (.localService X)) (hlen : r.length + 2 * stops.length < 2 ^ 64) :
    ∃ out back, converse net ⟨n, X, .direct, ⟨r, body⟩⟩ (outSteps stops ++ backSteps stops) =
    some (net, out ++ back) ∧ out.map Arrival.place = stops.map Stop.place ∧
    (∀ a ∈ out, a.kind = .onAcceptor) ∧ back.map Arrival.place =
    ((n, X) :: stops.dropLast.map Stop.place).reverse ∧ (∀ a ∈ back, a.kind = .onConnector) ∧
    back.getLast?.map (fun a => a.event.route) = some r.dropLast := by
  obtain ⟨pre, s, rfl⟩ := (eq_nil_or_concat' stops).resolve_left hne
  obtain ⟨route, rfl⟩ : ∃ route : RouteT, r = route.pushBack (.localService X) := by
    obtain ⟨route, rfl⟩ := List.getLast?_eq_some_iff.mp hlast
    exact ⟨route, rfl⟩
  set last : Arrival ν := ⟨s.node, s.service, .onAcceptor,
    ⟨hopOut (outRoute (route.pushBack (.localService X)) pre) s.accepted s.service,
      s.request⟩⟩ with hlastdef
  have hout := converse_out (a := ⟨n, X, .direct, ⟨route.pushBack (.localService X), body⟩⟩)
    hchain hlisten hlen
  obtain ⟨back, hback, hplace, hkind, hend⟩ := converse_back hlisten hchain hlen
    (b := { last with event := ⟨(outRoute (route.pushBack (.localService X)) pre).pushBack
      (.remoteAddr s.accepted), s.request⟩ })
    (by rw [lastNode_append]) (by rw [outRoute_append]; simp [hopOut, RouteT.pushBack])
  have hpop : poppedFrontRoute last.event.route
      = .ok ((outRoute (route.pushBack (.localService X)) pre).pushBack
          (.remoteAddr s.accepted)) := by
    simp [hlastdef, hopOut]
  obtain ⟨houtplace, houtkind⟩ := outArrivals_spec (route.pushBack (.localService X)) (pre ++ [s])
  refine ⟨_, back, ?_, houtplace, houtkind, ?_, hkind, ?_⟩
  · have hsteps : backSteps (pre ++ [s]) = .answer s.reply :: replySteps pre := by
      simp [backSteps]
    rw [converse_append, hout]
    simp only [bind_eq_bind, bind_some]
    rw [getLast_outArrivals, getD_some, hsteps, converse_answer hpop, ← replySteps_append, hback]
    rfl
  · rw [hplace, dropLast_concat, map_append, map_singleton, ← cons_append, dropLast_concat]
  · have hlen' : back.length = pre.length + 1 := by
      simpa using congrArg List.length hplace
    obtain ⟨a, ha⟩ : ∃ a, back.getLast? = some a := by
      cases h : back.getLast? with
      | none => simp [List.getLast?_eq_none_iff.mp h] at hlen'
      | some a => exact ⟨a, rfl⟩
    rw [ha, getD_some] at hend
    rw [ha, map_some, hend, RouteT.pushBack, dropLast_concat]

end

def twoNodes : Network Bool where
  text := hexText
  addr n := .inet (if n then 2#16 else 1#16) 0x0100007F#32
  registry _ := fullRegistry
  terminating _ := false
  newSocketId _ := 9#64
  rpc _ :=
    { sa2sess := fun _ => some ⟨1#64, some 1#64, []⟩
      sock2sess := fun s => some ⟨s, some s, []⟩
      passCache := fun _ => []
      subscribers := [] }
  peer n s :=
    if s = 1#64 then some (.acceptor (!n) 2#64)
    else some (.connector (!n) 1#64 (.inet (if n then 2#16 else 1#16) 0x0100007F#32))

lemma twoNodes_live (n : Bool) : twoNodes.Live n (!n) 2#64 :=
  ⟨⟨1#64, 1#64, rfl, rfl, by cases n <;> rfl⟩, rfl⟩

lemma twoNodes_carries (n : Bool) {body : EventBody} (h : body.WellFormed)
    (he : body.entries < 2 ^ 32) : twoNodes.Carries n body :=
  ⟨rfl, rfl, h, EventClass.mem_all _, he⟩

def thereAndBack : List (Stop Bool) :=
  [⟨true, 6#32, 2#64, .getBindPortsREQ, .getBindPortsRSP []⟩,
    ⟨false, 7#32, 2#64, .getBindPortsREQ, .getBindPortsRSP []⟩]

theorem reply_retraces_route_thereAndBack : ∃ out back, converse twoNodes
          ⟨false, 5#32, .direct, ⟨[.localService 4#32, .localService 5#32], .getBindPortsREQ⟩⟩
          (outSteps thereAndBack ++ backSteps thereAndBack) = some (twoNodes, out ++ back) ∧
      out.map Arrival.place = [(true, 6#32), (false, 7#32)] ∧ (∀ a ∈ out, a.kind = .onAcceptor) ∧
      back.map Arrival.place = [(true, 6#32), (false, 5#32)] ∧ (∀ a ∈ back, a.kind = .onConnector) ∧
      back.getLast?.map (fun a => a.event.route) = some [.localService 4#32] := by
  have hreq (n : Bool) : twoNodes.Carries n .getBindPortsREQ :=
    twoNodes_carries n trivial (by norm_num [EventBody.entries])
  have hrsp (n : Bool) : twoNodes.Carries n (.getBindPortsRSP []) :=
    twoNodes_carries n ⟨List.Pairwise.nil, by simp⟩ (by norm_num [EventBody.entries])
  exact reply_retraces_route twoNodes false 5#32 [.localService 4#32, .localService 5#32]
    .getBindPortsREQ thereAndBack (by simp [thereAndBack])
    ⟨twoNodes_live false, hreq true, hrsp false,
      twoNodes_live true, hreq false, hrsp true, trivial⟩
    (by simp [Route.isListener]) rfl (by norm_num [thereAndBack])

end Megatron
