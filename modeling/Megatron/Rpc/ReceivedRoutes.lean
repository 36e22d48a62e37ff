import Megatron.Corelib.RouteDecoding
import Megatron.Library.Reads
import Megatron.ObjectProxy.Lifetime
import Megatron.Rpc.Packets
import Megatron.Rpc.Routing

/-!
Addresses in routes that come from a peer: the RPC service (`modules/rpc/rpcService.cpp`),
`passEvent` (`main/CInstance.cpp`) and the object proxies
(`modules/objectProxy/objectProxyService.cpp`). No listener is called (`Clean.step`), and in careful
runs every object used is registered (`Guarded.step`, `received_addresses_registered`).
-/

namespace Megatron.ObjectProxy

variable {β ε : Type}

def Polled.seek (handlers : Finset Addr) (e : ProxyEvent β) : Found β :=
  match e.route.popBack with
  | .error exn => .finished (.error exn)
  | .ok (r, route) =>
    let e := e.setRoute route
    match r with
    | .objectHandlerPolled addr =>
      if addr ∈ handlers then .object addr e else .finished (.ok false)
    | _ => .finished (.ok true)

/-- `ObjectProxy::Polled::handleEvent`, up to `M_UNLOCK`. -/
def Polled.find (handlers : Finset Addr) (e : ProxyEvent β) : Found β :=
  match e with
  | .startService _ => .finished (.ok true)
  | .incomingOnAcceptor _ _ => .finished (.error acceptorHere)
  | e => Polled.seek handlers e.adoptInner

/-- The call, without the lock. An exception is only logged. -/
def Polled.deliver (method : ObjectMethod β ε) : Found β → Outcome β ε
  | .finished result => ⟨none, result.mapError .own⟩
  | .object addr e =>
    ⟨some (addr, e), match method addr e with
      | .ok _ => .ok true
      | .error _ => .ok true⟩

variable (handlers : Finset Addr) (method : ObjectMethod β ε) (e : ProxyEvent β)

lemma Polled.lookup_eq :
    lookup handlers method e = deliver method (seek handlers e) := by
  rw [lookup, seek]
  cases e.route.popBack with
  | error exn => rfl
  | ok p =>
    obtain ⟨r, route⟩ := p
    cases r with
    | objectHandlerPolled addr =>
      by_cases hmem : addr ∈ handlers
      · simp only [if_pos hmem]
        rfl
      · simp only [if_neg hmem]
        rfl
    | localService id | remoteAddr addr | socketRoute id | objectHandlerThreaded addr
    | thread id | listener id => rfl

/-- **The two parts are the whole handler.** -/
theorem Polled.handleEvent_eq :
    handleEvent handlers method e = deliver method (find handlers e) := by
  cases e with
  | startService route | incomingOnAcceptor inner route => rfl
  | incomingOnConnector inner route | plain e => exact lookup_eq handlers method _

end Megatron.ObjectProxy

namespace Megatron.ReceivedRoutes

open Library ObjectProxy List Polled Reader.Ensures Function

/-! ### The node -/

inductive ProxyKind where
  | polled
  | threaded
  deriving DecidableEq, Repr

namespace ProxyKind

def serviceId : ProxyKind → ServiceId
  | .polled => objectProxyPolled
  | .threaded => objectProxyThreaded

def find : ProxyKind → Finset Addr → ProxyEvent EventBody → Found EventBody
  | .polled => Polled.find
  | .threaded => Threaded.find

end ProxyKind

inductive Place where
  | idle
  /-- Handed to a service. -/
  | arrived (svs : ServiceId) (e : ProxyEvent EventBody)
  /-- The route is kept by a service or an object. -/
  | held (route : RouteT)
  | found (kind : ProxyKind) (addr : Addr) (e : ProxyEvent EventBody)
  /-- In `OH_handleObjectEvent`. -/
  | calling (kind : ProxyKind) (addr : Addr) (e : ProxyEvent EventBody)
  /-- Dropped, thrown, sent to a peer or handled. -/
  | ended

inductive Use where
  | listener (id : BitVec 64)
  | object (kind : ProxyKind) (addr : Addr) (registered : Bool)
  deriving DecidableEq, Repr

structure Node where
  /-- `__mx_handlers` of the two proxies. -/
  handlers : ProxyKind → Finset Addr
  places : ℕ → Place
  terminating : Bool
  /-- The addresses that were used, in order. -/
  log : List Use

def Node.initial : Node := ⟨fun _ => ∅, fun _ => .idle, false, []⟩

def routes : ProxyEvent EventBody → List RouteT
  | .startService route => [route]
  | .incomingOnAcceptor inner route => [route, inner.route]
  | .incomingOnConnector inner route => [route, inner.route]
  | .plain e => [e.route]

def arrival? : RpcOutput → Option (ServiceId × ProxyEvent EventBody)
  | .incomingOnAcceptor dst _ e =>
    some (dst, .incomingOnAcceptor ⟨e.route, e.body⟩ [.localService dst])
  | .incomingOnConnector dst _ _ e =>
    some (dst, .incomingOnConnector ⟨e.route, e.body⟩ [.localService dst])
  | .sendPacket .. | .connect .. | .notify .. | .close .. => none

/-! ### The steps -/

inductive Action where
  | addObjectHandler (kind : ProxyKind) (h : Addr)
  | removeObjectHandler (kind : ProxyKind) (h : Addr)
  | terminate
  /-- A packet arrives on a socket. -/
  | receive (d : ℕ) (esi : SocketId) (kind : PacketSocket) (buf : Bytes)
  | keep (d d' : ℕ) (route : RouteT)
  /-- `poppedFrontRoute`. -/
  | pop (d d' : ℕ)
  /-- `passEvent` with an event that has the route. -/
  | pass (d d' : ℕ) (body : EventBody)
  /-- `handleEvent` of a proxy, up to the release of the lock. -/
  | find (d : ℕ) (kind : ProxyKind)
  | call (d : ℕ)
  | finish (d : ℕ) (r : Except Unit Bool)

def Node.put (s : Node) (d : ℕ) (p : Place) : Node :=
  { s with places := Function.update s.places d p }

/-- What `passEvent` does. -/
def Node.passed (s : Node) (d : ℕ) : Except Exn (Option Dispatch) → Node
  | .error _ => s.put d .ended
  | .ok none => s.put d .ended
  | .ok (some (.service svs e)) => s.put d (.arrived svs (.plain ⟨e.route, e.body⟩))
  | .ok (some (.listener id _)) => { s.put d .ended with log := s.log ++ [.listener id] }
  | .ok (some (.passPacket _ _)) => s.put d .ended

def Place.afterFind (kind : ProxyKind) : Found EventBody → Place
  | .finished _ => .ended
  | .object addr e => .found kind addr e

def Place.offered : Place → List RouteT
  | .arrived _ e => routes e
  | .calling _ _ e => routes e
  | .idle | .held _ | .found _ _ _ | .ended => []

section

variable (T : Inet6Text) (reg : Registry)

def step (s : Node) : Action → Option Node
  | .addObjectHandler kind h =>
    some { s with handlers := Function.update s.handlers kind (insert h (s.handlers kind)) }
  | .removeObjectHandler kind h =>
    some { s with handlers := Function.update s.handlers kind ((s.handlers kind).erase h) }
  | .terminate => some { s with terminating := true }
  | .receive d esi kind buf =>
    match s.places d, (kind.onPacket T reg esi buf).findSome? arrival? with
    | .idle, some (dst, e) => some (s.put d (if s.terminating then .ended else .arrived dst e))
    | _, _ => none
  | .keep d d' route =>
    match s.places d' with
    | .idle => if route ∈ (s.places d).offered then some (s.put d' (.held route)) else none
    | _ => none
  | .pop d d' =>
    match s.places d, s.places d' with
    | .held route, .idle =>
      match poppedFrontRoute route with
      | .ok popped => some (s.put d' (.held popped))
      | .error _ => some (s.put d' .ended)
    | _, _ => none
  | .pass d d' body =>
    match s.places d, s.places d' with
    | .held route, .idle => some (s.passed d' (passEvent s.terminating ⟨route, body⟩))
    | _, _ => none
  | .find d kind =>
    match s.places d with
    | .arrived svs e =>
      if svs = kind.serviceId then
        some (s.put d (.afterFind kind (kind.find (s.handlers kind) e)))
      else none
    | _ => none
  | .call d =>
    match s.places d with
    | .found kind addr e => some { s.put d (.calling kind addr e) with
        log := s.log ++ [.object kind addr (decide (addr ∈ s.handlers kind))] }
    | _ => none
  | .finish d r =>
    match s.places d with
    | .calling kind addr _ => some { s.put d .ended with
        log := if r = .ok true then s.log
          else s.log ++ [.object kind addr (decide (addr ∈ s.handlers kind))] }
    | _ => none

variable {T reg} {s s' : Node} {a : Action}

inductive Effect (T : Inet6Text) (reg : Registry) (s : Node) : Action → Node → Prop
  | add : Effect T reg s (.addObjectHandler kind h)
      { s with handlers := Function.update s.handlers kind (insert h (s.handlers kind)) }
  | remove : Effect T reg s (.removeObjectHandler kind h)
      { s with handlers := Function.update s.handlers kind ((s.handlers kind).erase h) }
  | terminate : Effect T reg s .terminate { s with terminating := true }
  | receive : (kind.onPacket T reg esi buf).findSome? arrival? = some (dst, e) →
      Effect T reg s (.receive d esi kind buf)
        (s.put d (if s.terminating then .ended else .arrived dst e))
  | keep : route ∈ (s.places d).offered → Effect T reg s (.keep d d' route) (s.put d' (.held route))
  | pop : s.places d = .held route →
      poppedFrontRoute route = .ok popped → Effect T reg s (.pop d d') (s.put d' (.held popped))
  | popNone : Effect T reg s (.pop d d') (s.put d' .ended)
  | pass : s.places d = .held route →
      Effect T reg s (.pass d d' body) (s.passed d' (passEvent s.terminating ⟨route, body⟩))
  | find : s.places d = .arrived svs e → Effect T reg s (.find d kind)
        (s.put d (.afterFind kind (kind.find (s.handlers kind) e)))
  | call : s.places d = .found kind addr e → Effect T reg s (.call d)
        { s.put d (.calling kind addr e) with
          log := s.log ++ [.object kind addr (decide (addr ∈ s.handlers kind))] }
  | finish : s.places d = .calling kind addr e → Effect T reg s (.finish d r) { s.put d .ended with
        log := if r = .ok true then s.log
          else s.log ++ [.object kind addr (decide (addr ∈ s.handlers kind))] }

theorem step_effect (h : step T reg s a = some s') : Effect T reg s a s' := by
  cases a with
  | addObjectHandler kind x | removeObjectHandler kind x | terminate =>
    cases h
    constructor
  | receive d esi kind buf =>
    simp only [step] at h
    split at h
    · next dst e _ hout =>
        cases h
        exact .receive hout
    · cases h
  | keep d d' route =>
    simp only [step] at h
    split at h
    · split_ifs at h with hmem
      cases h
      exact .keep hmem
    · cases h
  | pop d d' =>
    simp only [step] at h
    split at h
    · next route hd _ =>
        split at h
        · next popped hpop =>
            cases h
            exact .pop hd hpop
        · cases h
          exact .popNone
    · cases h
  | pass d d' body =>
    simp only [step] at h
    split at h
    · next route hd _ =>
        cases h
        exact .pass hd
    · cases h
  | find d kind =>
    simp only [step] at h
    split at h
    · next svs e hd =>
        split_ifs at h
        cases h
        exact .find hd
    · cases h
  | call d =>
    simp only [step] at h
    split at h
    · next kind addr e hd =>
        cases h
        exact .call hd
    · cases h
  | finish d r =>
    simp only [step] at h
    split at h
    · next kind addr e hd =>
        cases h
        exact .finish hd
    · cases h

end

/-! ### Routes without listeners -/

/-- No hop is of type `LISTENER`. -/
def NoListener (r : RouteT) : Prop := ∀ hop ∈ r, hop.isListener = false

variable {addr : Addr} {d : ℕ} {dispatch : Dispatch} {e e' : ProxyEvent EventBody}
variable {handlers : Finset Addr} {hop : Route} {kind : ProxyKind} {r route : RouteT} {s : Node}

lemma NoListener.pushBack (h : NoListener r)
    (hhop : hop.isListener = false) : NoListener (r.pushBack hop) := by
  intro x hx
  rcases mem_append.mp hx with hx | hx
  · exact h x hx
  · rw [mem_singleton.mp hx]
    exact hhop

lemma NoListener.popBack (h : NoListener r)
    (hpop : r.popBack = .ok (hop, route)) : hop.isListener = false ∧ NoListener route := by
  rw [RouteT.popBack] at hpop
  split at hpop
  · cases hpop
  · next hlast =>
      cases hpop
      refine ⟨h _ (mem_of_getLast? hlast), fun x hx => h x ?_⟩
      exact mem_of_mem_dropLast hx

lemma NoListener.poppedFrontRoute (h : NoListener r)
    (hpop : poppedFrontRoute r = .ok route) : NoListener route := by
  rw [Megatron.poppedFrontRoute] at hpop
  obtain ⟨⟨hop, route'⟩, hback, hroute⟩ := exists_of_bind_ok hpop
  cases hroute
  exact (h.popBack hback).2

lemma NoListener.passEvent (h : NoListener r) {terminating : Bool}
    {body : EventBody} (hpass : passEvent terminating ⟨r, body⟩ = .ok (some dispatch)) :
    (∃ svs e, dispatch = .service svs e ∧ NoListener e.route) ∨
    ∃ addr e, dispatch = .passPacket addr e := by
  rw [Megatron.passEvent] at hpass
  split_ifs at hpass
  · cases hpass
  cases hback : r.popBack with
  | error x =>
    rw [hback] at hpass
    cases hpass
  | ok p =>
    obtain ⟨hop, route⟩ := p
    obtain ⟨hhop, hroute⟩ := h.popBack hback
    rw [hback] at hpass
    cases hop with
    | localService id =>
      cases hpass
      exact .inl ⟨_, _, rfl, hroute⟩
    | remoteAddr addr =>
      cases hpass
      exact .inr ⟨_, _, rfl⟩
    | objectHandlerPolled addr | objectHandlerThreaded addr =>
      cases hpass
      exact .inl ⟨_, _, rfl, h⟩
    | socketRoute id | thread id => cases hpass
    | listener id => cases hhop

section

variable {T : Inet6Text} {reg : Registry} {esi : SocketId}

def RouteClean (o : RpcOutput) : Prop :=
  match o with
  | .incomingOnAcceptor _ _ e => NoListener e.route
  | .incomingOnConnector _ _ _ e => NoListener e.route
  | .sendPacket .. | .connect .. | .notify .. | .close .. => True

lemma unpackEvent_noListener :
    (unpackEvent T reg).Ensures fun o => ∀ e, o = some e → NoListener e.route := by
  rw [unpackEvent]
  split_ifs
  · exact pure fun e he => by cases he
  · refine skip fun id => ?_
    refine bind unpackRoute_not_listener fun r hr => ?_
    cases reg.constructor? id with
    | none => exact fail _
    | some c =>
      refine skip fun body => pure ?_
      rintro e ⟨⟩
      exact hr

lemma onPacket_routeClean (kind : PacketSocket) (buf : Bytes) :
    ∀ o ∈ kind.onPacket T reg esi buf, RouteClean o := by
  have hpop : ∀ r hop route, NoListener r → r.popBack = .ok (hop, route) → NoListener route :=
    fun r hop route hr hback => (hr.popBack hback).2
  have hpush : ∀ (r : RouteT) dst, NoListener r →
      NoListener ((r.pushBack (.remoteAddr esi)).pushBack (.localService dst)) :=
    fun r dst hr => (hr.pushBack rfl).pushBack rfl
  have hclose {reason : String} {body : Reader (List RpcOutput)}
      (hbody : body.Ensures fun outs => ∀ o ∈ outs, RouteClean o) :
      ∀ o ∈ closeOnError esi reason body buf, RouteClean o := by
    intro o ho
    rw [closeOnError] at ho
    rcases hread : body (InBuffer.ofBytes buf) with ⟨x | outs, b⟩
    · rw [hread] at ho
      rw [mem_singleton.mp ho]
      trivial
    · rw [hread] at ho
      exact hbody _ b outs hread o ho
  cases kind with
  | acceptor =>
    refine hclose (packetBody_ensures unpackEvent_noListener hpop hpush ?_ ?_)
    · rintro dst e out he ⟨⟩
      exact he
    · exact pure (by simp)
  | connector requestForConnect =>
    refine hclose (packetBody_ensures unpackEvent_noListener hpop hpush ?_ ?_)
    · intro dst e out he hout
      cases requestForConnect with
      | none => cases hout
      | some addr =>
        cases hout
        exact he
    · exact fail _

lemma arrival_noListener {kind : PacketSocket} {buf : Bytes} {dst : ServiceId}
    {e : ProxyEvent EventBody}
    (h : (kind.onPacket T reg esi buf).findSome? arrival? = some (dst, e)) :
    ∀ r ∈ routes e, NoListener r := by
  obtain ⟨o, ho, harrival⟩ := List.exists_of_findSome?_eq_some h
  have hclean := onPacket_routeClean kind buf o ho
  have hservice : NoListener [Route.localService dst] := by
    intro hop hhop
    rw [mem_singleton.mp hhop]
    rfl
  cases o with
  | incomingOnAcceptor dst' esi' e' | incomingOnConnector dst' esi' addr e' =>
    cases harrival
    exact forall_mem_cons.mpr ⟨hservice, forall_mem_singleton.mpr hclean⟩
  | sendPacket esi' buf' | connect socketId addr | notify subscriber notice | close esi' reason =>
    cases harrival

end

/-! ### No listener is called -/

def Place.routes : Place → List RouteT
  | .arrived _ e => ReceivedRoutes.routes e
  | .held route => [route]
  | .found _ _ e => ReceivedRoutes.routes e
  | .calling _ _ e => ReceivedRoutes.routes e
  | .idle | .ended => []

structure Clean (s : Node) : Prop where
  places : ∀ d, ∀ r ∈ (s.places d).routes, NoListener r
  log : ∀ id, .listener id ∉ s.log

lemma offered_subset (p : Place) : p.offered ⊆ p.routes := by
  cases p with
  | idle | arrived svs e | calling kind addr e | ended => exact List.Subset.refl _
  | held route | found kind addr e => exact nil_subset _

lemma Clean.put (h : Clean s) {p : Place} (hp : ∀ r ∈ p.routes, NoListener r) :
    Clean (s.put d p) := by
  refine ⟨fun d' => ?_, h.log⟩
  show ∀ r ∈ (update s.places d p d').routes, NoListener r
  rw [update_apply]
  split_ifs
  · exact hp
  · exact h.places d'

lemma Clean.ended (h : Clean s) (d : ℕ) : Clean (s.put d .ended) :=
  h.put fun _ hr => absurd hr not_mem_nil

lemma Clean.use (h : Clean s) (kind : ProxyKind) (addr : Addr) (registered : Bool) :
    Clean { s with log := s.log ++ [.object kind addr registered] } := by
  refine ⟨h.places, fun id hmem => ?_⟩
  rcases mem_append.mp hmem with hmem | hmem
  · exact h.log id hmem
  · cases mem_singleton.mp hmem

lemma routes_setRoute (h : ∀ r ∈ routes e, NoListener r)
    (hroute : NoListener route) : ∀ r ∈ routes (e.setRoute route), NoListener r := by
  cases e with
  | startService r | plain e => exact forall_mem_singleton.mpr hroute
  | incomingOnAcceptor inner r | incomingOnConnector inner r =>
    exact forall_mem_cons.mpr ⟨hroute, (forall_mem_cons.mp h).2⟩

lemma routes_adoptInner (h : ∀ r ∈ routes e, NoListener r) :
    ∀ r ∈ routes e.adoptInner, NoListener r := by
  cases e with
  | startService r | plain e | incomingOnAcceptor inner r => exact h
  | incomingOnConnector inner r =>
    have hinner := (forall_mem_cons.mp h).2
    exact forall_mem_cons.mpr ⟨hinner _ mem_cons_self, hinner⟩

lemma routes_shareRoute (h : ∀ r ∈ routes e, NoListener r) :
    ∀ r ∈ routes e.shareRoute, NoListener r := by
  cases e with
  | startService r | plain e | incomingOnAcceptor inner r => exact h
  | incomingOnConnector inner r =>
    have hroute := (forall_mem_cons.mp h).1
    exact forall_mem_cons.mpr ⟨hroute, forall_mem_singleton.mpr hroute⟩

lemma route_mem_routes (e : ProxyEvent EventBody) : e.route ∈ routes e := by
  cases e with
  | startService r | plain e | incomingOnAcceptor inner r | incomingOnConnector inner r =>
    exact mem_cons_self

lemma seek_eq_object (h : seek handlers e = .object addr e') :
    ∃ hop route, e.route.popBack = .ok (hop, route) ∧ addr ∈ handlers ∧ e' = e.setRoute route := by
  rw [seek] at h
  split at h
  · cases h
  · next r route hback =>
      split at h
      · split_ifs at h with hmem
        cases h
        exact ⟨_, route, hback, hmem, rfl⟩
      · cases h

lemma lookup_eq_object (h : Threaded.lookup handlers e = .object addr e') : ∃ hop route,
    e.route.popBack = .ok (hop, route) ∧ addr ∈ handlers ∧ e' = (e.setRoute route).shareRoute := by
  rw [Threaded.lookup] at h
  split at h
  · cases h
  · next r route hback =>
      split at h
      · split_ifs at h with hmem
        cases h
        exact ⟨_, route, hback, hmem, rfl⟩
      · cases h

lemma find_eq_object (h : kind.find handlers e = .object addr e') :
    ∃ hop route, e.adoptInner.route.popBack = .ok (hop, route) ∧ addr ∈ handlers ∧
      (e' = e.adoptInner.setRoute route ∨ e' = (e.adoptInner.setRoute route).shareRoute) := by
  cases kind with
  | polled =>
    have hseek : seek handlers e.adoptInner = .object addr e' := by
      cases e with
      | startService route | incomingOnAcceptor inner route => cases h
      | incomingOnConnector inner route | plain e => exact h
    obtain ⟨hop, route, hback, hmem, he'⟩ := seek_eq_object hseek
    exact ⟨hop, route, hback, hmem, .inl he'⟩
  | threaded =>
    have hlookup : Threaded.lookup handlers e.adoptInner = .object addr e' := by
      cases e with
      | startService route | incomingOnAcceptor inner route => cases h
      | incomingOnConnector inner route | plain e => exact h
    obtain ⟨hop, route, hback, hmem, he'⟩ := lookup_eq_object hlookup
    exact ⟨hop, route, hback, hmem, .inr he'⟩

lemma find_object (h : kind.find handlers e = .object addr e') :
    addr ∈ handlers ∧ ((∀ r ∈ routes e, NoListener r) → ∀ r ∈ routes e', NoListener r) := by
  obtain ⟨hop, route, hback, hmem, he'⟩ := find_eq_object h
  refine ⟨hmem, fun hclean => ?_⟩
  have hadopted := routes_adoptInner hclean
  have hroute : NoListener route := ((hadopted _ (route_mem_routes _)).popBack hback).2
  have hset := routes_setRoute hadopted hroute
  rcases he' with rfl | rfl
  · exact hset
  · exact routes_shareRoute hset

section

variable {T : Inet6Text} {reg : Registry} {s s' : Node} {a : Action}

/-- **Every step keeps the node clean.** -/
theorem Clean.step (hs : Clean s) (h : step T reg s a = some s') : Clean s' := by
  cases step_effect h with
  | add | remove | terminate => exact ⟨hs.places, hs.log⟩
  | @receive kind esi buf dst e d hout =>
    refine hs.put ?_
    split_ifs
    · exact fun _ hr => absurd hr not_mem_nil
    · exact arrival_noListener hout
  | @keep d route d' hmem =>
    refine hs.put (forall_mem_singleton.mpr ?_)
    exact hs.places d route (offered_subset _ hmem)
  | @pop d route popped d' hd hpop =>
    have hroute : NoListener route := hs.places d route (by rw [hd]; exact mem_cons_self)
    exact hs.put (forall_mem_singleton.mpr (hroute.poppedFrontRoute hpop))
  | popNone => exact hs.ended _
  | @pass d route d' body hd =>
    have hroute : NoListener route := hs.places d route (by rw [hd]; exact mem_cons_self)
    rcases hpass : passEvent s.terminating ⟨route, body⟩ with x | - | dispatch
    · exact hs.ended _
    · exact hs.ended _
    · rcases hroute.passEvent hpass with ⟨svs, e, rfl, he⟩ | ⟨addr, e, rfl⟩
      · exact hs.put (forall_mem_singleton.mpr he)
      · exact hs.ended _
  | @find d svs e kind hd =>
    refine hs.put ?_
    cases hfind : kind.find (s.handlers kind) e with
    | finished result => exact fun _ hr => absurd hr not_mem_nil
    | object addr e' =>
      refine (find_object hfind).2 ?_
      have hplace := hs.places d
      rwa [hd] at hplace
  | @call d kind addr e hd =>
    have hplace := hs.places d
    rw [hd] at hplace
    exact (hs.put (p := .calling kind addr e) hplace).use kind addr _
  | @finish d kind addr e r hd =>
    by_cases hr : r = .ok true
    · simp only [if_pos hr]
      exact hs.ended d
    · simp only [if_neg hr]
      exact (hs.ended d).use kind addr _

/-! ### Objects that are called are registered -/

def Careful (s : Node) : Action → Prop
  | .removeObjectHandler kind h => ∀ d e, s.places d ≠ .found kind h e
  | .finish d r => ∀ kind addr e, s.places d = .calling kind addr e → r ≠ .ok true →
      addr ∈ s.handlers kind
  | _ => True

structure Guarded (s : Node) : Prop where
  found : ∀ d kind addr e, s.places d = .found kind addr e → addr ∈ s.handlers kind
  used : ∀ kind addr registered, .object kind addr registered ∈ s.log → registered = true

section

variable (hs : Guarded s)
include hs

lemma Guarded.put {d : ℕ} {p : Place}
    (hp : ∀ kind addr e, p = .found kind addr e → addr ∈ s.handlers kind) :
    Guarded (s.put d p) := by
  refine ⟨fun d' kind addr e hd' => ?_, hs.used⟩
  have hplace : update s.places d p d' = .found kind addr e := hd'
  rw [update_apply] at hplace
  split_ifs at hplace
  · exact hp kind addr e hplace
  · exact hs.found d' kind addr e hplace

lemma Guarded.move {d : ℕ} {p : Place} (hp : ∀ kind addr e, p ≠ .found kind addr e) :
    Guarded (s.put d p) :=
  hs.put fun kind addr e heq => absurd heq (hp kind addr e)

lemma Guarded.ended (d : ℕ) : Guarded (s.put d .ended) := by
  refine hs.move ?_
  rintro kind addr e ⟨⟩

lemma Guarded.setHandlers {kind : ProxyKind} {handlers : Finset Addr}
    (h : ∀ d addr e, s.places d = .found kind addr e → addr ∈ handlers) :
    Guarded { s with handlers := update s.handlers kind handlers } := by
  refine ⟨fun d kind' addr e hd => ?_, hs.used⟩
  show addr ∈ update s.handlers kind handlers kind'
  by_cases hkind : kind' = kind
  · subst hkind
    rw [update_self]
    exact h d addr e hd
  · rw [update_of_ne hkind]
    exact hs.found d kind' addr e hd

lemma Guarded.use {kind : ProxyKind} {addr : Addr} (h : addr ∈ s.handlers kind) :
    Guarded { s with log := s.log ++ [.object kind addr (decide (addr ∈ s.handlers kind))] } := by
  refine ⟨hs.found, fun kind' addr' registered hmem => ?_⟩
  rcases mem_append.mp hmem with hmem | hmem
  · exact hs.used kind' addr' registered hmem
  · cases mem_singleton.mp hmem
    exact decide_eq_true h

/-- **Every careful step keeps the objects guarded.** -/
theorem Guarded.step (hok : Careful s a) (h : step T reg s a = some s') : Guarded s' := by
  cases step_effect h with
  | @add kind x =>
    refine hs.setHandlers fun d addr e hd => ?_
    exact Finset.mem_insert_of_mem (hs.found d kind addr e hd)
  | @remove kind x =>
    refine hs.setHandlers fun d addr e hd => ?_
    refine Finset.mem_erase.mpr ⟨?_, hs.found d kind addr e hd⟩
    rintro rfl
    exact hok d e hd
  | terminate => exact ⟨hs.found, hs.used⟩
  | @receive kind esi buf dst e d hout =>
    refine hs.move ?_
    split_ifs <;> rintro kind addr e ⟨⟩
  | keep hmem | pop hd hpop =>
    refine hs.move ?_
    rintro kind addr e ⟨⟩
  | popNone => exact hs.ended _
  | @pass d route d' body hd =>
    rcases passEvent s.terminating ⟨route, body⟩ with x | - | ⟨svs, e⟩ | ⟨id, e⟩ | ⟨addr, e⟩
    · exact hs.ended _
    · exact hs.ended _
    · refine hs.move ?_
      rintro kind addr e ⟨⟩
    · refine ⟨(hs.ended d').found, fun kind addr registered hmem => ?_⟩
      rcases mem_append.mp hmem with hmem | hmem
      · exact hs.used kind addr registered hmem
      · cases mem_singleton.mp hmem
    · exact hs.ended _
  | @find d svs e kind hd =>
    refine hs.put fun kind' addr e' heq => ?_
    cases hfind : kind.find (s.handlers kind) e with
    | finished result =>
      rw [hfind] at heq
      cases heq
    | object addr₁ e₁ =>
      rw [hfind] at heq
      cases heq
      exact (find_object hfind).1
  | @call d kind addr e hd =>
    refine (hs.move ?_).use (hs.found d kind addr e hd)
    rintro kind addr e ⟨⟩
  | @finish d kind addr e r hd =>
    by_cases hr : r = .ok true
    · simp only [if_pos hr]
      exact hs.ended d
    · simp only [if_neg hr]
      exact (hs.ended d).use (hok kind addr e hd hr)

end

end

lemma step_find {T : Inet6Text} {reg : Registry} {s' : Node}
    (h : step T reg s (.find d kind) = some s') : s'.log = s.log ∧ (s'.places d = .ended ∨
      ∃ addr e, s'.places d = .found kind addr e ∧ addr ∈ s.handlers kind) := by
  cases step_effect h with
  | @find _ svs e _ hd =>
    refine ⟨rfl, ?_⟩
    have hplace : (s.put d (.afterFind kind (kind.find (s.handlers kind) e))).places d =
        .afterFind kind (kind.find (s.handlers kind) e) := update_self ..
    rw [hplace]
    cases hfind : kind.find (s.handlers kind) e with
    | finished result => exact .inl rfl
    | object addr e' => exact .inr ⟨addr, e', rfl, (find_object hfind).1⟩

/-- **Addresses that come from a peer.** No listener is called, and every object used is registered.
-/
theorem received_addresses_registered (T : Inet6Text) (reg : Registry) :
    (∀ b b' r, unpackRoute b = (.ok r, b') → NoListener r) ∧
      (∀ s s' d kind, step T reg s (.find d kind) = some s' →
        s'.log = s.log ∧ (s'.places d = .ended ∨
          ∃ addr e, s'.places d = .found kind addr e ∧ addr ∈ s.handlers kind)) ∧
      ∀ as s, run (step T reg) Node.initial as = some s → (∀ id, .listener id ∉ s.log) ∧
          (Meets (step T reg) Careful Node.initial as →
            ∀ kind addr registered, .object kind addr registered ∈ s.log → registered = true) := by
  have hclean : Clean Node.initial :=
    ⟨fun d r hr => absurd hr not_mem_nil, fun id hmem => absurd hmem not_mem_nil⟩
  have hguarded : Guarded Node.initial := by
    refine ⟨?_, fun kind addr registered hmem => absurd hmem not_mem_nil⟩
    rintro d kind addr e ⟨⟩
  refine ⟨fun b b' r h => unpackRoute_not_listener b b' r h, fun s s' d kind h => step_find h,
    fun as s hrun => ⟨?_, fun hok => ?_⟩⟩
  · exact (run_invariant' Clean.step hclean hrun).log
  · exact (run_invariant Guarded.step hguarded hok hrun).used

def packetForObject : Bytes :=
  passedPacket hexText ⟨RouteT.pushBack [.objectHandlerThreaded 2#64]
    (.localService objectProxyThreaded), .getBindPortsREQ⟩

def peer : PacketSocket := .connector (some (.inet 1#16 0x0100007F#32))

def withPacket : Node :=
  { handlers := Function.update (fun _ => ∅) .threaded {2#64}
    places := Function.update (fun _ => .idle) 0 (.arrived objectProxyThreaded
      (.incomingOnConnector ⟨[.objectHandlerThreaded 2#64], .getBindPortsREQ⟩
        [.localService objectProxyThreaded]))
    terminating := false
    log := [] }

lemma run_withPacket (as : List Action) : run (step hexText fullRegistry) Node.initial
        (.addObjectHandler .threaded 2#64 :: .receive 0 1#64 peer packetForObject :: as) =
      run (step hexText fullRegistry) withPacket as := by
  have hsendable : (Event.mk (RouteT.pushBack [.objectHandlerThreaded 2#64]
      (.localService objectProxyThreaded)) .getBindPortsREQ).Sendable fullRegistry := {
    running := rfl
    wellFormed :=
      ⟨⟨by simp [RouteT.pushBack, Route.isListener], by simp [RouteT.pushBack]⟩, trivial⟩
    registered := EventClass.mem_all _
    entries := by norm_num [EventBody.entries] }
  have hpacket : peer.onPacket hexText fullRegistry 1#64 packetForObject =
      [.incomingOnConnector objectProxyThreaded 1#64 (.inet 1#16 0x0100007F#32)
        ⟨[.objectHandlerThreaded 2#64], .getBindPortsREQ⟩] := by
    rw [peer, PacketSocket.onPacket, packetForObject]
    exact onPacketOnConnector_pass hsendable
  rw [run, step, Option.bind_some, run, step, hpacket]
  rfl

def withFound : Node :=
  withPacket.put 0 (.found .threaded 2#64 (.incomingOnConnector ⟨[], .getBindPortsREQ⟩ []))

lemma step_find_withPacket :
    step hexText fullRegistry withPacket (.find 0 .threaded) = some withFound := by
  show (if objectProxyThreaded = objectProxyThreaded then some _ else none) = _
  rw [if_pos rfl]
  rfl

theorem registered_object_called : ∃ s, run (step hexText fullRegistry) Node.initial
        [.addObjectHandler .threaded 2#64, .receive 0 1#64 peer packetForObject,
          .find 0 .threaded, .call 0, .finish 0 (.ok true)] = some s ∧
      s.log = [.object .threaded 2#64 true] ∧
      ∀ kind addr registered, .object kind addr registered ∈ s.log → registered = true := by
  obtain ⟨s, hs, hlog⟩ : ∃ s, run (step hexText fullRegistry) Node.initial
      [.addObjectHandler .threaded 2#64, .receive 0 1#64 peer packetForObject,
        .find 0 .threaded, .call 0, .finish 0 (.ok true)] = some s ∧
      s.log = [.object .threaded 2#64 true] := by
    rw [run_withPacket, run, step_find_withPacket]
    exact ⟨_, rfl, rfl⟩
  refine ⟨s, hs, hlog, ((received_addresses_registered hexText fullRegistry).2.2 _ s hs).2 ?_⟩
  refine Meets.of_forall ?_
  simp only [forall_mem_cons]
  refine ⟨fun _ => trivial, fun _ => trivial, fun _ => trivial, fun _ => trivial, ?_, by simp⟩
  exact fun s kind addr e _ hne => absurd rfl hne

/-- **The race**: the object is removed before the call. -/
theorem removed_object_called : ∃ s, run (step hexText fullRegistry) Node.initial
        [.addObjectHandler .threaded 2#64, .receive 0 1#64 peer packetForObject,
          .find 0 .threaded, .removeObjectHandler .threaded 2#64, .call 0] = some s ∧
      s.log = [.object .threaded 2#64 false] := by
  rw [run_withPacket, run, step_find_withPacket]
  exact ⟨_, rfl, rfl⟩

end Megatron.ReceivedRoutes
