import Megatron.Corelib.Route
import Mathlib.Data.Finset.Basic

/-!
The object proxies (`modules/objectProxy/objectProxyService.cpp`): the services that hand
an event to the object whose address is the last hop of its route.
-/

namespace Megatron.ObjectProxy

variable {β ε : Type}

abbrev Addr := BitVec 64

structure Message (β : Type) where
  route : RouteT
  members : β
  deriving DecidableEq, Repr

inductive ProxyEvent (β : Type) where
  | startService (route : RouteT)
  | incomingOnAcceptor (inner : Message β) (route : RouteT)
  | incomingOnConnector (inner : Message β) (route : RouteT)
  | plain (e : Message β)
  deriving DecidableEq, Repr

namespace ProxyEvent

def route : ProxyEvent β → RouteT
  | .startService route => route
  | .incomingOnAcceptor _ route => route
  | .incomingOnConnector _ route => route
  | .plain e => e.route

/-- An assignment to `e->route`. -/
def setRoute (route : RouteT) : ProxyEvent β → ProxyEvent β
  | .startService _ => .startService route
  | .incomingOnAcceptor inner _ => .incomingOnAcceptor inner route
  | .incomingOnConnector inner _ => .incomingOnConnector inner route
  | .plain e => .plain { e with route := route }

/-- The route of the event inside `IncomingOnConnector`. -/
def innerRoute : ProxyEvent β → Option RouteT
  | .incomingOnConnector inner _ => some inner.route
  | _ => none

/-- `e->route = ez->e->route`, for `IncomingOnConnector`. -/
def adoptInner : ProxyEvent β → ProxyEvent β
  | .incomingOnConnector inner _ => .incomingOnConnector inner inner.route
  | e => e

/-- `ez->e->route = e->route`, for `IncomingOnConnector`. -/
def shareRoute : ProxyEvent β → ProxyEvent β
  | .incomingOnConnector inner route => .incomingOnConnector { inner with route := route } route
  | e => e

end ProxyEvent

inductive Thrown (ε : Type) where
  | own (exn : Exn)
  | object (exn : ε)
  deriving DecidableEq, Repr

/-- The exception for `IncomingOnAcceptor`. -/
def acceptorHere : Exn := .commonError "rpcIncomingOnAcceptor here"

/-- The virtual method `OH_handleObjectEvent` of the objects. -/
abbrev ObjectMethod (β ε : Type) := Addr → ProxyEvent β → Except ε Bool

structure Outcome (β ε : Type) where
  handed : Option (Addr × ProxyEvent β)
  result : Except (Thrown ε) Bool

/-! ### The threaded proxy -/

inductive Found (β : Type) where
  | finished (result : Except Exn Bool)
  | object (addr : Addr) (e : ProxyEvent β)
  deriving Repr

def Threaded.lookup (handlers : Finset Addr) (e : ProxyEvent β) : Found β :=
  match e.route.popBack with
  | .error exn => .finished (.error exn)
  | .ok (r, route) =>
    let e := e.setRoute route
    match r with
    | .objectHandlerThreaded addr =>
      if addr ∈ handlers then .object addr e.shareRoute
      else .finished (.ok false)
    | _ => .finished (.ok true)

/-- `ObjectProxy::Threaded::handleEvent`, up to `M_UNLOCK`. -/
def Threaded.find (handlers : Finset Addr) (e : ProxyEvent β) : Found β :=
  match e with
  | .startService _ => .finished (.ok true)
  | .incomingOnAcceptor _ _ => .finished (.error acceptorHere)
  | e => Threaded.lookup handlers e.adoptInner

def Threaded.deliver (method : ObjectMethod β ε) : Found β → Outcome β ε
  | .finished result => ⟨none, result.mapError .own⟩
  | .object addr e =>
    ⟨some (addr, e), match method addr e with
      | .ok _ => .ok true
      | .error exn => .error (.object exn)⟩

def Threaded.handleEvent (handlers : Finset Addr) (method : ObjectMethod β ε)
    (e : ProxyEvent β) : Outcome β ε := Threaded.deliver method (Threaded.find handlers e)

/-- The inner event keeps its route, and an exception is only logged. -/
def Polled.lookup (handlers : Finset Addr) (method : ObjectMethod β ε) (e : ProxyEvent β) :
    Outcome β ε :=
  match e.route.popBack with
  | .error exn => ⟨none, .error (.own exn)⟩
  | .ok (r, route) =>
    let e := e.setRoute route
    match r with
    | .objectHandlerPolled addr =>
      if addr ∈ handlers then
        ⟨some (addr, e), match method addr e with
          | .ok _ => .ok true
          | .error _ => .ok true⟩
      else ⟨none, .ok false⟩
    | _ => ⟨none, .ok true⟩

def Polled.handleEvent (handlers : Finset Addr) (method : ObjectMethod β ε)
    (e : ProxyEvent β) : Outcome β ε :=
  match e with
  | .startService _ => ⟨none, .ok true⟩
  | .incomingOnAcceptor _ _ => ⟨none, .error (.own acceptorHere)⟩
  | e => Polled.lookup handlers method e.adoptInner

/-! ### The two proxies -/

def ProxyEvent.pushHop (hop : Route) : ProxyEvent β → ProxyEvent β
  | .startService route => .startService (route.pushBack hop)
  | .incomingOnAcceptor inner route => .incomingOnAcceptor inner (route.pushBack hop)
  | .incomingOnConnector inner route =>
    .incomingOnConnector { inner with route := inner.route.pushBack hop } route
  | .plain e => .plain { e with route := e.route.pushBack hop }

def Outcome.routes (o : Outcome β ε) : Option (RouteT × Option RouteT) :=
  o.handed.map fun x => (x.2.route, x.2.innerRoute)

structure Interchangeable (base : RouteT) (polled threaded : Outcome β ε) : Prop where
  routes : polled.routes = threaded.routes
  stripped : ∀ x, polled.handed = some x →
    x.2.route = base ∧ ∀ route, x.2.innerRoute = some route → route = base
  result : polled.result = threaded.result

def ProxyEvent.base : ProxyEvent β → RouteT
  | .incomingOnConnector inner _ => inner.route
  | e => e.route

def ProxyEvent.Calm (handle : ProxyEvent β → Except ε Bool) : ProxyEvent β → Prop
  | .startService _ => True
  | .incomingOnAcceptor _ _ => True
  | .incomingOnConnector _ _ => False
  | .plain e => ∃ handled, handle (.plain e) = .ok handled

open Threaded

open ProxyEvent

section

variable {polledHandlers threadedHandlers : Finset Addr} {polledAddr threadedAddr : Addr}
  {polledMethod threadedMethod : ObjectMethod β ε}

lemma polled_plain (hreg : polledAddr ∈ polledHandlers) (e : Message β) :
    Polled.handleEvent polledHandlers polledMethod
        ((plain e).pushHop (.objectHandlerPolled polledAddr)) =
      ⟨some (polledAddr, .plain e), .ok true⟩ := by
  simp only [Polled.handleEvent, pushHop, adoptInner, Polled.lookup,
    route, RouteT.popBack_pushBack, setRoute, if_pos hreg]
  cases polledMethod polledAddr (.plain e) <;> rfl

lemma threaded_plain (hreg : threadedAddr ∈ threadedHandlers) (e : Message β) :
    handleEvent threadedHandlers threadedMethod
        ((plain e).pushHop (.objectHandlerThreaded threadedAddr)) =
      ⟨some (threadedAddr, .plain e), match threadedMethod threadedAddr (.plain e) with
        | .ok _ => .ok true
        | .error exn => .error (.object exn)⟩ := by
  simp only [handleEvent, find, pushHop, adoptInner, lookup, route, RouteT.popBack_pushBack,
    setRoute, if_pos hreg, shareRoute, deliver]

lemma polled_connector_routes (hreg : polledAddr ∈ polledHandlers) (inner : Message β)
    (route : RouteT) : (Polled.handleEvent polledHandlers polledMethod
        ((incomingOnConnector inner route).pushHop
          (.objectHandlerPolled polledAddr))).routes =
      some (inner.route, some (inner.route.pushBack (.objectHandlerPolled polledAddr))) := by
  simp [Polled.handleEvent, pushHop, adoptInner, Polled.lookup,
    ProxyEvent.route, setRoute, hreg, Outcome.routes, innerRoute]

lemma threaded_connector_routes (hreg : threadedAddr ∈ threadedHandlers) (inner : Message β)
    (route : RouteT) : (handleEvent threadedHandlers threadedMethod
        ((incomingOnConnector inner route).pushHop
          (.objectHandlerThreaded threadedAddr))).routes =
      some (inner.route, some inner.route) := by
  simp [handleEvent, find, pushHop, adoptInner, lookup, ProxyEvent.route, setRoute, hreg,
    shareRoute, deliver, Outcome.routes, innerRoute]

/-- **When the two proxies are interchangeable.** -/
theorem proxies_interchangeable_iff (hpolled : polledAddr ∈ polledHandlers)
    (hthreaded : threadedAddr ∈ threadedHandlers) (e : ProxyEvent β) : Interchangeable e.base
        (Polled.handleEvent polledHandlers polledMethod
          (e.pushHop (.objectHandlerPolled polledAddr)))
        (Threaded.handleEvent threadedHandlers threadedMethod
          (e.pushHop (.objectHandlerThreaded threadedAddr))) ↔
      e.Calm (threadedMethod threadedAddr) := by
  cases e with
  | startService route | incomingOnAcceptor inner route =>
    refine iff_of_true ⟨rfl, ?_, rfl⟩ trivial
    rintro x ⟨⟩
  | incomingOnConnector inner route =>
    refine iff_of_false (fun h => ?_) not_false
    have hroutes := h.routes
    rw [polled_connector_routes hpolled, threaded_connector_routes hthreaded] at hroutes
    simp [RouteT.pushBack] at hroutes
  | plain e =>
    rw [polled_plain hpolled, threaded_plain hthreaded]
    constructor
    · intro h
      cases hres : threadedMethod threadedAddr (.plain e) with
      | ok handled => exact ⟨handled, hres⟩
      | error exn =>
        have hresult := h.result
        rw [hres] at hresult
        cases hresult
    · rintro ⟨handled, hres⟩
      refine ⟨rfl, ?_, ?_⟩
      · rintro x ⟨⟩
        exact ⟨rfl, fun _ hroute => by cases hroute⟩
      · rw [hres]

end

def diligent : ObjectMethod Unit Unit := fun _ _ => .ok true

def failing : ObjectMethod Unit Unit := fun _ _ => .error ()

theorem proxies_interchangeable_plain : Interchangeable [.localService 7#32]
      (Polled.handleEvent {1#64} diligent
        (.plain ⟨[.localService 7#32, .objectHandlerPolled 1#64], ()⟩))
      (Threaded.handleEvent {2#64} diligent
        (.plain ⟨[.localService 7#32, .objectHandlerThreaded 2#64], ()⟩)) :=
  (proxies_interchangeable_iff (Finset.mem_singleton_self 1#64) (Finset.mem_singleton_self 2#64)
    (.plain ⟨[.localService 7#32], ()⟩)).mpr ⟨true, rfl⟩

/-- **The proxies differ**, in the inner route and in exceptions. -/
theorem proxies_differ : ¬ Interchangeable [.localService 7#32] (Polled.handleEvent {1#64} diligent
          (.incomingOnConnector ⟨[.localService 7#32, .objectHandlerPolled 1#64], ()⟩ []))
        (Threaded.handleEvent {2#64} diligent
          (.incomingOnConnector ⟨[.localService 7#32, .objectHandlerThreaded 2#64], ()⟩ [])) ∧
      ¬ Interchangeable [.localService 7#32] (Polled.handleEvent {1#64} failing
          (.plain ⟨[.localService 7#32, .objectHandlerPolled 1#64], ()⟩))
        (Threaded.handleEvent {2#64} failing
          (.plain ⟨[.localService 7#32, .objectHandlerThreaded 2#64], ()⟩)) := by
  refine ⟨fun h => ?_, fun h => ?_⟩
  · have hroutes : some ([Route.localService 7#32],
        some [Route.localService 7#32, .objectHandlerPolled 1#64]) =
        some ([Route.localService 7#32], some [Route.localService 7#32]) := h.routes
    exact absurd hroutes (by decide)
  · have hresult : Except.ok true = Except.error (Thrown.object ()) := h.result
    cases hresult

end Megatron.ObjectProxy
