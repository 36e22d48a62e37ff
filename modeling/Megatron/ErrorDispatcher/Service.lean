import Megatron.Events.Packing
import Megatron.Library.Runs

/-!
The error dispatcher (`modules/errorDispatcher/errorDispatcherService.cpp`): services
subscribe with a route, and every message is passed on to the subscribers.
-/

namespace Megatron.ErrorDispatcher

open Library List

inductive Incoming where
  | event (e : Event)
  | startService (route : RouteT)
  | incomingOnAcceptor (e : Event) (route : RouteT)
  deriving DecidableEq, Repr

def Incoming.route : Incoming → RouteT
  | .event e => e.route
  | .startService route => route
  | .incomingOnAcceptor _ route => route

structure Handled where
  subscribers : List RouteT
  passed : List Event
  result : Except Exn Bool

/-- The loop of `on_errorDispatcherSendMessage`. -/
def notifyLoop (opcode msg : Bytes) : List RouteT → List Event × Except Exn Bool
  | [] => ([], .ok true)
  | subscriber :: subscribers =>
    match poppedFrontRoute subscriber with
    | .error exn => ([], .error exn)
    | .ok route =>
      let rest := notifyLoop opcode msg subscribers
      (⟨route, .notifySubscriber opcode msg⟩ :: rest.1, rest.2)

/-- `on_errorDispatcherSendMessage`. -/
def onSendMessage (subscribers : List RouteT) (opcode msg : Bytes) : Handled :=
  let loop := notifyLoop opcode msg subscribers
  ⟨subscribers, loop.1, loop.2⟩

/-- `on_errorDispatcherSubscribe`. -/
def onSubscribe (subscribers : List RouteT) (route : RouteT) : Handled :=
  ⟨insertBy RouteT.lt id route subscribers, [], .ok true⟩

/-- `on_errorDispatcherUnsubscribeAll`. -/
def onUnsubscribeAll (subscribers : List RouteT) (route : RouteT) : Handled :=
  ⟨eraseBy RouteT.lt id route subscribers, [], .ok true⟩

/-- The handlers, chosen by the id of the event. -/
def onEvent (subscribers : List RouteT) (e : Event) : Handled :=
  match e.body with
  | .subscribe => onSubscribe subscribers e.route
  | .unsubscribe => onUnsubscribeAll subscribers e.route
  | .sendMessage opcode msg => onSendMessage subscribers opcode msg
  | _ => ⟨subscribers, [], .ok false⟩

/-- `handleEvent` behind the cast. -/
def dispatch (subscribers : List RouteT) : Incoming → Handled
  | .event e => onEvent subscribers e
  | .startService _ => ⟨subscribers, [], .ok true⟩
  | .incomingOnAcceptor e _ => onEvent subscribers e

/-- `static_cast<const errorDispatcherEvent::Subscribe*>` does not look at the object. -/
def staticCastSubscribe (e : Incoming) : Option Incoming := some e

def handleEvent (subscribers : List RouteT) (e : Incoming) : Handled :=
  match staticCastSubscribe e with
  | some z => onSubscribe subscribers z.route
  | none => dispatch subscribers e

def subscribersAfter (handle : List RouteT → Incoming → Handled) (evs : List Incoming) :
    List RouteT := evs.foldl (fun subscribers e => (handle subscribers e).subscribers) []

/-! ### Subscriptions -/

def Incoming.carried : Incoming → Option Event
  | .event e => some e
  | .startService _ => none
  | .incomingOnAcceptor e _ => some e

def Incoming.Subscribes (ev : Incoming) (route : RouteT) : Prop :=
  ev.carried = some ⟨route, .subscribe⟩

def Incoming.Unsubscribes (ev : Incoming) (route : RouteT) : Prop :=
  ev.carried = some ⟨route, .unsubscribe⟩

def Incoming.Sends (ev : Incoming) (opcode msg : Bytes) : Prop :=
  ∃ route, ev.carried = some ⟨route, .sendMessage opcode msg⟩

instance (ev : Incoming) (route : RouteT) : Decidable (ev.Subscribes route) :=
  inferInstanceAs (Decidable (_ = _))

instance (ev : Incoming) (route : RouteT) : Decidable (ev.Unsubscribes route) :=
  inferInstanceAs (Decidable (_ = _))

def lastIsSubscribe (route : RouteT) (evs : List Incoming) : Bool :=
  evs.foldl (fun last ev =>
    decide (ev.Subscribes route) || (last && !decide (ev.Unsubscribes route))) false

def Notices (opcode msg : Bytes) (routes : List RouteT) (passed : List Event) : Prop :=
  List.Forall₂ (fun route e => poppedFrontRoute route = .ok e.route ∧
    e.body = .notifySubscriber opcode msg) routes passed

/-- Messages go to the routes whose last operation is Subscribe. -/
def Exact (handle : List RouteT → Incoming → Handled) (evs : List Incoming) : Prop :=
  ∀ (before : List Incoming) (ev : Incoming) (after : List Incoming), evs = before ++ ev :: after →
    (∀ opcode msg, ev.Sends opcode msg → ∃ routes : List RouteT, routes.Nodup ∧
      (∀ route, route ∈ routes ↔ lastIsSubscribe route before = true) ∧
      Notices opcode msg routes (handle (subscribersAfter handle before) ev).passed) ∧
    ((∀ route, ¬ ev.Subscribes route) → ∀ route,
      route ∈ (handle (subscribersAfter handle before) ev).subscribers →
        route ∈ subscribersAfter handle before)

variable (handle : List RouteT → Incoming → Handled) (evs : List Incoming)
variable (subscribers : List RouteT) (route : RouteT) (ev : Incoming)

lemma subscribersAfter_concat : subscribersAfter handle (evs ++ [ev]) =
      (handle (subscribersAfter handle evs) ev).subscribers := by
  rw [subscribersAfter, foldl_append]
  rfl

lemma mem_subscribersAfter_handleEvent :
    route ∈ subscribersAfter handleEvent evs ↔ ∃ ev ∈ evs, ev.route = route := by
  induction evs using List.reverseRecOn with
  | nil => simp [subscribersAfter]
  | append_singleton evs ev ih =>
    rw [subscribersAfter_concat]
    simp only [handleEvent, staticCastSubscribe, onSubscribe,
      mem_insertBy_id RouteT.lt_strictTotal, ih, mem_append, mem_singleton]
    constructor
    · rintro (rfl | ⟨ev', hmem, rfl⟩)
      · exact ⟨ev, .inr rfl, rfl⟩
      · exact ⟨ev', .inl hmem, rfl⟩
    · rintro ⟨ev', hmem | rfl, rfl⟩
      · exact .inr ⟨ev', hmem, rfl⟩
      · exact .inl rfl

def Unheard (evs : List Incoming) : Prop :=
  ∀ (before : List Incoming) (ev : Incoming) (after : List Incoming), evs = before ++ ev :: after →
    (∀ opcode msg, ev.Sends opcode msg → ∀ route, lastIsSubscribe route before = false) ∧
    ((∀ route, ¬ ev.Subscribes route) → ∃ ev' ∈ before, ev'.route = ev.route)

/-- **When the subscriptions of the error dispatcher are exact.** -/
theorem subscriptions_exact_iff (evs : List Incoming) : Exact handleEvent evs ↔ Unheard evs := by
  constructor
  · intro h before ev after hsplit
    obtain ⟨hsend, hadd⟩ := h before ev after hsplit
    refine ⟨fun opcode msg hs route => ?_, fun hno => ?_⟩
    · -- no event is passed, so there must be nobody to notify
      obtain ⟨routes, -, hroutes, hnotices⟩ := hsend opcode msg hs
      obtain rfl := forall₂_nil_right_iff.mp hnotices
      rw [← Bool.not_eq_true, ← hroutes route]
      exact not_mem_nil
    · have hin := hadd hno ev.route ((mem_insertBy_id RouteT.lt_strictTotal).mpr (.inl rfl))
      exact (mem_subscribersAfter_handleEvent before ev.route).mp hin
  · intro h before ev after hsplit
    obtain ⟨hsend, hadd⟩ := h before ev after hsplit
    refine ⟨fun opcode msg hs => ?_, fun hno route hmem => ?_⟩
    · refine ⟨[], nodup_nil, fun route => ?_, List.Forall₂.nil⟩
      simp [hsend opcode msg hs route]
    · rcases (mem_insertBy_id RouteT.lt_strictTotal).mp hmem with rfl | hmem
      · exact (mem_subscribersAfter_handleEvent before ev.route).mpr (hadd hno)
      · exact hmem

/-- **The sender of a message becomes a subscriber.** -/
theorem message_subscribes_sender : lastIsSubscribe [.localService 7#32, .localService 9#32]
        [.event ⟨[.localService 7#32, .localService 9#32], .subscribe⟩] = true ∧ (handleEvent
        (subscribersAfter handleEvent
          [.event ⟨[.localService 7#32, .localService 9#32], .subscribe⟩])
        (.event ⟨[.localService 8#32, .localService 9#32], .sendMessage [1#8] [2#8]⟩)).passed = [] ∧
      ¬ Exact handleEvent [.event ⟨[.localService 7#32, .localService 9#32], .subscribe⟩,
          .event ⟨[.localService 8#32, .localService 9#32], .sendMessage [1#8] [2#8]⟩] := by
  have hlast : lastIsSubscribe [.localService 7#32, .localService 9#32]
      [.event ⟨[.localService 7#32, .localService 9#32], .subscribe⟩] = true := by decide
  refine ⟨hlast, rfl, fun hexact => ?_⟩
  obtain ⟨routes, -, hroutes, hnotices⟩ := (hexact
    [.event ⟨[.localService 7#32, .localService 9#32], .subscribe⟩] _ [] rfl).1 [1#8] [2#8] ⟨_, rfl⟩
  obtain rfl := forall₂_nil_right_iff.mp hnotices
  exact not_mem_nil ((hroutes _).mpr hlast)

end Megatron.ErrorDispatcher
