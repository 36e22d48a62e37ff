import Megatron.Library.Runs
import Megatron.Rpc.Service

/-!
The subscribers of the RPC service: `on_SubscribeNotifications` and
`on_UnsubscribeNotifications` of `modules/rpc/rpcService.cpp`, and the route that
`CInstance::sendEvent` gives the two events.
-/

namespace Megatron

open Library

/-- `ServiceEnum::RPC`. -/
def rpcServiceId : ServiceId := ghash "@g_RPC"

/-- The route of an event after `CInstance::sendEvent(svs, e)`. -/
def sentRoute (svs : ServiceId) (route : RouteT) : RouteT := route.pushBack (.localService svs)

def onSubscribeNotifications (st : RpcState) (route : RouteT) : Except Exn RpcState := do
  let subscriber ← poppedFrontRoute route
  pure { st with subscribers := insertBy RouteT.lt id subscriber st.subscribers }

def onUnsubscribeNotifications (st : RpcState) (route : RouteT) : RpcState :=
  { st with subscribers := eraseBy RouteT.lt id route st.subscribers }

inductive NotificationOp where
  | subscribe (route : RouteT)
  | unsubscribe (route : RouteT)
  deriving DecidableEq, Repr

namespace NotificationOp

def deliver (st : RpcState) : NotificationOp → Except Exn RpcState
  | .subscribe route => onSubscribeNotifications st (sentRoute rpcServiceId route)
  | .unsubscribe route => .ok (onUnsubscribeNotifications st (sentRoute rpcServiceId route))

def deliverAll (st : RpcState) (ops : List NotificationOp) : Except Exn RpcState :=
  ops.foldlM deliver st

def lastIsSubscribe (x : RouteT) (ops : List NotificationOp) : Bool :=
  ops.foldl (fun last op => match op with
    | .subscribe route => if route = x then true else last
    | .unsubscribe route => if route = x then false else last) false

/-- Unsubscribe comes for a route and for the route without the last hop. -/
def Matched (ops : List NotificationOp) : Prop :=
  ∀ before x after, ops = before ++ NotificationOp.subscribe x :: after →
    NotificationOp.subscribe x ∉ after →
    (NotificationOp.unsubscribe x ∈ after ↔
      ∃ y, sentRoute rpcServiceId y = x ∧ NotificationOp.unsubscribe y ∈ after)

def applied (st : RpcState) : NotificationOp → RpcState
  | .subscribe route => { st with subscribers := insertBy RouteT.lt id route st.subscribers }
  | .unsubscribe route =>
    { st with
      subscribers := eraseBy RouteT.lt id (sentRoute rpcServiceId route) st.subscribers }

variable (st : RpcState) (ops : List NotificationOp) (op : NotificationOp) (x : RouteT)

lemma deliver_eq : deliver st op = .ok (applied st op) := by
  cases op with
  | subscribe route =>
    rw [deliver, onSubscribeNotifications, sentRoute, poppedFrontRoute_pushBack]
    rfl
  | unsubscribe route => rfl

lemma deliverAll_eq : deliverAll st ops = .ok (ops.foldl applied st) := by
  induction ops generalizing st with
  | nil => rfl
  | cons op ops ih =>
    rw [deliverAll, List.foldlM_cons, deliver_eq]
    exact ih (applied st op)

lemma mem_subscribers_applied : x ∈ (applied st op).subscribers ↔ op = .subscribe x ∨
        (x ∈ st.subscribers ∧ ¬ ∃ y, sentRoute rpcServiceId y = x ∧ op = .unsubscribe y) := by
  cases op with
  | subscribe route =>
    rw [applied, mem_insertBy_id RouteT.lt_strictTotal]
    simp [eq_comm]
  | unsubscribe route =>
    rw [applied, mem_eraseBy_id RouteT.lt_strictTotal]
    simp [eq_comm]

lemma lastIsSubscribe_step (last : Bool) (op : NotificationOp) : (match op with
      | .subscribe route => if route = x then true else last
      | .unsubscribe route => if route = x then false else last) = true ↔
      op = .subscribe x ∨ (last = true ∧ op ≠ .unsubscribe x) := by
  cases op with
  | subscribe route | unsubscribe route => by_cases h : route = x <;> simp [h]

lemma exists_last_subscribe {ops : List NotificationOp} {x : RouteT} (h : .subscribe x ∈ ops) :
    ∃ before after, ops = before ++ NotificationOp.subscribe x :: after ∧
      NotificationOp.subscribe x ∉ after := by
  obtain ⟨as, bs, hsplit, has⟩ := List.eq_append_cons_of_mem (List.mem_reverse.mpr h)
  refine ⟨bs.reverse, as.reverse, ?_, fun hmem => has (List.mem_reverse.mp hmem)⟩
  rw [← List.reverse_reverse ops, hsplit]
  simp

section

variable {ops before after : List NotificationOp} {x : RouteT}

lemma not_mem_of_not_subscribed (h : .subscribe x ∉ ops) :
    x ∉ (ops.foldl applied RpcState.initial).subscribers := by
  rw [foldl_latch_of_not_adds (P := fun st => x ∈ st.subscribers)
    (fun st op => mem_subscribers_applied st op x)]
  · simp [RpcState.initial]
  · rintro op hop rfl
    exact h hop

lemma lastIsSubscribe_of_not_subscribed (h : .subscribe x ∉ ops) :
    ¬ lastIsSubscribe x ops = true := by
  rw [lastIsSubscribe, foldl_latch_of_not_adds (P := (· = true)) (lastIsSubscribe_step x)]
  · simp
  · rintro op hop rfl
    exact h hop

lemma mem_subscribers_iff (h : .subscribe x ∉ after) :
    x ∈ ((before ++ .subscribe x :: after).foldl applied RpcState.initial).subscribers ↔
      ¬ ∃ y, sentRoute rpcServiceId y = x ∧ .unsubscribe y ∈ after := by
  rw [foldl_latch (P := fun st => x ∈ st.subscribers)
    (fun st op => mem_subscribers_applied st op x) (by rfl)]
  · constructor
    · rintro hno ⟨y, hy, hmem⟩
      exact hno _ hmem ⟨y, hy, rfl⟩
    · rintro hno op hop ⟨y, hy, rfl⟩
      exact hno ⟨y, hy, hop⟩
  · rintro op hop rfl
    exact h hop

lemma lastIsSubscribe_iff (h : .subscribe x ∉ after) :
    lastIsSubscribe x (before ++ .subscribe x :: after) = true ↔ .unsubscribe x ∉ after := by
  rw [lastIsSubscribe, foldl_latch (P := (· = true)) (lastIsSubscribe_step x) rfl]
  · constructor
    · intro hno hmem
      exact hno _ hmem rfl
    · rintro hno op hop rfl
      exact hno hop
  · rintro op hop rfl
    exact h hop

end

lemma subscribers_agree_iff :
    (∀ x, x ∈ (ops.foldl applied RpcState.initial).subscribers ↔ lastIsSubscribe x ops = true)
      ↔ Matched ops := by
  constructor
  · rintro hall before x after rfl hlast
    have hx := hall x
    rw [mem_subscribers_iff hlast, lastIsSubscribe_iff hlast, not_iff_not] at hx
    exact hx.symm
  · intro hmatched x
    by_cases hx : .subscribe x ∈ ops
    · obtain ⟨before, after, rfl, hlast⟩ := exists_last_subscribe hx
      rw [mem_subscribers_iff hlast, lastIsSubscribe_iff hlast, not_iff_not]
      exact (hmatched before x after rfl hlast).symm
    · exact iff_of_false (not_mem_of_not_subscribed hx) (lastIsSubscribe_of_not_subscribed hx)

lemma notify_mem_iff (notice : RpcNotice) (x : RouteT) :
    RpcOutput.notify x notice ∈ notifySubscribers st notice ↔ x ∈ st.subscribers := by
  simp [notifySubscribers]

/-- **The subscribers are the routes whose last operation is Subscribe**, if Unsubscribe is matched.
-/
theorem subscribers_exact_iff (ops : List NotificationOp) :
    (∃ st, deliverAll RpcState.initial ops = .ok st ∧
      (∀ x, x ∈ st.subscribers ↔ lastIsSubscribe x ops = true) ∧
      ∀ notice x, .notify x notice ∈ notifySubscribers st notice ↔
        lastIsSubscribe x ops = true) ↔ Matched ops := by
  rw [← subscribers_agree_iff]
  constructor
  · rintro ⟨st, hst, hmem, -⟩
    rw [deliverAll_eq] at hst
    cases hst
    exact hmem
  · intro hmem
    exact ⟨_, deliverAll_eq _ _, hmem, fun notice x => (notify_mem_iff _ _ _).trans (hmem x)⟩

/-- **After Unsubscribe the service stays a subscriber.** -/
theorem unsubscribed_still_notified : lastIsSubscribe [.localService 7#32]
        [.subscribe [.localService 7#32], .unsubscribe [.localService 7#32]] = false ∧
      ∃ st, deliverAll RpcState.initial
          [.subscribe [.localService 7#32], .unsubscribe [.localService 7#32]] = .ok st ∧
        .notify [.localService 7#32] (.accepted 5#64) ∈ notifySubscribers st (.accepted 5#64) := by
  refine ⟨by decide, _, deliverAll_eq _ _, ?_⟩
  have hno : ¬ ∃ y, sentRoute rpcServiceId y = [.localService 7#32] ∧
      NotificationOp.unsubscribe y ∈ [.unsubscribe [.localService 7#32]] := by
    simp [sentRoute, RouteT.pushBack]
  have hmem := (@mem_subscribers_iff [] _ [.localService 7#32] (by decide)).mpr hno
  exact (notify_mem_iff _ _ _).mpr hmem

end NotificationOp

end Megatron
