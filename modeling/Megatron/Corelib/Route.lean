import Megatron.Corelib.IoBuffer
import Megatron.Library.Ordered

/-!
Routes (`corelib/route_t`): the list of hops an event carries. The last hop is
the next one to take: `push_back` and `pop_back` work at the end.
-/

namespace Megatron

open Library Reader.Decodes

abbrev ServiceId := BitVec 32

/-- The class `Route`: one hop. -/
inductive Route where
  | localService (id : BitVec 32)
  | remoteAddr (addr : BitVec 64)
  | objectHandlerPolled (addr : BitVec 64)
  | socketRoute (id : BitVec 64)
  | objectHandlerThreaded (addr : BitVec 64)
  | thread (id : BitVec 32)
  | listener (id : BitVec 64)
  deriving DecidableEq, Repr

namespace Route

/-- `Route::RouteType`. -/
def type : Route → BitVec 32
  | .localService _ => 1#32
  | .remoteAddr _ => 2#32
  | .objectHandlerPolled _ => 3#32
  | .socketRoute _ => 4#32
  | .objectHandlerThreaded _ => 5#32
  | .thread _ => 6#32
  | .listener _ => 7#32

/-- The hop is of type `LISTENER`. -/
def isListener : Route → Bool
  | .listener _ => true
  | _ => false

def pack (r : Route) : Bytes :=
  putInt true r.type ++ match r with
    | .localService id => putPN (id.signExtend 64)
    | .remoteAddr addr => putInt true addr
    | .objectHandlerPolled addr => putPN addr
    | .socketRoute id => putInt true id
    | .objectHandlerThreaded addr => putPN addr
    | .thread id => putInt true id
    | .listener id => putPN id

end Route

abbrev RouteT := List Route

namespace RouteT

def pushBack (r : RouteT) (hop : Route) : RouteT := r ++ [hop]

def popBack (r : RouteT) : Except Exn (Route × RouteT) :=
  match r.getLast? with
  | none => .error (.runtimeError "route_t::pop_back: m_container.size()==0")
  | some hop => .ok (hop, r.dropLast)

@[simp] lemma popBack_pushBack (r : RouteT) (hop : Route) :
    popBack (pushBack r hop) = .ok (hop, r) := by
  simp [popBack, pushBack]

def pack (r : RouteT) : Bytes := putPN (sizeT r) ++ r.flatMap Route.pack

def Packable (r : RouteT) : Prop := (∀ hop ∈ r, hop.isListener = false) ∧ r.length < 2 ^ 64

end RouteT

def poppedFrontRoute (r : RouteT) : Except Exn RouteT := do
  let popped ← r.popBack
  pure popped.2

@[simp] lemma poppedFrontRoute_pushBack (r : RouteT) (hop : Route) :
    poppedFrontRoute (r.pushBack hop) = .ok r := by
  simp [poppedFrontRoute]

lemma route_eq_nil_of_error {r : RouteT} {e : Exn} (h : poppedFrontRoute r = .error e) :
    r = [] := by
  rcases List.eq_nil_or_concat' r with rfl | ⟨r, hop, rfl⟩
  · rfl
  · rw [show r ++ [hop] = RouteT.pushBack r hop from rfl, poppedFrontRoute_pushBack] at h
    cases h

/-! ### The order of routes -/

def Route.value : Route → ℤ
  | .localService id => id.toInt
  | .remoteAddr addr => addr.toInt
  | .objectHandlerPolled addr => addr.toNat
  | .socketRoute id => id.toInt
  | .objectHandlerThreaded addr => addr.toNat
  | .thread id => id.toInt
  | .listener id => id.toNat

/-- One round of the loop in `route_t::operator<`. -/
def Route.lt (a b : Route) : Bool :=
  pairLt (fun x y : ℕ => decide (y < x)) (fun x y : ℤ => decide (y < x))
    (a.type.toNat, a.value) (b.type.toNat, b.value)

def RouteT.lt (a b : RouteT) : Bool :=
  pairLt (fun x y : ℕ => decide (y < x)) (lexLt Route.lt) (a.length, a) (b.length, b)

lemma Route.key_injective : Function.Injective fun r : Route => (r.type.toNat, r.value) := by
  intro a b h
  obtain ⟨htype, hvalue⟩ := Prod.ext_iff.mp h
  cases a <;> cases b <;> simp [Route.type, Route.value] at htype hvalue ⊢ <;>
    first
      | exact BitVec.eq_of_toInt_eq hvalue
      | exact BitVec.eq_of_toNat_eq (by exact_mod_cast hvalue)

lemma Route.lt_strictTotal : StrictTotal Route.lt :=
  (pairLt_strictTotal gt_strictTotal gt_strictTotal).comap Route.key_injective

lemma RouteT.lt_strictTotal : StrictTotal RouteT.lt :=
  (pairLt_strictTotal gt_strictTotal (lexLt_strictTotal Route.lt_strictTotal)).comap
    fun _ _ h => (Prod.ext_iff.mp h).2

/-- One round of the loop in `route_t::unpack`. -/
def unpackHop : Reader (Option Route) := do
  let t ← getInt 32
  if t = 7#32 then Reader.fail (.commonError "route unpack for listener")
  else if t = 1#32 then do
    let id ← getInt 32
    pure (some (.localService id))
  else if t = 6#32 then do
    let id ← getInt 32
    pure (some (.thread id))
  else if t = 2#32 then do
    let addr ← getInt 64
    pure (some (.remoteAddr addr))
  else if t = 3#32 then do
    let z ← getPN
    pure (some (.objectHandlerPolled z))
  else if t = 5#32 then do
    let z ← getPN
    pure (some (.objectHandlerThreaded z))
  else if t = 4#32 then do
    let id ← getInt 64
    pure (some (.socketRoute id))
  else pure none

/-- `route_t::unpack` into an empty route. -/
def unpackRoute : Reader RouteT := do
  let sz ← getPN
  let hops ← Reader.repeatN unpackHop sz.toNat
  pure (hops.filterMap id)

lemma unpackHop_decodes {hop : Route} (h : hop.isListener = false) :
    unpackHop.Decodes hop.pack (some hop) := by
  have htype : (getInt 32).Decodes (putInt true hop.type) hop.type :=
    getInt_decodes (by norm_num) true _
  cases hop with
  | listener id => exact absurd h (by simp [Route.isListener])
  | localService id | thread id =>
    exact htype.bind (map _ (getInt_decodes (by norm_num) true id))
  | remoteAddr addr =>
    exact htype.bind (map _ (getInt_decodes (le_refl 64) true addr))
  | socketRoute id => exact htype.bind (map _ (getInt_decodes (le_refl 64) true id))
  | objectHandlerPolled addr | objectHandlerThreaded addr =>
    exact htype.bind (map _ (getPN_decodes addr))

lemma unpackRoute_decodes {r : RouteT} (h : r.Packable) : unpackRoute.Decodes r.pack r := by
  refine bind (getPN_decodes (sizeT r)) ?_
  rw [toNat_sizeT h.2]
  have hops := map (fun hops => hops.filterMap id)
    (repeatN r fun hop hhop => unpackHop_decodes (h.1 hop hhop))
  have hid : (r.map some).filterMap id = r := by simp
  rwa [hid] at hops

end Megatron
