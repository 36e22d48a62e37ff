import Megatron.Events.Classes

/-!
Events on the wire (`CUtils::packEvent` and `CUtils::unpackEvent`), and events
that carry another packed event.
-/

namespace Megatron

open Library List Reader.Ensures

structure Event where
  route : RouteT
  body : EventBody
  deriving DecidableEq, Repr

def Event.id (e : Event) : BitVec 32 := e.body.cls.eventId

def Event.WellFormed (e : Event) : Prop := e.route.Packable ∧ e.body.WellFormed

/-- What `unpackEvent` consults. -/
structure Registry where
  eventConstructors : List EventClass
  plugins : BitVec 32 → List EventClass
  isTerminating : Bool

def Registry.constructor? (reg : Registry) (id : BitVec 32) : Option EventClass :=
  match reg.eventConstructors.find? (·.eventId = id) with
  | some c => some c
  | none => (reg.eventConstructors ++ reg.plugins id).find? (·.eventId = id)

lemma Registry.constructor?_of_mem {reg : Registry} {c : EventClass}
    (h : c ∈ reg.eventConstructors) : reg.constructor? c.eventId = some c := by
  have hfind : reg.eventConstructors.find? (·.eventId = c.eventId) = some c := by
    cases hf : reg.eventConstructors.find? (·.eventId = c.eventId) with
    | none => simpa using List.find?_eq_none.mp hf c h
    | some c' =>
      have hid : c'.eventId = c.eventId := by simpa using List.find?_some hf
      rw [EventClass.eventId_injective hid]
  rw [constructor?, hfind]

section

variable (T : Inet6Text) (reg : Registry)

def packEvent (e : Event) : Bytes := [putInt true e.id, e.route.pack, e.body.pack T].flatten

/-- `CUtils::unpackEvent`, null while the process terminates. -/
def unpackEvent : Reader (Option Event) :=
  if reg.isTerminating then pure none
  else do
    let id ← getInt 32
    let r ← unpackRoute
    match reg.constructor? id with
    | none => Reader.fail (.commonError "Event constructor not found for ")
    | some c =>
      let body ← unpackBody T c
      pure (some ⟨r, body⟩)

lemma unpackEvent_decodes {e : Event} (hrun : reg.isTerminating = false) (hw : e.WellFormed)
    (hreg : e.body.cls ∈ reg.eventConstructors) (hn : e.body.entries < 2 ^ 32) :
    (unpackEvent T reg).Decodes (packEvent T e) (some e) := by
  have hfound : reg.constructor? e.id = some e.body.cls := reg.constructor?_of_mem hreg
  rw [unpackEvent, hrun]
  refine Reader.Decodes.field (getInt_decodes (by norm_num) true e.id) ?_
  refine Reader.Decodes.field (unpackRoute_decodes hw.1) ?_
  rw [hfound]
  exact Reader.Decodes.field (unpackBody_decodes T hw.2 hn) (Reader.Decodes.pure _)

lemma unpackEvent_ensures :
    (unpackEvent T reg).Ensures fun o => ∀ e, o = some e → e.body.entries < 2 ^ 32 := by
  rw [unpackEvent]
  split_ifs
  · exact pure fun e he => by cases he
  · refine skip fun id => skip fun r => ?_
    cases reg.constructor? id with
    | none => intro b b' o h; cases h
    | some c =>
      refine bind (unpackBody_ensures T c) fun body hbody => ?_
      exact pure fun e he => by cases he; exact hbody

lemma unpackEvent_of_terminating (h : reg.isTerminating = true) (b : InBuffer) :
    unpackEvent T reg b = (.ok none, b) := by
  rw [unpackEvent, if_pos h]
  rfl

/-! ### Events that carry events -/

/-- `getEvent` of `ToplinkDeliverREQ` and `ToplinkDeliverRSP`. -/
def getEvent (eventData : Bytes) : Except Exn (Option Event) :=
  (unpackEvent T reg (InBuffer.ofBytes eventData)).1

def EventBody.eventData? : EventBody → Option Bytes
  | .toplinkDeliverREQ _ eventData _ => some eventData
  | .toplinkDeliverRSP eventData => some eventData
  | _ => none

inductive EventTree where
  | plain (e : Event)
  | deliverREQ (route : RouteT) (destinationService : BitVec 32) (uuid : List Bytes)
      (inner : EventTree)
  | deliverRSP (route : RouteT) (inner : EventTree)

namespace EventTree

def event : EventTree → Event
  | .plain e => e
  | .deliverREQ route destinationService uuid inner =>
    ⟨route, .toplinkDeliverREQ destinationService (packEvent T inner.event) uuid⟩
  | .deliverRSP route inner => ⟨route, .toplinkDeliverRSP (packEvent T inner.event)⟩

def WellFormed : EventTree → Prop
  | .plain e => e.WellFormed ∧ e.body.cls ∈ reg.eventConstructors
  | .deliverREQ route destinationService uuid inner =>
    (event T (.deliverREQ route destinationService uuid inner)).WellFormed ∧
      .toplinkDeliverREQ ∈ reg.eventConstructors ∧ inner.WellFormed
  | .deliverRSP route inner =>
    (event T (.deliverRSP route inner)).WellFormed ∧
      .toplinkDeliverRSP ∈ reg.eventConstructors ∧ inner.WellFormed

/-- No container at any depth has `2 ^ 32` or more entries. -/
def Small : EventTree → Prop
  | .plain e => e.body.entries < 2 ^ 32
  | .deliverREQ _ _ uuid inner => uuid.length < 2 ^ 32 ∧ inner.Small
  | .deliverRSP _ inner => inner.Small

def Recovered : EventTree → Event → Prop
  | .plain e, e' => e' = e
  | .deliverREQ route destinationService uuid inner, e' =>
    e' = event T (.deliverREQ route destinationService uuid inner) ∧
      ∃ d i, e'.body.eventData? = some d ∧ getEvent T reg d = .ok (some i) ∧ inner.Recovered i
  | .deliverRSP route inner, e' =>
    e' = event T (.deliverRSP route inner) ∧
      ∃ d i, e'.body.eventData? = some d ∧ getEvent T reg d = .ok (some i) ∧ inner.Recovered i

def RecoveredFrom (t : EventTree) (b : InBuffer) : Prop :=
  ∃ e, unpackEvent T reg b = (.ok (some e), b.advance (packEvent T (t.event T)).length) ∧
    t.Recovered T reg e

variable {T reg}

variable {b : InBuffer} {t : EventTree}

lemma WellFormed.event (h : t.WellFormed T reg) :
    (t.event T).WellFormed ∧ (t.event T).body.cls ∈ reg.eventConstructors := by
  cases t with
  | plain e => exact h
  | deliverREQ route dst uuid inner | deliverRSP route inner => exact ⟨h.1, h.2.1⟩

lemma Small.entries (h : t.Small) : (t.event T).body.entries < 2 ^ 32 := by
  cases t with
  | plain e => exact h
  | deliverREQ route dst uuid inner => exact h.1
  | deliverRSP route inner => exact Nat.two_pow_pos 32

lemma unpackEvent_of_small (hrun : reg.isTerminating = false) (hw : t.WellFormed T reg)
    (hs : t.Small) {rest : Bytes} (hb : b.unread = packEvent T (t.event T) ++ rest) :
    unpackEvent T reg b = (.ok (some (t.event T)), b.advance (packEvent T (t.event T)).length) :=
  (unpackEvent_decodes T reg hrun hw.event.1 hw.event.2 hs.entries).apply hb

lemma recovered_of_small (hrun : reg.isTerminating = false)
    (hw : t.WellFormed T reg) (hs : t.Small) : t.Recovered T reg (t.event T) := by
  have hinner : ∀ inner : EventTree, inner.WellFormed T reg → inner.Small →
      getEvent T reg (packEvent T (inner.event T)) = .ok (some (inner.event T)) := by
    intro inner hwi hsi
    have hb : (InBuffer.ofBytes (packEvent T (inner.event T))).unread
        = packEvent T (inner.event T) ++ [] := by
      rw [unread_ofBytes, append_nil]
    rw [getEvent, unpackEvent_of_small hrun hwi hsi hb]
  induction t with
  | plain e => rfl
  | deliverREQ route dst uuid inner ih =>
    exact ⟨rfl, _, _, rfl, hinner inner hw.2.2 hs.2, ih hw.2.2 hs.2⟩
  | deliverRSP route inner ih => exact ⟨rfl, _, _, rfl, hinner inner hw.2.2 hs, ih hw.2.2 hs⟩

lemma small_of_recovered {e : Event}
    (hread : (unpackEvent T reg b).1 = .ok (some e)) (h : t.Recovered T reg e) : t.Small := by
  have hentries : e.body.entries < 2 ^ 32 :=
    unpackEvent_ensures T reg b (unpackEvent T reg b).2 (some e) (by rw [← hread]) e rfl
  induction t generalizing b e with
  | plain e' =>
    rw [show e = e' from h] at hentries
    exact hentries
  | deliverREQ route dst uuid inner ih =>
    obtain ⟨rfl, d, i, -, hi, hrec⟩ := h
    refine ⟨hentries, ih hi hrec ?_⟩
    exact unpackEvent_ensures T reg _ (unpackEvent T reg _).2 (some i) (by rw [← hi]; rfl) i rfl
  | deliverRSP route inner ih =>
    obtain ⟨rfl, d, i, -, hi, hrec⟩ := h
    refine ih hi hrec ?_
    exact unpackEvent_ensures T reg _ (unpackEvent T reg _).2 (some i) (by rw [← hi]; rfl) i rfl

end EventTree

/-- **The round trip of events**: every container has fewer than `2 ^ 32` entries. -/
theorem unpackEvent_recovers_iff (t : EventTree) (hw : t.WellFormed T reg) (b : InBuffer)
    (rest : Bytes) (hb : b.unread = packEvent T (t.event T) ++ rest) :
    t.RecoveredFrom T reg b ↔ reg.isTerminating = false ∧ t.Small := by
  constructor
  · rintro ⟨e, hread, hrec⟩
    refine ⟨?_, EventTree.small_of_recovered (by rw [hread]) hrec⟩
    by_contra hterm
    rw [unpackEvent_of_terminating T reg (by simpa using hterm)] at hread
    cases hread
  · rintro ⟨hrun, hs⟩
    exact ⟨_, EventTree.unpackEvent_of_small hrun hw hs hb, EventTree.recovered_of_small hrun hw hs⟩

end

/-! ### A concrete text form -/

def hexPair (c : Byte) : Bytes := [0x61#8 + (c >>> 4), 0x61#8 + (c &&& 0x0F#8)]

def unhex : Bytes → Bytes
  | x :: y :: rest => ((x - 0x61#8) <<< 4 ||| (y - 0x61#8)) :: unhex rest
  | _ => []

private lemma hexPair_spec : ∀ c : Byte,
    (0x61#8 + (c >>> 4) - 0x61#8) <<< 4 ||| (0x61#8 + (c &&& 0x0F#8) - 0x61#8) = c ∧
      0x61#8 + (c >>> 4) ≠ 0#8 ∧ 0x61#8 + (c &&& 0x0F#8) ≠ 0#8 := by
  decide

lemma unhex_flatMap (l : Bytes) : unhex (l.flatMap hexPair) = l := by
  induction l with
  | nil => rfl
  | cons c l ih =>
    rw [flatMap_cons]
    show (_ :: unhex (l.flatMap hexPair)) = _
    rw [ih, (hexPair_spec c).1]

lemma length_flatMap_hexPair (l : Bytes) : (l.flatMap hexPair).length = 2 * l.length := by
  induction l with
  | nil => rfl
  | cons c l ih =>
    rw [flatMap_cons, length_append, ih, length_cons]
    show 2 + _ = _
    omega

def hexText : Inet6Text where
  inetNtop a := a.toList.flatMap hexPair
  inetPton s :=
    if h : (unhex s).length = 16 then some ⟨(unhex s).toArray, by simpa using h⟩ else none
  pton_ntop a := by
    have h := unhex_flatMap a.toList
    rw [dif_pos (by rw [h, Vector.length_toList]), Option.some.injEq, ← Vector.toArray_inj]
    show (unhex (a.toList.flatMap hexPair)).toArray = a.toArray
    rw [h]
    exact Array.toArray_toList
  ntop_ne_zero a c hc := by
    obtain ⟨x, -, hx⟩ := mem_flatMap.mp hc
    obtain ⟨-, h₁, h₂⟩ := hexPair_spec x
    rcases mem_pair.mp hx with rfl | rfl
    · exact h₁
    · exact h₂
  length_ntop a := by
    rw [length_flatMap_hexPair, Vector.length_toList]
    norm_num

def fullRegistry : Registry := ⟨EventClass.all, fun _ => [], false⟩

def nestedRequest : EventTree :=
  .deliverREQ [.localService 7#32] 5#32 [[0x61#8]]
    (.deliverRSP [.remoteAddr 3#64]
      (.plain ⟨[], .getCloudRootsREQ [.inet 0x5000#16 0x0100007F#32]⟩))

theorem unpackEvent_recovers_nestedRequest : nestedRequest.RecoveredFrom hexText fullRegistry
      (InBuffer.ofBytes (packEvent hexText (nestedRequest.event hexText) ++ [0x2A#8])) := by
  have hset : IsAddrSet [.inet 0x5000#16 0x0100007F#32] :=
    ⟨pairwise_singleton _ _, by simp [Msockaddr.isInet]⟩
  have huuid : IsStringSet [[0x61#8]] :=
    ⟨pairwise_singleton _ _, fun c hc => by rw [mem_singleton.mp hc]; norm_num⟩
  have hroute : ∀ hop : Route, hop.isListener = false → RouteT.Packable [hop] :=
    fun hop h => ⟨by simpa using h, (by norm_num : 1 < 2 ^ 64)⟩
  have hinner : (EventTree.plain
      ⟨[], .getCloudRootsREQ [.inet 0x5000#16 0x0100007F#32]⟩).WellFormed hexText fullRegistry :=
    ⟨⟨⟨by simp, (by norm_num : 0 < 2 ^ 64)⟩, hset⟩, EventClass.mem_all _⟩
  have hw : nestedRequest.WellFormed hexText fullRegistry := by
    refine ⟨⟨hroute _ rfl, ?_, huuid⟩, EventClass.mem_all _,
      ⟨hroute _ rfl, ?_⟩, EventClass.mem_all _, hinner⟩
    · decide +kernel
    · show (packEvent hexText _).length < 2 ^ 64
      decide +kernel
  exact (unpackEvent_recovers_iff hexText fullRegistry nestedRequest hw _ [0x2A#8]
    (unread_ofBytes _)).mpr
    ⟨rfl, (by norm_num : 1 < 2 ^ 32), (by norm_num : 1 < 2 ^ 32)⟩

/-- A list of `2 ^ 32` referrers. -/
def hugeResponse : EventTree :=
  .plain ⟨[], .getReferrersRSP (List.replicate (2 ^ 32) (.inet 0#16 0#32))⟩

theorem unpackEvent_hugeResponse_not_recovered : hugeResponse.WellFormed hexText fullRegistry ∧
      ¬ hugeResponse.RecoveredFrom hexText fullRegistry
        (InBuffer.ofBytes (packEvent hexText (hugeResponse.event hexText))) := by
  constructor
  · refine ⟨⟨⟨by simp, by simp⟩, fun a ha => ?_⟩, by decide⟩
    rw [eq_of_mem_replicate ha]
    rfl
  · rintro ⟨e, hread, hrec⟩
    have hsmall : hugeResponse.Small := EventTree.small_of_recovered (by rw [hread]) hrec
    have hlen : (List.replicate (2 ^ 32) (Msockaddr.inet 0#16 0#32)).length < 2 ^ 32 := hsmall
    rw [length_replicate] at hlen
    exact lt_irrefl _ hlen

end Megatron
