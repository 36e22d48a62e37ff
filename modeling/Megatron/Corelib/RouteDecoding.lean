import Megatron.Corelib.Route

/-!
What `route_t::unpack` accepts, compared with `Route::unpack`.
-/

namespace Megatron

open Library List Route Reader

def Route.unpack : Reader Route := do
  let t ← getInt 32
  if t = 1#32 then do
    let n ← getPN
    pure (.localService (n.setWidth 32))
  else if t = 2#32 then do
    let addr ← getInt 64
    pure (.remoteAddr addr)
  else if t = 3#32 then do
    let n ← getPN
    pure (.objectHandlerPolled n)
  else if t = 5#32 then do
    let n ← getPN
    pure (.objectHandlerThreaded n)
  else if t = 4#32 then do
    let id ← getInt 64
    pure (.socketRoute id)
  else if t = 6#32 then do
    let id ← getInt 32
    pure (.thread id)
  else if t = 7#32 then do
    let n ← getPN
    pure (.listener n)
  else fail (.commonError "invalid route")

/-! ### A type and a number -/

/-- The values of `Route::RouteType`. -/
def routeTypes : List (BitVec 32) := [1#32, 2#32, 3#32, 4#32, 5#32, 6#32, 7#32]

def Route.ofType (t : BitVec 32) (n : BitVec 64) : Route :=
  if t = 1#32 then .localService (n.setWidth 32)
  else if t = 2#32 then .remoteAddr n
  else if t = 3#32 then .objectHandlerPolled n
  else if t = 4#32 then .socketRoute n
  else if t = 5#32 then .objectHandlerThreaded n
  else if t = 6#32 then .thread (n.setWidth 32)
  else .listener n

lemma Route.type_mem (hop : Route) : hop.type ∈ routeTypes := by
  cases hop <;> simp [type, routeTypes]

lemma Route.isListener_ofType {t : BitVec 32} (ht : t ∈ routeTypes) (hne : t ≠ 7#32)
    (n : BitVec 64) : (ofType t n).isListener = false := by
  simp only [routeTypes, mem_cons, not_mem_nil, or_false] at ht
  rcases ht with rfl | rfl | rfl | rfl | rfl | rfl | rfl
  case inr.inr.inr.inr.inr.inr => exact absurd rfl hne
  all_goals rfl

lemma getInt_bind {γ : Type} (w : ℕ) (f : BitVec w → Reader γ) :
    getInt w >>= f = getPN >>= fun n => f (n.setWidth w) := by
  funext b
  rcases h : getPN b with ⟨x | n, b'⟩
  · have hint : getInt w b = (.error x, b') := bind_of_error h _
    rw [bind_of_error hint, bind_of_error h]
  · have hint : getInt w b = (.ok (n.setWidth w), b') := bind_of_ok h _
    rw [bind_of_ok hint, bind_of_ok h]

lemma Route.unpack_eq : Route.unpack = getInt 32 >>= fun t =>
      if t ∈ routeTypes then getPN >>= fun n => pure (ofType t n)
      else fail (.commonError "invalid route") := by
  refine congrArg _ (funext fun t => ?_)
  by_cases ht : t ∈ routeTypes
  · rw [if_pos ht]
    simp only [routeTypes, mem_cons, not_mem_nil, or_false] at ht
    rcases ht with rfl | rfl | rfl | rfl | rfl | rfl | rfl <;>
      simp [ofType, getInt_bind]
  · rw [if_neg ht]
    simp only [routeTypes, mem_cons, not_mem_nil, or_false, not_or] at ht
    simp [ht]

lemma unpackHop_eq : unpackHop = getInt 32 >>= fun t =>
      if t = 7#32 then fail (.commonError "route unpack for listener")
      else if t ∈ routeTypes then getPN >>= fun n => pure (some (ofType t n))
      else pure none := by
  refine congrArg _ (funext fun t => ?_)
  by_cases hl : t = 7#32
  · rw [if_pos hl, if_pos hl]
  · rw [if_neg hl, if_neg hl]
    by_cases ht : t ∈ routeTypes
    · rw [if_pos ht]
      simp only [routeTypes, mem_cons, not_mem_nil, or_false] at ht
      rcases ht with rfl | rfl | rfl | rfl | rfl | rfl | rfl <;>
        simp [ofType, getInt_bind] at hl ⊢
    · rw [if_neg ht]
      simp only [routeTypes, mem_cons, not_mem_nil, or_false, not_or] at ht
      simp [ht]

/-! ### The types of the hops -/

def scanHop : Reader (BitVec 32) := do
  let t ← getInt 32
  if t ∈ routeTypes then do
    let _ ← getPN
    pure t
  else pure t

def scanRoute : Reader (List (BitVec 32)) := do
  let sz ← getPN
  repeatN scanHop sz.toNat

def MadeOf (t : BitVec 32) (o : Option Route) : Prop :=
  (o.isSome = true ↔ t ∈ routeTypes) ∧ ∀ hop, o = some hop → hop.isListener = false

lemma unpackHop_of_scan (b b' : InBuffer) (t : BitVec 32) (h : scanHop b = (.ok t, b'))
    (hne : t ≠ 7#32) : ∃ o, unpackHop b = (.ok o, b') ∧ MadeOf t o := by
  obtain ⟨t', b₁, ht', h₁⟩ := bind_eq_ok h
  by_cases htype : t' ∈ routeTypes
  · rw [if_pos htype] at h₁
    obtain ⟨n, b₂, hn, h₂⟩ := bind_eq_ok h₁
    cases h₂
    refine ⟨some (ofType t n), ?_, by simpa using htype, ?_⟩
    · rw [unpackHop_eq, bind_of_ok ht', if_neg hne, if_pos htype, bind_of_ok hn, pure_apply]
    · rintro hop ⟨⟩
      exact isListener_ofType htype hne n
  · rw [if_neg htype] at h₁
    cases h₁
    refine ⟨none, ?_, by simpa using htype, ?_⟩
    · rw [unpackHop_eq, bind_of_ok ht', if_neg hne, if_neg htype, pure_apply]
    · rintro hop ⟨⟩

lemma scan_of_unpackHop (b b' : InBuffer) (o : Option Route) (h : unpackHop b = (.ok o, b')) :
    ∃ t, scanHop b = (.ok t, b') ∧ t ≠ 7#32 ∧ MadeOf t o := by
  have h₀ := h
  rw [unpackHop_eq] at h
  obtain ⟨t, b₁, ht, h₁⟩ := bind_eq_ok h
  have hscan : ∃ b₂, scanHop b = (.ok t, b₂) ∧ t ≠ 7#32 := by
    split_ifs at h₁ with hl htype
    · cases h₁
    · obtain ⟨n, b₂, hn, -⟩ := bind_eq_ok h₁
      refine ⟨b₂, ?_, hl⟩
      rw [scanHop, bind_of_ok ht, if_pos htype, bind_of_ok hn, pure_apply]
    · refine ⟨b₁, ?_, hl⟩
      rw [scanHop, bind_of_ok ht, if_neg htype, pure_apply]
  obtain ⟨b₂, hscan, hne⟩ := hscan
  obtain ⟨o', ho', hmade⟩ := unpackHop_of_scan b b₂ t hscan hne
  rw [h₀] at ho'
  cases ho'
  exact ⟨t, hscan, hne, hmade⟩

lemma unpackRoute_of_scan {b b' : InBuffer} {ts : List (BitVec 32)}
    (h : scanRoute b = (.ok ts, b')) (hne : ∀ t ∈ ts, t ≠ 7#32) :
    ∃ hops, unpackRoute b = (.ok (hops.filterMap id), b') ∧ List.Forall₂ MadeOf ts hops := by
  obtain ⟨sz, b₁, hsz, h₁⟩ := bind_eq_ok h
  obtain ⟨hops, hhops, hmade⟩ :=
    repeatN_forall₂ (fun b b' t => unpackHop_of_scan b b' t) h₁ hne
  refine ⟨hops, ?_, hmade⟩
  rw [unpackRoute, bind_of_ok hsz, bind_of_ok hhops, pure_apply]

lemma scan_of_unpackRoute {b b' : InBuffer} {r : RouteT} (h : unpackRoute b = (.ok r, b')) :
    ∃ (sz : BitVec 64) (b₁ : InBuffer) (ts : List (BitVec 32)) (hops : List (Option Route)),
      getPN b = (.ok sz, b₁) ∧ scanRoute b = (.ok ts, b') ∧ (∀ t ∈ ts, t ≠ 7#32) ∧
      List.Forall₂ MadeOf ts hops ∧ r = hops.filterMap id ∧ hops.length = sz.toNat := by
  obtain ⟨sz, b₁, hsz, h₁⟩ := bind_eq_ok h
  obtain ⟨hops, b₂, hhops, h₂⟩ := bind_eq_ok h₁
  obtain ⟨rfl, rfl⟩ : hops.filterMap id = r ∧ b₂ = b' := by
    simpa only [pure_apply, Prod.mk.injEq, Except.ok.injEq] using h₂
  obtain ⟨ts, hts, hmade⟩ := repeatN_forall₂ (P := fun _ => True)
    (R := fun o t => t ≠ 7#32 ∧ MadeOf t o)
    (fun b b' o ho _ => scan_of_unpackHop b b' o ho) hhops fun _ _ => trivial
  obtain ⟨hne, hmade⟩ := (forall₂_and_left (p := fun t => t ≠ 7#32) ts hops).mp hmade.flip
  refine ⟨sz, b₁, ts, hops, hsz, ?_, hne, hmade, rfl, length_of_repeatN hhops⟩
  rw [scanRoute, bind_of_ok hsz, hts]

lemma forall_isSome_iff {ts : List (BitVec 32)} {hops : List (Option Route)}
    (h : List.Forall₂ MadeOf ts hops) :
    (∀ o ∈ hops, o.isSome = true) ↔ ∀ t ∈ ts, t ∈ routeTypes := by
  induction h with
  | nil => simp
  | cons hmade _ ih => rw [forall_mem_cons, forall_mem_cons, hmade.1, ih]

/-- No decoded route has a hop of type `LISTENER`. -/
lemma unpackRoute_not_listener :
    unpackRoute.Ensures fun r => ∀ hop ∈ r, hop.isListener = false := by
  intro b b' r h
  obtain ⟨sz, b₁, ts, hops, -, -, -, hmade, rfl, -⟩ := scan_of_unpackRoute h
  intro hop hhop
  obtain ⟨o, ho, rfl⟩ := mem_filterMap.mp hhop
  obtain ⟨i, hi, hget⟩ := getElem_of_mem ho
  exact (hmade.get (by rw [hmade.length_eq]; exact hi) hi).2 hop hget

lemma unpackRoute_packable : unpackRoute.Ensures RouteT.Packable := by
  intro b b' r h
  refine ⟨unpackRoute_not_listener b b' r h, ?_⟩
  obtain ⟨sz, b₁, ts, hops, -, -, -, -, rfl, hlen⟩ := scan_of_unpackRoute h
  have hle : (hops.filterMap id).length ≤ hops.length := length_filterMap_le id hops
  have hsz := sz.isLt
  omega

/-! ### Strict decoding -/

def DecodesDeclared (b : InBuffer) : Prop :=
  ∀ r b', unpackRoute b = (.ok r, b') →
    ∃ sz b₁, getPN b = (.ok sz, b₁) ∧ r.length = sz.toNat ∧ ∀ hop ∈ r, hop.type ∈ routeTypes

def DecodesRepacked (b : InBuffer) : Prop :=
  ∀ r b', unpackRoute b = (.ok r, b') →
    unpackRoute (InBuffer.ofBytes r.pack) = (.ok r, ⟨r.pack, r.pack.length⟩)

def SameHop : Except Exn RouteT × InBuffer → Except Exn Route × InBuffer → Prop
  | (.ok r, b), (.ok hop, b') => r = [hop] ∧ b = b'
  | (.error _, _), (.error _, _) => True
  | (.ok _, _), (.error _, _) => False
  | (.error _, _), (.ok _, _) => False

def oneHop (bs : Bytes) : InBuffer := InBuffer.ofBytes (putPN 1#64 ++ bs)

def HopAgrees (bs : Bytes) : Prop :=
  (getInt 32 ((oneHop bs).advance 1)).1 ≠ .ok 7#32 →
    SameHop (unpackRoute (oneHop bs)) (Route.unpack ((oneHop bs).advance 1))

/-- A hop has none of the types of `Route`. -/
def HasUntypedHop (b : InBuffer) : Prop :=
  ∃ ts b', scanRoute b = (.ok ts, b') ∧ (∀ t ∈ ts, t ≠ 7#32) ∧ ∃ t ∈ ts, t ∉ routeTypes

lemma decodesDeclared_iff (b : InBuffer) : DecodesDeclared b ↔ ¬ HasUntypedHop b := by
  constructor
  · rintro h ⟨ts, b', hscan, hne, t, ht, htype⟩
    obtain ⟨hops, hroute, hmade⟩ := unpackRoute_of_scan hscan hne
    obtain ⟨sz, b₁, hsz, hlen, -⟩ := h _ _ hroute
    obtain ⟨sz', b₁', ts', hops', hsz', hscan', -, hmade', -, hlen'⟩ := scan_of_unpackRoute hroute
    obtain rfl : sz = sz' := by
      rw [hsz] at hsz'
      cases hsz'
      rfl
    obtain rfl : ts = ts' := by
      rw [hscan] at hscan'
      cases hscan'
      rfl
    have hall : (hops.filterMap id).length = hops.length := by
      calc (hops.filterMap id).length = sz.toNat := hlen
        _ = ts.length := by rw [← hlen', hmade'.length_eq]
        _ = hops.length := hmade.length_eq
    rw [filterMap_length_eq_length] at hall
    exact htype ((forall_isSome_iff hmade).mp hall t ht)
  · intro h r b' hroute
    obtain ⟨sz, b₁, ts, hops, hsz, hscan, hne, hmade, rfl, hlen⟩ := scan_of_unpackRoute hroute
    have htypes : ∀ t ∈ ts, t ∈ routeTypes := by
      intro t ht
      by_contra htype
      exact h ⟨ts, b', hscan, hne, t, ht, htype⟩
    refine ⟨sz, b₁, hsz, ?_, fun hop _ => hop.type_mem⟩
    rw [← hlen, filterMap_length_eq_length]
    exact (forall_isSome_iff hmade).mpr htypes

lemma decodesRepacked (b : InBuffer) : DecodesRepacked b := by
  intro r b' hroute
  have hunread : (InBuffer.ofBytes r.pack).unread = r.pack ++ [] := by
    rw [unread_ofBytes, append_nil]
  rw [(unpackRoute_decodes (unpackRoute_packable _ _ _ hroute)).apply hunread, InBuffer.ofBytes,
    Cursor.advance, Nat.zero_add]

lemma unpackRoute_oneHop (bs : Bytes) : unpackRoute (oneHop bs) =
    (unpackHop >>= fun o => pure [o].reduceOption) ((oneHop bs).advance 1) := by
  have hunread : (oneHop bs).unread = putPN 1#64 ++ bs := by rw [oneHop, unread_ofBytes]
  have hcount : getPN (oneHop bs) = (.ok 1#64, (oneHop bs).advance 1) :=
    (getPN_decodes 1#64).apply hunread
  rw [unpackRoute, bind_of_ok hcount]
  rcases h : unpackHop ((oneHop bs).advance 1) with ⟨x | o, b'⟩
  · rw [bind_of_error h]
    exact bind_of_error (bind_of_error h _) _
  · rw [bind_of_ok h]
    exact bind_of_ok (bind_of_ok h _) _

lemma sameHop_iff {b b₁ : InBuffer} {t : BitVec 32} (ht : getInt 32 b = (.ok t, b₁))
    (hne : t ≠ 7#32) : SameHop ((unpackHop >>= fun o => pure [o].reduceOption) b) (Route.unpack b) ↔
      t ∈ routeTypes := by
  have hhop : unpackHop b = (if t ∈ routeTypes then
      getPN >>= fun n => pure (some (ofType t n))
      else pure none : Reader (Option Route)) b₁ := by
    rw [unpackHop_eq, bind_of_ok ht, if_neg hne]
  rw [unpack_eq, bind_of_ok ht]
  by_cases htype : t ∈ routeTypes
  · rw [if_pos htype] at hhop ⊢
    refine iff_of_true ?_ htype
    rcases hn : getPN b₁ with ⟨x | n, b₂⟩
    · rw [bind_of_error hn] at hhop ⊢
      rw [bind_of_error hhop]
      trivial
    · rw [bind_of_ok hn, pure_apply] at hhop ⊢
      rw [bind_of_ok hhop]
      exact ⟨rfl, rfl⟩
  · rw [if_neg htype, pure_apply] at hhop
    rw [if_neg htype, bind_of_ok hhop]
    exact iff_of_false not_false htype

lemma hopAgrees_iff (bs : Bytes) :
    HopAgrees bs ↔ ∀ t, (getInt 32 ((oneHop bs).advance 1)).1 = .ok t → t ∈ routeTypes := by
  rw [HopAgrees, unpackRoute_oneHop]
  generalize (oneHop bs).advance 1 = b
  rcases ht : getInt 32 b with ⟨x | t, b₁⟩
  · -- the type cannot be read: both decoders throw
    have hhop : unpackHop b = (.error x, b₁) := by rw [unpackHop_eq, bind_of_error ht]
    rw [unpack_eq, bind_of_error ht, bind_of_error hhop]
    refine iff_of_true (fun _ => trivial) ?_
    rintro t ⟨⟩
  · by_cases hne : t = 7#32
    · subst hne
      refine iff_of_true (fun h => absurd rfl h) ?_
      rintro t ⟨⟩
      simp [routeTypes]
    · have hok : Except.ok (ε := Exn) t ≠ .ok 7#32 := fun h => hne (Except.ok.inj h)
      constructor
      · rintro h t' ⟨⟩
        exact (sameHop_iff ht hne).mp (h hok)
      · intro h _
        exact (sameHop_iff ht hne).mpr (h t rfl)

/-- **When decoding is strict**: unless a hop has no type. -/
theorem route_decoding_strict_iff (b : InBuffer) (bs : Bytes) :
    (DecodesDeclared b ↔ ¬ HasUntypedHop b) ∧ DecodesRepacked b ∧
      (HopAgrees bs ↔ ∀ t, (getInt 32 ((oneHop bs).advance 1)).1 = .ok t → t ∈ routeTypes) :=
  ⟨decodesDeclared_iff b, decodesRepacked b, hopAgrees_iff bs⟩

/-- **A hop without a type is passed over.** -/
theorem untyped_hop_passed_over :
    ¬ DecodesDeclared (InBuffer.ofBytes [1#8, 99#8]) ∧ ¬ HopAgrees [99#8] := by
  refine ⟨fun h => ?_, fun h => ?_⟩
  · obtain ⟨sz, b₁, hsz, hlen, -⟩ := h [] ⟨[1#8, 99#8], 2⟩ (by decide)
    have hone : getPN (InBuffer.ofBytes [1#8, 99#8]) = (.ok 1#64, ⟨[1#8, 99#8], 1⟩) := by decide
    rw [hone] at hsz
    cases hsz
    exact absurd hlen (by decide)
  · exact h (by decide)

end Megatron
