import Megatron.Corelib.Route
import Megatron.Library.WeakOrder

/-!
The comparisons `route_t::operator<` and `route_t::operator==`, round by round.
-/

namespace Megatron

open Library

namespace Route

/-- The switch in the loop of `operator<`. -/
def memberLess : Route → Route → Option Bool
  | .localService x, .localService y => if x ≠ y then some (x.slt y) else none
  | .listener x, .listener y => if x ≠ y then some (x.ult y) else none
  | .thread x, .thread y => if x ≠ y then some (x.slt y) else none
  | .remoteAddr x, .remoteAddr y => if x ≠ y then some (x.slt y) else none
  | .objectHandlerPolled x, .objectHandlerPolled y => if x ≠ y then some (x.ult y) else none
  | .objectHandlerThreaded x, .objectHandlerThreaded y => if x ≠ y then some (x.ult y) else none
  | .socketRoute x, .socketRoute y => if x ≠ y then some (x.slt y) else none
  | _, _ => none

/-- One round of the loop of `operator<`. -/
def lessRound (hop a : Route) : Option Bool :=
  if a.type ≠ hop.type then some (a.type.ult hop.type) else memberLess a hop

/-- The switch in the loop of `operator==`. -/
def memberDiffers : Route → Route → Bool
  | .listener x, .listener y => x != y
  | .localService x, .localService y => x != y
  | .thread x, .thread y => x != y
  | .remoteAddr x, .remoteAddr y => x != y
  | .objectHandlerPolled x, .objectHandlerPolled y => x != y
  | .objectHandlerThreaded x, .objectHandlerThreaded y => x != y
  | .socketRoute x, .socketRoute y => x != y
  | _, _ => false

/-- One round of the loop of `operator==`. -/
def differs (hop a : Route) : Bool :=
  if a.type ≠ hop.type then true else memberDiffers a hop

end Route

namespace RouteT

/-- The loop of `operator<`. -/
def lessLoop : RouteT → RouteT → Bool
  | hop :: self, x :: a =>
    match hop.lessRound x with
    | some r => r
    | none => lessLoop self a
  | _, _ => false

/-- `route_t::operator<`. -/
def operatorLt (self a : RouteT) : Bool :=
  if a.length ≠ self.length then a.length < self.length else lessLoop self a

/-- The loop of `operator==`. -/
def equalLoop : RouteT → RouteT → Bool
  | hop :: self, x :: a => if hop.differs x then false else equalLoop self a
  | _, _ => true

/-- `route_t::operator==`. -/
def operatorEq (self a : RouteT) : Bool :=
  if a.length ≠ self.length then false else equalLoop self a

end RouteT

private lemma memberRound {w : ℕ} {k : BitVec w → ℤ} (hk : Function.Injective k) (x y : BitVec w) :
    (if x ≠ y then some (decide (k x < k y)) else none) =
      if k x < k y then some true else if k y < k x then some false else none := by
  rcases lt_trichotomy (k x) (k y) with h | h | h
  · have hne : x ≠ y := fun he => h.ne (congrArg k he)
    simp [hne, h]
  · simp [hk h]
  · have hne : x ≠ y := fun he => h.ne' (congrArg k he)
    simp [hne, h, not_lt_of_gt h]

private lemma memberLess_eq {a hop : Route} (htype : a.type = hop.type) :
    a.memberLess hop = if a.value < hop.value then some true
      else if hop.value < a.value then some false else none := by
  have hsigned {w : ℕ} (x y : BitVec w) :=
    memberRound (fun (_ _ : BitVec w) h => BitVec.eq_of_toInt_eq h) x y
  have hpointer {w : ℕ} (x y : BitVec w) := memberRound (k := fun x : BitVec w => (x.toNat : ℤ))
    (fun (_ _ : BitVec w) h => BitVec.eq_of_toNat_eq (Nat.cast_injective h)) x y
  cases a <;> cases hop <;> simp [Route.type] at htype
  all_goals first
    | exact hsigned _ _
    | simpa [Route.memberLess, Route.value, BitVec.ult] using hpointer _ _

lemma Route.lessRound_eq (hop a : Route) :
    hop.lessRound a = if hop.lt a then some true else if a.lt hop then some false else none := by
  by_cases htype : a.type = hop.type
  · rw [lessRound, if_neg (not_not.mpr htype), memberLess_eq htype]
    simp [Route.lt, pairLt, htype]
  · have hne : a.type.toNat ≠ hop.type.toNat := fun h => htype (BitVec.eq_of_toNat_eq h)
    rw [lessRound, if_pos htype]
    rcases lt_or_gt_of_ne hne with h | h
    · simp [Route.lt, pairLt, BitVec.ult, h]
    · simp [Route.lt, pairLt, BitVec.ult, h, not_lt_of_gt h]

lemma RouteT.lessLoop_eq {self a : RouteT} (h : self.length = a.length) :
    lessLoop self a = lexLt Route.lt self a := by
  induction self generalizing a with
  | nil =>
    cases a with
    | nil => rfl
    | cons x a => cases h
  | cons hop self ih =>
    cases a with
    | nil => cases h
    | cons x a =>
      rw [lessLoop, lexLt, Route.lessRound_eq, ih (Nat.succ.inj h)]
      split_ifs <;> rfl

lemma RouteT.operatorLt_eq_lt : RouteT.operatorLt = RouteT.lt := by
  funext self a
  rw [operatorLt, RouteT.lt, pairLt]
  rcases lt_trichotomy a.length self.length with h | h | h
  · simp [h, h.ne]
  · simp [h, lessLoop_eq h.symm]
  · simp [h.ne', h, not_lt_of_gt h]

lemma Route.differs_iff (hop a : Route) : hop.differs a = true ↔ hop ≠ a := by
  cases hop <;> cases a <;> simp [differs, memberDiffers, Route.type]
  all_goals exact not_congr eq_comm

lemma RouteT.equalLoop_iff {self a : RouteT} (h : self.length = a.length) :
    equalLoop self a = true ↔ self = a := by
  induction self generalizing a with
  | nil =>
    cases a with
    | nil => simp [equalLoop]
    | cons x a => cases h
  | cons hop self ih =>
    cases a with
    | nil => cases h
    | cons x a =>
      rw [equalLoop, List.cons.injEq, ← ih (Nat.succ.inj h)]
      by_cases hd : hop.differs x = true
      · simp [hd, (Route.differs_iff hop x).mp hd]
      · have heq : hop = x := not_not.mp (mt (Route.differs_iff hop x).mpr hd)
        rw [if_neg hd]
        simp [heq]

lemma RouteT.operatorEq_iff (self a : RouteT) : self.operatorEq a = true ↔ self = a := by
  rw [operatorEq]
  by_cases h : a.length = self.length
  · rw [if_neg (not_not.mpr h), equalLoop_iff h.symm]
  · rw [if_pos h]
    refine iff_of_false Bool.false_ne_true ?_
    rintro rfl
    exact h rfl

lemma RouteT.operatorLt_strictTotal : StrictTotal RouteT.operatorLt :=
  RouteT.operatorLt_eq_lt ▸ RouteT.lt_strictTotal

lemma RouteT.operatorEq_iff_incomparable (a b : RouteT) :
    a.operatorEq b = true ↔ a.operatorLt b = false ∧ b.operatorLt a = false := by
  rw [operatorEq_iff]
  constructor
  · rintro rfl
    exact ⟨operatorLt_strictTotal.irrefl a, operatorLt_strictTotal.irrefl a⟩
  · rintro ⟨hab, hba⟩
    exact operatorLt_strictTotal.eq_of_not_lt hab hba

/-- **Routes of any length are strictly and totally ordered.** -/
theorem routes_ordered : StrictTotal RouteT.operatorLt ∧
    (∀ a b : RouteT, a.operatorEq b = true ↔ a.operatorLt b = false ∧ b.operatorLt a = false) ∧
    ∀ ops : List (SetOp RouteT),
      (contents RouteT.operatorLt ops).Pairwise (fun a b => a.operatorEq b = false) ∧
      ∀ r x : RouteT, (x ∈ contents RouteT.operatorLt (ops ++ [.insert r]) ↔
          x.operatorEq r = true ∨ x ∈ contents RouteT.operatorLt ops) ∧
        (x ∈ contents RouteT.operatorLt (ops ++ [.erase r]) ↔
          x ∈ contents RouteT.operatorLt ops ∧ x.operatorEq r = false) := by
  have ht := RouteT.operatorLt_strictTotal
  refine ⟨ht, RouteT.operatorEq_iff_incomparable, fun ops => ⟨?_, fun r x => ⟨?_, ?_⟩⟩⟩
  · refine (contents_pairwise ht ops).imp fun {a b} hne => ?_
    rwa [← Bool.not_eq_true, RouteT.operatorEq_iff]
  · rw [mem_contents_insert ht, RouteT.operatorEq_iff]
  · rw [mem_contents_erase ht, ← Bool.not_eq_true, RouteT.operatorEq_iff]

end Megatron
