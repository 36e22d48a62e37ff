import Megatron.Corelib.Msockaddr
import Megatron.Library.WeakOrder

/-!
The class `msockaddr_in` with its union (`corelib/msockaddr_in.cpp`), in the layout of Linux on a
little-endian machine.
-/

namespace Megatron

open Library Streamable Reader.Decodes

/-- The class `msockaddr_in`: the bytes of the union `u`. -/
structure MsockaddrIn where
  u : Vector Byte 112
  deriving DecidableEq

namespace MsockaddrIn

def byteAt (a : MsockaddrIn) (i : ℕ) : Byte := if h : i < 112 then a.u[i] else 0#8

/-- The object after `bs` has been written at `off`. -/
def store (a : MsockaddrIn) (off : ℕ) (bs : Bytes) : MsockaddrIn :=
  ⟨Vector.ofFn fun i : Fin 112 =>
    if off ≤ i.1 ∧ i.1 < off + bs.length then bs.getD (i.1 - off) 0#8 else a.byteAt i⟩

lemma byteAt_store (a : MsockaddrIn) (off : ℕ) (bs : Bytes) (i : ℕ) (hi : i < 112) :
    (a.store off bs).byteAt i =
      if off ≤ i ∧ i < off + bs.length then bs.getD (i - off) 0#8 else a.byteAt i := by
  rw [byteAt, dif_pos hi, store]
  simp

def load16 (a : MsockaddrIn) (off : ℕ) : BitVec 16 := a.byteAt (off + 1) ++ a.byteAt off

def load32 (a : MsockaddrIn) (off : ℕ) : BitVec 32 :=
  a.byteAt (off + 3) ++ a.byteAt (off + 2) ++ a.byteAt (off + 1) ++ a.byteAt off

end MsockaddrIn

def bytes16 (x : BitVec 16) : Bytes := [x.extractLsb' 0 8, x.extractLsb' 8 8]

def bytes32 (x : BitVec 32) : Bytes :=
  [x.extractLsb' 0 8, x.extractLsb' 8 8, x.extractLsb' 16 8, x.extractLsb' 24 8]

def strcmp : Bytes → Bytes → ℤ
  | a :: p, b :: q =>
    if a = b then if a = 0#8 then 0 else strcmp p q else (a.toNat : ℤ) - b.toNat
  | _, _ => 0

namespace MsockaddrIn

def sinFamily (a : MsockaddrIn) : BitVec 16 := a.load16 0

def sinPort (a : MsockaddrIn) : BitVec 16 := a.load16 2

def sAddr (a : MsockaddrIn) : BitVec 32 := a.load32 4

def sin6Port (a : MsockaddrIn) : BitVec 16 := a.load16 2

def s6Addr (a : MsockaddrIn) : In6Addr := Vector.ofFn fun i : Fin 16 => a.byteAt (8 + i.1)

def sunPath (a : MsockaddrIn) : Bytes := (List.range 108).map fun i => a.byteAt (2 + i)

/-- `msockaddr_in::family`, an `int8_t`. -/
def family (a : MsockaddrIn) : BitVec 8 := a.sinFamily.setWidth 8

/-- The loop over `s6_addr` in `operator<`. -/
def s6Less : Bytes → Bytes → Option Bool
  | x :: p, y :: q => if x.ult y then some true else if y.ult x then some false else s6Less p q
  | _, _ => none

def portLess (p q : BitVec 16) : Bool :=
  if p.ult q then true else if q.ult p then false else false

/-- `msockaddr_in::operator<`; `strcmp` is converted to `bool`. -/
def operatorLt (a b : MsockaddrIn) : Except Exn Bool :=
  if a.family.slt b.family then .ok true
  else if b.family.slt a.family then .ok false
  else if a.family = 1#8 then .ok (strcmp a.sunPath b.sunPath != 0)
  else if a.family = 2#8 then
    .ok (if a.sAddr.ult b.sAddr then true else if b.sAddr.ult a.sAddr then false
      else portLess a.sinPort b.sinPort)
  else if a.family = 10#8 then
    .ok (match s6Less a.s6Addr.toList b.s6Addr.toList with
      | some r => r
      | none => portLess a.sin6Port b.sin6Port)
  else .error (.commonError "1 invalid family ")

/-- `msockaddr_in::operator==`. -/
def operatorEq (a b : MsockaddrIn) : Except Exn Bool :=
  if a.family ≠ b.family then .ok false
  else if a.family = 1#8 then .ok (strcmp a.sunPath b.sunPath == 0)
  else if a.family = 2#8 then
    .ok (if a.sAddr ≠ b.sAddr then false else if a.sinPort ≠ b.sinPort then false else true)
  else if a.family = 10#8 then
    .ok (if a.sin6Port ≠ b.sin6Port then false else a.s6Addr.toList == b.s6Addr.toList)
  else .error (.commonError "3 invalid family ")

def port (a : MsockaddrIn) : Except Exn (BitVec 16) :=
  if a.family = 1#8 then .error (.commonError "invalid call port")
  else if a.family = 2#8 then .ok (swap16 a.sinPort)
  else if a.family = 10#8 then .ok (swap16 a.sin6Port)
  else .error (.commonError "3 invalid family ")

section

variable (T : Inet6Text)

/-- `msockaddr_in::pack`. The port of an IPv6 address comes from `sockaddr_in`. -/
def pack (a : MsockaddrIn) : Except Exn Bytes :=
  if a.family = 1#8 then .ok (putPN (a.sinFamily.setWidth 64) ++ putPSTR (cStr a.sunPath))
  else if a.family = 2#8 then
    .ok (putPN (a.sinFamily.setWidth 64) ++ putPN ((swap16 a.sinPort).setWidth 64) ++
      putPN ((swap32 a.sAddr).setWidth 64))
  else if a.family = 10#8 then
    .ok (putPN (a.sinFamily.setWidth 64) ++ putPN ((swap16 a.sinPort).setWidth 64) ++
      putPSTR (T.inetNtop a.s6Addr))
  else .error (.commonError "3 invalid family ")

/-- `msockaddr_in::unpack`; none if `strcpy` leaves the array. -/
def unpack (a : MsockaddrIn) : Reader (Option MsockaddrIn) := do
  let fam ← getInt 8
  let named := a.store 0 (bytes16 (fam.setWidth 16))
  if fam = 1#8 then do
    let s ← getPSTR
    pure (if (cStr s).length < 108 then some (named.store 2 (cStr s ++ [0#8])) else none)
  else if fam = 2#8 then do
    let port ← getPN
    let addr ← getPN
    pure (some ((named.store 2 (bytes16 (swap16 (port.setWidth 16)))).store 4
      (bytes32 (swap32 (addr.setWidth 32)))))
  else if fam = 10#8 then do
    let port ← getPN
    let s ← getPSTR
    let ported := named.store 2 (bytes16 (swap16 (port.setWidth 16)))
    pure (some (match T.inetPton (cStr s) with
      | some addr => ported.store 8 addr.toList
      | none => ported))
  else Reader.fail (.commonError ("2 invalid family " ++ toString fam.toNat ++ " "))

end

end MsockaddrIn

/-- An object of a known family. A path ends within its array. -/
structure Address extends MsockaddrIn where
  known : toMsockaddrIn.sinFamily = 1#16 ∨ toMsockaddrIn.sinFamily = 2#16 ∨
    toMsockaddrIn.sinFamily = 10#16
  terminated : toMsockaddrIn.sinFamily = 1#16 → 0#8 ∈ toMsockaddrIn.sunPath

/-! ### Members of the union -/

lemma load16_bytes16 (x : BitVec 16) :
    (x.extractLsb' 8 8 ++ x.extractLsb' 0 8 : BitVec 16) = x := by
  apply BitVec.eq_of_getLsbD_eq
  intro i hi
  simp only [BitVec.getLsbD_append, BitVec.getLsbD_extractLsb']
  rcases (by omega : i < 8 ∨ (8 ≤ i ∧ i < 16)) with h | h <;> grind

lemma load32_bytes32 (x : BitVec 32) :
    (x.extractLsb' 24 8 ++ x.extractLsb' 16 8 ++ x.extractLsb' 8 8 ++ x.extractLsb' 0 8
      : BitVec 32) = x := by
  apply BitVec.eq_of_getLsbD_eq
  intro i hi
  simp only [BitVec.getLsbD_append, BitVec.getLsbD_extractLsb']
  rcases (by omega : i < 8 ∨ (8 ≤ i ∧ i < 16) ∨ (16 ≤ i ∧ i < 24) ∨ (24 ≤ i ∧ i < 32))
    with h | h | h | h <;> grind

namespace MsockaddrIn

variable (a : MsockaddrIn)

lemma load16_store_self {off : ℕ} (h : off + 2 ≤ 112) (x : BitVec 16) :
    (a.store off (bytes16 x)).load16 off = x := by
  rw [load16, byteAt_store _ _ _ _ (by omega), byteAt_store _ _ _ _ (by omega)]
  simp [bytes16, load16_bytes16]

lemma load32_store_self {off : ℕ} (h : off + 4 ≤ 112) (x : BitVec 32) :
    (a.store off (bytes32 x)).load32 off = x := by
  rw [load32, byteAt_store _ _ _ _ (by omega), byteAt_store _ _ _ _ (by omega),
    byteAt_store _ _ _ _ (by omega), byteAt_store _ _ _ _ (by omega)]
  simp [bytes32, load32_bytes32]

lemma load16_store_of_le {off off' : ℕ} (h : off + 2 ≤ off') (h' : off + 2 ≤ 112) (bs : Bytes) :
    (a.store off' bs).load16 off = a.load16 off := by
  rw [load16, byteAt_store _ _ _ _ (by omega), byteAt_store _ _ _ _ (by omega), if_neg (by omega),
    if_neg (by omega), load16]

lemma sinFamily_store_self (f : BitVec 16) : (a.store 0 (bytes16 f)).sinFamily = f :=
  a.load16_store_self (by omega) f

lemma sinFamily_store {off : ℕ} (h : 2 ≤ off) (bs : Bytes) :
    (a.store off bs).sinFamily = a.sinFamily := a.load16_store_of_le h (by omega) bs

lemma s6Addr_store (x : In6Addr) : (a.store 8 x.toList).s6Addr = x := by
  ext i hi
  rw [s6Addr, Vector.getElem_ofFn, byteAt_store _ _ _ _ (by omega), if_pos (by simp; omega)]
  simp [hi]

lemma cStr_sunPath_store {s : Bytes} (hlen : s.length < 108) (hs : ∀ c ∈ s, c ≠ 0#8) :
    cStr (a.store 2 (s ++ [0#8])).sunPath = s := by
  have hpath : (a.store 2 (s ++ [0#8])).sunPath.take (s.length + 1) = s ++ [0#8] := by
    refine List.ext_getElem (by simp [sunPath]; omega) fun i hi hi' => ?_
    rw [List.length_append, List.length_singleton] at hi'
    simp only [sunPath, List.getElem_take, List.getElem_map, List.getElem_range]
    rw [byteAt_store _ _ _ _ (by omega), if_pos (by simp; omega), Nat.add_sub_cancel_left,
      List.getD_eq_getElem?_getD, List.getElem?_eq_getElem (by simpa using hi'), Option.getD_some]
  rw [← List.take_append_drop (s.length + 1) (a.store 2 (s ++ [0#8])).sunPath, hpath, cStr,
    List.append_assoc, List.takeWhile_append_of_pos (by simpa using hs)]
  simp

end MsockaddrIn

/-! ### The address in the union -/

lemma strcmp_eq_zero_iff {p q : Bytes} (hp : 0#8 ∈ p) (hq : 0#8 ∈ q) :
    strcmp p q = 0 ↔ cStr p = cStr q := by
  induction p generalizing q with
  | nil => cases hp
  | cons a p ih =>
    cases q with
    | nil => cases hq
    | cons b q =>
      rw [strcmp, cStr, cStr, List.takeWhile_cons, List.takeWhile_cons]
      by_cases hab : a = b
      · subst hab
        by_cases ha : a = 0#8
        · simp [ha]
        · have hp' := (List.mem_cons.mp hp).resolve_left (Ne.symm ha)
          have hq' := (List.mem_cons.mp hq).resolve_left (Ne.symm ha)
          simpa [ha, cStr] using ih hp' hq'
      · have hne : (a.toNat : ℤ) - b.toNat ≠ 0 := by
          rw [sub_ne_zero]
          exact fun h => hab (BitVec.eq_of_toNat_eq (by exact_mod_cast h))
        rw [if_neg hab]
        refine iff_of_false hne ?_
        by_cases ha : a = 0#8 <;> by_cases hb : b = 0#8 <;> simp_all

open MsockaddrIn

namespace Address

def view (a : Address) : Msockaddr :=
  if a.sinFamily = 1#16 then .unix (cStr a.sunPath)
  else if a.sinFamily = 2#16 then .inet a.sinPort a.sAddr
  else .inet6 a.sin6Port a.s6Addr

lemma cases_family (a : Address) :
    (a.family = 1#8 ∧ a.view = .unix (cStr a.sunPath) ∧ 0#8 ∈ a.sunPath) ∨
      (a.family = 2#8 ∧ a.view = .inet a.sinPort a.sAddr) ∨
      (a.family = 10#8 ∧ a.view = .inet6 a.sin6Port a.s6Addr) := by
  rcases a.known with h | h | h
  · exact .inl ⟨by rw [family, h]; rfl, by rw [view, if_pos h], a.terminated h⟩
  · exact .inr (.inl ⟨by rw [family, h]; rfl, by rw [view, h]; rfl⟩)
  · exact .inr (.inr ⟨by rw [family, h]; rfl, by rw [view, h]; rfl⟩)

lemma portLess_eq (p q : BitVec 16) : portLess p q = intLt false p q := by
  rw [portLess, intLt]
  by_cases h : p.ult q = true <;> simp [h]

lemma s6Less_eq {x y : Bytes} (h : x.length = y.length) (p q : BitVec 16) :
    (match s6Less x y with
      | some r => r
      | none => portLess p q) = Msockaddr.inet6Lt (x, p) (y, q) := by
  rw [Msockaddr.inet6Lt, pairLt, portLess_eq]
  induction x generalizing y with
  | nil =>
    cases y with
    | nil => simp [s6Less, lexLt]
    | cons d y => cases h
  | cons c x ih =>
    cases y with
    | nil => cases h
    | cons d y =>
      have hstep := ih (Nat.succ.inj h)
      by_cases hcd : c.ult d = true
      · simp [s6Less, lexLt, intLt, hcd]
      · by_cases hdc : d.ult c = true
        · simp [s6Less, lexLt, intLt, hcd, hdc]
        · simpa [s6Less, lexLt, intLt, hcd, hdc] using hstep

lemma operatorLt_eq (a b : Address) : a.operatorLt b.toMsockaddrIn = .ok (a.view.lt b.view) := by
  rw [operatorLt]
  rcases a.cases_family with ⟨ha, hva, hza⟩ | ⟨ha, hva⟩ | ⟨ha, hva⟩ <;>
    rcases b.cases_family with ⟨hb, hvb, hzb⟩ | ⟨hb, hvb⟩ | ⟨hb, hvb⟩ <;>
    rw [ha, hb, hva, hvb]
  case inl.inl =>
    have h : (strcmp a.sunPath b.sunPath != 0) = (cStr a.sunPath != cStr b.sunPath) := by
      rw [Bool.eq_iff_iff, bne_iff_ne, bne_iff_ne, ne_eq, ne_eq, strcmp_eq_zero_iff hza hzb]
    simp [Msockaddr.lt, h]
  case inr.inl.inr.inl =>
    simp only [Msockaddr.lt, Msockaddr.inetLt, pairLt, intLt, portLess_eq]
    simp
  case inr.inr.inr.inr =>
    have h := s6Less_eq (x := a.s6Addr.toList) (y := b.s6Addr.toList) (by simp)
      a.sin6Port b.sin6Port
    simp only [Msockaddr.lt, ← h]
    simp
  all_goals simp [Msockaddr.lt, Msockaddr.family, BitVec.slt, BitVec.ult]

lemma operatorEq_eq (a b : Address) :
    a.operatorEq b.toMsockaddrIn = .ok (decide (a.view = b.view)) := by
  rw [operatorEq]
  rcases a.cases_family with ⟨ha, hva, hza⟩ | ⟨ha, hva⟩ | ⟨ha, hva⟩ <;>
    rcases b.cases_family with ⟨hb, hvb, hzb⟩ | ⟨hb, hvb⟩ | ⟨hb, hvb⟩ <;>
    rw [ha, hb, hva, hvb]
  case inl.inl =>
    have h := strcmp_eq_zero_iff hza hzb
    by_cases hc : cStr a.sunPath = cStr b.sunPath <;> simp [hc, h]
  case inr.inl.inr.inl =>
    by_cases h1 : a.sAddr = b.sAddr <;> by_cases h2 : a.sinPort = b.sinPort <;> simp [h1, h2]
  case inr.inr.inr.inr =>
    by_cases h1 : a.sin6Port = b.sin6Port <;> by_cases h2 : a.s6Addr = b.s6Addr <;>
      simp [h1, h2]
  all_goals simp

/-- **`pack` writes the address.** -/
lemma pack_eq (T : Inet6Text) (a : Address) : a.pack T = .ok (packAddr T a.view) := by
  rw [pack, family, view]
  rcases a.known with h | h | h <;> rw [h] <;> rfl

end Address

/-! ### The order of addresses -/

namespace Msockaddr

def key : Msockaddr → ℕ × List ℕ
  | .unix p => (1, p.map BitVec.toNat)
  | .inet p a => (2, [a.toNat, p.toNat])
  | .inet6 p a => (10, a.toList.map BitVec.toNat ++ [p.toNat])

def keyLt (a b : Msockaddr) : Bool :=
  pairLt (fun x y : ℕ => decide (x < y)) (lexLt fun x y : ℕ => decide (x < y)) a.key b.key

lemma key_injective : Function.Injective key := by
  have htoNat {w : ℕ} : Function.Injective (BitVec.toNat (w := w)) :=
    fun _ _ h => BitVec.eq_of_toNat_eq h
  intro a b h
  obtain ⟨hfamily, hlist⟩ := Prod.ext_iff.mp h
  cases a <;> cases b <;> simp only [key, OfNat.one_ne_ofNat] at hfamily hlist
  case unix.unix p q => rw [(List.map_injective_iff.mpr htoNat) hlist]
  case inet.inet p a q b =>
    obtain ⟨ha, hp⟩ : a.toNat = b.toNat ∧ p.toNat = q.toNat := by simpa using hlist
    rw [htoNat ha, htoNat hp]
  case inet6.inet6 p a q b =>
    obtain ⟨ha, hp⟩ := List.append_inj' hlist rfl
    have ha' : a = b := Vector.toList_inj.mp ((List.map_injective_iff.mpr htoNat) ha)
    have hp' : p = q := htoNat (List.singleton_inj.mp hp)
    rw [ha', hp']
  all_goals simp at hfamily

lemma keyLt_strictTotal : StrictTotal keyLt :=
  (pairLt_strictTotal natLt_strictTotal
    (lexLt_strictTotal natLt_strictTotal)).comap key_injective

private lemma inet6Lt_eq {x y : Bytes} (h : x.length = y.length) (p q : BitVec 16) :
    inet6Lt (x, p) (y, q) = lexLt (fun x y : ℕ => decide (x < y))
      (x.map BitVec.toNat ++ [p.toNat]) (y.map BitVec.toNat ++ [q.toNat]) := by
  rw [inet6Lt, pairLt]
  induction x generalizing y with
  | nil =>
    cases y with
    | nil => simp [lexLt, intLt, BitVec.ult]
    | cons d y => cases h
  | cons c x ih =>
    cases y with
    | nil => cases h
    | cons d y =>
      have hstep := ih (Nat.succ.inj h)
      simp only [List.map_cons, List.cons_append, lexLt, intLt, BitVec.ult,
        Bool.false_eq_true, if_false, decide_eq_true_eq] at hstep ⊢
      rw [← hstep]
      rcases lt_trichotomy c.toNat d.toNat with hcd | hcd | hcd
      · simp [hcd]
      · simp [hcd]
      · simp [hcd, not_lt_of_gt hcd]

lemma lt_eq_keyLt {a b : Msockaddr} (h : ∀ p q, a = .unix p → b = .unix q → p = q) :
    a.lt b = a.keyLt b := by
  cases a <;> cases b
  case unix.unix p q =>
    obtain rfl := h p q rfl rfl
    rw [keyLt_strictTotal.irrefl]
    simp [lt]
  case inet.inet p a q b =>
    simp only [lt, inetLt, keyLt, key, pairLt, lexLt, intLt, BitVec.ult]
    simp
  case inet6.inet6 p a q b =>
    have heq := inet6Lt_eq (x := a.toList) (y := b.toList) (by simp) p q
    simp only [lt, keyLt, key, pairLt, heq]
    simp
  all_goals simp [lt, keyLt, key, pairLt, family, BitVec.ult]

end Msockaddr

namespace Address

/-- `a < b`. -/
def Less (a b : Address) : Prop := a.operatorLt b.toMsockaddrIn = .ok true

/-- `a == b`. -/
def Equal (a b : Address) : Prop := a.operatorEq b.toMsockaddrIn = .ok true

instance (a b : Address) : Decidable (a.Less b) :=
  inferInstanceAs (Decidable (a.operatorLt b.toMsockaddrIn = .ok true))

instance (a b : Address) : Decidable (a.Equal b) :=
  inferInstanceAs (Decidable (a.operatorEq b.toMsockaddrIn = .ok true))

lemma less_iff (a b : Address) : a.Less b ↔ a.view.lt b.view = true := by
  rw [Less, operatorLt_eq, Except.ok.injEq]

lemma equal_iff (a b : Address) : a.Equal b ↔ a.view = b.view := by
  rw [Equal, operatorEq_eq, Except.ok.injEq, decide_eq_true_eq]

/-- What a `std::set` holds after `ops` if `operator<` orders the addresses in them; else this
depends on how the tree is searched, and `setOf` is not used. -/
def setOf (ops : List (SetOp Address)) : List Address := contents (fun a b => decide (a.Less b)) ops

/-- Some address in the set equals `z`. -/
def Holds (l : List Address) (z : Address) : Prop := ∃ y ∈ l, y.Equal z

/-- Sets of members of `s` are sets up to `operator==`. -/
def SetsUpToEqual (s : Set Address) : Prop :=
  ∀ ops : List (SetOp Address), (∀ op ∈ ops, op.member ∈ s) →
    (setOf ops).Pairwise (fun a b => ¬ a.Equal b) ∧
    ∀ x ∈ s, ∀ z : Address,
      (Holds (setOf (ops ++ [.insert x])) z ↔ z.Equal x ∨ Holds (setOf ops) z) ∧
      (Holds (setOf (ops ++ [.erase x])) z ↔ Holds (setOf ops) z ∧ ¬ z.Equal x)

/-- All paths are the same. -/
def OnePath (s : Set Address) : Prop :=
  ∀ a ∈ s, ∀ b ∈ s, a.family = 1#8 → b.family = 1#8 → cStr a.sunPath = cStr b.sunPath

section

variable {s : Set Address}

lemma OnePath.less_iff (h : OnePath s) : ∀ a ∈ s, ∀ b ∈ s,
    a.Less b ↔ a.view.keyLt b.view = true := by
  intro a ha b hb
  rw [Address.less_iff, Msockaddr.lt_eq_keyLt]
  intro p q hp hq
  rcases a.cases_family with ⟨hfa, hva, -⟩ | ⟨-, hva⟩ | ⟨-, hva⟩ <;> rw [hva] at hp <;> cases hp
  rcases b.cases_family with ⟨hfb, hvb, -⟩ | ⟨-, hvb⟩ | ⟨-, hvb⟩ <;> rw [hvb] at hq <;> cases hq
  exact h a ha b hb hfa hfb

lemma less_of_paths {a b : Address} (ha : a.family = 1#8) (hb : b.family = 1#8)
    (hne : cStr a.sunPath ≠ cStr b.sunPath) : a.Less b := by
  have hview (a : Address) (ha : a.family = 1#8) : a.view = .unix (cStr a.sunPath) := by
    rcases a.cases_family with ⟨-, h, -⟩ | ⟨h, -⟩ | ⟨h, -⟩
    · exact h
    · rw [ha] at h
      cases h
    · rw [ha] at h
      cases h
  rw [Address.less_iff, hview a ha, hview b hb]
  simpa [Msockaddr.lt] using hne

lemma holds_iff (l : List Address) (z : Address) : Holds l z ↔ z.view ∈ l.map view := by
  simp only [Holds, equal_iff, List.mem_map]

lemma OnePath.setsUpToEqual (h : OnePath s) : SetsUpToEqual s := by
  intro ops hops
  have hless : ∀ a ∈ s, ∀ b ∈ s, decide (a.Less b) = a.view.keyLt b.view := by
    intro a ha b hb
    rw [Bool.eq_iff_iff, decide_eq_true_eq]
    exact h.less_iff a ha b hb
  have ht := Msockaddr.keyLt_strictTotal
  have hmap := map_contents hless hops
  -- the set after one more operation, seen through `view`
  have hnext (op : SetOp Address) (hop : op.member ∈ s) (z : Address) :
      Holds (setOf (ops ++ [op])) z ↔
        z.view ∈ contents Msockaddr.keyLt (ops.map (SetOp.map view) ++ [op.map view]) := by
    have hall : ∀ op' ∈ ops ++ [op], op'.member ∈ s :=
      List.forall_mem_append.mpr ⟨hops, List.forall_mem_singleton.mpr hop⟩
    rw [holds_iff, setOf, map_contents hless hall, List.map_append, List.map_singleton]
  refine ⟨?_, fun x hx z => ⟨?_, ?_⟩⟩
  · have hne := contents_pairwise ht (ops.map (SetOp.map view))
    rw [← hmap, List.pairwise_map] at hne
    exact hne.imp fun {a b} hab heq => hab ((equal_iff a b).mp heq)
  · rw [hnext (.insert x) hx, holds_iff, equal_iff, setOf, hmap]
    exact mem_contents_insert ht _ x.view z.view
  · rw [hnext (.erase x) hx, holds_iff, equal_iff, setOf, hmap]
    exact mem_contents_erase ht _ x.view z.view

end

/-- **When addresses are ordered**: if no two are different paths; sets are then sets up to
`operator==`. -/
theorem addresses_ordered_iff (s : Set Address) : (StrictWeakOn s Less ∧
      (∀ a ∈ s, ∀ b ∈ s, ¬ a.Less b ∧ ¬ b.Less a ↔ a.Equal b) ↔ OnePath s) ∧
    (OnePath s → SetsUpToEqual s) := by
  refine ⟨⟨?_, fun h => ?_⟩, OnePath.setsUpToEqual⟩
  · rintro ⟨hweak, -⟩ a ha b hb hfa hfb
    by_contra hne
    exact hweak.asymm a ha b hb (less_of_paths hfa hfb hne) (less_of_paths hfb hfa (Ne.symm hne))
  · have ht := Msockaddr.keyLt_strictTotal
    refine ⟨ht.strictWeakOn h.less_iff, fun a ha b hb => ?_⟩
    rw [equal_iff]
    exact ht.incomp_iff h.less_iff ha hb

/-! ### Objects that are filled -/

section

variable (c : MsockaddrIn)

lemma zero_mem_sunPath_store {s : Bytes} (h : s.length < 108) :
    0#8 ∈ (c.store 2 (s ++ [0#8])).sunPath := by
  rw [sunPath, List.mem_map]
  refine ⟨s.length, List.mem_range.mpr h, ?_⟩
  rw [byteAt_store _ _ _ _ (by omega), if_pos (by simp)]
  simp

def ofPath (s : Bytes) (h : s.length < 108) : Address where
  toMsockaddrIn := (c.store 0 (bytes16 1#16)).store 2 (s ++ [0#8])
  known := by
    rw [MsockaddrIn.sinFamily_store _ le_rfl, MsockaddrIn.sinFamily_store_self]
    exact .inl rfl
  terminated _ := zero_mem_sunPath_store _ h

lemma view_ofPath {s : Bytes} (h : s.length < 108) (hs : ∀ b ∈ s, b ≠ 0#8) :
    (ofPath c s h).view = .unix s := by
  have hfamily : (ofPath c s h).sinFamily = 1#16 := by
    rw [ofPath, sinFamily_store _ le_rfl, sinFamily_store_self]
  rw [view, if_pos hfamily, ofPath, cStr_sunPath_store _ h hs]

def filled (family port : BitVec 16) (off : ℕ) (bs : Bytes) : MsockaddrIn :=
  ((c.store 0 (bytes16 family)).store 2 (bytes16 port)).store off bs

variable {c}

lemma sinFamily_filled {off : ℕ} (h : 4 ≤ off) (family port : BitVec 16) (bs : Bytes) :
    (filled c family port off bs).sinFamily = family := by
  rw [filled, sinFamily_store _ (by omega), sinFamily_store _ le_rfl, sinFamily_store_self]

lemma port_filled {off : ℕ} (h : 4 ≤ off) (family port : BitVec 16) (bs : Bytes) :
    (filled c family port off bs).load16 2 = port := by
  rw [filled, load16_store_of_le _ h (by omega), load16_store_self _ (by omega)]

variable (c)

def ofInet (port : BitVec 16) (addr : BitVec 32) : Address where
  toMsockaddrIn := filled c 2#16 port 4 (bytes32 addr)
  known := by
    rw [sinFamily_filled le_rfl]
    exact .inr (.inl rfl)
  terminated h := by
    rw [sinFamily_filled le_rfl] at h
    cases h

lemma view_ofInet (port : BitVec 16) (addr : BitVec 32) :
    (ofInet c port addr).view = .inet port addr := by
  have hfamily : (ofInet c port addr).sinFamily = 2#16 := sinFamily_filled le_rfl _ _ _
  have hport : (ofInet c port addr).sinPort = port := port_filled le_rfl _ _ _
  have haddr : (ofInet c port addr).sAddr = addr := load32_store_self _ (by omega) addr
  rw [view, hfamily, hport, haddr]
  rfl

def ofInet6 (port : BitVec 16) (addr : In6Addr) : Address where
  toMsockaddrIn := filled c 10#16 port 8 addr.toList
  known := by
    rw [sinFamily_filled (by omega)]
    exact .inr (.inr rfl)
  terminated h := by
    rw [sinFamily_filled (by omega)] at h
    cases h

lemma view_ofInet6 (port : BitVec 16) (addr : In6Addr) :
    (ofInet6 c port addr).view = .inet6 port addr := by
  have hfamily : (ofInet6 c port addr).sinFamily = 10#16 := sinFamily_filled (by omega) _ _ _
  have hport : (ofInet6 c port addr).sin6Port = port := port_filled (by omega) _ _ _
  have haddr : (ofInet6 c port addr).s6Addr = addr := s6Addr_store _ addr
  rw [view, hfamily, hport, haddr]
  rfl

end

def letterPath (letter : Byte) : Address := ofPath ⟨Vector.replicate 112 0#8⟩ [letter] (by simp)

/-- **Paths are less than each other.** -/
theorem paths_less_than_each_other : (letterPath 97#8).Less (letterPath 98#8) ∧
    (letterPath 98#8).Less (letterPath 97#8) ∧ ¬ (letterPath 97#8).Equal (letterPath 98#8) := by
  have hview (letter : Byte) (h : letter ≠ 0#8) : (letterPath letter).view = .unix [letter] :=
    view_ofPath _ _ (by simpa using h)
  rw [less_iff, less_iff, equal_iff, hview _ (by decide), hview _ (by decide)]
  decide

end Address

/-! ### Packing and unpacking -/

/-- `msockaddr_in::port` of an address. -/
def Msockaddr.port : Msockaddr → Except Exn (BitVec 16)
  | .unix _ => .error (.commonError "invalid call port")
  | .inet port _ => .ok (swap16 port)
  | .inet6 port _ => .ok (swap16 port)

namespace Address

lemma port_eq (a : Address) : a.port = a.view.port := by
  rw [port]
  rcases a.cases_family with ⟨ha, hva, -⟩ | ⟨ha, hva⟩ | ⟨ha, hva⟩ <;> rw [ha, hva] <;> rfl

lemma length_cStr_lt {s : Bytes} (h : 0#8 ∈ s) : (cStr s).length < s.length := by
  have hpre : cStr s <+: s := List.takeWhile_prefix _
  refine lt_of_le_of_ne hpre.length_le fun hlen => ?_
  have heq : cStr s = s := hpre.eq_of_length hlen
  have hmem : 0#8 ∈ cStr s := by
    rw [heq]
    exact h
  simpa using List.mem_takeWhile_imp hmem

lemma mem_cStr {s : Bytes} {b : Byte} (h : b ∈ cStr s) : b ≠ 0#8 := by
  simpa using List.mem_takeWhile_imp h

/-- **What was packed is written into the object.** -/
lemma unpack_decodes (T : Inet6Text) (a : Address) (c : MsockaddrIn) : ∃ a' : Address,
    (c.unpack T).Decodes (packAddr T a.view) (some a'.toMsockaddrIn) ∧ a'.view = a.view := by
  have hfam (f : Byte) : (getInt 8).Decodes (putPN (f.setWidth 64)) f :=
    getInt_decodes (by norm_num) false f
  rcases a.cases_family with ⟨-, hva, hzero⟩ | ⟨-, hva⟩ | ⟨-, hva⟩
  · have hlen : (cStr a.sunPath).length < 108 := by
      have := length_cStr_lt hzero
      simpa [sunPath] using this
    refine ⟨ofPath c (cStr a.sunPath) hlen, ?_, ?_⟩
    · have h := map (fun s => if (cStr s).length < 108 then
          some ((c.store 0 (bytes16 1#16)).store 2 (cStr s ++ [0#8])) else none)
        (getPSTR_decodes (hlen.trans (by norm_num)))
      rw [cStr_eq_self fun b => mem_cStr, if_pos hlen] at h
      rw [hva, packAddr]
      exact bind (hfam 1#8) h
    · rw [hva, view_ofPath _ _ fun b => mem_cStr]
  · refine ⟨ofInet c a.sinPort a.sAddr, ?_, ?_⟩
    · have h := map (fun n : BitVec 64 =>
          some (filled c 2#16 a.sinPort 4 (bytes32 (swap32 (n.setWidth 32)))))
        (getPN_decodes ((swap32 a.sAddr).setWidth 64))
      rw [setWidth_swap32] at h
      rw [hva, packAddr, List.append_assoc]
      refine bind (hfam 2#8) (bind (getPN_decodes _) ?_)
      simp only [setWidth_swap16]
      exact h
    · rw [hva, view_ofInet]
  · refine ⟨ofInet6 c a.sin6Port a.s6Addr, ?_, ?_⟩
    · have hlen : (T.inetNtop a.s6Addr).length < 2 ^ 64 := (T.length_ntop _).trans (by norm_num)
      have h := map (fun s => some (match T.inetPton (cStr s) with
          | some addr => filled c 10#16 a.sin6Port 8 addr.toList
          | none => (c.store 0 (bytes16 10#16)).store 2 (bytes16 a.sin6Port)))
        (getPSTR_decodes hlen)
      rw [cStr_eq_self (T.ntop_ne_zero _), T.pton_ntop] at h
      rw [hva, packAddr, List.append_assoc]
      refine bind (hfam 10#8) (bind (getPN_decodes _) ?_)
      simp only [setWidth_swap16]
      exact h
    · rw [hva, view_ofInet6]

/-- **Addresses are read back**, into any object. -/
theorem address_round_trip (T : Inet6Text) (a : Address) (c : MsockaddrIn) (before suffix : Bytes) :
    ∃ (w : Bytes) (a' : MsockaddrIn), a.pack T = .ok w ∧
      c.unpack T ⟨before ++ w ++ suffix, before.length⟩ =
        (.ok (some a'), ⟨before ++ w ++ suffix, (before ++ w).length⟩) ∧
      a'.operatorEq a.toMsockaddrIn = .ok true ∧ a.operatorEq a' = .ok true ∧ a'.port = a.port := by
  obtain ⟨a', hdecodes, hview⟩ := unpack_decodes T a c
  have hunread : (⟨before ++ packAddr T a.view ++ suffix, before.length⟩ : InBuffer).unread =
      packAddr T a.view ++ suffix := by
    rw [Cursor.unread, List.append_assoc, List.drop_left]
  refine ⟨packAddr T a.view, a'.toMsockaddrIn, pack_eq T a, ?_, (equal_iff a' a).mpr hview,
    (equal_iff a a').mpr hview.symm, ?_⟩
  · rw [hdecodes.apply hunread, Cursor.advance, List.length_append]
  · rw [port_eq, port_eq, hview]

end Address

end Megatron
