import Mathlib.Data.List.Basic
import Mathlib.Data.Nat.Bitwise
import Mathlib.Tactic.Ring

/-!
Numbers and bytes as lists of bits, the most significant bit first.
-/

namespace Library

open List

/-- The low `w` bits of `v`. -/
def field {n : ℕ} (v : BitVec n) : ℕ → List Bool
  | 0 => []
  | w + 1 => v.getLsbD w :: field v w

def ofBits (bs : List Bool) : ℕ := bs.foldl (fun acc b => 2 * acc + b.toNat) 0

def bitsOf (bytes : List (BitVec 8)) : List Bool := bytes.flatMap fun c => field c 8

variable {n w : ℕ} (bs : List Bool) (bytes : List (BitVec 8)) (b : Bool)

@[simp] lemma length_field (v : BitVec n) (w : ℕ) : (field v w).length = w := by
  induction w with
  | zero => rfl
  | succ w ih => rw [field, length_cons, ih]

lemma foldl_bits (acc : ℕ) :
    bs.foldl (fun acc b => 2 * acc + b.toNat) acc = acc * 2 ^ bs.length + ofBits bs := by
  induction bs generalizing acc with
  | nil => simp [ofBits]
  | cons b bs ih =>
    have hhead : ofBits (b :: bs) = b.toNat * 2 ^ bs.length + ofBits bs := by
      rw [← ih, ofBits, foldl_cons, Nat.mul_zero, Nat.zero_add]
    rw [foldl_cons, ih, hhead, length_cons, pow_succ]
    ring

lemma ofBits_cons (bs : List Bool) : ofBits (b :: bs) = b.toNat * 2 ^ bs.length + ofBits bs := by
  have h := foldl_bits bs b.toNat
  rw [ofBits, foldl_cons, Nat.mul_zero, Nat.zero_add, h]

lemma ofBits_lt : ofBits bs < 2 ^ bs.length := by
  induction bs with
  | nil => simp [ofBits]
  | cons b bs ih =>
    have hb : b.toNat * 2 ^ bs.length ≤ 2 ^ bs.length := by
      have hle := Nat.mul_le_mul_right (2 ^ bs.length) (Bool.toNat_le b)
      rwa [Nat.one_mul] at hle
    rw [ofBits_cons, length_cons, pow_succ]
    omega

theorem ofBits_field (v : BitVec n) (w : ℕ) : ofBits (field v w) = v.toNat % 2 ^ w := by
  induction w with
  | zero => simp [field, ofBits, Nat.mod_one]
  | succ w ih =>
    rw [field, ofBits_cons, length_field, ih, Nat.mod_pow_succ, BitVec.getLsbD, Nat.toNat_testBit]
    ring

lemma field_shift (v : BitVec n) (b : Bool) (h : w < n) :
    field (v <<< 1 ||| (BitVec.ofBool b).setWidth n) (w + 1) = field v w ++ [b] := by
  induction w with
  | zero => simp [field, h]
  | succ w ih =>
    rw [field, ih (by omega), field, cons_append]
    congr 1
    simp [h, BitVec.getLsbD_eq_getElem (show w < n by omega)]

lemma ofBits_snoc : ofBits (bs ++ [b]) = 2 * ofBits bs + b.toNat := by
  rw [ofBits, foldl_append]
  rfl

lemma toNat_shift (v : BitVec (n + 1)) (b : Bool) :
    (v <<< 1 ||| (BitVec.ofBool b).setWidth (n + 1)).toNat =
      (2 * v.toNat + b.toNat) % 2 ^ (n + 1) := by
  have hfield := ofBits_field (v <<< 1 ||| (BitVec.ofBool b).setWidth (n + 1)) (n + 1)
  rw [Nat.mod_eq_of_lt (BitVec.isLt _), field_shift v b (Nat.lt_succ_self n), ofBits_snoc,
    ofBits_field] at hfield
  have hb := Bool.toNat_le b
  have hlt := Nat.mod_lt v.toNat (Nat.two_pow_pos n)
  have hdiv := Nat.div_add_mod v.toNat (2 ^ n)
  rw [← hfield, pow_succ]
  have hsum : 2 * v.toNat + b.toNat =
      2 ^ n * 2 * (v.toNat / 2 ^ n) + (2 * (v.toNat % 2 ^ n) + b.toNat) := by
    calc 2 * v.toNat + b.toNat
        = 2 * (2 ^ n * (v.toNat / 2 ^ n) + v.toNat % 2 ^ n) + b.toNat := by rw [hdiv]
      _ = 2 ^ n * 2 * (v.toNat / 2 ^ n) + (2 * (v.toNat % 2 ^ n) + b.toNat) := by ring
  have hsmall : 2 * (v.toNat % 2 ^ n) + b.toNat < 2 ^ n * 2 := by omega
  rw [hsum, Nat.mul_add_mod]
  exact (Nat.mod_eq_of_lt hsmall).symm

lemma field_congr {m : ℕ} {v : BitVec n} {v' : BitVec m}
    (h : ∀ i < w, v.getLsbD i = v'.getLsbD i) : field v w = field v' w := by
  induction w with
  | zero => rfl
  | succ w ih => rw [field, field, h w (by omega), ih fun i hi => h i (by omega)]

lemma field_setWidth {m : ℕ} (v : BitVec m) (h : w ≤ n) : field (v.setWidth n) w = field v w := by
  apply field_congr
  intro i hi
  have hlt : i < n := by omega
  rw [BitVec.getLsbD_setWidth, decide_eq_true hlt, Bool.true_and]

lemma field_add (v : BitVec n) (a b : ℕ) : field v (a + b) = field (v >>> b) a ++ field v b := by
  induction a with
  | zero => rw [Nat.zero_add, field, nil_append]
  | succ a ih =>
    rw [Nat.succ_add, field, ih, field, cons_append, BitVec.getLsbD_ushiftRight, Nat.add_comm b a]

lemma field_shiftIn {a : ℕ} (v x : BitVec n) (hx : x.toNat < 2 ^ a) (h : w + a ≤ n) :
    field (v <<< a + x) (w + a) = field v w ++ field x a := by
  have hhigh : ∀ i, a ≤ i → x.getLsbD i = false := by
    intro i hi
    exact Nat.testBit_lt_two_pow (lt_of_lt_of_le hx (Nat.pow_le_pow_right (by omega) hi))
  have hor : v <<< a + x = v <<< a ||| x := by
    apply BitVec.add_eq_or_of_and_eq_zero
    apply BitVec.eq_of_getLsbD_eq
    intro i hi
    rcases Nat.lt_or_ge i a with hia | hia
    · simp [hia]
    · simp [hhigh i hia]
  rw [field_add, hor]
  congr 1
  · apply field_congr
    intro i hi
    have hlt : a + i < n := by omega
    rw [BitVec.getLsbD_ushiftRight, BitVec.getLsbD_or, BitVec.getLsbD_shiftLeft,
      hhigh (a + i) (by omega), decide_eq_true hlt, Nat.add_sub_cancel_left]
    simp
  · apply field_congr
    intro i hi
    simp [hi]

lemma field_sshiftRight {a b : ℕ} (v : BitVec n) (h : a + b ≤ n) :
    field (v.sshiftRight b) a = field (v >>> b) a := by
  apply field_congr
  intro i hi
  rw [BitVec.getLsbD_sshiftRight, BitVec.getLsbD_ushiftRight, if_pos (by omega),
    decide_eq_false (show ¬n ≤ i by omega), Bool.not_false, Bool.true_and]

lemma field_mask (v mask : BitVec n) (h : ∀ i < w, mask.getLsbD i = true) :
    field (v &&& mask) w = field v w := by
  apply field_congr
  intro i hi
  rw [BitVec.getLsbD_and, h i hi, Bool.and_true]

lemma field_injective {v v' : BitVec n} (h : field v n = field v' n) : v = v' := by
  have hnat := congrArg ofBits h
  rw [ofBits_field, ofBits_field, Nat.mod_eq_of_lt v.isLt, Nat.mod_eq_of_lt v'.isLt] at hnat
  exact BitVec.eq_of_toNat_eq hnat

@[simp] lemma bitsOf_nil : bitsOf [] = [] := rfl

lemma bitsOf_cons (c : BitVec 8) (bytes : List (BitVec 8)) :
    bitsOf (c :: bytes) = field c 8 ++ bitsOf bytes := flatMap_cons

lemma bitsOf_append (bytes' : List (BitVec 8)) :
    bitsOf (bytes ++ bytes') = bitsOf bytes ++ bitsOf bytes' := flatMap_append

@[simp] lemma length_bitsOf : (bitsOf bytes).length = 8 * bytes.length := by
  induction bytes with
  | nil => rfl
  | cons c bytes ih =>
    rw [bitsOf_cons, length_append, length_field, ih, length_cons]
    omega

lemma bitsOf_injective : Function.Injective bitsOf := by
  intro bytes
  induction bytes with
  | nil =>
    intro bytes' h
    have hlen := congrArg List.length h
    rw [length_bitsOf, length_bitsOf, length_nil] at hlen
    exact (length_eq_zero_iff.mp (by omega)).symm
  | cons c bytes ih =>
    intro bytes' h
    cases bytes' with
    | nil =>
      have hlen := congrArg List.length h
      rw [length_bitsOf, length_bitsOf, length_cons, length_nil] at hlen
      omega
    | cons c' bytes' =>
      rw [bitsOf_cons, bitsOf_cons] at h
      obtain ⟨hc, hrest⟩ := append_inj h (by rw [length_field, length_field])
      rw [field_injective hc, ih hrest]

lemma drop_bitsOf (n : ℕ) : (bitsOf bytes).drop (8 * n) = bitsOf (bytes.drop n) := by
  induction n generalizing bytes with
  | zero => simp
  | succ n ih =>
    cases bytes with
    | nil => simp
    | cons c bytes =>
      rw [bitsOf_cons, drop_succ_cons, ← ih, Nat.mul_succ, Nat.add_comm,
        ← drop_drop, drop_left' (length_field c 8)]

lemma drop_field (v : BitVec n) {k : ℕ} (h : k ≤ w) : (field v w).drop (w - k) = field v k := by
  induction w with
  | zero =>
    obtain rfl : k = 0 := by omega
    rfl
  | succ w ih =>
    rcases Nat.lt_or_ge w k with hk | hk
    · obtain rfl : k = w + 1 := by omega
      simp
    · rw [show w + 1 - k = w - k + 1 by omega, field, drop_succ_cons, ih hk]

end Library
