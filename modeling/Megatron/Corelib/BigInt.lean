import Mathlib.Data.Nat.Digits.Defs
import Megatron.Corelib.Decoding
import Megatron.Library.NumberText

/-!
The operators `<<` and `>>` for `BigInt` (`corelib/bigint.h`).
-/

namespace Megatron

/-- A `BigInt`: the number it points to, if it was not moved from. -/
abbrev BigInt := Option ℤ

/-- The bytes of the absolute value: `BN_bn2bin`. -/
def bnBn2bin (z : ℤ) : Bytes := (Nat.digits 256 z.natAbs).reverse.map (BitVec.ofNat 8)

def bnNumBytes (z : ℤ) : ℕ := (Nat.digits 256 z.natAbs).length

def bnCmp (a b : ℤ) : ℤ := if a < b then -1 else if b < a then 1 else 0

/-- `operator==`; neither object has been moved from. -/
def bigIntEq (a b : ℤ) : Bool := bnCmp a b == 0

/-- `operator<<`. The length is an `int`. -/
def putBigInt (room : ℕ) (z : ℤ) : Option Bytes :=
  if bnNumBytes z < 2 ^ 31 ∧ bnNumBytes z ≤ room then
    some (putPN (BitVec.ofNat 64 (bnNumBytes z)) ++ bnBn2bin z)
  else none

/-- `operator>>`, into the `BIGNUM` of the target or a new one. -/
def getBigInt (room : ℕ) (_target : BigInt) : Reader (Option BigInt) := do
  let len ← getPN
  if room < len.toNat then pure none
  else do
    let buf ← unpackOr (fun _ => notEnough) len
    pure (some ((bnBin2bn buf (len.setWidth 32)).map fun n => (n : ℤ)))

@[simp] lemma length_bnBn2bin (z : ℤ) : (bnBn2bin z).length = bnNumBytes z := by
  rw [bnBn2bin, List.length_map, List.length_reverse, bnNumBytes]

lemma bnBin2bn_bnBn2bin {z : ℤ} (h : bnNumBytes z < 2 ^ 31) :
    bnBin2bn (bnBn2bin z) ((BitVec.ofNat 64 (bnNumBytes z)).setWidth 32) = some z.natAbs := by
  have hlen : (BitVec.ofNat 64 (bnNumBytes z)).setWidth 32 = BitVec.ofNat 32 (bnNumBytes z) :=
    BitVec.setWidth_ofNat_of_le (by decide) _
  have hnat : (BitVec.ofNat 32 (bnNumBytes z)).toNat = bnNumBytes z := by
    rw [BitVec.toNat_ofNat, Nat.mod_eq_of_lt (by omega)]
  have hint : ¬(BitVec.ofNat 32 (bnNumBytes z)).toInt < 0 := by
    rw [BitVec.toInt_eq_toNat_cond, hnat, if_pos (by omega)]
    omega
  have hdigits : ∀ d ∈ Nat.digits 256 z.natAbs, (BitVec.ofNat 8 d).toNat = d := by
    intro d hd
    rw [BitVec.toNat_ofNat, Nat.mod_eq_of_lt (Nat.digits_lt_base (by decide) hd)]
  rw [hlen, bnBin2bn, if_neg hint, hnat, List.take_of_length_le (length_bnBn2bin z).le, bnBn2bin,
    Library.NumberText.foldl_ofDigits 256 _ _ hdigits, Nat.ofDigits_digits]

lemma getBigInt_decodes {room : ℕ} {z : ℤ} (h : bnNumBytes z < 2 ^ 31) (hroom : bnNumBytes z ≤ room)
    (target : BigInt) :
    (getBigInt room target).Decodes (putPN (BitVec.ofNat 64 (bnNumBytes z)) ++ bnBn2bin z)
      (some (some (z.natAbs : ℤ))) := by
  have hlen : (BitVec.ofNat 64 (bnNumBytes z)).toNat = bnNumBytes z := by
    rw [BitVec.toNat_ofNat, Nat.mod_eq_of_lt (by omega)]
  refine Library.Reader.Decodes.bind (getPN_decodes _) ?_
  rw [if_neg (by omega)]
  have hcopy := unpackOr_decodes (fun _ => notEnough)
    (show (BitVec.ofNat 64 (bnNumBytes z)).toNat = (bnBn2bin z).length by
      rw [hlen, length_bnBn2bin])
  have hmap := Library.Reader.Decodes.map (fun buf => some ((bnBin2bn buf
    ((BitVec.ofNat 64 (bnNumBytes z)).setWidth 32)).map fun n => (n : ℤ))) hcopy
  rwa [bnBin2bn_bnBn2bin h] at hmap

lemma bigIntEq_iff (a b : ℤ) : bigIntEq a b = true ↔ a = b := by
  rw [bigIntEq, beq_iff_eq, bnCmp]
  rcases lt_trichotomy a b with h | h | h
  · simp [h, h.ne]
  · simp [h]
  · simp [h, h.ne', h.not_gt]

def NumberRoundTrips (room : ℕ) (z : ℤ) : Prop :=
  ∃ w, putBigInt room z = some w ∧ ∀ target p, (getBigInt room target).Yields p w fun r =>
      ∃ v, r = some (some v) ∧ bigIntEq v z = true

/-- **The numbers that survive** are not negative and fit into the array. -/
theorem bigInt_round_trip_iff (room : ℕ) (z : ℤ) :
    NumberRoundTrips room z ↔ 0 ≤ z ∧ bnNumBytes z < 2 ^ 31 ∧ bnNumBytes z ≤ room := by
  constructor
  · rintro ⟨w, hput, hread⟩
    rw [putBigInt] at hput
    split_ifs at hput with hfit
    cases hput
    refine ⟨?_, hfit⟩
    obtain ⟨r, hr, v, rfl, hv⟩ := hread none 0 ⟨_, 0⟩ [] rfl (List.append_nil _).symm
    rw [(getBigInt_decodes hfit.1 hfit.2 none).apply (List.append_nil _).symm] at hr
    simp only [Prod.mk.injEq, Except.ok.injEq, Option.some.injEq, and_true] at hr
    rw [bigIntEq_iff] at hv
    omega
  · rintro ⟨hz, hlen, hroom⟩
    refine ⟨_, if_pos ⟨hlen, hroom⟩, fun target p => ?_⟩
    refine (getBigInt_decodes hlen hroom target p).mono ?_
    rintro r rfl
    exact ⟨_, rfl, (bigIntEq_iff _ _).mpr (by omega)⟩

theorem bigInt_minus_one : putBigInt 8 (-1) = some [1#8, 1#8] ∧ getBigInt 8 none ⟨[1#8, 1#8], 0⟩ =
    (.ok (some (some 1)), ⟨[1#8, 1#8], 2⟩) ∧ ¬NumberRoundTrips 8 (-1) := by
  have hput : putBigInt 8 (-1) = some [1#8, 1#8] := by decide +kernel
  have hget : getBigInt 8 none ⟨[1#8, 1#8], 0⟩ = (.ok (some (some 1)), ⟨[1#8, 1#8], 2⟩) := by
    decide +kernel
  refine ⟨hput, hget, ?_⟩
  rintro ⟨w, hw, hread⟩
  cases hput.symm.trans hw
  obtain ⟨r, hr, v, rfl, hv⟩ := hread none 0 ⟨[1#8, 1#8], 0⟩ [] rfl rfl
  rw [hget] at hr
  simp only [Prod.mk.injEq, Except.ok.injEq, Option.some.injEq] at hr
  rw [← hr.1] at hv
  exact absurd hv (by decide)

end Megatron
