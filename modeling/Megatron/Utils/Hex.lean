import Megatron.Library.HttpSyntax
import Megatron.Utils.UrlDecoding

/-!
`CUtils::hex2bin` and `CUtils::bin2hex`.
-/

namespace Megatron.Utils

open Library Library.Http List

/-- `strtol(ss, NULL, 16)`, cut to a byte. -/
def strtol16 (ss : Bytes) : Byte := ((scanHex ss).getD 0#32).setWidth 8

/-- `hex2bin`; two bytes are copied in every turn, the last one perhaps from behind the text. -/
def hex2bin (behind : Option Byte) : Bytes → Option Bytes
  | [] => some []
  | [x] => behind.map fun y => [strtol16 [x, y]]
  | x :: y :: s => (hex2bin behind s).map (strtol16 [x, y] :: ·)

/-- `hex2bin` of a `std::string`, which ends with a zero. -/
def hex2binString (s : Bytes) : Option Bytes := hex2bin (some 0#8) s

def hex2binView (s memory : Bytes) : Option Bytes := hex2bin memory.head? s

/-- `%02x`. -/
def hexPair (c : Byte) : Bytes := [digitChar (c.toNat / 16), digitChar (c.toNat % 16)]

/-- A turn of the loop of `bin2hex`, with an `unsigned int`. -/
def bin2hexStep (s : Bytes) (st : ℕ × Bytes) : (ℕ × Bytes) ⊕ Bytes :=
  if st.1 < s.length then .inl ((st.1 + 1) % 2 ^ 32, st.2 ++ hexPair (s.getD st.1 0#8))
  else .inr st.2

/-- `bin2hex`, for at most so many turns of its loop. -/
def bin2hex (n : ℕ) (s : Bytes) : Option Bytes := turns (bin2hexStep s) n (0, [])

variable {s t out : Bytes} {behind : Option Byte}

lemma bin2hexStep_of_drop {i : ℕ} {c : Byte} {a : Bytes} (h : s.drop i = c :: t) :
    bin2hexStep s (i, a) = .inl ((i + 1) % 2 ^ 32, a ++ hexPair c) := by
  obtain ⟨hi, hc, -⟩ := of_drop 0#8 h
  rw [bin2hexStep, if_pos hi, hc]

lemma returns_bin2hex (hs : s.length < 2 ^ 32) {i : ℕ} {a : Bytes} (h : s.drop i = t) :
    Returns (bin2hexStep s) (i, a) out ↔ out = a ++ t.flatMap hexPair := by
  induction t generalizing i a with
  | nil =>
    have hdone : bin2hexStep s (i, a) = .inr a :=
      if_neg (Nat.not_lt.mpr (drop_eq_nil_iff.mp h))
    rw [returns_done hdone, flatMap_nil, append_nil]
  | cons c t ih =>
    obtain ⟨hi, -, hrest⟩ := of_drop 0#8 h
    rw [returns_next (bin2hexStep_of_drop h), Nat.mod_eq_of_lt (by omega), ih hrest,
      flatMap_cons, append_assoc]

lemma bin2hex_iff : (∃ n, bin2hex n s = some out) ↔
    s.length < 2 ^ 32 ∧ out = s.flatMap hexPair := by
  by_cases hs : s.length < 2 ^ 32
  · rw [and_iff_right hs]
    exact returns_bin2hex hs rfl
  · refine iff_of_false ?_ fun h => hs h.1
    -- the index is below the size after every turn
    refine not_returns_of_leads (C := fun st => st.1 < 2 ^ 32) (fun st hst _ => ?_)
      (Nat.two_pow_pos 32)
    exact ⟨_, Nat.mod_lt _ (Nat.two_pow_pos _), Leads.single (if_pos (by omega))⟩

lemma strtol16_hexPair : ∀ c : Byte, strtol16 (hexPair c) = c := by decide +kernel

lemma hex2bin_flatMap (s : Bytes) : hex2bin behind (s.flatMap hexPair) = some s := by
  induction s with
  | nil => rfl
  | cons c s ih =>
    rw [flatMap_cons]
    show (hex2bin behind (s.flatMap hexPair)).map (strtol16 (hexPair c) :: ·) = _
    rw [ih, strtol16_hexPair, Option.map_some]

lemma hex2bin_isSome_iff : (hex2bin behind s).isSome ↔ behind.isSome ∨ Even s.length := by
  induction s using hex2bin.induct with
  | case1 => exact iff_of_true rfl (.inr Even.zero)
  | case2 x => rw [hex2bin, Option.isSome_map, or_iff_left (by simp)]
  | case3 x y s ih =>
    rw [hex2bin, Option.isSome_map, ih, length_cons, length_cons, Nat.even_add_one,
      Nat.even_add_one, not_not]

lemma hex2bin_of_even (h : Even s.length) (behind : Option Byte) :
    hex2bin behind s = hex2bin none s := by
  induction s using hex2bin.induct with
  | case1 => rfl
  | case2 x => exact absurd h (by simp)
  | case3 x y s ih =>
    rw [length_cons, length_cons, Nat.even_add_one, Nat.even_add_one, not_not] at h
    rw [hex2bin, hex2bin, ih h]

structure HexRight (s v : Bytes) : Prop where
  back : ∃ n hex, bin2hex n s = some hex ∧ hex2binString hex = some s ∧
    ∀ memory, hex2binView hex memory = some s
  copy : ∀ memory, hex2binView v memory = hex2binString v

/-- **Hex coding** is right for fewer than `2 ^ 32` bytes and for views of even length. -/
theorem hex_right_iff (s v : Bytes) : HexRight s v ↔ s.length < 2 ^ 32 ∧ Even v.length := by
  constructor
  · rintro ⟨⟨n, hex, hhex, -⟩, hcopy⟩
    have hsome : (hex2binView v []).isSome := by
      rw [hcopy, hex2binString, hex2bin_isSome_iff]
      exact .inl rfl
    have heven := hex2bin_isSome_iff.mp hsome
    exact ⟨(bin2hex_iff.mp ⟨n, hhex⟩).1, heven.resolve_left Bool.false_ne_true⟩
  · rintro ⟨hs, hv⟩
    obtain ⟨n, hn⟩ := bin2hex_iff.mpr ⟨hs, rfl⟩
    refine ⟨⟨n, _, hn, hex2bin_flatMap s, fun _ => hex2bin_flatMap s⟩, fun memory => ?_⟩
    rw [hex2binView, hex2binString, hex2bin_of_even hv, hex2bin_of_even hv (some _)]

/-- The digit behind the view is read. -/
theorem not_hexRight_odd : hex2binView [49#8] [102#8] = some [0x1f#8] ∧ ¬ HexRight [] [49#8] := by
  refine ⟨by decide +kernel, fun h => ?_⟩
  exact absurd (h.copy [102#8]) (by decide +kernel)

end Megatron.Utils
