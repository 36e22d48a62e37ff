import Megatron.Corelib.IoBuffer
import Megatron.Library.Bits
import Megatron.Library.HttpSyntax

/-!
`CUtils::Base64Encode` and `CUtils::Base64Decode` (`main/CUtils.cpp`).
-/

namespace Megatron.Utils

open Library Library.Http List

def b64chars : Bytes := ascii "ABCDEFGHIJKLMNOPQRSTUVWXYZabcdefghijklmnopqrstuvwxyz0123456789+/"

def b64index : List (BitVec 32) := [0,0,0,0,0,0,0,0,0,0,0,0,0,0,0,0,0,0,0,0,0,0,0,0,0,0,0,0,0,0,0,0,
  0,0,0,0,0,0,0,0,0,0,0,62,0,0,0,63,52,53,54,55,56,57,58,59,60,61,
  0,0,0, 0, 0,0,0, 0,1,2,3,4,5,6,7,8,9,10,11,12,13,14,15,16,17,18,19,
  20,21,22,23,24,25,0,0,0,0,0,0,26,27,28,29,30,31,32,33,34,35,36,37,
  38,39,40,41,42,43,44,45,46,47,48,49,50,51]

/-- `B64chars[i]`. -/
def b64char (i : BitVec 32) : Byte := b64chars.getD i.toNat 0#8

/-- `B64index[c]`. -/
def b64value (c : Byte) : BitVec 32 := b64index.getD c.toNat 0#32

structure Coder where
  /-- `int val`. -/
  val : BitVec 32
  /-- `int valb`. -/
  valb : ℤ
  /-- `std::string out`. -/
  out : Bytes

def drain (c : Coder) : Coder :=
  if 0 ≤ c.valb then
    drain { c with
      out := c.out ++ [b64char (c.val.sshiftRight c.valb.toNat &&& 0x3f#32)]
      valb := c.valb - 6 }
  else c
termination_by (c.valb + 6).toNat
decreasing_by
  show (c.valb - 6 + 6).toNat < (c.valb + 6).toNat
  omega

def encodeByte (c : Coder) (b : Byte) : Coder :=
  drain { c with val := c.val <<< 8 + b.setWidth 32, valb := c.valb + 8 }

def encodeRest (c : Coder) : Bytes :=
  if -6 < c.valb then
    c.out ++ [b64char ((c.val <<< 8).sshiftRight (c.valb + 8).toNat &&& 0x3f#32)]
  else c.out

/-- `while (out.size() % 4) out.push_back('=')`. -/
def pad (out : Bytes) : Bytes :=
  if out.length % 4 = 0 then out else pad (out ++ ascii "=")
termination_by (4 - out.length % 4) % 4
decreasing_by
  rw [length_append, show (ascii "=").length = 1 from rfl]
  omega

def base64Encode (str : Bytes) : Bytes := pad (encodeRest (str.foldl encodeByte ⟨0#32, -6, []⟩))

def isBlank (c : Byte) : Bool := c = 10#8 || c = 13#8 || c = 32#8 || c = 9#8

def decodeByte (c : Coder) (b : Byte) : Coder :=
  let val := c.val <<< 6 + b64value b
  let valb := c.valb + 6
  if 0 ≤ valb then
    { val, valb := valb - 8
      out := c.out ++ [(val.sshiftRight valb.toNat &&& 0xff#32).setWidth 8] }
  else { c with val, valb }

def decodeLoop : Bytes → Coder → Coder
  | [], c => c
  | b :: src, c =>
    if b = 61#8 then c
    else if isBlank b then decodeLoop src c
    else if 127 < b.toNat ∨ b64value b = 0#32 ∧ b ≠ 65#8 then decodeLoop src c
    else decodeLoop src (decodeByte c b)

def base64Decode (src : Bytes) : Bytes := (decodeLoop src ⟨0#32, -8, []⟩).out

/-! ### The alphabet -/

def sextetBits (text : Bytes) : List Bool := text.flatMap fun c => field (b64value c) 6

variable {c : Coder} {read : List Bool} (text : Bytes) (v : BitVec 32) (str : Bytes)

lemma sextetBits_append (text' : Bytes) :
    sextetBits (text ++ text') = sextetBits text ++ sextetBits text' := flatMap_append

lemma sextetBits_singleton (c : Byte) : sextetBits [c] = field (b64value c) 6 := by
  rw [sextetBits, flatMap_singleton]

@[simp] lemma length_sextetBits : (sextetBits text).length = 6 * text.length := by
  rw [sextetBits, length_flatMap]
  simp [Nat.mul_comm]

private lemma tables_inverse : ∀ i : BitVec 6,
    b64char (i.setWidth 32) ∈ b64chars ∧ b64value (b64char (i.setWidth 32)) = i.setWidth 32 := by
  decide +kernel

private lemma setWidth_mask : (v.setWidth 6).setWidth 32 = v &&& 0x3f#32 := by
  apply BitVec.eq_of_toNat_eq
  have hmask := Nat.and_two_pow_sub_one_eq_mod v.toNat 6
  have hlt := Nat.mod_lt v.toNat (show 0 < 2 ^ 6 by decide)
  rw [BitVec.toNat_setWidth, BitVec.toNat_setWidth, BitVec.toNat_and]
  rw [show (0x3f#32).toNat = 2 ^ 6 - 1 from rfl, hmask]
  omega

lemma b64char_mem : b64char (v &&& 0x3f#32) ∈ b64chars := by
  rw [← setWidth_mask]
  exact (tables_inverse _).1

lemma b64value_b64char : b64value (b64char (v &&& 0x3f#32)) = v &&& 0x3f#32 := by
  rw [← setWidth_mask]
  exact (tables_inverse _).2

lemma sextetBits_b64char : sextetBits [b64char (v &&& 0x3f#32)] = field v 6 := by
  rw [sextetBits_singleton, b64value_b64char]
  exact field_mask v _ (by decide)

lemma alphabet_accepted : ∀ c ∈ b64chars, c ≠ 61#8 ∧ isBlank c = false ∧
    ¬(127 < c.toNat ∨ b64value c = 0#32 ∧ c ≠ 65#8) ∧ (b64value c).toNat < 2 ^ 6 := by
  decide +kernel

/-! ### The encoder -/

structure Encodes (c : Coder) (read : List Bool) : Prop where
  valb_ge : -6 ≤ c.valb
  alphabet : ∀ b ∈ c.out, b ∈ b64chars
  bits : sextetBits c.out ++ field c.val (c.valb + 6).toNat = read

lemma drain_encodes (h : Encodes c read) (hle : c.valb + 6 ≤ 32) :
    Encodes (drain c) read ∧ (drain c).valb < 0 := by
  induction c using drain.induct with
  | case1 c hc ih =>
    rw [drain, if_pos hc]
    refine ih ⟨?_, ?_, ?_⟩ ?_
    · show -6 ≤ c.valb - 6
      omega
    · simp only [forall_mem_append, forall_mem_singleton]
      exact ⟨h.alphabet, b64char_mem _⟩
    · have hsplit : (c.valb + 6).toNat = 6 + c.valb.toNat := by omega
      have hrest : (c.valb - 6 + 6).toNat = c.valb.toNat := by omega
      show sextetBits (c.out ++ [_]) ++ field c.val (c.valb - 6 + 6).toNat = read
      rw [← h.bits, hsplit, hrest, field_add, sextetBits_append, sextetBits_b64char,
        field_sshiftRight c.val (by omega), append_assoc]
    · show c.valb - 6 + 6 ≤ 32
      omega
  | case2 c hc =>
    rw [drain, if_neg hc]
    exact ⟨h, by omega⟩

lemma encodeByte_keeps (h : Encodes c read) (hneg : c.valb < 0) (b : Byte) :
    Encodes (encodeByte c b) (read ++ field b 8) ∧ (encodeByte c b).valb < 0 := by
  have hge := h.valb_ge
  have hbyte : (b.setWidth 32).toNat < 2 ^ 8 := by
    rw [BitVec.toNat_setWidth]
    have := b.isLt
    omega
  refine drain_encodes ⟨?_, h.alphabet, ?_⟩ ?_
  · show -6 ≤ c.valb + 8
    omega
  · show sextetBits c.out ++ field (c.val <<< 8 + b.setWidth 32) (c.valb + 8 + 6).toNat = _
    rw [show (c.valb + 8 + 6).toNat = (c.valb + 6).toNat + 8 by omega,
      field_shiftIn _ _ hbyte (by omega), field_setWidth b (by omega), ← append_assoc, h.bits]
  · show c.valb + 8 + 6 ≤ 32
    omega

lemma foldl_encodeByte (h : Encodes c read) (hneg : c.valb < 0) :
    Encodes (str.foldl encodeByte c) (read ++ bitsOf str) ∧ (str.foldl encodeByte c).valb < 0 := by
  induction str generalizing c read with
  | nil =>
    rw [bitsOf_nil, append_nil]
    exact ⟨h, hneg⟩
  | cons b str ih =>
    obtain ⟨hstep, hstepNeg⟩ := encodeByte_keeps h hneg b
    rw [foldl_cons, bitsOf_cons, ← append_assoc]
    exact ih hstep hstepNeg

lemma field_leftOver {p : ℕ} (hp : p ≤ 6) :
    field ((v <<< 8).sshiftRight (p + 2)) 6 = field v p ++ List.replicate (6 - p) false := by
  have hzero : field (0#32) 8 = List.replicate (6 - p) false ++ List.replicate (p + 2) false := by
    rw [replicate_append_replicate, show 6 - p + (p + 2) = 8 by omega]
    rfl
  have hshift : field (v <<< 8) (p + 8) = field v p ++ field (0#32) 8 := by
    have hin := field_shiftIn v 0#32 (show (0#32).toNat < 2 ^ 8 by decide)
      (show p + 8 ≤ 32 by omega)
    rwa [BitVec.add_zero] at hin
  have hsplit := field_add (v <<< 8) 6 (p + 2)
  rw [show 6 + (p + 2) = p + 8 by omega, hshift, hzero, ← append_assoc,
    ← field_sshiftRight (v <<< 8) (by omega)] at hsplit
  exact (append_inj_left' hsplit (by simp)).symm

lemma encodeRest_bits : (∀ b ∈ encodeRest (str.foldl encodeByte ⟨0#32, -6, []⟩), b ∈ b64chars) ∧
      ∃ z < 6, sextetBits (encodeRest (str.foldl encodeByte ⟨0#32, -6, []⟩)) =
        bitsOf str ++ List.replicate z false := by
  have hstart : Encodes ⟨0#32, -6, []⟩ [] := ⟨le_refl _, by simp, rfl⟩
  obtain ⟨hkept, hneg⟩ := foldl_encodeByte str hstart (by decide)
  rw [nil_append] at hkept
  generalize str.foldl encodeByte ⟨0#32, -6, []⟩ = c at hkept hneg
  have hge := hkept.valb_ge
  rcases lt_or_eq_of_le hge with hlt | heq
  · have hleft : (c.valb + 8).toNat = (c.valb + 6).toNat + 2 := by omega
    rw [encodeRest, if_pos hlt]
    constructor
    · simp only [forall_mem_append, forall_mem_singleton]
      exact ⟨hkept.alphabet, b64char_mem _⟩
    · refine ⟨6 - (c.valb + 6).toNat, by omega, ?_⟩
      rw [sextetBits_append, sextetBits_b64char, hleft, field_leftOver _ (by omega),
        ← append_assoc, hkept.bits]
  · rw [encodeRest, if_neg (by omega)]
    refine ⟨hkept.alphabet, 0, by decide, ?_⟩
    have hbits := hkept.bits
    rw [← heq] at hbits
    simpa [field] using hbits

lemma pad_eq (out : Bytes) : pad out = out ++ List.replicate ((4 - out.length % 4) % 4) 61#8 := by
  induction out using pad.induct with
  | case1 out h =>
    rw [pad, if_pos h, h]
    simp
  | case2 out h ih =>
    have hone : (ascii "=").length = 1 := rfl
    rw [pad, if_neg h, ih, length_append, hone, append_assoc,
      show ascii "=" = List.replicate 1 61#8 from rfl, replicate_append_replicate]
    congr 2
    omega

/-! ### The decoder -/

structure Decodes (c : Coder) (read : List Bool) : Prop where
  valb_ge : -8 ≤ c.valb
  valb_neg : c.valb < 0
  bits : bitsOf c.out ++ field c.val (c.valb + 8).toNat = read

/-- **One more character of the alphabet.** -/
lemma decodeByte_keeps (h : Decodes c read) {b : Byte}
    (hb : b ∈ b64chars) : Decodes (decodeByte c b) (read ++ field (b64value b) 6) := by
  have hge := h.valb_ge
  have hneg := h.valb_neg
  have hin : bitsOf c.out ++ field (c.val <<< 6 + b64value b) (c.valb + 14).toNat =
      read ++ field (b64value b) 6 := by
    rw [show (c.valb + 14).toNat = (c.valb + 8).toNat + 6 by omega,
      field_shiftIn _ _ (alphabet_accepted b hb).2.2.2 (by omega), ← append_assoc, h.bits]
  rcases lt_or_ge (c.valb + 6) 0 with hlt | hle
  · rw [decodeByte, if_neg (by omega)]
    refine ⟨by show -8 ≤ c.valb + 6; omega, hlt, ?_⟩
    show bitsOf c.out ++ field _ (c.valb + 6 + 8).toNat = _
    rw [← hin, add_assoc]
    rfl
  · rw [decodeByte, if_pos hle]
    refine ⟨by show -8 ≤ c.valb + 6 - 8; omega, by show c.valb + 6 - 8 < 0; omega, ?_⟩
    show bitsOf (c.out ++ [_]) ++ field _ (c.valb + 6 - 8 + 8).toNat = _
    rw [← hin, bitsOf_append, bitsOf_cons, bitsOf_nil, append_nil, append_assoc,
      show (c.valb + 14).toNat = 8 + (c.valb + 6).toNat by omega,
      show (c.valb + 6 - 8 + 8).toNat = (c.valb + 6).toNat by omega, field_add,
      field_setWidth _ (le_refl 8), field_mask _ _ (by decide), field_sshiftRight _ (by omega)]

lemma decodeLoop_body {body : Bytes} (hbody : ∀ b ∈ body, b ∈ b64chars)
    (rest : Bytes) (h : Decodes c read) : ∃ c', decodeLoop (body ++ rest) c = decodeLoop rest c' ∧
    Decodes c' (read ++ sextetBits body) := by
  induction body generalizing c read with
  | nil => exact ⟨c, rfl, by rwa [sextetBits, flatMap_nil, append_nil]⟩
  | cons b body ih =>
    rw [forall_mem_cons] at hbody
    obtain ⟨hb, hbody⟩ := hbody
    obtain ⟨hpad, hblank, hjunk, -⟩ := alphabet_accepted b hb
    obtain ⟨c', hloop, hread⟩ := ih hbody (decodeByte_keeps h hb)
    refine ⟨c', ?_, ?_⟩
    · rw [cons_append, decodeLoop, if_neg hpad, hblank, if_neg (by decide), if_neg hjunk, hloop]
    · rwa [append_assoc] at hread

lemma decodeLoop_padding (n : ℕ) (c : Coder) : decodeLoop (List.replicate n 61#8) c = c := by
  cases n with
  | zero => rfl
  | succ n => rw [replicate_succ, decodeLoop, if_pos rfl]

lemma decodeLoop_filter (c : Coder) :
    decodeLoop (text.filter fun b => !isBlank b) c = decodeLoop text c := by
  induction text generalizing c with
  | nil => rfl
  | cons b text ih =>
    cases hblank : isBlank b with
    | true =>
      have hpad : b ≠ 61#8 := by
        rintro rfl
        exact absurd hblank (by decide)
      rw [filter_cons_of_neg (by simp [hblank]), ih, decodeLoop, if_neg hpad, hblank, if_pos rfl]
    | false =>
      rw [filter_cons_of_pos (by simp [hblank]), decodeLoop, decodeLoop, hblank]
      simp only [ih]

/-! ### Round trip -/

lemma base64Encode_eq : ∃ (body : Bytes) (p z : ℕ), base64Encode str =
    body ++ List.replicate p 61#8 ∧ (∀ b ∈ body, b ∈ b64chars) ∧ p ≤ 2 ∧ z < 6 ∧ sextetBits body =
    bitsOf str ++ List.replicate z false ∧ body.length + p = 4 * ((str.length + 2) / 3) := by
  obtain ⟨halphabet, z, hz, hbits⟩ := encodeRest_bits str
  have hlen := congrArg List.length hbits
  rw [length_sextetBits, length_append, length_bitsOf, length_replicate] at hlen
  refine ⟨_, _, z, pad_eq _, halphabet, ?_, hz, hbits, ?_⟩
  · omega
  · omega

/-- **What is encoded is decoded again**, also with blanks and line ends in it. -/
theorem decode_encode (s : Bytes) :
    (∀ text : Bytes, text.filter (fun b => !isBlank b) = base64Encode s → base64Decode text = s) ∧
      base64Decode (base64Encode s) = s ∧ (base64Encode s).length = 4 * ((s.length + 2) / 3) ∧
      ∃ body p, base64Encode s = body ++ List.replicate p 61#8 ∧ p ≤ 2 ∧
        ∀ b ∈ body, b ∈ b64chars := by
  obtain ⟨body, p, z, hencode, halphabet, hp, hz, hbits, hlen⟩ := base64Encode_eq s
  have hdecode : base64Decode (base64Encode s) = s := by
    have hstart : Decodes ⟨0#32, -8, []⟩ [] := ⟨le_refl _, by decide, rfl⟩
    obtain ⟨c, hloop, hread⟩ := decodeLoop_body halphabet (List.replicate p 61#8) hstart
    rw [base64Decode, hencode, hloop, decodeLoop_padding]
    have hsame : bitsOf c.out ++ field c.val (c.valb + 8).toNat =
        bitsOf s ++ List.replicate z false := by
      rw [hread.bits, nil_append, hbits]
    -- fewer than eight bits are left over on both sides
    have hsize := congrArg List.length hsame
    rw [length_append, length_append, length_bitsOf, length_bitsOf, length_field,
      length_replicate] at hsize
    have hge := hread.valb_ge
    have hneg := hread.valb_neg
    have hout : (bitsOf c.out).length = (bitsOf s).length := by
      rw [length_bitsOf, length_bitsOf]
      omega
    exact bitsOf_injective (append_inj_left hsame hout)
  refine ⟨?_, hdecode, ?_, body, p, hencode, hp, halphabet⟩
  · intro text htext
    rw [base64Decode, ← decodeLoop_filter, htext]
    exact hdecode
  · rw [hencode, length_append, length_replicate, hlen]

theorem decode_encode_wrapped :
    (ascii "TW Fu\n").filter (fun b => !isBlank b) = base64Encode (ascii "Man") ∧
      base64Decode (ascii "TW Fu\n") = ascii "Man" := by
  have htext : (ascii "TW Fu\n").filter (fun b => !isBlank b) = base64Encode (ascii "Man") := by
    decide +kernel
  exact ⟨htext, (decode_encode (ascii "Man")).1 _ htext⟩

end Megatron.Utils
