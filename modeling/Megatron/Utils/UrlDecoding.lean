import Megatron.Corelib.IoBuffer
import Megatron.Library.Loops

/-!
The decoders of URL escapes, `CUtils::unescapeURL` and `CUtils::uriDecode` (`main/CUtils.cpp`).
-/

namespace Megatron.Utils

open Library List Option

inductive UrlFault
  | stringIndex
  | tableIndex
  | uninitialised
  deriving DecidableEq

def uTable : List ℕ := [
  0x0, 0x1, 0x2, 0x3, 0x4, 0x5, 0x6, 0x7, 0x8, 0x9, 0xa, 0xb, 0xc, 0xd, 0xe, 0xf,
  0x10, 0x11, 0x12, 0x13, 0x14, 0x15, 0x16, 0x17, 0x18, 0x19, 0x1a, 0x1b, 0x1c, 0x1d, 0x1e, 0x1f,
  0x20, 0x21, 0x22, 0x23, 0x24, 0x25, 0x26, 0x27, 0x28, 0x29, 0x2a, 0x2b, 0x2c, 0x2d, 0x2e, 0x2f,
  0x30, 0x31, 0x32, 0x33, 0x34, 0x35, 0x36, 0x37, 0x38, 0x39, 0x3a, 0x3b, 0x3c, 0x3d, 0x3e, 0x3f,
  0x40, 0x41, 0x42, 0x43, 0x44, 0x45, 0x46, 0x47, 0x48, 0x49, 0x4a, 0x4b, 0x4c, 0x4d, 0x4e, 0x4f,
  0x50, 0x51, 0x52, 0x53, 0x54, 0x55, 0x56, 0x57, 0x58, 0x59, 0x5a, 0x5b, 0x5c, 0x5d, 0x5e, 0x5f,
  0x60, 0x41, 0x42, 0x43, 0x44, 0x45, 0x46, 0x47, 0x48, 0x49, 0x4a, 0x4b, 0x4c, 0x4d, 0x4e, 0x4f,
  0x50, 0x51, 0x52, 0x53, 0x54, 0x55, 0x56, 0x57, 0x58, 0x59, 0x5a, 0x7b, 0x7c, 0x7d, 0x7e, 0x7f,
  0x80, 0x81, 0x82, 0x81, 0x84, 0x85, 0x86, 0x87, 0x88, 0x89, 0x8a, 0x8b, 0x8c, 0x8d, 0x8e, 0x8f,
  0x80, 0x91, 0x92, 0x93, 0x94, 0x95, 0x96, 0x97, 0x98, 0x99, 0x8a, 0x9b, 0x8c, 0x8d, 0x8e, 0x8f,
  0xa0, 0xa1, 0xa1, 0xa3, 0xa4, 0xa5, 0xa6, 0xa7, 0xa8, 0xa9, 0xaa, 0xab, 0xac, 0xad, 0xae, 0xaf,
  0xb0, 0xb1, 0xb2, 0xb2, 0xa5, 0xb5, 0xb6, 0xb7, 0xa8, 0xb9, 0xaa, 0xbb, 0xa3, 0xbd, 0xbd, 0xaf,
  0xc0, 0xc1, 0xc2, 0xc3, 0xc4, 0xc5, 0xc6, 0xc7, 0xc8, 0xc9, 0xca, 0xcb, 0xcc, 0xcd, 0xce, 0xcf,
  0xd0, 0xd1, 0xd2, 0xd3, 0xd4, 0xd5, 0xd6, 0xd7, 0xd8, 0xd9, 0xda, 0xdb, 0xdc, 0xdd, 0xde, 0xdf,
  0xc0, 0xc1, 0xc2, 0xc3, 0xc4, 0xc5, 0xc6, 0xc7, 0xc8, 0xc9, 0xca, 0xcb, 0xcc, 0xcd, 0xce, 0xcf,
  0xd0, 0xd1, 0xd2, 0xd3, 0xd4, 0xd5, 0xd6, 0xd7, 0xd8, 0xd9, 0xda, 0xdb, 0xdc, 0xdd, 0xde, 0xdf]

/-- `u_table[c]` for an `unsigned char`. -/
def upper (c : Byte) : ℕ := uTable.getD c.toNat 0

/-- `s[k]` of a `const std::string &`. -/
def charAt (s : Bytes) (k : ℕ) : Except UrlFault Byte :=
  if k ≤ s.length then .ok (s.getD k 0#8) else .error .stringIndex

/-- `u_table[(int)c]`, where `char` is signed. -/
def upperAt (c : Byte) : Except UrlFault ℤ :=
  if 0 ≤ c.toInt then .ok (upper c) else .error .tableIndex

/-- What is subtracted from `c1` and from `c2`. -/
def digitOf (c : ℤ) : ℤ :=
  let c := if 48 ≤ c ∧ c ≤ 57 then c - 48 else c
  if 65 ≤ c ∧ c ≤ 70 then c - 55 else c

/-- What an escape appends, from `c1` and `c2`. -/
def unescaped (c1 c2 : ℤ) : Bytes :=
  if c1 > 70 ∨ c2 > 70 then []
  else if c1 < 48 ∨ c2 < 48 then []
  else [BitVec.ofInt 8 (digitOf c1 * 16 + digitOf c2)]

def escapeAt (s : Bytes) (i : ℕ) : Except UrlFault Bytes := do
  let c1 ← upperAt (← charAt s ((i + 1) % 2 ^ 32))
  let c2 ← upperAt (← charAt s ((i + 2) % 2 ^ 32))
  return unescaped c1 c2

def plusBlank (c : Byte) : Byte := if c = 43#8 then 32#8 else c

/-- One turn of the loop of `unescapeURL`. -/
def unescapeStep (s : Bytes) : ℕ × Bytes → (ℕ × Bytes) ⊕ Except UrlFault Bytes
  | (i, a) =>
    if i < s.length then
      if s.getD i 0#8 = 37#8 then
        if (i + 2) % 2 ^ 32 > s.length then .inr (.ok a)
        else
          match escapeAt s i with
          | .error fault => .inr (.error fault)
          | .ok b => .inl ((i + 3) % 2 ^ 32, a ++ b)
      else .inl ((i + 1) % 2 ^ 32, a ++ [plusBlank (s.getD i 0#8)])
    else .inr (.ok a)

/-- `unescapeURL`, for at most so many turns of its loop. -/
def unescapeURL (n : ℕ) (s : Bytes) : Option (Except UrlFault Bytes) :=
  turns (unescapeStep s) n (0, [])

def hexValue (c : Byte) : Option ℕ :=
  let n := c.toNat
  if 48 ≤ n ∧ n ≤ 57 then some (n - 48)
  else if 65 ≤ n ∧ n ≤ 70 then some (n - 55)
  else if 97 ≤ n ∧ n ≤ 102 then some (n - 87)
  else none

def hexByte (x y : Byte) : Option Byte := do
  let high ← hexValue x
  let low ← hexValue y
  return BitVec.ofNat 8 (16 * high + low)

/-- `sscanf(text, "%x", &ii)`: the value that is stored, if one is. -/
structure Sscanf where
  read : Bytes → Option (BitVec 32)
  /-- Two digits are converted. -/
  digits : ∀ x y high low, hexValue x = some high → hexValue y = some low →
    read [x, y] = some (BitVec.ofNat 32 (16 * high + low))
  empty : read [] = none

/-- A blank, as `isspace` has it. -/
def isSpace (c : Byte) : Bool := c = 32#8 || (9 ≤ c.toNat && c.toNat ≤ 13)

def dropHexPrefix : Bytes → Bytes
  | z :: x :: text =>
    if z = 48#8 ∧ (x = 120#8 ∨ x = 88#8) ∧ (text.takeWhile fun c => (hexValue c).isSome) ≠ []
    then text else z :: x :: text
  | text => text

def scanHex (text : Bytes) : Option (BitVec 32) :=
  let text := (text.takeWhile fun c => c ≠ 0#8).dropWhile isSpace
  let unsigned := if text.head? = some 43#8 ∨ text.head? = some 45#8 then text.tail else text
  match (dropHexPrefix unsigned).takeWhile fun c => (hexValue c).isSome with
  | [] => none
  | digits =>
    let v := BitVec.ofNat 32 (digits.foldl (fun v c => 16 * v + (hexValue c).getD 0) 0)
    some (if text.head? = some 45#8 then -v else v)

/-- The loop of `uriDecode`. -/
def uriDecodeLoop (sscanf : Sscanf) : Bytes → Option (BitVec 32) → Bytes → Except UrlFault Bytes
  | [], _, ret => .ok ret
  | c :: src, ii, ret =>
    if c = 37#8 then
      match (sscanf.read (src.take 2)).or ii with
      | none => .error .uninitialised
      | some v => uriDecodeLoop sscanf (src.drop 2) (some v) (ret ++ [v.setWidth 8])
    else uriDecodeLoop sscanf src ii (ret ++ [c])
termination_by src => src.length
decreasing_by all_goals (simp_wf; try omega)

def uriDecode (sscanf : Sscanf) (src : Bytes) : Except UrlFault Bytes :=
  uriDecodeLoop sscanf src none []

/-! ### What the decoders meet -/

inductive Piece
  | plain (c : Byte)
  | escape (x y : Byte)
  | cut (rest : Bytes)
  deriving DecidableEq

def pieces : Bytes → List Piece
  | [] => []
  | c :: s =>
    if c = 37#8 then
      match s with
      | x :: y :: s => .escape x y :: pieces s
      | s => [.cut s]
    else .plain c :: pieces s

def Piece.decoded (plain : Byte → Byte) : Piece → Bytes
  | .plain c => [plain c]
  | .escape x y => (hexByte x y).toList
  | .cut _ => []

def decoded (plain : Byte → Byte) (s : Bytes) : Bytes := (pieces s).flatMap (Piece.decoded plain)

variable {c : Byte} (plain : Byte → Byte) (p : Piece)

lemma decoded_eq (s : Bytes) : decoded plain s = (pieces s).flatMap (Piece.decoded plain) := rfl

lemma pieces_plain (hc : c ≠ 37#8) (s : Bytes) : pieces (c :: s) = .plain c :: pieces s := by
  rw [pieces.eq_def]
  exact if_neg hc

@[simp] lemma pieces_escape (x y : Byte) (s : Bytes) :
    pieces (37#8 :: x :: y :: s) = .escape x y :: pieces s := by
  rw [pieces, if_pos rfl]

lemma pieces_cut {s : Bytes} (hs : s.length < 2) : pieces (37#8 :: s) = [.cut s] := by
  rcases s with _ | ⟨x, _ | ⟨y, s⟩⟩
  · rfl
  · rfl
  · simp at hs

@[elab_as_elim]
lemma pieces_induction {motive : Bytes → Prop} (nil : motive [])
    (plain : ∀ c s, c ≠ 37#8 → motive s → motive (c :: s))
    (escape : ∀ x y s, motive s → motive (37#8 :: x :: y :: s))
    (cut : ∀ s : Bytes, s.length < 2 → motive (37#8 :: s)) (s : Bytes) : motive s := by
  induction s using pieces.induct with
  | case1 => exact nil
  | case2 x y s ih => exact escape x y s ih
  | case3 s hshort =>
    apply cut
    rcases s with _ | ⟨x, _ | ⟨y, s⟩⟩
    · exact Nat.zero_lt_two
    · exact Nat.one_lt_two
    · exact (hshort x y s rfl).elim
  | case4 c s hc ih => exact plain c s hc ih

lemma decoded_plain (hc : c ≠ 37#8) (s : Bytes) :
    decoded plain (c :: s) = plain c :: decoded plain s := by
  rw [decoded_eq, pieces_plain hc, flatMap_cons]
  rfl

lemma decoded_escape (x y : Byte) (s : Bytes) :
    decoded plain (37#8 :: x :: y :: s) = (hexByte x y).toList ++ decoded plain s := by
  rw [decoded_eq, pieces_escape, flatMap_cons]
  rfl

lemma length_decoded_le : (p.decoded plain).length ≤ 1 := by
  cases p with
  | plain c => exact le_refl 1
  | escape x y => cases h : hexByte x y <;> simp [Piece.decoded, h]
  | cut rest => exact Nat.zero_le 1

def Piece.HasByte : Piece → Prop
  | .plain _ => True
  | .escape x y => (hexByte x y).isSome
  | .cut _ => False

lemma length_decoded_eq_one : (p.decoded plain).length = 1 ↔ p.HasByte := by
  cases p with
  | plain c | cut rest => simp [Piece.decoded, Piece.HasByte]
  | escape x y => cases h : hexByte x y <;> simp [Piece.decoded, Piece.HasByte, h]

lemma length_flatMap_lt {ps : List Piece} {f g : Piece → Bytes}
    (hle : ∀ p ∈ ps, (f p).length ≤ (g p).length) {p : Piece} (hp : p ∈ ps)
    (hlt : (f p).length < (g p).length) : (ps.flatMap f).length < (ps.flatMap g).length := by
  rw [length_flatMap, length_flatMap]
  exact sum_lt_sum _ _ hle ⟨p, hp, hlt⟩

/-! ### `uriDecode` -/

section

variable (sscanf : Sscanf)

lemma sscanf_hexByte {x y b : Byte} (h : hexByte x y = some b) :
    ∃ v : BitVec 32, sscanf.read [x, y] = some v ∧ v.setWidth 8 = b := by
  obtain ⟨high, hhigh, hx⟩ := bind_eq_some_iff.mp h
  obtain ⟨low, hlow, hy⟩ := bind_eq_some_iff.mp hx
  refine ⟨_, sscanf.digits x y high low hhigh hlow, ?_⟩
  rw [← Option.some.inj hy, BitVec.setWidth_ofNat_of_le (by decide)]

lemma uriDecodeLoop_escape (x y : Byte) (s ret : Bytes) (ii : Option (BitVec 32)) :
    uriDecodeLoop sscanf (37#8 :: x :: y :: s) ii ret = match (sscanf.read [x, y]).or ii with
      | none => .error .uninitialised
      | some v => uriDecodeLoop sscanf s (some v) (ret ++ [v.setWidth 8]) := by
  rw [uriDecodeLoop, if_pos rfl]
  rfl

lemma uriDecodeLoop_digits {s : Bytes} (h : ∀ p ∈ pieces s, p.HasByte) (ii : Option (BitVec 32))
    (ret : Bytes) : uriDecodeLoop sscanf s ii ret = .ok (ret ++ decoded id s) := by
  induction s using pieces_induction generalizing ii ret with
  | nil => rw [uriDecodeLoop, decoded_eq, pieces, flatMap_nil, append_nil]
  | plain c s hc ih =>
    rw [pieces_plain hc, forall_mem_cons] at h
    rw [uriDecodeLoop, if_neg hc, ih h.2, decoded_plain _ hc, append_assoc]
    rfl
  | escape x y s ih =>
    rw [pieces_escape, forall_mem_cons] at h
    obtain ⟨b, hb⟩ := isSome_iff_exists.mp h.1
    obtain ⟨v, hread, hv⟩ := sscanf_hexByte sscanf hb
    rw [uriDecodeLoop_escape, hread]
    show uriDecodeLoop sscanf s (some v) (ret ++ [v.setWidth 8]) = _
    rw [ih h.2, hv, decoded_escape, hb, append_assoc]
    rfl
  | cut s hs =>
    rw [pieces_cut hs, forall_mem_singleton] at h
    exact h.elim

lemma length_uriDecodeLoop {s out ret : Bytes} {ii : Option (BitVec 32)}
    (h : uriDecodeLoop sscanf s ii ret = .ok out) :
    out.length = ret.length + (pieces s).length := by
  induction s using pieces_induction generalizing ii ret with
  | nil =>
    rw [uriDecodeLoop] at h
    cases h
    rfl
  | plain c s hc ih =>
    rw [uriDecodeLoop, if_neg hc] at h
    rw [ih h, pieces_plain hc, length_append, length_singleton, length_cons]
    omega
  | escape x y s ih =>
    rw [uriDecodeLoop_escape] at h
    cases hii : (sscanf.read [x, y]).or ii with
    | none => rw [hii] at h; cases h
    | some v =>
      rw [hii] at h
      rw [ih h, pieces_escape, length_append, length_singleton, length_cons]
      omega
  | cut s hs =>
    rw [uriDecodeLoop, if_pos rfl] at h
    cases hii : (sscanf.read (s.take 2)).or ii with
    | none => rw [hii] at h; cases h
    | some v =>
      rw [hii] at h
      have hdrop : s.drop 2 = [] := drop_eq_nil_of_le (by omega)
      simp only [hdrop, uriDecodeLoop, Except.ok.injEq] at h
      rw [← h, pieces_cut hs, length_append]
      rfl

lemma uriDecode_eq_iff (s : Bytes) :
    uriDecode sscanf s = .ok (decoded id s) ↔ ∀ p ∈ pieces s, p.HasByte := by
  constructor
  · intro h p hp
    have hlen := length_uriDecodeLoop sscanf h
    rw [← length_decoded_eq_one id]
    by_contra hne
    have hlt : (p.decoded id).length < [0#8].length := lt_of_le_of_ne (length_decoded_le id p) hne
    have hless := length_flatMap_lt (g := fun _ => [0#8]) (fun p _ => length_decoded_le id p) hp hlt
    rw [← decoded_eq, hlen, length_flatMap] at hless
    simp at hless
  · intro h
    exact uriDecodeLoop_digits sscanf h none []

end

/-! ### `unescapeURL`: one turn -/

section

variable {s : Bytes} {i : ℕ} {a out : Bytes}

variable {c x y : Byte} {rest t : Bytes} {st : ℕ × Bytes} (p : Piece)

lemma charAt_of_drop {k : ℕ} (h : s.drop k = c :: t) : charAt s k = .ok c := by
  obtain ⟨hlt, hc, -⟩ := of_drop 0#8 h
  rw [charAt, if_pos (by omega), hc]

lemma charAt_length (s : Bytes) : charAt s s.length = .ok 0#8 := by
  rw [charAt, if_pos (le_refl _), getD_eq_default _ _ (le_refl _)]

private lemma signed_nonneg : ∀ c : Byte, 0 ≤ c.toInt ↔ c.toNat < 128 := by
  decide +kernel

lemma upperAt_eq (c : Byte) :
    upperAt c = if c.toNat < 128 then .ok (upper c : ℤ) else .error .tableIndex := by
  rw [upperAt]
  simp only [signed_nonneg]

lemma escapeAt_eq (hx : charAt s ((i + 1) % 2 ^ 32) = .ok x)
    (hy : charAt s ((i + 2) % 2 ^ 32) = .ok y) : escapeAt s i = if x.toNat < 128 ∧
    y.toNat < 128 then .ok (unescaped (upper x) (upper y)) else .error .tableIndex := by
  rw [escapeAt, hx, hy]
  simp only [bind, Except.bind, upperAt_eq]
  by_cases hx' : x.toNat < 128
  · by_cases hy' : y.toNat < 128
    · simp [hx', hy', pure, Except.pure]
    · simp [hx', hy']
  · simp [hx']

lemma step_stop (h : s.length ≤ i) : unescapeStep s (i, a) = .inr (.ok a) := by
  rw [unescapeStep, if_neg (by omega)]

lemma step_plain (h : s.drop i = c :: t) (hc : c ≠ 37#8) :
    unescapeStep s (i, a) = .inl ((i + 1) % 2 ^ 32, a ++ [plusBlank c]) := by
  obtain ⟨hlt, hget, -⟩ := of_drop 0#8 h
  rw [unescapeStep, if_pos hlt, hget, if_neg hc]

lemma step_break (h : s.drop i = 37#8 :: t) (hgt : s.length < (i + 2) % 2 ^ 32) :
    unescapeStep s (i, a) = .inr (.ok a) := by
  obtain ⟨hlt, hget, -⟩ := of_drop 0#8 h
  rw [unescapeStep, if_pos hlt, hget, if_pos rfl, if_pos hgt]

lemma step_escape (h : s.drop i = 37#8 :: t)
    (hle : (i + 2) % 2 ^ 32 ≤ s.length) (hx : charAt s ((i + 1) % 2 ^ 32) = .ok x)
    (hy : charAt s ((i + 2) % 2 ^ 32) = .ok y) : unescapeStep s (i, a) =
      if x.toNat < 128 ∧ y.toNat < 128 then
        .inl ((i + 3) % 2 ^ 32, a ++ unescaped (upper x) (upper y))
      else .inr (.error .tableIndex) := by
  obtain ⟨hlt, hget, -⟩ := of_drop 0#8 h
  rw [unescapeStep, if_pos hlt, hget, if_pos rfl, if_neg (by omega), escapeAt_eq hx hy]
  split_ifs with hboth
  · rfl
  · rfl

lemma step_digits (hs : s.length < 2 ^ 32) (h : s.drop i = 37#8 :: x :: y :: t) :
    unescapeStep s (i, a) = if x.toNat < 128 ∧ y.toNat < 128 then
        .inl ((i + 3) % 2 ^ 32, a ++ unescaped (upper x) (upper y))
      else .inr (.error .tableIndex) := by
  obtain ⟨-, -, hx⟩ := of_drop 0#8 h
  obtain ⟨-, -, hy⟩ := of_drop 0#8 hx
  obtain ⟨hlt, -, -⟩ := of_drop 0#8 hy
  have hfirst : (i + 1) % 2 ^ 32 = i + 1 := Nat.mod_eq_of_lt (by omega)
  have hsecond : (i + 2) % 2 ^ 32 = i + 1 + 1 := Nat.mod_eq_of_lt (by omega)
  apply step_escape h (by omega)
  · rw [hfirst, charAt_of_drop hx]
  · rw [hsecond, charAt_of_drop hy]

lemma step_one (hs : s.length < 2 ^ 32) (h : s.drop i = [37#8, x]) : unescapeStep s (i, a) =
      if x.toNat < 128 then .inl ((i + 3) % 2 ^ 32, a) else .inr (.error .tableIndex) := by
  obtain ⟨-, -, hx⟩ := of_drop 0#8 h
  obtain ⟨hlt, -, hend⟩ := of_drop 0#8 hx
  have hlen : s.length = i + 2 := by
    have := drop_eq_nil_iff.mp hend
    omega
  have hfirst : (i + 1) % 2 ^ 32 = i + 1 := Nat.mod_eq_of_lt (by omega)
  have hsecond : (i + 2) % 2 ^ 32 = s.length := by rw [Nat.mod_eq_of_lt (by omega), hlen]
  have hnone : unescaped (upper x) (upper 0#8) = [] := by
    have hzero : upper 0#8 = 0 := by decide
    simp [unescaped, hzero]
  rw [step_escape (x := x) (y := 0#8) h (by omega) (by rw [hfirst, charAt_of_drop hx])
    (by rw [hsecond, charAt_length]), hnone, append_nil]
  simp

lemma step_none (hs : s.length = 2 ^ 32 - 1) (h : s.drop i = [37#8]) : unescapeStep s (i, a) =
      if (s.getD 0 0#8).toNat < 128 then .inl (1, a) else .inr (.error .tableIndex) := by
  obtain ⟨hlt, -, hend⟩ := of_drop 0#8 h
  have hlen : i = 2 ^ 32 - 2 := by
    have := drop_eq_nil_iff.mp hend
    omega
  have hfirst : (i + 1) % 2 ^ 32 = s.length := by omega
  have hsecond : (i + 2) % 2 ^ 32 = 0 := by omega
  have hthird : (i + 3) % 2 ^ 32 = 1 := by omega
  have hnone : ∀ c2 : ℤ, unescaped (upper 0#8) c2 = [] := by
    have hzero : upper 0#8 = 0 := by decide
    intro c2
    simp [unescaped, hzero]
  have hy : charAt s 0 = .ok (s.getD 0 0#8) := by rw [charAt, if_pos (Nat.zero_le _)]
  rw [step_escape (x := 0#8) h (by omega) (by rw [hfirst, charAt_length]) (by rw [hsecond, hy]),
    hnone, append_nil, hthird]
  simp

/-! ### `unescapeURL`: the run -/

def Piece.written : Piece → Bytes
  | .plain c => [plusBlank c]
  | .escape x y => unescaped (upper x) (upper y)
  | .cut _ => []

def Piece.InTable : Piece → Prop
  | .plain _ => True
  | .escape x y => x.toNat < 128 ∧ y.toNat < 128
  | .cut rest => ∀ x ∈ rest, x.toNat < 128

lemma returns_ok_of_ite {st' : ℕ × Bytes} {P : Prop} [Decidable P]
    (h : unescapeStep s st = if P then .inl st' else .inr (.error .tableIndex)) :
    Returns (unescapeStep s) st (.ok out) ↔ P ∧ Returns (unescapeStep s) st' (.ok out) := by
  by_cases hP : P
  · rw [if_pos hP] at h
    rw [returns_next h, and_iff_right hP]
  · rw [if_neg hP] at h
    rw [returns_done h]
    simp [hP]

lemma returns_iff (hs : s.length < 2 ^ 32) (ht : s.drop i = t)
    (hcut : s.length = 2 ^ 32 - 1 → ∀ rest, .cut rest ∉ pieces t) :
    Returns (unescapeStep s) (i, a) (.ok out) ↔
      (∀ p ∈ pieces t, p.InTable) ∧ out = a ++ (pieces t).flatMap Piece.written := by
  induction t using pieces_induction generalizing i a with
  | nil =>
    rw [returns_done (step_stop (drop_eq_nil_iff.mp ht)), pieces]
    simp
  | plain c t hc ih =>
    obtain ⟨hlt, -, hrest⟩ := of_drop 0#8 ht
    rw [pieces_plain hc] at hcut ⊢
    rw [returns_next (step_plain ht hc), Nat.mod_eq_of_lt (by omega),
      ih hrest fun hlen rest hmem => hcut hlen rest (mem_cons_of_mem _ hmem),
      forall_mem_cons, flatMap_cons, append_assoc]
    simp [Piece.InTable, Piece.written]
  | escape x y t ih =>
    obtain ⟨-, -, hrest⟩ := of_drop 0#8 ht
    obtain ⟨-, -, hrest1⟩ := of_drop 0#8 hrest
    obtain ⟨hlt, -, hrest2⟩ := of_drop 0#8 hrest1
    rw [pieces_escape] at hcut ⊢
    rw [returns_ok_of_ite (step_digits hs ht), Nat.mod_eq_of_lt (by omega),
      ih hrest2 fun hlen rest hmem => hcut hlen rest (mem_cons_of_mem _ hmem),
      forall_mem_cons, flatMap_cons, ← append_assoc, ← and_assoc]
    rfl
  | cut t hshort =>
    obtain ⟨hlt, -, hrest⟩ := of_drop 0#8 ht
    rw [pieces_cut hshort] at hcut ⊢
    have hlen : s.length ≠ 2 ^ 32 - 1 := fun hlen => hcut hlen t (mem_singleton_self _)
    rw [forall_mem_singleton, flatMap_singleton, Piece.written, append_nil]
    rcases t with _ | ⟨x, _ | ⟨y, t⟩⟩
    · -- nothing behind the percent sign: the loop is left
      have hend := drop_eq_nil_iff.mp hrest
      have hgt : s.length < (i + 2) % 2 ^ 32 := by
        rw [Nat.mod_eq_of_lt (by omega)]
        omega
      rw [returns_done (step_break ht hgt)]
      simp [Piece.InTable]
    · obtain ⟨hlt1, -, hrest1⟩ := of_drop 0#8 hrest
      have hend := drop_eq_nil_iff.mp hrest1
      rw [returns_ok_of_ite (step_one hs ht), Nat.mod_eq_of_lt (by omega),
        returns_done (step_stop (by omega))]
      simp [Piece.InTable]
    · simp at hshort

lemma step_next (h : unescapeStep s (i, a) = .inl st) :
    i < s.length ∧ (st = ((i + 1) % 2 ^ 32, a ++ [plusBlank (s.getD i 0#8)]) ∨
      ∃ b, st = ((i + 3) % 2 ^ 32, a ++ b)) := by
  rw [unescapeStep] at h
  split_ifs at h with hlt hpercent hbreak
  · refine ⟨hlt, .inr ?_⟩
    cases hescape : escapeAt s i with
    | error fault => rw [hescape] at h; cases h
    | ok b =>
      rw [hescape] at h
      exact ⟨b, (Sum.inl.inj h).symm⟩
  · exact ⟨hlt, .inl (Sum.inl.inj h).symm⟩

lemma step_returns (h : unescapeStep s (i, a) = .inr (.ok out)) :
    out = a ∧ (s.length ≤ i ∨ s.length < (i + 2) % 2 ^ 32) := by
  rw [unescapeStep] at h
  split_ifs at h with hlt hpercent hbreak
  · cases h
    exact ⟨rfl, .inr hbreak⟩
  · cases hescape : escapeAt s i with
    | error fault | ok b => rw [hescape] at h; cases h
  · cases h
    exact ⟨rfl, .inl (by omega)⟩

private lemma index_lt (k : ℕ) : k % 2 ^ 32 < 2 ^ 32 := Nat.mod_lt k (by decide)

lemma never_returns (hs : 2 ^ 32 ≤ s.length) (hi : i < 2 ^ 32) :
    ¬Returns (unescapeStep s) (i, a) (.ok out) := by
  intro h
  refine h.rec_on (P := fun st => ¬st.1 < 2 ^ 32) ?_ ?_ hi
  · rintro ⟨i, a⟩ hdone hi
    have hplace := index_lt (i + 2)
    have hend := (step_returns hdone).2
    dsimp only at hi
    omega
  · rintro ⟨i, a⟩ st hstep - hst
    rcases (step_next hstep).2 with rfl | ⟨b, rfl⟩
    · exact absurd (index_lt _) hst
    · exact absurd (index_lt _) hst

lemma written_grows (h : Returns (unescapeStep s) (i, a) (.ok out)) : a <+: out := by
  refine h.rec_on (P := fun st => st.2 <+: out) ?_ ?_
  · rintro ⟨i, a⟩ hdone
    exact (step_returns hdone).1 ▸ prefix_refl _
  · rintro ⟨i, a⟩ st hstep - hst
    rcases (step_next hstep).2 with rfl | ⟨b, rfl⟩
    · exact (prefix_append a _).trans hst
    · exact (prefix_append a b).trans hst

lemma nil_of_written {b : Bytes} (h : Returns (unescapeStep s) (i, a ++ b) (.ok a)) : b = [] := by
  have hle := (written_grows h).length_le
  rw [length_append] at hle
  exact length_eq_zero_iff.mp (by omega)

/-! ### The longest text that the index can walk through -/

def wrapTo (rest : Bytes) : ℕ := if rest = [] then 1 else 0

section

variable (hs : s.length = 2 ^ 32 - 1)
include hs

lemma wraps (ht : s.drop i = t) (hcut : .cut rest ∈ pieces t)
    (h : Returns (unescapeStep s) (i, a) (.ok out)) :
    Leads (unescapeStep s) (i, a) (wrapTo rest, a ++ (pieces t).flatMap Piece.written) := by
  induction t using pieces_induction generalizing i a with
  | nil => cases hcut
  | plain c t hc ih =>
    obtain ⟨hlt, -, hrest⟩ := of_drop 0#8 ht
    have hstep := step_plain (a := a) ht hc
    rw [Nat.mod_eq_of_lt (by omega)] at hstep
    rw [pieces_plain hc] at hcut ⊢
    rw [flatMap_cons, ← append_assoc]
    exact .head hstep (ih hrest (by simpa using hcut) ((returns_next hstep).mp h))
  | escape x y t ih =>
    obtain ⟨-, -, hrest⟩ := of_drop 0#8 ht
    obtain ⟨-, -, hrest1⟩ := of_drop 0#8 hrest
    obtain ⟨hlt, -, hrest2⟩ := of_drop 0#8 hrest1
    have hstep := step_digits (a := a) (by omega) ht
    rw [Nat.mod_eq_of_lt (by omega)] at hstep
    obtain ⟨htable, hnext⟩ := (returns_ok_of_ite hstep).mp h
    rw [if_pos htable] at hstep
    rw [pieces_escape] at hcut ⊢
    rw [flatMap_cons, ← append_assoc]
    exact .head hstep (ih hrest2 (by simpa using hcut) hnext)
  | cut t hshort =>
    rw [pieces_cut hshort, mem_singleton, Piece.cut.injEq] at hcut
    subst hcut
    rw [pieces_cut hshort, flatMap_singleton, Piece.written, append_nil]
    rcases rest with _ | ⟨x, _ | ⟨y, t⟩⟩
    · have hstep := step_none (a := a) hs ht
      rw [if_pos ((returns_ok_of_ite hstep).mp h).1] at hstep
      exact .single hstep
    · obtain ⟨-, -, hrest⟩ := of_drop 0#8 ht
      obtain ⟨hlt, -, hend⟩ := of_drop 0#8 hrest
      have hlen := drop_eq_nil_iff.mp hend
      have hstep := step_one (a := a) (by omega) ht
      rw [if_pos ((returns_ok_of_ite hstep).mp h).1, show (i + 3) % 2 ^ 32 = 0 by omega] at hstep
      exact .single hstep
    · simp at hshort

lemma never_returns_start (hcut : .cut (x :: rest) ∈ pieces s) :
    ¬Returns (unescapeStep s) (0, a) (.ok out) := by
  refine not_returns_of_leads (C := fun st => st.1 = 0) ?_ rfl
  rintro ⟨_, a⟩ rfl h
  exact ⟨_, rfl, wraps hs drop_zero hcut h⟩

lemma thirds (hi : i < s.length) (hthird : i % 3 = 1)
    (h : Returns (unescapeStep s) (i, a) (.ok a)) : Leads (unescapeStep s) (i, a) (0, a) := by
  refine h.rec_on (P := fun st => st.1 < s.length → st.1 % 3 = 1 → st.2 = a →
    Leads (unescapeStep s) st (0, a)) ?_ ?_ hi hthird rfl
  · rintro ⟨i, _⟩ hdone hi hthird rfl
    have hend := (step_returns hdone).2
    dsimp only at hi hthird
    omega
  · rintro ⟨i, _⟩ st hstep hst ih hi hthird rfl
    dsimp only at hi hthird
    rcases (step_next hstep).2 with rfl | ⟨b, rfl⟩
    · cases nil_of_written hst
    · obtain rfl := nil_of_written hst
      rw [append_nil] at hstep ih
      rcases Nat.lt_or_ge (i + 3) s.length with hlt | hge
      · rw [Nat.mod_eq_of_lt (by omega)] at hstep ih
        exact .head hstep (ih hlt (by show (i + 3) % 3 = 1; omega) rfl)
      · rw [show (i + 3) % 2 ^ 32 = 0 by omega] at hstep
        exact .single hstep

lemma writes_more (hcut : .cut [] ∈ pieces s) : ¬Returns (unescapeStep s) (1, a) (.ok a) := by
  refine not_returns_of_leads (C := fun st => st = (1, a)) ?_ rfl
  rintro _ rfl h
  have hstart := thirds hs (by omega) rfl h
  have hagain := wraps hs drop_zero hcut (hstart.returns_iff.mp h)
  rw [nil_of_written ((hstart.trans hagain).returns_iff.mp h), append_nil] at hagain
  exact ⟨_, rfl, hstart.trans hagain⟩

end

/-! ### What is written, and what should be -/

def Piece.NoFalseDigit : Piece → Prop
  | .escape x y =>
    (hexByte x y).isSome ∨ ¬((48 ≤ upper x ∧ upper x ≤ 70) ∧ (48 ≤ upper y ∧ upper y ≤ 70))
  | _ => True

private lemma digit_table : ∀ c : Byte, (hexValue c).all (fun v =>
    decide ((48 ≤ upper c ∧ upper c ≤ 70) ∧ digitOf (upper c) = v)) = true := by
  decide +kernel

lemma upper_digit {v : ℕ} (h : hexValue c = some v) :
    (48 ≤ upper c ∧ upper c ≤ 70) ∧ digitOf (upper c) = v := by
  have htable := digit_table c
  rw [h] at htable
  simpa using htable

lemma unescaped_in_range {c1 c2 : ℕ} (h1 : 48 ≤ c1 ∧ c1 ≤ 70) (h2 : 48 ≤ c2 ∧ c2 ≤ 70) :
    unescaped c1 c2 = [BitVec.ofInt 8 (digitOf c1 * 16 + digitOf c2)] := by
  rw [unescaped, if_neg (by omega), if_neg (by omega)]

lemma unescaped_out_of_range {c1 c2 : ℕ}
    (h : ¬((48 ≤ c1 ∧ c1 ≤ 70) ∧ (48 ≤ c2 ∧ c2 ≤ 70))) : unescaped c1 c2 = [] := by
  rw [unescaped]
  split_ifs with hgt hlt
  · rfl
  · rfl
  · omega

lemma unescaped_digits {b : Byte} (h : hexByte x y = some b) :
    unescaped (upper x) (upper y) = [b] := by
  obtain ⟨high, hhigh, hx⟩ := bind_eq_some_iff.mp h
  obtain ⟨low, hlow, hy⟩ := bind_eq_some_iff.mp hx
  obtain ⟨hxr, hxd⟩ := upper_digit hhigh
  obtain ⟨hyr, hyd⟩ := upper_digit hlow
  rw [unescaped_in_range hxr hyr, hxd, hyd, ← Option.some.inj hy, Nat.mul_comm]
  congr 1

lemma written_eq_iff : p.written = p.decoded plusBlank ↔ p.NoFalseDigit := by
  cases p with
  | plain c | cut rest => simp [Piece.written, Piece.decoded, Piece.NoFalseDigit]
  | escape x y =>
    rw [Piece.written, Piece.decoded, Piece.NoFalseDigit]
    cases hbyte : hexByte x y with
    | some b => simp [unescaped_digits hbyte]
    | none =>
      by_cases hrange : (48 ≤ upper x ∧ upper x ≤ 70) ∧ (48 ≤ upper y ∧ upper y ≤ 70)
      · rw [unescaped_in_range hrange.1 hrange.2]
        simp [hrange]
      · rw [unescaped_out_of_range hrange]
        simp [hrange]

lemma decoded_shorter {p : Piece} (h : p.written ≠ p.decoded plusBlank) :
    (p.decoded plusBlank).length < p.written.length := by
  cases p with
  | plain c | cut rest => exact absurd rfl h
  | escape x y =>
    rw [Piece.written, Piece.decoded] at h ⊢
    cases hbyte : hexByte x y with
    | some b => exact absurd (by rw [unescaped_digits hbyte, hbyte]; rfl) h
    | none =>
      rw [hbyte] at h
      exact length_pos_iff.mpr h

lemma decoded_le : (p.decoded plusBlank).length ≤ p.written.length := by
  by_cases h : p.written = p.decoded plusBlank
  · rw [h]
  · exact (decoded_shorter h).le

lemma flatMap_written_eq_iff (ps : List Piece) :
    ps.flatMap (Piece.decoded plusBlank) = ps.flatMap Piece.written ↔ ∀ p ∈ ps, p.NoFalseDigit := by
  constructor
  · intro h p hp
    by_contra hfalse
    have hless := length_flatMap_lt (fun p _ => decoded_le p) hp
      (decoded_shorter fun heq => hfalse ((written_eq_iff p).mp heq))
    rw [h] at hless
    exact lt_irrefl _ hless
  · intro h
    exact flatMap_congr fun p hp => ((written_eq_iff p).mpr (h p hp)).symm

lemma unescape_decoded_iff (s : Bytes) :
    Returns (unescapeStep s) (0, []) (.ok (decoded plusBlank s)) ↔
      s.length < 2 ^ 32 ∧ (s.length = 2 ^ 32 - 1 → ∀ rest, .cut rest ∉ pieces s) ∧
        ∀ p ∈ pieces s, p.InTable ∧ p.NoFalseDigit := by
  rcases Nat.lt_or_ge s.length (2 ^ 32) with hs | hs
  · by_cases hcut : s.length = 2 ^ 32 - 1 → ∀ rest, .cut rest ∉ pieces s
    · rw [returns_iff hs drop_zero hcut, nil_append, decoded_eq,
        flatMap_written_eq_iff, forall₂_and, and_iff_right hs, and_iff_right hcut]
    · refine iff_of_false ?_ fun h => hcut h.2.1
      push Not at hcut
      obtain ⟨hlen, rest, hmem⟩ := hcut
      intro h
      cases rest with
      | cons x rest => exact never_returns_start hlen hmem h
      | nil =>
        -- what the first walk writes is all that should be written, and more follows
        have hwalk := (wraps hlen drop_zero hmem h).returns_iff.mp h
        rw [nil_append] at hwalk
        have hle : (decoded plusBlank s).length ≤ ((pieces s).flatMap Piece.written).length := by
          rw [decoded_eq, length_flatMap, length_flatMap]
          exact sum_le_sum fun p _ => decoded_le p
        rw [← (written_grows hwalk).eq_of_length_le hle] at hwalk
        exact writes_more hlen hmem hwalk
  · exact iff_of_false (never_returns hs (by decide)) fun h => absurd h.1 (by omega)

end

/-- **The decoders on any text**: `uriDecode` is right if every percent sign has two digits. -/
theorem decoders_right_iff (sscanf : Sscanf) (s : Bytes) :
    ((∃ n, unescapeURL n s = some (.ok (decoded plusBlank s))) ↔
      s.length < 2 ^ 32 ∧ (s.length = 2 ^ 32 - 1 → ∀ rest, .cut rest ∉ pieces s) ∧
        ∀ p ∈ pieces s, p.InTable ∧ p.NoFalseDigit) ∧
      (uriDecode sscanf s = .ok (decoded id s) ↔ ∀ p ∈ pieces s, p.HasByte) :=
  ⟨unescape_decoded_iff s, uriDecode_eq_iff sscanf s⟩

private lemma digit_ne : ∀ c : Byte, (hexValue c).isSome →
    c ≠ 0#8 ∧ isSpace c = false ∧ c ≠ 43#8 ∧ c ≠ 45#8 := by
  decide +kernel

lemma scanHex_digits {x y : Byte} {high low : ℕ} (hx : hexValue x = some high)
    (hy : hexValue y = some low) : scanHex [x, y] = some (BitVec.ofNat 32 (16 * high + low)) := by
  obtain ⟨hx0, hxs, hxp, hxm⟩ := digit_ne x (by rw [hx]; rfl)
  obtain ⟨hy0, -, -, -⟩ := digit_ne y (by rw [hy]; rfl)
  have hprefix : dropHexPrefix [x, y] = [x, y] := by
    rw [dropHexPrefix, takeWhile_nil, if_neg (by simp)]
  simp [scanHex, hx0, hy0, hxs, hxp, hxm, hprefix, hx, hy]

/-- `sscanf` as it is documented. -/
def Sscanf.documented : Sscanf where
  read := scanHex
  digits _ _ _ _ hx hy := scanHex_digits hx hy
  empty := rfl

theorem decoders_fail : uriDecode .documented [37#8] = .error .uninitialised ∧
      unescapeURL 1 [37#8, 200#8, 48#8] = some (.error .tableIndex) ∧
      unescapeURL 2 [37#8, 58#8, 48#8] = some (.ok [160#8]) ∧
      decoded plusBlank [37#8, 58#8, 48#8] = [] := by
  decide +kernel

end Megatron.Utils
