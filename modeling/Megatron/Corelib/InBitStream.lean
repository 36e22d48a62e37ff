import Megatron.Corelib.OutBitStream

/-!
The class `inBitStream` of `corelib/_bitStream`: bytes and bits are read from a block of memory.
Sums and differences of `size_t` are taken modulo `2 ^ 64`. A read outside the block is undefined.
-/

namespace Megatron

open Library List Prog

structure InBitStream where
  data : SizedBytes
  pos : ℕ
  bitsRemainsInByte : ℕ

/-- Methods of `inBitStream`. -/
abbrev Reading (α : Type) := Prog InBitStream Exn α

namespace InBitStream

def new (data : SizedBytes) : InBitStream := ⟨data, 0, 8⟩

def size (s : InBitStream) : ℕ := s.data.1.length

def remains (s : InBitStream) : ℕ := (s.size + 2 ^ 64 - s.pos) % 2 ^ 64

def checkBoundary : Reading Unit := do
  let s ← Prog.state
  if s.bitsRemainsInByte ≠ 8 then Prog.fail (boundaryError "") else pure ()

/-- `m_pos.pos + n > m_size`. -/
def tooFew (n : ℕ) : Reading Bool := do
  let s ← Prog.state
  pure (decide (s.size < (s.pos + n) % 2 ^ 64))

/-- `m_data[m_pos.pos++]`. -/
def nextByte : Reading Byte := do
  let s ← Prog.state
  Prog.require (s.pos < s.size)
  Prog.modify fun s => { s with pos := (s.pos + 1) % 2 ^ 64 }
  pure (s.data.1.getD s.pos 0#8)

/-- The error of `get_8`. -/
def noEnough : Exn := .commonError "inBitStream::get_8: noenough"

def get8 : Reading Byte := do
  checkBoundary
  if ← tooFew 1 then Prog.fail noEnough
  else nextByte

/-- `inBitStream::get_8_nothrow`; none is `success=false`. -/
def get8Nothrow : Reading (Option Byte) := do
  checkBoundary
  if ← tooFew 1 then pure none
  else do
    let c ← nextByte
    pure (some c)

def next16LE : Reading (BitVec 16) := do
  let a ← nextByte
  let b ← nextByte
  pure (a.setWidth 16 + b.setWidth 16 <<< 8)

def get16LE : Reading (BitVec 16) := do
  checkBoundary
  if ← tooFew 2 then Prog.fail (.commonError "get_16LE: noenough")
  else next16LE

def get16LENothrow : Reading (Option (BitVec 16)) := do
  checkBoundary
  if ← tooFew 2 then pure none
  else do
    let l ← next16LE
    pure (some l)

def get16BE : Reading (BitVec 16) := do
  checkBoundary
  if ← tooFew 2 then Prog.fail (.commonError "get_16BE: noenough")
  else do
    let a ← nextByte
    let b ← nextByte
    pure (a.setWidth 16 <<< 8 + b.setWidth 16)

def get32LE : Reading (BitVec 32) := do
  checkBoundary
  if ← tooFew 4 then Prog.fail (.commonError "get_32LE: noenough")
  else do
    let a ← nextByte
    let b ← nextByte
    let c ← nextByte
    let d ← nextByte
    pure (a.setWidth 32 + b.setWidth 32 <<< 8 + c.setWidth 32 <<< 16 + d.setWidth 32 <<< 24)

def get32BE : Reading (BitVec 32) := do
  checkBoundary
  if ← tooFew 4 then Prog.fail (.commonError "get_32BE: noenough")
  else do
    let a ← nextByte
    let b ← nextByte
    let c ← nextByte
    let d ← nextByte
    pure (a.setWidth 32 <<< 24 + b.setWidth 32 <<< 16 + c.setWidth 32 <<< 8 + d.setWidth 32)

def getPNLoop (NN : BitVec 64) : ℕ → Reading (BitVec 64)
  | 0 => fun _ => .undefined
  | fuel + 1 => do
      let c ← get8
      if c < 0x80#8 then pure (NN <<< 7 ||| c.setWidth 64)
      else getPNLoop (NN <<< 7 ||| (c &&& 0x7F#8).setWidth 64) fuel

def getPN : Reading (BitVec 64) := do
  let s ← Prog.state
  getPNLoop 0#64 (s.size - s.pos + 1)

/-- The loop `while (1)` of `get_PN_nothrow`. -/
def getPNNothrowLoop (NN : BitVec 64) : ℕ → Reading (Option (BitVec 64))
  | 0 => fun _ => .undefined
  | fuel + 1 => do
      match ← get8Nothrow with
      | none => pure none
      | some c =>
        if c < 0x80#8 then pure (some (NN <<< 7 ||| c.setWidth 64))
        else getPNNothrowLoop (NN <<< 7 ||| (c &&& 0x7F#8).setWidth 64) fuel

def getPNNothrow : Reading (Option (BitVec 64)) := do
  let s ← Prog.state
  getPNNothrowLoop 0#64 (s.size - s.pos + 1)

def beforeEnd : Reading Bool := do
  checkBoundary
  let s ← Prog.state
  pure (decide (s.pos < s.size))

/-- The loop of `get_PSTR` for `n` more characters. -/
def getChars : ℕ → Reading Bytes
  | 0 => pure []
  | n + 1 => do
      if ← beforeEnd then do
        let c ← get8
        let cs ← getChars n
        pure (c :: cs)
      else pure []

def getCharsNothrow : ℕ → Reading (Option Bytes)
  | 0 => pure (some [])
  | n + 1 => do
      if ← beforeEnd then do
        match ← get8Nothrow with
        | none => pure none
        | some c => do
            let cs ← getCharsNothrow n
            pure (cs.map (c :: ·))
      else pure (some [])

def stringError (s : InBitStream) : Exn :=
  .commonError ("remains()<sz remains(" ++ toString (BitVec.ofNat 32 s.remains).toInt ++
    ") size(" ++ toString (BitVec.ofNat 32 s.size).toInt ++ ")")

def getPSTR : Reading Bytes := do
  let sz ← getPN
  let s ← Prog.state
  if s.remains < sz.toNat then Prog.fail (stringError s) else getChars sz.toNat

def getPSTRNothrow : Reading (Option Bytes) := do
  match ← getPNNothrow with
  | none => pure none
  | some sz => do
      let s ← Prog.state
      if s.remains < sz.toNat then pure none else getCharsNothrow sz.toNat

def unpackNothrow (n : BitVec 64) : Reading (Option Bytes) := do
  checkBoundary
  let s ← Prog.state
  if s.remains < n.toNat then pure none
  else do
    Prog.require (s.pos + n.toNat ≤ s.size)
    Prog.modify fun s => { s with pos := (s.pos + n.toNat) % 2 ^ 64 }
    pure (some ((s.data.1.drop s.pos).take n.toNat))

def unpack (n : BitVec 64) : Reading Bytes := do
  match ← unpackNothrow n with
  | none => Prog.fail (.commonError "inBitStream unpack: not enough buffer ")
  | some c => pure c

def unpackRest : Reading Bytes := do
  let s ← Prog.state
  unpack (BitVec.ofNat 64 s.remains)

/-- The operator `>>` for integers. -/
def getInt (w : ℕ) : Reading (BitVec w) := do
  let v ← getPN
  pure (v.setWidth w)

/-- The operator `>>` for `bool`. -/
def getBool : Reading Bool := do
  let v ← getPN
  pure (v != 0#64)

def getBit : Reading Bool := do
  let s ← Prog.state
  Prog.require (s.pos < s.size)
  Prog.modify fun s => { s with bitsRemainsInByte := s.bitsRemainsInByte - 1 }
  let s' ← Prog.state
  if s'.bitsRemainsInByte = 0 then
    Prog.modify fun s => { s with pos := (s.pos + 1) % 2 ^ 64, bitsRemainsInByte := 8 }
  else pure ()
  pure ((s.data.1.getD s.pos 0#8).getLsbD (s.bitsRemainsInByte - 1))

/-- `val<<=1; val|=bit`. -/
def shiftIn (val : BitVec 32) (bit : Bool) : BitVec 32 :=
  val <<< 1 ||| (BitVec.ofBool bit).setWidth 32

/-- The loop of `get_bits` for `n` more bits. -/
def getBitsLoop (val : BitVec 32) : ℕ → Reading (BitVec 32)
  | 0 => pure val
  | n + 1 => do
      let bit ← getBit
      getBitsLoop (shiftIn val bit) n

def getBits (bitcount : BitVec 32) : Reading (BitVec 32) := getBitsLoop 0#32 bitcount.toInt.toNat

def getTlvLength : Reading (BitVec 32) :=
  Prog.rethrow (OutBitStream.appended "->getTlvLength") do
    let b ← getBit
    if b = false then getBits 7#32
    else do
      let llen ← getBits 7#32
      if (4#32).slt llen then Prog.fail (.commonError "if(llen>4)")
      else getBits (llen * 8#32)

def bitpos (s : InBitStream) : ℕ := 8 * s.pos + (8 - s.bitsRemainsInByte)

structure Valid (s : InBitStream) : Prop where
  bits_pos : 0 < s.bitsRemainsInByte
  bits_le : s.bitsRemainsInByte ≤ 8
  bitpos_le : s.bitpos ≤ 8 * s.size

def rest (s : InBitStream) : List Bool := (bitsOf s.data.1).drop s.bitpos

def unread (s : InBitStream) : Bytes := s.data.1.drop s.pos

variable {s s' : InBitStream} {α β : Type}

lemma valid_new (data : SizedBytes) : (new data).Valid where
  bits_pos := Nat.succ_pos 7
  bits_le := le_rfl
  bitpos_le := Nat.zero_le _

lemma Valid.pos_le (h : s.Valid) : s.pos ≤ s.size := by
  have hle := h.bitpos_le
  rw [bitpos] at hle
  omega

lemma length_rest (s : InBitStream) : s.rest.length = 8 * s.size - s.bitpos := by
  rw [rest, length_drop, length_bitsOf, size]

lemma Valid.remains_eq (h : s.Valid) : s.remains = s.size - s.pos := by
  have hle := h.pos_le
  have hsmall : s.size < 2 ^ 63 := s.data.2
  rw [remains]
  omega

lemma rest_of_aligned (ha : s.bitsRemainsInByte = 8) : s.rest = bitsOf s.unread := by
  rw [rest, bitpos, ha, Nat.sub_self, Nat.add_zero, drop_bitsOf, unread]

/-- `s'` is `s` after the bits `bs` have been read. -/
structure Took (s : InBitStream) (bs : List Bool) (s' : InBitStream) : Prop where
  valid : s'.Valid
  data : s'.data = s.data
  bitpos : s'.bitpos = s.bitpos + bs.length
  rest : s.rest = bs ++ s'.rest

variable {bs cs : List Bool} {n : ℕ} {v : BitVec 32}

lemma Took.trans {s₂ : InBitStream} (h : s.Took bs s') (h' : s'.Took cs s₂) :
    s.Took (bs ++ cs) s₂ := by
  refine ⟨h'.valid, h'.data.trans h.data, ?_, ?_⟩
  · rw [h'.bitpos, h.bitpos, length_append, Nat.add_assoc]
  · rw [h.rest, h'.rest, append_assoc]

lemma Took.rest_eq (h : s.Took bs s') (hrest : s.rest = bs ++ cs) :
    s'.rest = cs := append_cancel_left (h.rest.symm.trans hrest)

lemma rest_eq_cons (hv : s.Valid) (hlt : s.bitpos < 8 * s.size) :
    s.rest = (s.data.1.getD s.pos 0#8).getLsbD (s.bitsRemainsInByte - 1) ::
      (bitsOf s.data.1).drop (s.bitpos + 1) := by
  have hbits := hv.bits_pos
  have hle := hv.bits_le
  have hpos : s.pos < s.data.1.length := by
    rw [bitpos, size] at hlt
    omega
  obtain ⟨r, hr⟩ : ∃ r, s.bitsRemainsInByte = r + 1 := ⟨s.bitsRemainsInByte - 1, by omega⟩
  have hget : s.data.1.getD s.pos 0#8 = s.data.1[s.pos] := by
    rw [getD_eq_getElem?_getD, List.getElem?_eq_getElem hpos, Option.getD_some]
  have hrest : s.rest = field s.data.1[s.pos] (r + 1) ++ bitsOf (s.data.1.drop (s.pos + 1)) := by
    rw [rest, bitpos, ← drop_drop, drop_bitsOf, drop_eq_getElem_cons hpos, bitsOf_cons,
      drop_append_of_le_length (by rw [length_field]; omega), hr, drop_field _ (by omega)]
  have htail : (bitsOf s.data.1).drop (s.bitpos + 1) = s.rest.tail := by
    rw [rest, tail_drop]
  rw [htail, hrest, field, cons_append, tail_cons, hr, hget, Nat.add_sub_cancel]

lemma getBit_eq (hv : s.Valid) {b : Bool} (h : s.rest = b :: bs) :
    ∃ s', getBit s = .done b s' ∧ s.Took [b] s' := by
  have hbits := hv.bits_pos
  have hle := hv.bits_le
  have hsize : s.size < 2 ^ 63 := s.data.2
  have hlen := length_rest s
  rw [h, length_cons] at hlen
  have hlt : s.bitpos < 8 * s.size := by omega
  have hpos : s.pos < s.size := by
    rw [bitpos] at hlt
    omega
  have hcons := rest_eq_cons hv hlt
  rw [h] at hcons
  obtain ⟨hb, hbs⟩ := List.cons.inj hcons
  have hstep : getBit s =
      if s.bitsRemainsInByte - 1 = 0 then .done b ⟨s.data, (s.pos + 1) % 2 ^ 64, 8⟩
      else .done b ⟨s.data, s.pos, s.bitsRemainsInByte - 1⟩ := by
    rw [getBit, state_bind, bind_of_done (require_of_pos hpos s),
      bind_of_done (modify_apply _ _), state_bind, ← hb]
    simp only
    split_ifs <;> rfl
  -- in both cases the position moves by one bit
  have htook : ∀ p r, 0 < r → r ≤ 8 → 8 * p + (8 - r) = s.bitpos + 1 →
      s.Took [b] ⟨s.data, p, r⟩ := by
    intro p r hr hr' hbp
    refine ⟨⟨hr, hr', ?_⟩, rfl, hbp, ?_⟩
    · show 8 * p + (8 - r) ≤ 8 * s.size
      omega
    · show s.rest = b :: (bitsOf s.data.1).drop (8 * p + (8 - r))
      rw [h, hbp, hbs]
  rw [hstep]
  split_ifs with h1
  · refine ⟨_, rfl, ?_⟩
    rw [Nat.mod_eq_of_lt (by omega)]
    exact htook _ _ (by norm_num) le_rfl (by rw [bitpos]; omega)
  · exact ⟨_, rfl, htook _ _ (by omega) (by omega) (by rw [bitpos]; omega)⟩

lemma getBit_undefined (hv : s.Valid) (h : s.rest = []) : getBit s = .undefined := by
  have hbits := hv.bits_pos
  have hlen := length_rest s
  rw [h, length_nil] at hlen
  have hnot : ¬ s.pos < s.size := by
    rw [bitpos] at hlen
    omega
  rw [getBit, state_bind, bind_of_undefined (require_of_neg hnot s)]

lemma getBitsLoop_eq (n : ℕ) (val : BitVec 32) (hv : s.Valid)
    (h : s.rest = bs ++ cs) (hn : bs.length = n) :
    ∃ s', getBitsLoop val n s = .done (bs.foldl shiftIn val) s' ∧ s.Took bs s' := by
  induction n generalizing s val bs with
  | zero =>
    obtain rfl := length_eq_zero_iff.mp hn
    exact ⟨s, rfl, hv, rfl, rfl, rfl⟩
  | succ n ih =>
    cases bs with
    | nil => cases hn
    | cons b bs =>
      obtain ⟨s₁, hs₁, h₁⟩ := getBit_eq hv h
      have hrest : s₁.rest = bs ++ cs := h₁.rest_eq h
      obtain ⟨s₂, hs₂, h₂⟩ := ih (shiftIn val b) h₁.valid hrest (Nat.succ.inj hn)
      refine ⟨s₂, ?_, h₁.trans h₂⟩
      rw [getBitsLoop, bind_of_done hs₁, hs₂, foldl_cons]

lemma getBitsLoop_undefined (n : ℕ) (val : BitVec 32) (hv : s.Valid) (h : s.rest.length < n) :
    getBitsLoop val n s = .undefined := by
  induction n generalizing s val with
  | zero => exact absurd h (Nat.not_lt_zero _)
  | succ n ih =>
    rw [getBitsLoop]
    cases hrest : s.rest with
    | nil => exact bind_of_undefined (getBit_undefined hv hrest)
    | cons b bs =>
      obtain ⟨s₁, hs₁, h₁⟩ := getBit_eq hv hrest
      have hlen : s.rest.length = s₁.rest.length + 1 := by
        rw [h₁.rest, length_append, length_singleton, Nat.add_comm]
      rw [bind_of_done hs₁]
      exact ih (shiftIn val b) h₁.valid (by omega)

lemma toNat_foldl_shiftIn (bs : List Bool) (val : BitVec 32) :
    (bs.foldl shiftIn val).toNat = (val.toNat * 2 ^ bs.length + ofBits bs) % 2 ^ 32 := by
  induction bs generalizing val with
  | nil =>
    have hlt := val.isLt
    simp only [foldl_nil, length_nil, pow_zero, Nat.mul_one, ofBits, Nat.add_zero]
    omega
  | cons b bs ih =>
    rw [foldl_cons, ih, shiftIn, toNat_shift, ofBits_cons, length_cons, pow_succ]
    rw [Nat.add_mod, Nat.mod_mul_mod, ← Nat.add_mod]
    congr 1
    ring

lemma toNat_intOfBits (h : bs.length ≤ 32) : (bs.foldl shiftIn 0#32).toNat = ofBits bs := by
  have hlt : ofBits bs < 2 ^ 32 :=
    lt_of_lt_of_le (ofBits_lt bs) (Nat.pow_le_pow_right (by norm_num) h)
  rw [toNat_foldl_shiftIn]
  simpa using hlt

/-- The state `n` bytes further. -/
def advance (s : InBitStream) (n : ℕ) : InBitStream := { s with pos := s.pos + n }

lemma Valid.advance (hv : s.Valid) (ha : s.bitsRemainsInByte = 8)
    (hn : s.pos + n ≤ s.size) : (s.advance n).Valid := by
  refine ⟨hv.bits_pos, hv.bits_le, ?_⟩
  show 8 * (s.pos + n) + (8 - s.bitsRemainsInByte) ≤ 8 * s.size
  omega

lemma length_unread (s : InBitStream) : s.unread.length = s.size - s.pos := by
  rw [unread, length_drop, size]

lemma checkBoundary_of_aligned (ha : s.bitsRemainsInByte = 8) : checkBoundary s = .done () s := by
  rw [checkBoundary, state_bind, if_neg (not_not.mpr ha)]
  rfl

lemma checkBoundary_of_unaligned (ha : s.bitsRemainsInByte ≠ 8) :
    checkBoundary s = .thrown (boundaryError "") s := by
  rw [checkBoundary, state_bind, if_pos ha]
  rfl

lemma tooFew_eq (hv : s.Valid) (hn : n ≤ 4) :
    tooFew n s = .done (decide (s.size < s.pos + n)) s := by
  have hpos := hv.pos_le
  have hsize : s.size < 2 ^ 63 := s.data.2
  have hmod : (s.pos + n) % 2 ^ 64 = s.pos + n := Nat.mod_eq_of_lt (by omega)
  rw [tooFew, state_bind, pure_apply, hmod]

lemma nextByte_eq (h : s.pos < s.size) :
    nextByte s = .done (s.data.1.getD s.pos 0#8) (s.advance 1) := by
  have hsize : s.size < 2 ^ 63 := s.data.2
  have hmod : (s.pos + 1) % 2 ^ 64 = s.pos + 1 := Nat.mod_eq_of_lt (by omega)
  rw [nextByte, state_bind, bind_of_done (require_of_pos h s),
    bind_of_done (modify_apply _ _), hmod]
  rfl

lemma unread_eq_cons (h : s.pos < s.size) :
    s.unread = s.data.1.getD s.pos 0#8 :: (s.advance 1).unread := by
  rw [unread, unread, drop_eq_getElem_cons h, getD_eq_getElem?_getD, List.getElem?_eq_getElem h]
  rfl

lemma checked_eq (hv : s.Valid) (ha : s.bitsRemainsInByte = 8) (hn : n ≤ 4) (few m : Reading α) :
    (do checkBoundary if ← tooFew n then few else m : Reading α) s =
        if s.size < s.pos + n then few s else m s := by
  rw [bind_of_done (checkBoundary_of_aligned ha), bind_of_done (tooFew_eq hv hn)]
  simp only [decide_eq_true_eq]
  split_ifs <;> rfl

section

variable {c : Byte} {cs : Bytes}

lemma nextByte_of_cons (h : s.unread = c :: cs) : s.pos < s.size ∧
    nextByte s = .done c (s.advance 1) ∧ (s.advance 1).unread = cs := by
  have hlen := length_unread s
  rw [h, length_cons] at hlen
  have hlt : s.pos < s.size := by omega
  have hcons := unread_eq_cons hlt
  rw [h] at hcons
  obtain ⟨hc, hcs⟩ := List.cons.inj hcons
  refine ⟨hlt, ?_, hcs.symm⟩
  rw [nextByte_eq hlt, ← hc]

variable (hv : s.Valid) (ha : s.bitsRemainsInByte = 8)

include hv ha

lemma get8_of_nil (h : s.unread = []) :
    get8 s = .thrown noEnough s ∧ get8Nothrow s = .done none s := by
  have hlen := length_unread s
  rw [h, length_nil] at hlen
  exact ⟨(checked_eq hv ha (by norm_num) _ _).trans (if_pos (by omega)),
    (checked_eq hv ha (by norm_num) _ _).trans (if_pos (by omega))⟩

lemma get8_of_cons (h : s.unread = c :: cs) :
    get8 s = .done c (s.advance 1) ∧ get8Nothrow s = .done (some c) (s.advance 1) := by
  obtain ⟨hlt, hnext, -⟩ := nextByte_of_cons h
  constructor
  · exact ((checked_eq hv ha (by norm_num) _ _).trans (if_neg (by omega))).trans hnext
  · exact ((checked_eq hv ha (by norm_num) _ _).trans (if_neg (by omega))).trans
      (bind_of_done hnext)

end

lemma advance_advance (s : InBitStream) (m n : ℕ) :
    (s.advance m).advance n = s.advance (n + m) := by
  rw [advance, advance, advance, Nat.add_comm n m, ← Nat.add_assoc]

section

variable (hv : s.Valid) (ha : s.bitsRemainsInByte = 8)

include hv ha

lemma getPNLoop_eq (fuel : ℕ) (NN : BitVec 64) (hf : s.unread.length < fuel) :
    getPNLoop NN fuel s = match pnLoop NN s.unread with
      | (some v, n) => .done v (s.advance n)
      | (none, n) => .thrown noEnough (s.advance n) := by
  induction fuel generalizing s NN with
  | zero => exact absurd hf (Nat.not_lt_zero _)
  | succ fuel ih =>
    rw [getPNLoop]
    cases h : s.unread with
    | nil =>
      rw [bind_of_thrown (get8_of_nil hv ha h).1, pnLoop]
      rfl
    | cons c cs =>
      obtain ⟨hlt, -, hunread⟩ := nextByte_of_cons h
      rw [h, length_cons] at hf
      rw [bind_of_done (get8_of_cons hv ha h).1, pnLoop]
      split_ifs with hc
      · rfl
      · rw [ih (hv.advance ha hlt) ha _ (by rw [hunread]; omega), hunread]
        rcases pnLoop (NN <<< 7 ||| (c &&& 0x7F#8).setWidth 64) cs with ⟨_ | v, n⟩ <;>
          simp only [advance_advance]

lemma getPNNothrowLoop_eq (fuel : ℕ) (NN : BitVec 64) (hf : s.unread.length < fuel) :
    getPNNothrowLoop NN fuel s =
      .done (pnLoop NN s.unread).1 (s.advance (pnLoop NN s.unread).2) := by
  induction fuel generalizing s NN with
  | zero => exact absurd hf (Nat.not_lt_zero _)
  | succ fuel ih =>
    rw [getPNNothrowLoop]
    cases h : s.unread with
    | nil => exact bind_of_done (get8_of_nil hv ha h).2
    | cons c cs =>
      obtain ⟨hlt, -, hunread⟩ := nextByte_of_cons h
      rw [h, length_cons] at hf
      rw [bind_of_done (get8_of_cons hv ha h).2, pnLoop]
      simp only
      split_ifs with hc
      · rfl
      · rw [ih (hv.advance ha hlt) ha _ (by rw [hunread]; omega), hunread, advance_advance]

lemma getPN_eq : getPN s = match pnLoop 0#64 s.unread with
      | (some v, n) => .done v (s.advance n)
      | (none, n) => .thrown noEnough (s.advance n) := by
  rw [getPN, state_bind]
  exact getPNLoop_eq hv ha _ _ (by rw [length_unread]; omega)

end

/-- The number of bits that `getTlvLength` needs. -/
def tlvNeed : List Bool → ℕ
  | [] => 8
  | false :: _ => 8
  | true :: bs => if ofBits (bs.take 7) ≤ 4 then 8 + 8 * ofBits (bs.take 7) else 8

/-- `s'` reads the same block. -/
def Same (s s' : InBitStream) : Prop := s'.Valid ∧ s'.data = s.data

lemma Valid.same (hv : s.Valid) : s.Same s := ⟨hv, rfl⟩

lemma wp_getBits {n : BitVec 32} {k : ℕ} (hv : s.Valid) (hk : n.toInt.toNat = k)
    (h : k ≤ s.rest.length) :
    (getBits n).wp (fun v s' => v = (s.rest.take k).foldl shiftIn 0#32 ∧ s.Took (s.rest.take k) s')
      (fun _ _ => False) s := by
  obtain ⟨s', hs', h'⟩ := getBitsLoop_eq k 0#32 hv (take_append_drop k s.rest).symm
    (length_take_of_le h)
  refine wp_of_done ?_ ⟨rfl, h'⟩
  rw [getBits, hk, hs']

lemma Took.same (h : s.Took bs s') : s.Same s' := ⟨h.valid, h.data⟩

lemma toNat_seven (h : 7 ≤ bs.length) :
    ((bs.take 7).foldl shiftIn 0#32).toNat = ofBits (bs.take 7) ∧ ofBits (bs.take 7) < 128 := by
  have hlen : (bs.take 7).length = 7 := length_take_of_le h
  have hlt := ofBits_lt (bs.take 7)
  rw [hlen] at hlt
  exact ⟨toNat_intOfBits (by rw [hlen]; norm_num), hlt⟩

lemma slt_four (h : v.toNat < 128) : (4#32).slt v = true ↔ 4 < v.toNat := by
  have hv : v.toInt = v.toNat := BitVec.toInt_eq_toNat_of_lt (by omega)
  rw [BitVec.slt_iff_toInt_lt, hv]
  show (4 : ℤ) < v.toNat ↔ _
  omega

lemma toNat_times_eight (h : v.toNat ≤ 4) : (v * 8#32).toInt.toNat = 8 * v.toNat := by
  have hmul : (v * 8#32).toNat = 8 * v.toNat := by
    rw [BitVec.toNat_mul]
    simp only [BitVec.toNat_ofNat]
    omega
  rw [BitVec.toInt_eq_toNat_of_lt (by omega), hmul]
  exact Int.toNat_natCast _

def tlvValue : List Bool → BitVec 32
  | [] => 0#32
  | false :: bs => (bs.take 7).foldl shiftIn 0#32
  | true :: bs => ((bs.drop 7).take (8 * ofBits (bs.take 7))).foldl shiftIn 0#32

lemma wp_getTlvLength (hv : s.Valid) (h : tlvNeed s.rest ≤ s.rest.length) : getTlvLength.wp
      (fun v s' => v = tlvValue s.rest ∧ s.Took (s.rest.take (tlvNeed s.rest)) s')
      (fun _ s' => s.Same s' ∧ ∃ bs, s.rest = true :: bs ∧ 4 < ofBits (bs.take 7)) s := by
  refine wp_rethrow.mpr ?_
  cases hrest : s.rest with
  | nil =>
    rw [hrest] at h
    exact absurd h (by decide)
  | cons b bs =>
    obtain ⟨s₁, hs₁, h₁⟩ := getBit_eq hv hrest
    have hrest₁ : s₁.rest = bs := h₁.rest_eq hrest
    refine wp_bind.mpr (wp_of_done hs₁ ?_)
    rw [hrest, length_cons] at h
    cases b with
    | false =>
      rw [tlvNeed] at h
      rw [if_pos rfl]
      refine wp_mono (wp_getBits (k := 7) h₁.valid rfl (by rw [hrest₁]; omega)) ?_
        fun _ _ he => he.elim
      rintro v s₂ ⟨rfl, h₂⟩
      rw [hrest₁] at h₂ ⊢
      exact ⟨rfl, h₁.trans h₂⟩
    | true =>
      have hseven : 7 ≤ bs.length := by
        rw [tlvNeed] at h
        split_ifs at h <;> omega
      rw [if_neg (by decide)]
      refine wp_bind.mpr (wp_mono
        (wp_getBits (k := 7) h₁.valid rfl (by rw [hrest₁]; omega)) ?_ fun _ _ he => he.elim)
      rintro llen s₂ ⟨hllen, h₂⟩
      rw [hrest₁] at hllen h₂
      obtain ⟨hnat, hlt⟩ := toNat_seven hseven
      rw [← hllen] at hnat
      have hrest₂ : s₂.rest = bs.drop 7 := h₂.rest_eq (hrest₁.trans (take_append_drop 7 bs).symm)
      have h₁₂ : s.Took (true :: bs.take 7) s₂ := h₁.trans h₂
      by_cases h4 : (4#32).slt llen = true
      · rw [if_pos h4]
        rw [slt_four (by omega), hnat] at h4
        exact ⟨h₁₂.same, bs, rfl, h4⟩
      · rw [if_neg h4]
        rw [slt_four (by omega), hnat] at h4
        rw [tlvNeed, if_pos (by omega)] at h ⊢
        have hk : (llen * 8#32).toInt.toNat = 8 * ofBits (bs.take 7) := by
          rw [toNat_times_eight (by omega), hnat]
        refine wp_mono (wp_getBits h₂.valid hk (by rw [hrest₂, length_drop]; omega))
          ?_ fun _ _ he => he.elim
        rintro v s₃ ⟨rfl, h₃⟩
        rw [hrest₂] at h₃ ⊢
        refine ⟨rfl, ?_⟩
        have htake : (true :: bs).take (8 + 8 * ofBits (bs.take 7)) =
            (true :: bs.take 7) ++ (bs.drop 7).take (8 * ofBits (bs.take 7)) := by
          rw [show 8 + 8 * ofBits (bs.take 7) = 7 + 8 * ofBits (bs.take 7) + 1 by omega,
            take_succ_cons, take_add, cons_append]
        rw [htake]
        exact h₁₂.trans h₃

lemma getTlvLength_undefined (hv : s.Valid) (h : s.rest.length < tlvNeed s.rest) :
    getTlvLength s = .undefined := by
  refine rethrow_of_undefined ?_
  cases hrest : s.rest with
  | nil => exact bind_of_undefined (getBit_undefined hv hrest)
  | cons b bs =>
    obtain ⟨s₁, hs₁, h₁⟩ := getBit_eq hv hrest
    have hrest₁ : s₁.rest = bs := h₁.rest_eq hrest
    rw [bind_of_done hs₁]
    rw [hrest, length_cons] at h
    cases b with
    | false =>
      rw [tlvNeed] at h
      rw [if_pos rfl]
      exact getBitsLoop_undefined 7 _ h₁.valid (by rw [hrest₁]; omega)
    | true =>
      rw [if_neg (by decide)]
      rcases Nat.lt_or_ge bs.length 7 with hseven | hseven
      · exact bind_of_undefined
          (getBitsLoop_undefined 7 _ h₁.valid (by rw [hrest₁]; omega))
      · obtain ⟨s₂, hs₂, h₂⟩ := getBitsLoop_eq 7 0#32 h₁.valid
          (hrest₁.trans (take_append_drop 7 bs).symm) (length_take_of_le hseven)
        obtain ⟨hnat, hlt⟩ := toNat_seven hseven
        have hlen₂ : s₂.rest.length = bs.length - 7 := by
          rw [h₂.rest_eq (hrest₁.trans (take_append_drop 7 bs).symm), length_drop]
        rw [tlvNeed] at h
        have hle : ofBits (bs.take 7) ≤ 4 := by
          split_ifs at h with hle
          · exact hle
          · omega
        rw [if_pos hle] at h
        have hcode : getBits 7#32 s₁ = .done ((bs.take 7).foldl shiftIn 0#32) s₂ := hs₂
        rw [bind_of_done hcode, if_neg (by rw [slt_four (by omega), hnat]; omega), getBits,
          toNat_times_eight (by omega), hnat]
        exact getBitsLoop_undefined _ _ h₂.valid (by omega)

end InBitStream

end Megatron
