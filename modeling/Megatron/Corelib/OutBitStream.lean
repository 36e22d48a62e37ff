import Megatron.Corelib.Msockaddr
import Megatron.Library.Programs
import Megatron.Library.Cells
import Megatron.Library.Bits

/-!
The class `outBitStream` of `corelib/_bitStream`: bytes and bits are written into a buffer on the
heap, which `adjust` enlarges. A write outside the buffer is undefined.
-/

namespace Megatron

open Library List Prog

structure Alloc where
  grants : ℕ → Bool
  grants_lt : ∀ n, grants n = true → n < 2 ^ 63
  fresh : ℕ → ℕ → Byte

/-- The class `outBitStream`; `buffer` is null after a failure of `realloc`. -/
structure OutBitStream where
  buffer : Option (ℕ → Byte)
  bufsize : ℕ
  pos : ℕ
  bitsRemainsInByte : ℕ

/-- Methods of `outBitStream`. -/
abbrev Writing (α : Type) := Prog OutBitStream Exn α

def boundaryError (rest : String) : Exn :=
  .commonError ("boundary error on BitStream remainder" ++ rest)

namespace OutBitStream

/-- The constructor: `cells` is what `malloc(256)` returns. -/
def new (cells : ℕ → Byte) : OutBitStream := ⟨some cells, 256, 0, 8⟩

/-- The block that `realloc(buffer,nnew)` returns. -/
def realloc (A : Alloc) (s : OutBitStream) (nnew : ℕ) : ℕ → Byte := fun i =>
  match s.buffer with
  | some cells => if i < s.bufsize then cells i else A.fresh nnew i
  | none => A.fresh nnew i

def allocError (nnew : ℕ) : Exn :=
  .commonError ("alloc error sz=" ++ toString (BitVec.ofNat 32 nnew).toInt)

def adjust (A : Alloc) (n : ℕ) : Writing Unit := do
  let s ← Prog.state
  if s.bufsize ≤ (s.pos + n) % 2 ^ 64 then
    let nnew := (s.pos + n + 1024) % 2 ^ 64
    if A.grants nnew then
      Prog.modify fun s => { s with buffer := some (realloc A s nnew), bufsize := nnew }
    else do
      Prog.modify fun s => { s with buffer := none }
      Prog.fail (allocError nnew)
  else pure ()

def checkBoundary (e : ℕ → Exn) : Writing Unit := do
  let s ← Prog.state
  if s.bitsRemainsInByte ≠ 8 then Prog.fail (e s.bitsRemainsInByte) else pure ()

def checkBoundaryPlain : Writing Unit := checkBoundary fun _ => boundaryError ""

def checkBoundaryBits : Writing Unit := checkBoundary fun n => boundaryError (" " ++ toString n)

/-- `buffer[m_pos.pos++]=c`. -/
def storeByte (c : Byte) : Writing Unit := do
  let s ← Prog.state
  Prog.require (s.buffer.isSome = true ∧ s.pos < s.bufsize)
  Prog.modify fun s =>
    { s with
      buffer := s.buffer.map fun cells => copyAt cells s.pos [c]
      pos := (s.pos + 1) % 2 ^ 64 }

/-- `memcpy(&buffer[m_pos.pos],s.data(),s.size())`. -/
def copyBytes (bs : Bytes) : Writing Unit := do
  let s ← Prog.state
  Prog.require (bs = [] ∨ s.buffer.isSome = true ∧ s.pos + bs.length ≤ s.bufsize)
  Prog.modify fun s => { s with buffer := s.buffer.map fun cells => copyAt cells s.pos bs }

def pack (A : Alloc) (bs : Bytes) : Writing Unit := do
  checkBoundaryPlain
  adjust A bs.length
  copyBytes bs
  Prog.modify fun s => { s with pos := (s.pos + bs.length) % 2 ^ 64 }

def put8 (A : Alloc) (c : Byte) : Writing Unit := do
  checkBoundaryBits
  adjust A 1
  storeByte c

def put16LE (A : Alloc) (l : BitVec 16) : Writing Unit := do
  checkBoundaryBits
  adjust A 2
  storeByte (l.setWidth 8)
  storeByte ((l >>> 8).setWidth 8)

def put16BE (A : Alloc) (l : BitVec 16) : Writing Unit := do
  checkBoundaryBits
  adjust A 2
  storeByte ((l >>> 8).setWidth 8)
  storeByte (l.setWidth 8)

def put32LE (A : Alloc) (l : BitVec 32) : Writing Unit := do
  checkBoundaryBits
  adjust A 4
  storeByte (l.setWidth 8)
  storeByte ((l >>> 8).setWidth 8)
  storeByte ((l >>> 16).setWidth 8)
  storeByte ((l >>> 24).setWidth 8)

def put32BE (A : Alloc) (l : BitVec 32) : Writing Unit := do
  checkBoundary fun _ => boundaryError " "
  adjust A 4
  storeByte ((l >>> 24).setWidth 8)
  storeByte ((l >>> 16).setWidth 8)
  storeByte ((l >>> 8).setWidth 8)
  storeByte (l.setWidth 8)

/-- `outBitStream::put_8$`. -/
def put8Dollar (c : Byte) : Writing Unit := do
  checkBoundaryPlain
  storeByte c

/-- The inner loop of `put_PN$`. -/
def putPNEmit (N : BitVec 64) : ℕ → Writing Unit
  | 0 => put8Dollar (pnGroup N 0)
  | g + 1 => do
      put8Dollar (pnGroup N (g + 1) ||| 0x80#8)
      putPNEmit N g

/-- The outer loop of `put_PN$`. -/
def putPNSkip (N : BitVec 64) : ℕ → Writing Unit
  | 0 => putPNEmit N 0
  | g + 1 => if pnGroup N (g + 1) ≠ 0#8 then putPNEmit N (g + 1) else putPNSkip N g

/-- `outBitStream::put_PN$` and `put_PN`. -/
def putPNDollar (A : Alloc) (N : BitVec 64) : Writing Unit := do
  adjust A 10
  putPNSkip N 8

/-- `outBitStream::Pack$`: the position moves by the size as an `int`. -/
def packDollar (bs : Bytes) : Writing Unit := do
  checkBoundaryPlain
  copyBytes bs
  Prog.modify fun s =>
    { s with
      pos := (BitVec.ofNat 64 s.pos + (BitVec.ofNat 32 bs.length).signExtend 64).toNat }

def putPSTR (A : Alloc) (c : Bytes) : Writing Unit := do
  adjust A (5 + c.length)
  putPNDollar A (sizeT c)
  packDollar c

/-- The operator `<<` for integers. -/
def putInt {w : ℕ} (A : Alloc) (signed : Bool) (v : BitVec w) : Writing Unit :=
  putPNDollar A (toUint64 signed v)

/-- The operator `<<` for `bool`. -/
def putBool (A : Alloc) (c : Bool) : Writing Unit := putPNDollar A (if c then 1#64 else 0#64)

/-- One round of the loop of `put_bits`. -/
def putBit (bit : Bool) : Writing Unit := do
  let s ← Prog.state
  Prog.require (s.buffer.isSome = true ∧ s.pos < s.bufsize)
  Prog.modify fun s =>
    { s with
      buffer := s.buffer.map fun cells =>
        copyAt cells s.pos [cells s.pos <<< 1 ||| (BitVec.ofBool bit).setWidth 8]
      bitsRemainsInByte := s.bitsRemainsInByte - 1 }
  let s ← Prog.state
  if s.bitsRemainsInByte = 0 then
    Prog.modify fun s => { s with pos := (s.pos + 1) % 2 ^ 64, bitsRemainsInByte := 8 }
  else pure ()

/-- The loop of `put_bits`. -/
def putBitsLoop (val : BitVec 32) : ℕ → Writing Unit
  | 0 => pure ()
  | i + 1 => do
      putBit (val.getLsbD i)
      putBitsLoop val i

def putBits (A : Alloc) (val : BitVec 32) (bitcount : ℕ) : Writing Unit := do
  let s ← Prog.state
  if s.bitsRemainsInByte = 0 then Prog.fail (boundaryError "")
  else do
    adjust A (bitcount / 8)
    putBitsLoop val bitcount

/-- The text that `CommonError::append` adds. -/
def appended (suffix : String) : Exn → Exn
  | .commonError what => .commonError (what ++ suffix)
  | e => e

def putTLVLength (A : Alloc) (len : BitVec 64) : Writing Unit := do
  checkBoundaryBits
  Prog.rethrow (appended "->outBitStream::putTLVLength") do
    if len < 128#64 then do
      putBits A 0#32 1
      putBits A (len.setWidth 32) 7
    else do
      putBits A 1#32 1
      if len < 0x10000#64 then do
        putBits A 2#32 7
        putBits A (len.setWidth 32) 16
      else if len < 0x1000000#64 then do
        putBits A 3#32 7
        putBits A (len.setWidth 32) 24
      else do
        putBits A 4#32 7
        putBits A (len.setWidth 32) 32

def clear : Writing Unit := Prog.modify fun s => { s with pos := 0, bitsRemainsInByte := 8 }

def asString : Writing Bytes := do
  checkBoundaryBits
  let s ← Prog.state
  Prog.require (s.buffer.isSome = true ∧ s.pos ≤ s.bufsize)
  pure (firstCells (s.buffer.getD fun _ => 0#8) s.pos)

def bitpos (s : OutBitStream) : ℕ := 8 * s.pos + (8 - s.bitsRemainsInByte)

structure Valid (s : OutBitStream) : Prop where
  bits_pos : 0 < s.bitsRemainsInByte
  bits_le : s.bitsRemainsInByte ≤ 8
  bitpos_le : s.bitpos ≤ 8 * s.bufsize
  small : s.bufsize < 2 ^ 63

/-- `buffer` is not the null pointer. -/
abbrev Live (s : OutBitStream) : Prop := s.buffer.isSome = true

/-- The cells that `buffer` points to. -/
def cells (s : OutBitStream) : ℕ → Byte := s.buffer.getD fun _ => 0#8

def written (s : OutBitStream) : Bytes := firstCells s.cells s.pos

/-- The bits written so far. -/
def bits (s : OutBitStream) : List Bool :=
  bitsOf s.written ++ field (s.cells s.pos) (8 - s.bitsRemainsInByte)

variable {A : Alloc} {s s' s₁ : OutBitStream} {n : ℕ}

lemma valid_new (cells : ℕ → Byte) : (new cells).Valid where
  bits_pos := Nat.succ_pos 7
  bits_le := le_rfl
  bitpos_le := Nat.zero_le _
  small := show 256 < 2 ^ 63 by norm_num

lemma Valid.pos_le (h : s.Valid) : s.pos ≤ s.bufsize := by
  have hle := h.bitpos_le
  rw [bitpos] at hle
  omega

lemma bits_of_aligned (h : s.bitsRemainsInByte = 8) : s.bits = bitsOf s.written := by
  rw [bits, h]
  exact append_nil _

/-! ### Enlarging the buffer -/

/-- The size of the buffer after `adjust(n)`. -/
def sizeAfter (s : OutBitStream) (n : ℕ) : ℕ :=
  if s.bufsize ≤ s.pos + n then s.pos + n + 1024 else s.bufsize

structure Room (s : OutBitStream) (n : ℕ) (s' : OutBitStream) : Prop where
  pos : s'.pos = s.pos
  bits : s'.bitsRemainsInByte = s.bitsRemainsInByte
  size : s'.bufsize = s.sizeAfter n
  small : s'.bufsize < 2 ^ 63
  live : s.Live → s'.Live
  cells : s.Live → ∀ i < s.bufsize, s'.cells i = s.cells i

lemma Room.bufsize_le (h : s.Room n s') : s.bufsize ≤ s'.bufsize := by
  rw [h.size, sizeAfter]
  split_ifs <;> omega

lemma Room.room (h : s.Room n s') : s.pos + n < s'.bufsize := by
  rw [h.size, sizeAfter]
  split_ifs <;> omega

lemma adjust_of_lt (h : s.Valid) (hn : s.pos + n < s.bufsize) : adjust A n s = .done () s := by
  have hsmall := h.small
  have hmod : (s.pos + n) % 2 ^ 64 = s.pos + n := Nat.mod_eq_of_lt (by omega)
  rw [adjust, state_bind, hmod, if_neg (by omega)]
  rfl

lemma adjust_of_le (h : s.Valid) (hn : n < 2 ^ 62) (hle : s.bufsize ≤ s.pos + n) :
    adjust A n s = if A.grants (s.pos + n + 1024) then
        .done () ⟨some (realloc A s (s.pos + n + 1024)), s.pos + n + 1024, s.pos,
          s.bitsRemainsInByte⟩
      else .thrown (allocError (s.pos + n + 1024)) { s with buffer := none } := by
  have hsmall := h.small
  have hpos := h.pos_le
  have hmod : (s.pos + n) % 2 ^ 64 = s.pos + n := Nat.mod_eq_of_lt (by omega)
  have hmod' : (s.pos + n + 1024) % 2 ^ 64 = s.pos + n + 1024 := Nat.mod_eq_of_lt (by omega)
  rw [adjust, state_bind, hmod, if_pos hle, hmod']
  by_cases hg : A.grants (s.pos + n + 1024) = true
  · simp only [hg, if_true]
    rfl
  · simp only [hg]
    rfl

lemma adjust_granted (h : s.Valid) (hn : n < 2 ^ 62)
    (hg : s.bufsize ≤ s.pos + n → A.grants (s.pos + n + 1024) = true) :
    ∃ s', adjust A n s = .done () s' ∧ s.Room n s' := by
  rcases Nat.lt_or_ge (s.pos + n) s.bufsize with hlt | hle
  · refine ⟨s, adjust_of_lt h hlt, rfl, rfl, ?_, h.small, id, fun _ _ _ => rfl⟩
    rw [sizeAfter, if_neg (by omega)]
  · refine ⟨_, (adjust_of_le h hn hle).trans (if_pos (hg hle)), rfl, rfl, ?_,
      A.grants_lt _ (hg hle), fun _ => rfl, ?_⟩
    · rw [sizeAfter, if_pos hle]
    · intro hlive i hi
      obtain ⟨c, hc⟩ := Option.isSome_iff_exists.mp hlive
      simp [cells, realloc, hc, hi]

def Refused (A : Alloc) (e : Exn) (s : OutBitStream) : Prop :=
  s.Valid ∧ ∃ nnew, A.grants nnew = false ∧ e = allocError nnew

lemma wp_adjust (A : Alloc) (h : s.Valid) (hn : n < 2 ^ 62) :
    (adjust A n).wp (fun _ s' => s.Room n s') (Refused A) s := by
  by_cases hg : s.bufsize ≤ s.pos + n → A.grants (s.pos + n + 1024) = true
  · obtain ⟨s', hs', hroom⟩ := adjust_granted h hn hg
    exact wp_of_done hs' hroom
  · obtain ⟨hle, hno⟩ := not_forall.mp hg
    exact wp_of_thrown ((adjust_of_le h hn hle).trans (if_neg hno))
      ⟨⟨h.bits_pos, h.bits_le, h.bitpos_le, h.small⟩, _, Bool.eq_false_iff.mpr hno, rfl⟩

lemma Room.bitpos (h : s.Room n s') : s'.bitpos = s.bitpos := by
  rw [OutBitStream.bitpos, OutBitStream.bitpos, h.pos, h.bits]

lemma Room.valid (h : s.Room n s') (hv : s.Valid) : s'.Valid := by
  refine ⟨?_, ?_, ?_, h.small⟩
  · rw [h.bits]
    exact hv.bits_pos
  · rw [h.bits]
    exact hv.bits_le
  · rw [h.bitpos]
    exact le_trans hv.bitpos_le (Nat.mul_le_mul_left 8 h.bufsize_le)

lemma Room.written (h : s.Room n s') (hv : s.Valid) (hlive : s.Live) :
    s'.written = s.written := by
  rw [OutBitStream.written, OutBitStream.written, h.pos]
  exact firstCells_congr fun i hi => h.cells hlive i (lt_of_lt_of_le hi hv.pos_le)

lemma Room.bits_eq (h : s.Room n s') (hv : s.Valid) (hlive : s.Live) :
    s'.bits = s.bits := by
  rw [OutBitStream.bits, OutBitStream.bits, h.written hv hlive, h.bits]
  rcases Nat.lt_or_ge s.pos s.bufsize with hlt | hge
  · rw [h.pos, h.cells hlive s.pos hlt]
  · have hle := hv.bitpos_le
    rw [OutBitStream.bitpos] at hle
    rw [show 8 - s.bitsRemainsInByte = 0 by omega]
    rfl

structure Wrote (s : OutBitStream) (w : Bytes) (s' : OutBitStream) : Prop where
  valid : s'.Valid
  live : s'.Live
  aligned : s'.bitsRemainsInByte = 8
  pos : s'.pos = s.pos + w.length
  written : s'.written = s.written ++ w

def Emits (m : Writing Unit) (w : Bytes) : Prop :=
  ∀ s : OutBitStream, s.Valid → s.Live → s.bitsRemainsInByte = 8 →
    s.pos + w.length ≤ s.bufsize →
    ∃ s', m s = .done () s' ∧ s.Wrote w s' ∧ s'.bufsize = s.bufsize

variable {m : Writing Unit} {w : Bytes} (N : BitVec 64) (b : Bool) (e : ℕ → Exn) (val : BitVec 32)
variable (g : ℕ)

lemma Emits.bind {m' : Writing Unit} {w' : Bytes} (h : Emits m w) (h' : Emits m' w') :
    Emits (m >>= fun _ => m') (w ++ w') := by
  intro s hv hlive ha hroom
  rw [length_append] at hroom
  obtain ⟨s₁, hs₁, hw, hsize⟩ := h s hv hlive ha (by omega)
  obtain ⟨s₂, hs₂, hw', hsize'⟩ := h' s₁ hw.valid hw.live hw.aligned (by rw [hw.pos, hsize]; omega)
  refine ⟨s₂, by rw [bind_of_done hs₁, hs₂],
    ⟨hw'.valid, hw'.live, hw'.aligned, ?_, ?_⟩, hsize'.trans hsize⟩
  · rw [hw'.pos, hw.pos, length_append, Nat.add_assoc]
  · rw [hw'.written, hw.written, append_assoc]

private lemma wrote_copy (hv : s.Valid) (hlive : s.Live)
    (ha : s.bitsRemainsInByte = 8) (hroom : s.pos + w.length ≤ s.bufsize) :
    s.Wrote w ⟨s.buffer.map fun cells => copyAt cells s.pos w, s.bufsize, s.pos + w.length,
      s.bitsRemainsInByte⟩ := by
  obtain ⟨c, hc⟩ := Option.isSome_iff_exists.mp hlive
  refine ⟨⟨hv.bits_pos, hv.bits_le, ?_, hv.small⟩, by simp [Live, hc], ha, rfl, ?_⟩
  · simp only [bitpos, ha]
    omega
  · simp only [written, cells, hc, Option.map_some, Option.getD_some]
    exact firstCells_copyAt c s.pos w

lemma emits_storeByte (c : Byte) : Emits (storeByte c) [c] := by
  intro s hv hlive ha hroom
  have hsmall := hv.small
  rw [length_singleton] at hroom
  have hmod : (s.pos + 1) % 2 ^ 64 = s.pos + 1 := Nat.mod_eq_of_lt (by omega)
  refine ⟨_, ?_, wrote_copy hv hlive ha hroom, rfl⟩
  rw [storeByte, state_bind, bind_of_done (require_of_pos ⟨hlive, by omega⟩ s), modify_apply, hmod]
  rfl

lemma checkBoundary_of_aligned (ha : s.bitsRemainsInByte = 8) : checkBoundary e s = .done () s := by
  rw [checkBoundary, state_bind, if_neg (not_not.mpr ha)]
  rfl

lemma checkBoundary_of_unaligned (ha : s.bitsRemainsInByte ≠ 8) :
    checkBoundary e s = .thrown (e s.bitsRemainsInByte) s := by
  rw [checkBoundary, state_bind, if_pos ha]
  rfl

lemma Emits.checked (h : Emits m w) (e : ℕ → Exn) : Emits (checkBoundary e >>= fun _ => m) w := by
  intro s hv hlive ha hroom
  rw [bind_of_done (checkBoundary_of_aligned e ha)]
  exact h s hv hlive ha hroom

lemma emits_putPNEmit : Emits (putPNEmit N g) (Megatron.putPNEmit N g) := by
  induction g with
  | zero => exact (emits_storeByte _).checked _
  | succ g ih => exact ((emits_storeByte _).checked _).bind ih

lemma emits_putPNSkip : Emits (putPNSkip N g) (Megatron.putPNSkip N g) := by
  induction g with
  | zero => exact emits_putPNEmit N 0
  | succ g ih =>
    rw [putPNSkip, Megatron.putPNSkip]
    split_ifs with hg
    · exact emits_putPNEmit N (g + 1)
    · exact ih

lemma emits_copyBytes (f : ℕ → ℕ) (hf : ∀ p, p + w.length < 2 ^ 63 → f p = p + w.length) :
    Emits (copyBytes w >>= fun _ => modify fun s => { s with pos := f s.pos }) w := by
  intro s hv hlive ha hroom
  have hsmall := hv.small
  have hcopy : copyBytes w s =
      .done () { s with buffer := s.buffer.map fun cells => copyAt cells s.pos w } := by
    rw [copyBytes, state_bind, bind_of_done (require_of_pos (.inr ⟨hlive, hroom⟩) s)]
    rfl
  refine ⟨_, ?_, wrote_copy hv hlive ha hroom, rfl⟩
  rw [bind_of_done hcopy, modify_apply]
  simp only [hf s.pos (by omega)]

lemma emits_packDollar (h : w.length < 2 ^ 31) : Emits (packDollar w) w := by
  refine (emits_copyBytes
    (fun p => (BitVec.ofNat 64 p + (BitVec.ofNat 32 w.length).signExtend 64).toNat) ?_).checked _
  intro p hp
  have hmsb : (BitVec.ofNat 32 w.length).msb = false := by
    rw [BitVec.msb_eq_false_iff_two_mul_lt, BitVec.toNat_ofNat, Nat.mod_eq_of_lt (by omega)]
    omega
  rw [BitVec.signExtend_eq_setWidth_of_msb_false hmsb, BitVec.toNat_add, BitVec.toNat_ofNat,
    BitVec.toNat_setWidth, BitVec.toNat_ofNat]
  omega

lemma wp_adjust_emits (A : Alloc) (hm : Emits m w) (hw : w.length ≤ n) (hn : n < 2 ^ 62)
    (hv : s.Valid) (hlive : s.Live) (ha : s.bitsRemainsInByte = 8) :
    (adjust A n >>= fun _ => m).wp (fun _ s' => s.Wrote w s') (Refused A) s := by
  refine wp_bind.mpr (wp_mono (wp_adjust A hv hn) ?_ fun _ _ he => he)
  intro _ s₁ hroom
  have hfree := hroom.room
  obtain ⟨s₂, hs₂, hwrote, -⟩ := hm s₁ (hroom.valid hv) (hroom.live hlive) (hroom.bits.trans ha)
    (by rw [hroom.pos]; omega)
  refine wp_of_done hs₂ ⟨hwrote.valid, hwrote.live, hwrote.aligned, ?_, ?_⟩
  · rw [hwrote.pos, hroom.pos]
  · rw [hwrote.written, hroom.written hv hlive]

/-- `s'` is `s` after the bits `bs` have been written. -/
structure Pushed (s : OutBitStream) (bs : List Bool) (s' : OutBitStream) : Prop where
  valid : s'.Valid
  live : s'.Live
  bitpos : s'.bitpos = s.bitpos + bs.length
  bits : s'.bits = s.bits ++ bs

lemma putBit_eq (hv : s.Valid) (hlive : s.Live) (hroom : s.bitpos < 8 * s.bufsize) :
    ∃ s', putBit b s = .done () s' ∧ s.Pushed [b] s' ∧ s'.bufsize = s.bufsize := by
  obtain ⟨c, hc⟩ := Option.isSome_iff_exists.mp hlive
  have hr := hv.bits_pos
  have hr' := hv.bits_le
  have hsmall := hv.small
  have hlt : s.pos < s.bufsize := by
    rw [bitpos] at hroom
    omega
  set v := c s.pos <<< 1 ||| (BitVec.ofBool b).setWidth 8 with hvdef
  have hfirst : firstCells (copyAt c s.pos [v]) s.pos = firstCells c s.pos :=
    firstCells_congr fun i hi => copyAt_of_lt hi _
  have hfield : field v (8 - s.bitsRemainsInByte + 1) =
      field (c s.pos) (8 - s.bitsRemainsInByte) ++ [b] := field_shift _ b (by omega)
  have hstep : putBit b s = if s.bitsRemainsInByte - 1 = 0 then
        .done () ⟨some (copyAt c s.pos [v]), s.bufsize, (s.pos + 1) % 2 ^ 64, 8⟩
      else .done () ⟨some (copyAt c s.pos [v]), s.bufsize, s.pos, s.bitsRemainsInByte - 1⟩ := by
    rw [putBit, state_bind, bind_of_done (require_of_pos ⟨hlive, hlt⟩ s),
      bind_of_done (modify_apply _ _), state_bind]
    simp only [hc, Option.map_some, ← hvdef]
    split_ifs <;> rfl
  rw [hstep]
  by_cases h1 : s.bitsRemainsInByte - 1 = 0
  · -- the byte is finished
    rw [if_pos h1, Nat.mod_eq_of_lt (by omega)]
    have h8 : field v 8 = field (c s.pos) (8 - s.bitsRemainsInByte) ++ [b] := by
      rw [← hfield, show 8 - s.bitsRemainsInByte + 1 = 8 by omega]
    refine ⟨_, rfl, ⟨⟨by simp, by simp, ?_, hsmall⟩, rfl, ?_, ?_⟩, rfl⟩
    · simp only [bitpos]
      omega
    · simp only [bitpos, length_singleton]
      omega
    · simp only [bits, written, cells, hc, Option.getD_some]
      rw [firstCells_succ, hfirst, copyAt_self, bitsOf_append, bitsOf_cons, bitsOf_nil,
        append_nil, h8, Nat.sub_self, field, append_nil, append_assoc]
  · rw [if_neg h1]
    refine ⟨_, rfl, ⟨⟨by simp only; omega, by simp only; omega, ?_, hsmall⟩, rfl, ?_, ?_⟩, rfl⟩
    · simp only [bitpos]
      rw [bitpos] at hroom
      omega
    · simp only [bitpos, length_singleton]
      omega
    · simp only [bits, written, cells, hc, Option.getD_some]
      rw [hfirst, copyAt_self, show 8 - (s.bitsRemainsInByte - 1) = 8 - s.bitsRemainsInByte + 1
        by omega, hfield, append_assoc]

lemma putBit_undefined (hroom : 8 * s.bufsize ≤ s.bitpos) (hv : s.Valid) :
    putBit b s = .undefined := by
  have hpos := hv.bits_pos
  have hnot : ¬ (s.buffer.isSome = true ∧ s.pos < s.bufsize) := by
    rintro ⟨-, hlt⟩
    rw [bitpos] at hroom
    omega
  rw [putBit, state_bind, bind_of_undefined (require_of_neg hnot s)]

lemma putBitsLoop_eq (n : ℕ) (hv : s.Valid) (hlive : s.Live)
    (hroom : s.bitpos + n ≤ 8 * s.bufsize) : ∃ s', putBitsLoop val n s = .done () s' ∧
    s.Pushed (field val n) s' ∧ s'.bufsize = s.bufsize := by
  induction n generalizing s with
  | zero => exact ⟨s, rfl, ⟨hv, hlive, rfl, (append_nil _).symm⟩, rfl⟩
  | succ n ih =>
    obtain ⟨s₁, hs₁, h₁, hsize⟩ := putBit_eq (val.getLsbD n) hv hlive (by omega)
    have hpos₁ := h₁.bitpos
    rw [length_singleton] at hpos₁
    obtain ⟨s₂, hs₂, h₂, hsize₂⟩ := ih h₁.valid h₁.live (by rw [hpos₁, hsize]; omega)
    refine ⟨s₂, by rw [putBitsLoop, bind_of_done hs₁, hs₂],
      ⟨h₂.valid, h₂.live, ?_, ?_⟩, hsize₂.trans hsize⟩
    · rw [h₂.bitpos, hpos₁, length_field, length_field]
      omega
    · rw [h₂.bits, h₁.bits, field, append_assoc, singleton_append]

lemma putBitsLoop_undefined (n : ℕ) (hv : s.Valid) (hlive : s.Live)
    (hroom : 8 * s.bufsize < s.bitpos + n) : putBitsLoop val n s = .undefined := by
  induction n generalizing s with
  | zero =>
    have hle := hv.bitpos_le
    omega
  | succ n ih =>
    rw [putBitsLoop]
    rcases Nat.lt_or_ge s.bitpos (8 * s.bufsize) with hlt | hge
    · obtain ⟨s₁, hs₁, h₁, hsize⟩ := putBit_eq (val.getLsbD n) hv hlive hlt
      have hpos₁ := h₁.bitpos
      rw [length_singleton] at hpos₁
      rw [bind_of_done hs₁]
      exact ih h₁.valid h₁.live (by rw [hpos₁, hsize]; omega)
    · exact bind_of_undefined (putBit_undefined _ hge hv)

def BitsFit (s : OutBitStream) (bitcount : ℕ) : Prop :=
  s.bitpos + bitcount ≤ 8 * s.bufsize ∨ s.bufsize ≤ s.pos + bitcount / 8

lemma Valid.bitsFit (hv : s.Valid) (h : 8 - s.bitsRemainsInByte + n % 8 ≤ 8) : s.BitsFit n := by
  have hpos := hv.bitpos_le
  rw [bitpos] at hpos
  rw [BitsFit, bitpos]
  omega

lemma Room.putBitsLoop {s₁ : OutBitStream} (hroom : s.Room (n / 8) s₁)
    (hv : s.Valid) (hlive : s.Live) (hfit : s.BitsFit n) :
    ∃ s', OutBitStream.putBitsLoop val n s₁ = .done () s' ∧ s.Pushed (field val n) s' ∧
      s'.bufsize = s.sizeAfter (n / 8) := by
  have hle := hv.bits_le
  have hfree := hroom.room
  have hsize := hroom.size
  have hsub : s₁.bitpos + n ≤ 8 * s₁.bufsize := by
    rw [hroom.bitpos]
    rw [BitsFit] at hfit
    rw [sizeAfter] at hsize
    rw [OutBitStream.bitpos] at hfit ⊢
    split_ifs at hsize <;> omega
  obtain ⟨s₂, hs₂, h₂, hsize₂⟩ := putBitsLoop_eq val n (hroom.valid hv) (hroom.live hlive) hsub
  refine ⟨s₂, hs₂, ⟨h₂.valid, h₂.live, ?_, ?_⟩, hsize₂.trans hsize⟩
  · rw [h₂.bitpos, hroom.bitpos]
  · rw [h₂.bits, hroom.bits_eq hv hlive]

lemma putBits_of_valid (A : Alloc) (val : BitVec 32) (hv : s.Valid) :
    putBits A val n s = (adjust A (n / 8) >>= fun _ => putBitsLoop val n) s := by
  have hbits := hv.bits_pos
  rw [putBits, state_bind, if_neg (by omega)]

lemma putBits_granted (hn : n ≤ 32) (hv : s.Valid) (hlive : s.Live)
    (hfit : s.BitsFit n) (hg : s.bufsize ≤ s.pos + n / 8 → A.grants (s.pos + n / 8 + 1024) = true) :
    ∃ s', putBits A val n s = .done () s' ∧
    s.Pushed (field val n) s' ∧ s'.bufsize = s.sizeAfter (n / 8) := by
  obtain ⟨s₁, hs₁, hroom⟩ := adjust_granted hv (by omega) hg
  obtain ⟨s₂, hs₂, h₂⟩ := hroom.putBitsLoop val hv hlive hfit
  refine ⟨s₂, ?_, h₂⟩
  rw [putBits_of_valid A val hv, bind_of_done hs₁, hs₂]

lemma wp_putBits (A : Alloc) (val : BitVec 32) (hn : n ≤ 32) (hv : s.Valid)
    (hlive : s.Live) (hfit : s.BitsFit n) : (putBits A val n).wp
      (fun _ s' => s.Pushed (field val n) s' ∧ s'.bufsize = s.sizeAfter (n / 8)) (Refused A) s := by
  rw [wp, putBits_of_valid A val hv, ← wp]
  refine wp_bind.mpr (wp_mono (wp_adjust A hv (by omega)) ?_ fun _ _ he => he)
  intro _ s₁ hroom
  obtain ⟨s₂, hs₂, h₂⟩ := hroom.putBitsLoop val hv hlive hfit
  exact wp_of_done hs₂ h₂

lemma putBits_undefined (A : Alloc) (val : BitVec 32) (hv : s.Valid)
    (hlive : s.Live) (hfit : ¬ s.BitsFit n) : putBits A val n s = .undefined := by
  have hbits := hv.bits_pos
  obtain ⟨hsmall, hlt⟩ := not_or.mp hfit
  rw [putBits_of_valid A val hv, bind_of_done (adjust_of_lt hv (by omega))]
  exact putBitsLoop_undefined val n hv hlive (by omega)

end OutBitStream

end Megatron
