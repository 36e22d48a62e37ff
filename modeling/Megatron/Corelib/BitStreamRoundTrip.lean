import Megatron.Corelib.OutBitStreamSafety
import Megatron.Corelib.InBitStreamSafety

/-!
What `outBitStream` writes is read by `inBitStream`: integers without the highest bit
(`int_round_trip_iff`), fields of bits that fit into the buffer (`fields_round_trip_iff`) and
lengths below `2 ^ 32` (`tlv_round_trip_iff`).
-/

namespace Megatron

open Library Prog

/-- `get` reads the bytes `w` and no more, at the beginning of a byte, to a value with `P`. -/
def InBitStream.ReadsBack {α : Type} (get : Reading α) (w : Bytes) (P : α → Prop) : Prop :=
  ∀ r : InBitStream, r.Valid → r.bitsRemainsInByte = 8 → ∀ rest, r.unread = w ++ rest →
    ∃ v, get r = .done v (r.advance w.length) ∧ P v

/-- At the beginning of a byte `put` writes the bytes `w`. If `realloc` refuses memory, the size
that it refuses is in the exception. -/
def OutBitStream.Writes (put : Alloc → Writing Unit) (suffix : String) (w : Bytes) : Prop :=
  ∀ (A : Alloc) (s : OutBitStream), s.Valid → s.buffer.isSome = true →
    s.bitsRemainsInByte = 8 → (put A).wp (fun _ s' => s.Wrote w s')
      (fun e s' => s'.Valid ∧ ∃ nnew, A.grants nnew = false ∧
        e = appended suffix (allocError nnew)) s

open OutBitStream InBitStream

lemma pnGroup_nine (N : BitVec 64) : pnGroup N 9 = 0#8 ↔ N.msb = false := by
  have hnat := toNat_pnGroup N 9
  have hlt := N.isLt
  have hshift : ((N >>> (7 * 9)) &&& 0x7F#64).toNat = N.toNat / 2 ^ 63 := by
    rw [BitVec.toNat_and, BitVec.toNat_ushiftRight, Nat.shiftRight_eq_div_pow]
    show N.toNat / 2 ^ 63 &&& (2 ^ 7 - 1) = N.toNat / 2 ^ 63
    rw [Nat.and_two_pow_sub_one_eq_mod]
    omega
  rw [hshift] at hnat
  rw [BitVec.msb_eq_false_iff_two_mul_lt, ← BitVec.toNat_inj, hnat]
  show N.toNat / 2 ^ 63 = 0 ↔ _
  omega

/-- **Which integers are read back**: those without the highest bit in 64 bits. -/
theorem int_round_trip_iff (w : Width) (signed : Bool) (v : BitVec w.bits) :
    ∃ bytes, Writes (fun A => OutBitStream.putInt A signed v) "" bytes ∧
      (ReadsBack (InBitStream.getInt w.bits) bytes (· = v) ∧ bytes = Megatron.putInt signed v ↔
        (toUint64 signed v).msb = false) := by
  refine ⟨Megatron.putPNSkip (toUint64 signed v) 8, ?_, ?_, ?_⟩
  · intro A s hv hlive ha
    refine wp_mono (wp_putPNDollar (toUint64 signed v) hv hlive ha) (fun _ _ h => h) ?_
    rintro _ _ ⟨hv', nnew, hg, rfl⟩
    exact ⟨hv', nnew, hg, by simp [appended, allocError]⟩
  · rintro ⟨-, hbytes⟩
    by_contra hmsb
    have hgroup : pnGroup (toUint64 signed v) 9 ≠ 0#8 := fun h => hmsb ((pnGroup_nine _).mp h)
    have hlen := length_putPNSkip_le' (toUint64 signed v) 8
    rw [hbytes, Megatron.putInt, Megatron.putPN, Megatron.putPNSkip, if_pos hgroup,
      length_putPNEmit] at hlen
    omega
  · intro hmsb
    have hgroup : pnGroup (toUint64 signed v) 9 = 0#8 := (pnGroup_nine _).mpr hmsb
    refine ⟨?_, ?_⟩
    · intro r hv ha rest hunread
      have hshift : toUint64 signed v >>> (7 * (8 + 1)) = 0#64 := by
        rw [BitVec.msb_eq_false_iff_two_mul_lt] at hmsb
        apply BitVec.eq_of_toNat_eq
        rw [BitVec.toNat_ushiftRight, Nat.shiftRight_eq_div_pow,
          Nat.div_eq_of_lt (show (toUint64 signed v).toNat < 2 ^ (7 * (8 + 1)) by omega)]
        rfl
      have hget := getPN_eq hv ha
      rw [hunread, pnLoop_putPNSkip _ rest 8 hshift] at hget
      refine ⟨v, ?_, rfl⟩
      rw [InBitStream.getInt, bind_of_done hget, pure_apply, setWidth_toUint64 w.bits_le]
    · have hskip : Megatron.putPNSkip (toUint64 signed v) 9 =
          Megatron.putPNSkip (toUint64 signed v) 8 := by
        rw [Megatron.putPNSkip, if_neg (not_not.mpr hgroup)]
      exact hskip.symm

/-- **The number `-1` is not read back.** -/
theorem minus_one_not_read_back :
    ((do OutBitStream.putInt generous true (-1#64); asString : Writing Bytes)
        (OutBitStream.new fun _ => 0#8)).value? = some (List.replicate 8 0xFF#8 ++ [0x7F#8]) ∧
      Megatron.putInt true (-1#64) = 0x81#8 :: (List.replicate 8 0xFF#8 ++ [0x7F#8]) ∧
      (InBitStream.getInt 64
        (InBitStream.new ⟨List.replicate 8 0xFF#8 ++ [0x7F#8], by decide⟩)).value? =
          some 0x7FFFFFFFFFFFFFFF#64 := by
  refine ⟨?_, ?_, ?_⟩ <;> decide +kernel

/-! ### Bit fields -/

abbrev BitField := BitVec 32 × Fin 33

def fieldsBits (fs : List BitField) : List Bool := fs.flatMap fun f => field f.1 f.2

def putFields (As : ℕ → Alloc) : ℕ → List BitField → Writing Unit
  | _, [] => pure ()
  | i, f :: fs => do
      putBits (As i) f.1 f.2
      putFields As (i + 1) fs

def getFields : List BitField → Reading (List (BitVec 32))
  | [] => pure []
  | f :: fs => do
      let v ← getBits (BitVec.ofNat 32 f.2)
      let vs ← getFields fs
      pure (v :: vs)

def FieldsReadBack (As : ℕ → Alloc) (cells : ℕ → Byte) (fs : List BitField) : Prop :=
  (putFields As 0 fs >>= fun _ => asString).wp
    (fun bytes _ => ∃ (h : bytes.length < 2 ^ 63) (vs : List (BitVec 32)) (r : InBitStream),
      getFields fs (InBitStream.new ⟨bytes, h⟩) = .done vs r ∧
        vs.map BitVec.toNat = fs.map (fun f => f.1.toNat % 2 ^ f.2.val) ∧
        r.pos = bytes.length ∧ r.bitsRemainsInByte = 8)
    (fun e _ => ∃ i nnew, (As i).grants nnew = false ∧ e = allocError nnew) (OutBitStream.new cells)

def widthsFit : ℕ → ℕ → List ℕ → Bool
  | _, _, [] => true
  | bufsize, used, w :: ws =>
    if bufsize ≤ used / 8 + w / 8 then
      decide (2 ^ 63 ≤ used / 8 + w / 8 + 1024) || widthsFit (used / 8 + w / 8 + 1024) (used + w) ws
    else decide (used + w ≤ 8 * bufsize) && widthsFit bufsize (used + w) ws

def widths (fs : List BitField) : List ℕ := fs.map fun f => f.2.val

section

variable {s : OutBitStream} {f : BitField} {fs : List BitField} {As : ℕ → Alloc}

lemma pos_eq_div (hv : s.Valid) : s.pos = s.bitpos / 8 := by
  have hpos := hv.bits_pos
  rw [OutBitStream.bitpos]
  omega

lemma widthsFit_cons (hv : s.Valid) (h : widthsFit s.bufsize s.bitpos (widths (f :: fs)) = true) :
    s.BitsFit f.2.val ∧ (s.sizeAfter (f.2.val / 8) < 2 ^ 63 →
      widthsFit (s.sizeAfter (f.2.val / 8)) (s.bitpos + f.2.val) (widths fs) = true) := by
  rw [widths, List.map_cons, widthsFit, ← pos_eq_div hv] at h
  rw [BitsFit, sizeAfter]
  split_ifs at h ⊢ with hle
  · rw [Bool.or_eq_true, decide_eq_true_eq] at h
    exact ⟨.inr hle, fun hlt => h.resolve_left (by omega)⟩
  · rw [Bool.and_eq_true, decide_eq_true_eq] at h
    exact ⟨.inl h.1, fun _ => h.2⟩

lemma wp_putFields (As : ℕ → Alloc) (i : ℕ) (fs : List BitField) (hv : s.Valid)
    (hlive : s.Live) (h : widthsFit s.bufsize s.bitpos (widths fs) = true) :
    (putFields As i fs).wp (fun _ s' => s.Pushed (fieldsBits fs) s')
      (fun e _ => ∃ i nnew, (As i).grants nnew = false ∧ e = allocError nnew) s := by
  induction fs generalizing s i with
  | nil => exact wp_pure.mpr ⟨hv, hlive, rfl, (List.append_nil _).symm⟩
  | cons f fs ih =>
    obtain ⟨hfit, hnext⟩ := widthsFit_cons hv h
    refine wp_bind.mpr (wp_mono
      (wp_putBits (As i) f.1 (Nat.le_of_lt_succ f.2.isLt) hv hlive hfit) ?_ ?_)
    · rintro _ s₁ ⟨h₁, hsize⟩
      have hpos := h₁.bitpos
      have hsmall := h₁.valid.small
      rw [length_field] at hpos
      rw [hsize] at hsmall
      refine wp_mono (ih (i + 1) h₁.valid h₁.live ?_) (fun _ s₂ h₂ => ?_) fun _ _ he => he
      · rw [hsize, hpos]
        exact hnext hsmall
      · rw [fieldsBits, List.flatMap_cons]
        exact h₁.trans h₂
    · rintro _ _ ⟨-, nnew, hrefused⟩
      exact ⟨i, nnew, hrefused⟩

lemma putFields_undefined (i : ℕ) (fs : List BitField) (hv : s.Valid)
    (hlive : s.Live) (h : widthsFit s.bufsize s.bitpos (widths fs) = false) :
    putFields (fun _ => generous) i fs s = .undefined := by
  induction fs generalizing s i with
  | nil => cases h
  | cons f fs ih =>
    rw [putFields]
    by_cases hfit : s.BitsFit f.2.val
    · rw [widths, List.map_cons, widthsFit, ← pos_eq_div hv] at h
      have hsmall := hv.small
      -- there is a next state, with the size that `widthsFit` says
      have hg : s.bufsize ≤ s.pos + f.2.val / 8 →
          generous.grants (s.pos + f.2.val / 8 + 1024) = true := by
        intro hle
        rw [if_pos hle, Bool.or_eq_false_iff, decide_eq_false_iff_not] at h
        exact generous_grants (by omega)
      obtain ⟨s₁, hs₁, h₁, hsize⟩ :=
        putBits_granted f.1 (Nat.le_of_lt_succ f.2.isLt) hv hlive hfit hg
      have hpos := h₁.bitpos
      rw [length_field] at hpos
      rw [bind_of_done hs₁]
      refine ih (i + 1) h₁.valid h₁.live ?_
      rw [hsize, hpos, sizeAfter]
      split_ifs at h ⊢ with hle
      · exact (Bool.or_eq_false_iff.mp h).2
      · rw [BitsFit] at hfit
        rw [decide_eq_true (hfit.resolve_right hle), Bool.true_and] at h
        exact h
    · exact bind_of_undefined (putBits_undefined _ f.1 hv hlive hfit)

/-- **`get_bits` reads the fields from their bits.** -/
lemma getFields_eq {r : InBitStream} (fs : List BitField) (hv : r.Valid) {rest : List Bool}
    (h : r.rest = fieldsBits fs ++ rest) : ∃ vs r', getFields fs r = .done vs r' ∧
      vs.map BitVec.toNat = fs.map (fun f => f.1.toNat % 2 ^ f.2.val) ∧
      r.Took (fieldsBits fs) r' := by
  induction fs generalizing r with
  | nil => exact ⟨[], r, rfl, rfl, hv, rfl, rfl, rfl⟩
  | cons f fs ih =>
    have hw : f.2.val ≤ 32 := Nat.le_of_lt_succ f.2.isLt
    rw [fieldsBits, List.flatMap_cons, List.append_assoc] at h
    obtain ⟨r₁, hr₁, h₁⟩ := getBitsLoop_eq f.2.val 0#32 hv h (length_field f.1 f.2)
    have hrest : r₁.rest = fieldsBits fs ++ rest := h₁.rest_eq h
    obtain ⟨vs, r₂, hr₂, hvs, h₂⟩ := ih h₁.valid hrest
    have hcount : (BitVec.ofNat 32 f.2.val).toInt.toNat = f.2.val := by
      have hnat : (BitVec.ofNat 32 f.2.val).toNat = f.2.val := by
        rw [BitVec.toNat_ofNat]
        omega
      rw [BitVec.toInt_eq_toNat_of_lt (by omega), hnat]
      exact Int.toNat_natCast _
    refine ⟨(field f.1 f.2).foldl shiftIn 0#32 :: vs, r₂, ?_, ?_, h₁.trans h₂⟩
    · rw [getFields, getBits, hcount, bind_of_done hr₁, bind_of_done hr₂, pure_apply]
    · rw [List.map_cons, List.map_cons, hvs, toNat_intOfBits (by rw [length_field]; exact hw),
        ofBits_field]

lemma asString_eq (hv : s.Valid) (hlive : s.Live)
    (ha : s.bitsRemainsInByte = 8) : asString s = .done s.written s := by
  rw [asString, checkBoundaryBits, bind_of_done (OutBitStream.checkBoundary_of_aligned _ ha),
    state_bind, bind_of_done (require_of_pos ⟨hlive, hv.pos_le⟩ s)]
  rfl

lemma length_fieldsBits (fs : List BitField) : (fieldsBits fs).length = (widths fs).sum := by
  rw [fieldsBits, List.length_flatMap, widths]
  simp only [length_field]

end

/-- **Which bit fields are read back**, whatever memory holds and `realloc` grants. -/
theorem fields_round_trip_iff (fs : List BitField) (hbytes : (widths fs).sum % 8 = 0) :
    (∀ (As : ℕ → Alloc) (cells : ℕ → Byte), FieldsReadBack As cells fs) ↔
      widthsFit 256 0 (widths fs) = true := by
  constructor
  · intro h
    by_contra hfit
    have hcode := putFields_undefined (s := OutBitStream.new fun _ => 0#8) 0 fs
      (OutBitStream.valid_new _) rfl (Bool.eq_false_iff.mpr hfit)
    have hread := h (fun _ => generous) fun _ => 0#8
    rw [FieldsReadBack, wp, bind_of_undefined hcode] at hread
    exact hread
  · intro h As cells
    refine wp_bind.mpr (wp_mono
      (wp_putFields As 0 fs (OutBitStream.valid_new cells) rfl h) ?_ fun _ _ he => he)
    intro _ s hs
    have hpos : s.bitpos = (widths fs).sum := by
      rw [hs.bitpos, length_fieldsBits]
      exact Nat.zero_add _
    have hused := hs.valid.used_eq
    have hle := hs.valid.bits_le
    have hbits_pos := hs.valid.bits_pos
    have ha : s.bitsRemainsInByte = 8 := by omega
    have hbits : bitsOf s.written = fieldsBits fs := by
      rw [← bits_of_aligned ha, hs.bits]
      rfl
    have hlen : s.written.length = s.pos := length_firstCells _ _
    have hsmall : s.written.length < 2 ^ 63 := by
      rw [hlen]
      exact lt_of_le_of_lt hs.valid.pos_le hs.valid.small
    refine wp_of_done (asString_eq hs.valid hs.live ha) ⟨hsmall, ?_⟩
    have hrest : (InBitStream.new ⟨s.written, hsmall⟩).rest = fieldsBits fs ++ [] := by
      rw [List.append_nil, ← hbits]
      rfl
    obtain ⟨vs, r, hr, hvs, htook⟩ := getFields_eq fs (InBitStream.valid_new _) hrest
    have hrpos : r.bitpos = 8 * s.written.length := by
      rw [htook.bitpos, ← hbits, length_bitsOf]
      exact Nat.zero_add _
    have hrle := htook.valid.bits_le
    have hrbits := htook.valid.bits_pos
    rw [InBitStream.bitpos] at hrpos
    exact ⟨vs, r, hr, hvs, by omega, by omega⟩

theorem fields_round_trip_byte : (widths [(5#32, 3), (17#32, 5)]).sum % 8 = 0 ∧
      ∀ (As : ℕ → Alloc) (cells : ℕ → Byte), FieldsReadBack As cells [(5#32, 3), (17#32, 5)] :=
  ⟨by decide, (fields_round_trip_iff _ (by decide)).mpr (by decide)⟩

def crossingFields : List BitField :=
  List.replicate 63 (0#32, 32) ++ [(0#32, 31), (0#32, 7), (0#32, 2)]

theorem crossing_fields_undefined : (widths crossingFields).sum % 8 = 0 ∧
      putFields (fun _ => generous) 0 crossingFields (OutBitStream.new fun _ => 0#8) = .undefined :=
  ⟨by decide, putFields_undefined 0 crossingFields (OutBitStream.valid_new _) rfl (by decide)⟩

def tlvBytes (len : BitVec 64) : Bytes :=
  if len < 128#64 then [len.setWidth 8]
  else if len < 0x10000#64 then [0x82#8, (len >>> 8).setWidth 8, len.setWidth 8]
  else if len < 0x1000000#64 then
    [0x83#8, (len >>> 16).setWidth 8, (len >>> 8).setWidth 8, len.setWidth 8]
  else
    [0x84#8, (len >>> 24).setWidth 8, (len >>> 16).setWidth 8, (len >>> 8).setWidth 8,
      len.setWidth 8]

section

variable {len : BitVec 64}

lemma field_byte (k : ℕ) : field len (8 + k) = field ((len >>> k).setWidth 8) 8 ++ field len k := by
  rw [field_add, field_setWidth _ le_rfl]

lemma bitsOf_tlvBytes (len : BitVec 64) : bitsOf (tlvBytes len) = tlvBits len := by
  have hlow : field len 8 = field (len.setWidth 8) 8 := (field_setWidth len le_rfl).symm
  have h16 : field len 16 = field ((len >>> 8).setWidth 8) 8 ++ field (len.setWidth 8) 8 := by
    rw [← hlow]
    exact field_byte 8
  have h24 : field len 24 = field ((len >>> 16).setWidth 8) 8 ++ field len 16 := field_byte 16
  have h32 : field len 32 = field ((len >>> 24).setWidth 8) 8 ++ field len 24 := field_byte 24
  rw [tlvBytes, tlvBits]
  split_ifs with h1 h2 h3
  · have hbit : len.getLsbD 7 = false := by
      rw [BitVec.lt_def] at h1
      exact Nat.testBit_lt_two_pow h1
    rw [bitsOf_cons, bitsOf_nil, List.append_nil, ← hlow, field_setWidth len (by norm_num)]
    show len.getLsbD 7 :: field len 7 = false :: field len 7
    rw [hbit]
  · rw [field_setWidth len (by norm_num), h16]
    simp only [bitsOf_cons, bitsOf_nil, List.append_nil]
    rfl
  · rw [field_setWidth len (by norm_num), h24, h16]
    simp only [bitsOf_cons, bitsOf_nil, List.append_nil]
    rfl
  · rw [field_setWidth len le_rfl, h32, h24, h16]
    simp only [bitsOf_cons, bitsOf_nil, List.append_nil]
    rfl

lemma wrote_of_pushed {s s' : OutBitStream} {w : Bytes} (ha : s.bitsRemainsInByte = 8)
    (h : s.Pushed (bitsOf w) s') : s.Wrote w s' := by
  have hpos := h.bitpos
  have hle := h.valid.bits_le
  have hbits := h.valid.bits_pos
  rw [length_bitsOf, OutBitStream.bitpos, OutBitStream.bitpos, ha] at hpos
  have ha' : s'.bitsRemainsInByte = 8 := by omega
  refine ⟨h.valid, h.live, ha', by omega, bitsOf_injective ?_⟩
  rw [← bits_of_aligned ha', h.bits, bits_of_aligned ha, bitsOf_append]

/-- **`putTLVLength` writes the bytes of its length.** -/
lemma putTLVLength_writes (len : BitVec 64) : Writes (fun A => putTLVLength A len)
    "->outBitStream::putTLVLength" (tlvBytes len) := by
  intro A s hv hlive ha
  refine wp_mono (wp_putTLVLength len hv hlive ha) (fun _ s' h => ?_) fun _ _ he => he
  rw [← bitsOf_tlvBytes] at h
  exact wrote_of_pushed ha h

lemma took_eq_advance {r r' : InBitStream} {bs : List Bool} {n : ℕ} (ha : r.bitsRemainsInByte = 8)
    (h : r.Took bs r') (hn : bs.length = 8 * n) : r' = r.advance n := by
  have hpos := h.bitpos
  have hle := h.valid.bits_le
  have hbits := h.valid.bits_pos
  have hdata := h.data
  rw [hn, InBitStream.bitpos, InBitStream.bitpos, ha] at hpos
  obtain ⟨d', p', b'⟩ := r'
  obtain ⟨d, p, b⟩ := r
  simp only at hpos hle hbits hdata ha
  obtain rfl : d' = d := hdata
  obtain rfl : b' = b := by omega
  obtain rfl : p' = p + n := by omega
  rfl

def TlvReads (len : BitVec 64) : Prop := ∀ more,
  tlvNeed (tlvBits len ++ more) = (tlvBits len).length ∧
    (tlvValue (tlvBits len ++ more)).toNat = len.toNat % 2 ^ 32 ∧
    ∀ bs, tlvBits len ++ more = true :: bs → ofBits (bs.take 7) ≤ 4

lemma tlvReads_short (h : len < 128#64) : TlvReads len := by
  intro more
  have hlt : len.toNat < 128 := h
  have hbits : tlvBits len = false :: field (len.setWidth 32) 7 := by
    rw [tlvBits, if_pos h]
    rfl
  rw [hbits, List.cons_append]
  refine ⟨by rw [tlvNeed, List.length_cons, length_field], ?_, ?_⟩
  · rw [tlvValue, List.take_left' (length_field _ 7),
      toNat_intOfBits (by rw [length_field]; norm_num), ofBits_field, BitVec.toNat_setWidth]
    omega
  · rintro bs ⟨⟩

lemma tlvReads_long {k : ℕ} (hk : k ≤ 4) (hlen : len.toNat % 2 ^ 32 < 2 ^ (8 * k))
    (hbits : tlvBits len =
      field 1#32 1 ++ (field (BitVec.ofNat 32 k) 7 ++ field (len.setWidth 32) (8 * k))) :
    TlvReads len := by
  intro more
  have hcount : ofBits (field (BitVec.ofNat 32 k) 7) = k := by
    rw [ofBits_field, BitVec.toNat_ofNat]
    omega
  have hcons : tlvBits len =
      true :: (field (BitVec.ofNat 32 k) 7 ++ field (len.setWidth 32) (8 * k)) := hbits
  rw [hcons, List.cons_append, List.append_assoc]
  refine ⟨?_, ?_, ?_⟩
  · rw [tlvNeed, List.take_left' (length_field _ 7), hcount, if_pos hk, List.length_cons,
      List.length_append, length_field, length_field]
    omega
  · rw [tlvValue, List.take_left' (length_field _ 7), List.drop_left' (length_field _ 7), hcount,
      List.take_left' (length_field _ _), toNat_intOfBits (by rw [length_field]; omega),
      ofBits_field, BitVec.toNat_setWidth, Nat.mod_eq_of_lt hlen]
  · rintro bs ⟨⟩
    rw [List.take_left' (length_field _ 7), hcount]
    exact hk

lemma tlvReads (len : BitVec 64) : TlvReads len := by
  by_cases h1 : len < 128#64
  · exact tlvReads_short h1
  by_cases h2 : len < 0x10000#64
  · have hlt : len.toNat < 2 ^ 16 := h2
    exact tlvReads_long (k := 2) (by norm_num) (by omega) (by rw [tlvBits, if_neg h1, if_pos h2])
  by_cases h3 : len < 0x1000000#64
  · have hlt : len.toNat < 2 ^ 24 := h3
    exact tlvReads_long (k := 3) (by norm_num) (by omega)
      (by rw [tlvBits, if_neg h1, if_neg h2, if_pos h3])
  · exact tlvReads_long (k := 4) le_rfl (Nat.mod_lt _ (by norm_num))
      (by rw [tlvBits, if_neg h1, if_neg h2, if_neg h3])

/-- **`getTlvLength` reads a length modulo `2 ^ 32`.** -/
lemma tlvBytes_readsBack (len : BitVec 64) :
    ReadsBack getTlvLength (tlvBytes len) fun v => v.toNat = len.toNat % 2 ^ 32 := by
  intro r hv ha rest hunread
  have hrest : r.rest = tlvBits len ++ bitsOf rest := by
    rw [rest_of_aligned ha, hunread, bitsOf_append, bitsOf_tlvBytes]
  have hlen : (tlvBits len).length = 8 * (tlvBytes len).length := by
    rw [← bitsOf_tlvBytes, length_bitsOf]
  obtain ⟨hneed, hvalue, hshort⟩ := tlvReads len (bitsOf rest)
  have hwp := wp_getTlvLength hv (by rw [hrest, hneed, List.length_append]; omega)
  have hnothrow : getTlvLength.wp (fun v r' => v = tlvValue r.rest ∧
      r.Took (r.rest.take (tlvNeed r.rest)) r') (fun _ _ => False) r := by
    refine wp_mono hwp (fun _ _ h => h) ?_
    rintro _ _ ⟨-, bs, hbs, h4⟩
    have hle := hshort bs (hrest.symm.trans hbs)
    omega
  obtain ⟨v, r', hcode, hv', htook⟩ := done_of_wp hnothrow
  rw [hrest, hneed, List.take_left' rfl] at htook
  refine ⟨v, ?_, ?_⟩
  · rw [hcode, took_eq_advance ha htook hlen]
  · rw [hv', hrest]
    exact hvalue

lemma length_tlvBytes_lt (len : BitVec 64) : (tlvBytes len).length < 2 ^ 63 := by
  rw [tlvBytes]
  split_ifs <;> simp

end

/-- **Which lengths are read back**: those below `2 ^ 32`. -/
theorem tlv_round_trip_iff (L : Set (BitVec 64)) :
    (∀ len, Writes (fun A => putTLVLength A len) "->outBitStream::putTLVLength" (tlvBytes len)) ∧
      ((∀ len ∈ L, ReadsBack getTlvLength (tlvBytes len) fun v => v.toNat = len.toNat) ∧
        Set.InjOn tlvBytes L ↔ ∀ len ∈ L, len.toNat < 2 ^ 32) := by
  -- a block that holds the bytes of a length
  have hread (len len' : BitVec 64) (heq : tlvBytes len = tlvBytes len') : ∃ v : BitVec 32,
      getTlvLength (InBitStream.new ⟨tlvBytes len, length_tlvBytes_lt len⟩) =
        .done v ((InBitStream.new ⟨tlvBytes len, length_tlvBytes_lt len⟩).advance
          (tlvBytes len').length) ∧ v.toNat = len'.toNat % 2 ^ 32 := by
    refine tlvBytes_readsBack len' _ (InBitStream.valid_new _) rfl [] ?_
    rw [List.append_nil]
    exact heq
  refine ⟨putTLVLength_writes, ?_, ?_⟩
  · rintro ⟨hback, -⟩ len hlen
    obtain ⟨v, -, hv⟩ := hback len hlen (InBitStream.new ⟨tlvBytes len, length_tlvBytes_lt len⟩)
      (InBitStream.valid_new _) rfl [] (List.append_nil _).symm
    rw [← hv]
    exact v.isLt
  · intro h
    have hmod (len : BitVec 64) (hlen : len ∈ L) : len.toNat % 2 ^ 32 = len.toNat :=
      Nat.mod_eq_of_lt (h len hlen)
    refine ⟨?_, ?_⟩
    · intro len hlen
      have hback := tlvBytes_readsBack len
      rwa [hmod len hlen] at hback
    · intro len hlen len' hlen' heq
      obtain ⟨v, hv, hnat⟩ := hread len len rfl
      obtain ⟨v', hv', hnat'⟩ := hread len len' heq
      rw [hv] at hv'
      obtain ⟨rfl, -⟩ := Outcome.done.inj hv'
      rw [hmod len hlen] at hnat
      rw [hmod len' hlen'] at hnat'
      exact BitVec.eq_of_toNat_eq (hnat.symm.trans hnat')

/-- **The length `2 ^ 32` is read back as zero**. -/
theorem long_length_not_read_back :
    ((do putTLVLength generous 0x100000000#64; asString : Writing Bytes)
        (OutBitStream.new fun _ => 0#8)).value? = some [0x84#8, 0#8, 0#8, 0#8, 0#8] ∧
      (getTlvLength (InBitStream.new ⟨[0x84#8, 0#8, 0#8, 0#8, 0#8], by decide⟩)).value? =
        some 0#32 ∧ tlvBytes 0x101000000#64 = tlvBytes 0x1000000#64 := by
  refine ⟨?_, ?_, ?_⟩ <;> decide +kernel

end Megatron
