import Megatron.Corelib.OutBitStream

/-!
Where `outBitStream` writes: all its methods, called one after the other, with an allocator that may
refuse memory at any time and with callers that catch the exceptions (`writes_inside`).
-/

namespace Megatron

open Library List Prog

/-- Strings shorter than `2 ^ 32` bytes. -/
abbrev ShortString := {c : Bytes // c.length < 2 ^ 32}

inductive OutOp where
  | putBits (val : BitVec 32) (bitcount : Fin 33)
  | put8 (c : Byte)
  | put16LE (l : BitVec 16)
  | put16BE (l : BitVec 16)
  | put32LE (l : BitVec 32)
  | put32BE (l : BitVec 32)
  | putPN (N : BitVec 64)
  | putPSTR (c : ShortString)
  | pack (s : ShortString)
  | putTLVLength (len : BitVec 64)
  | int (w : Width) (signed : Bool) (v : BitVec w.bits)
  | bool (c : Bool)
  | string (c : ShortString)
  | chars (c : ShortString)
  | clear

namespace OutBitStream

/-- A `const char*` ends at its first zero. -/
def code (A : Alloc) : OutOp → Writing Unit
  | .putBits val bitcount => putBits A val bitcount
  | .put8 c => put8 A c
  | .put16LE l => put16LE A l
  | .put16BE l => put16BE A l
  | .put32LE l => put32LE A l
  | .put32BE l => put32BE A l
  | .putPN N => putPNDollar A N
  | .putPSTR c => putPSTR A c
  | .pack s => pack A s
  | .putTLVLength len => putTLVLength A len
  | .int _ signed v => putInt A signed v
  | .bool c => putBool A c
  | .string c => putPSTR A c
  | .chars c => putPSTR A (cStr c)
  | .clear => clear

def step (s : OutBitStream) (call : Alloc × OutOp) : Option OutBitStream :=
  (code call.1 call.2).next s

/-- The string that a call copies with `Pack$`. -/
def packed : OutOp → Bytes
  | .putPSTR c => c
  | .string c => c
  | .chars c => cStr c
  | _ => []

def Careful (s : OutBitStream) (call : Alloc × OutOp) : Prop :=
  s.buffer.isSome = true ∧ (packed call.2).length < 2 ^ 31 ∧ match call.2 with
    | .putBits _ bitcount => s.BitsFit bitcount
    | _ => True

/-! ### Single calls -/

variable {A : Alloc} {s s' : OutBitStream}

variable {c : Bytes} {n : ℕ} {s₂ : OutBitStream} (N : BitVec 64) (g : ℕ)

lemma wp_checked {m : Writing Unit} {w : Bytes} (e : ℕ → Exn) (hm : Emits m w)
    (hw : w.length ≤ n) (hn : n < 2 ^ 62) (hv : s.Valid) (hlive : s.Live) :
    (checkBoundary e >>= fun _ => adjust A n >>= fun _ => m).wp (fun _ => Valid) (fun _ => Valid)
      s := by
  rw [wp_bind]
  by_cases ha : s.bitsRemainsInByte = 8
  · refine wp_of_done (checkBoundary_of_aligned e ha) ?_
    exact wp_mono (wp_adjust_emits A hm hw hn hv hlive ha) (fun _ _ h => h.valid)
      fun _ _ h => h.1
  · exact wp_of_thrown (checkBoundary_of_unaligned e ha) hv

lemma putPNEmit_unaligned (ha : s.bitsRemainsInByte ≠ 8) :
    putPNEmit N g s = .thrown (boundaryError "") s := by
  cases g with
  | zero => exact bind_of_thrown (checkBoundary_of_unaligned _ ha)
  | succ g => exact bind_of_thrown (bind_of_thrown (checkBoundary_of_unaligned _ ha))

lemma putPNSkip_unaligned (ha : s.bitsRemainsInByte ≠ 8) :
    putPNSkip N g s = .thrown (boundaryError "") s := by
  induction g with
  | zero => exact putPNEmit_unaligned N 0 ha
  | succ g ih =>
    rw [putPNSkip]
    split_ifs with hg
    · exact putPNEmit_unaligned N (g + 1) ha
    · exact ih

lemma length_putPNEmit : (Megatron.putPNEmit N g).length = g + 1 := by
  obtain ⟨init, last, he, hlen, -⟩ := putPNEmit_eq_append N g
  rw [he, length_append, hlen, length_singleton]

lemma length_putPNSkip_le {N : BitVec 64} {k : ℕ} (h : N.toNat < 2 ^ (7 * (k + 1))) (g : ℕ) :
    (Megatron.putPNSkip N g).length ≤ k + 1 := by
  induction g with
  | zero =>
    rw [Megatron.putPNSkip, length_putPNEmit]
    omega
  | succ g ih =>
    rw [Megatron.putPNSkip]
    split_ifs with hg
    · have hgk : g + 1 ≤ k := by
        by_contra hlt
        refine hg (BitVec.eq_of_toNat_eq ?_)
        have hle : 2 ^ (7 * (k + 1)) ≤ 2 ^ (7 * (g + 1)) :=
          Nat.pow_le_pow_right (by norm_num) (by omega)
        have hzero : N >>> (7 * (g + 1)) = 0#64 := by
          apply BitVec.eq_of_toNat_eq
          rw [BitVec.toNat_ushiftRight, Nat.shiftRight_eq_div_pow,
            Nat.div_eq_of_lt (lt_of_lt_of_le h hle)]
          rfl
        rw [toNat_pnGroup, hzero]
        rfl
      rw [length_putPNEmit]
      omega
    · exact ih

lemma length_putPNSkip_le' : (Megatron.putPNSkip N g).length ≤ g + 1 := by
  obtain ⟨k, hk, he⟩ := putPNSkip_eq_emit N g
  rw [he, length_putPNEmit]
  omega

lemma wp_putPNDollar (hv : s.Valid) (hlive : s.Live)
    (ha : s.bitsRemainsInByte = 8) :
    (putPNDollar A N).wp (fun _ s' => s.Wrote (Megatron.putPNSkip N 8) s') (Refused A) s :=
  wp_adjust_emits A (emits_putPNSkip N 8)
    (le_trans (length_putPNSkip_le' N 8) (by norm_num)) (by norm_num) hv hlive ha

lemma putPNDollar_valid (hv : s.Valid) (hlive : s.Live) :
    (putPNDollar A N).wp (fun _ => Valid) (fun _ => Valid) s := by
  by_cases ha : s.bitsRemainsInByte = 8
  · exact wp_mono (wp_putPNDollar N hv hlive ha) (fun _ _ h => h.valid) fun _ _ h => h.1
  · refine wp_bind.mpr (wp_mono (wp_adjust A hv (by norm_num)) ?_ fun _ _ h => h.1)
    intro _ s₁ hroom
    exact wp_of_thrown (putPNSkip_unaligned N 8 (by rw [hroom.bits]; exact ha))
      (hroom.valid hv)

lemma length_putPN_sizeT_le (hc : c.length < 2 ^ 31) :
    (Megatron.putPNSkip (sizeT c) 8).length ≤ 5 := by
  refine length_putPNSkip_le (k := 4) ?_ 8
  rw [toNat_sizeT (by omega)]
  omega

lemma putPSTR_valid (hc : c.length < 2 ^ 31) (hv : s.Valid) (hlive : s.Live) :
    (putPSTR A c).wp (fun _ => Valid) (fun _ => Valid) s := by
  refine wp_bind.mpr (wp_mono (wp_adjust A hv (by omega)) ?_ fun _ _ h => h.1)
  intro _ s₁ h₁
  have hv₁ := h₁.valid hv
  have hfree := h₁.room
  by_cases ha : s₁.bitsRemainsInByte = 8
  · -- the second `adjust` does not make the buffer smaller
    refine wp_bind.mpr (wp_bind.mpr
      (wp_mono (wp_adjust A hv₁ (by norm_num)) ?_ fun _ _ h => h.1))
    intro _ s₂ h₂
    have hsize := h₂.bufsize_le
    have hlen := length_putPN_sizeT_le hc
    obtain ⟨s₃, hs₃, h₃, hsize₃⟩ := emits_putPNSkip (sizeT c) 8 s₂ (h₂.valid hv₁)
      (h₂.live (h₁.live hlive)) (h₂.bits.trans ha) (by rw [h₂.pos, h₁.pos]; omega)
    refine wp_of_done hs₃ ?_
    obtain ⟨s₄, hs₄, h₄, -⟩ := emits_packDollar hc s₃ h₃.valid h₃.live h₃.aligned
      (by rw [h₃.pos, h₂.pos, h₁.pos, hsize₃]; omega)
    exact wp_of_done hs₄ h₄.valid
  · have hth : (putPNDollar A (sizeT c)).wp (fun _ _ => False) (fun _ => Valid) s₁ := by
      refine wp_bind.mpr (wp_mono (wp_adjust A hv₁ (by norm_num)) ?_ fun _ _ h => h.1)
      intro _ s₂ h₂
      exact wp_of_thrown (putPNSkip_unaligned _ 8 (by rw [h₂.bits]; exact ha)) (h₂.valid hv₁)
    exact wp_bind.mpr (wp_mono hth (fun _ _ h => h.elim) fun _ _ h => h)

lemma Valid.used_eq (hv : s.Valid) : 8 - s.bitsRemainsInByte = s.bitpos % 8 := by
  have hpos := hv.bits_pos
  rw [bitpos]
  omega

/-- The bits that `putTLVLength` writes. -/
def tlvBits (len : BitVec 64) : List Bool :=
  if len < 128#64 then field 0#32 1 ++ field (len.setWidth 32) 7
  else if len < 0x10000#64 then
    field 1#32 1 ++ (field 2#32 7 ++ field (len.setWidth 32) 16)
  else if len < 0x1000000#64 then
    field 1#32 1 ++ (field 3#32 7 ++ field (len.setWidth 32) 24)
  else field 1#32 1 ++ (field 4#32 7 ++ field (len.setWidth 32) 32)

lemma Pushed.trans {bs cs : List Bool} (h : s.Pushed bs s')
    (h' : s'.Pushed cs s₂) : s.Pushed (bs ++ cs) s₂ := by
  refine ⟨h'.valid, h'.live, ?_, ?_⟩
  · rw [h'.bitpos, h.bitpos, length_append, Nat.add_assoc]
  · rw [h'.bits, h.bits, append_assoc]

lemma wp_putBits_next {bs : List Bool} (val : BitVec 32) (hn : n ≤ 32)
    (h : s.Pushed bs s') (hfit : s'.bitpos % 8 + n % 8 ≤ 8) :
    (putBits A val n).wp (fun _ s₂ => s.Pushed (bs ++ field val n) s₂) (Refused A) s' := by
  have hused := h.valid.used_eq
  refine wp_mono (wp_putBits A val hn h.valid h.live (h.valid.bitsFit (by omega))) ?_
    fun _ _ he => he
  intro _ s₂ h₂
  exact h.trans h₂.1

lemma wp_putTLVLength (len : BitVec 64) (hv : s.Valid) (hlive : s.Live)
    (ha : s.bitsRemainsInByte = 8) : (putTLVLength A len).wp (fun _ s' => s.Pushed (tlvBits len) s')
      (fun e s' => s'.Valid ∧ ∃ nnew, A.grants nnew = false ∧
        e = appended "->outBitStream::putTLVLength" (allocError nnew)) s := by
  have hzero : s.Pushed [] s := ⟨hv, hlive, rfl, (append_nil _).symm⟩
  have hpos : s.bitpos % 8 = 0 := by
    rw [← hv.used_eq, ha]
  have hrefused : ∀ e s', Refused A e s' → s'.Valid ∧ ∃ nnew, A.grants nnew = false ∧
      appended "->outBitStream::putTLVLength" e =
        appended "->outBitStream::putTLVLength" (allocError nnew) := by
    rintro e s' ⟨hv', nnew, hg, rfl⟩
    exact ⟨hv', nnew, hg, rfl⟩
  -- the first bit and the seven that follow it
  have hhead (b v : BitVec 32) (k : Writing Unit) (bs : List Bool)
      (hk : ∀ s', s.Pushed (field b 1 ++ field v 7) s' →
        k.wp (fun _ s' => s.Pushed bs s') (Refused A) s') :
      (putBits A b 1 >>= fun _ => putBits A v 7 >>= fun _ => k).wp
        (fun _ s' => s.Pushed bs s') (Refused A) s := by
    refine wp_bind.mpr (wp_mono (wp_putBits_next b (by norm_num) hzero (by omega)) ?_
      fun _ _ he => he)
    intro _ s₁ h₁
    have hpos₁ := h₁.bitpos
    simp only [nil_append, length_field] at hpos₁
    refine wp_bind.mpr (wp_mono (wp_putBits_next v (by norm_num) h₁ (by omega)) ?_
      fun _ _ he => he)
    intro _ s₂ h₂
    exact hk s₂ h₂
  -- the length behind them
  have hlong (v : BitVec 32) (n : ℕ) (hn : n ≤ 32) (hmod : n % 8 = 0) :
      (putBits A 1#32 1 >>= fun _ => putBits A v 7 >>= fun _ => putBits A (len.setWidth 32) n).wp
        (fun _ s' => s.Pushed (field 1#32 1 ++ (field v 7 ++ field (len.setWidth 32) n)) s')
        (Refused A) s := by
    refine hhead 1#32 v _ _ fun s₂ h₂ => ?_
    rw [← append_assoc]
    have hpos₂ := h₂.bitpos
    simp only [length_append, length_field] at hpos₂
    exact wp_putBits_next (len.setWidth 32) hn h₂ (by omega)
  refine wp_bind.mpr (wp_of_done (checkBoundary_of_aligned _ ha) ?_)
  refine wp_rethrow.mpr (wp_mono ?_ (fun _ _ h => h) hrefused)
  rw [tlvBits]
  split_ifs with h1 h2 h3
  · refine wp_bind.mpr (wp_mono (wp_putBits_next _ (by norm_num) hzero (by omega)) ?_
      fun _ _ he => he)
    intro _ s₁ h₁
    have hpos₁ := h₁.bitpos
    simp only [nil_append, length_field] at hpos₁
    exact wp_putBits_next _ (by norm_num) h₁ (by omega)
  · exact hlong 2#32 16 (by norm_num) rfl
  · exact hlong 3#32 24 (by norm_num) rfl
  · exact hlong 4#32 32 (by norm_num) rfl

lemma code_valid (op : OutOp) (hv : s.Valid) (hc : s.Careful (A, op)) :
    (code A op).wp (fun _ => Valid) (fun _ => Valid) s := by
  obtain ⟨hlive, hlen, hfit⟩ := hc
  have hbytes (c d : Byte) : Emits (storeByte c >>= fun _ => storeByte d) [c, d] :=
    (emits_storeByte c).bind (emits_storeByte d)
  have hwords (a b c d : Byte) : Emits (storeByte a >>= fun _ => storeByte b >>= fun _ =>
      storeByte c >>= fun _ => storeByte d) [a, b, c, d] :=
    (emits_storeByte a).bind ((emits_storeByte b).bind (hbytes c d))
  cases op with
  | putBits val bitcount =>
    exact wp_mono (wp_putBits A val (Nat.le_of_lt_succ bitcount.isLt) hv hlive hfit)
      (fun _ _ h => h.1.valid) fun _ _ h => h.1
  | put8 c => exact wp_checked _ (emits_storeByte c) le_rfl (by norm_num) hv hlive
  | put16LE l | put16BE l => exact wp_checked _ (hbytes _ _) le_rfl (by norm_num) hv hlive
  | put32LE l | put32BE l => exact wp_checked _ (hwords _ _ _ _) le_rfl (by norm_num) hv hlive
  | putPN N => exact putPNDollar_valid N hv hlive
  | putPSTR c | string c | chars c => exact putPSTR_valid hlen hv hlive
  | pack c =>
    refine wp_checked _ (emits_copyBytes (w := c.1) (fun p => (p + c.1.length) % 2 ^ 64) ?_)
      le_rfl (lt_trans c.2 (by norm_num)) hv hlive
    intro p hp
    exact Nat.mod_eq_of_lt (by omega)
  | putTLVLength len =>
    by_cases ha : s.bitsRemainsInByte = 8
    · exact wp_mono (wp_putTLVLength len hv hlive ha) (fun _ _ h => h.valid)
        fun _ _ h => h.1
    · exact wp_bind.mpr (wp_of_thrown (checkBoundary_of_unaligned _ ha) hv)
  | int w signed v | bool c => exact putPNDollar_valid _ hv hlive
  | clear =>
    refine wp_modify.mpr ⟨Nat.succ_pos 7, le_rfl, ?_, hv.small⟩
    simp [bitpos]

/-- **Careful calls write inside the buffer only.** -/
theorem writes_inside (cells : ℕ → Byte) (calls : List (Alloc × OutOp))
    (h : Meets step Careful (new cells) calls) :
    ∃ s', run step (new cells) calls = some s' ∧ s'.pos ≤ s'.bufsize := by
  have hstep (s : OutBitStream) (call : Alloc × OutOp) (hv : s.Valid) (hc : s.Careful call) :
      (code call.1 call.2).wp (fun _ => Valid) (fun _ => Valid) s := code_valid call.2 hv hc
  obtain ⟨s', hrun, hv⟩ := run_defined hstep (valid_new cells) h
  exact ⟨s', hrun, hv.pos_le⟩

def generous : Alloc where
  grants n := decide (n < 2 ^ 63)
  grants_lt _ h := of_decide_eq_true h
  fresh _ _ := 0#8

lemma generous_grants (h : n < 2 ^ 63) : generous.grants n = true := by
  simp only [generous, decide_eq_true_eq]
  exact h

def bitsThenString : List (Alloc × OutOp) :=
  [(generous, .putBits 5#32 ⟨3, by decide⟩), (generous, .putBits 17#32 ⟨5, by decide⟩),
    (generous, .string ⟨[97#8, 98#8, 99#8], by decide⟩)]

theorem writes_inside_bitsThenString :
    ∃ s', run step (new fun _ => 0#8) bitsThenString = some s' ∧ s'.pos ≤ s'.bufsize := by
  refine writes_inside _ _ (And.intro ⟨rfl, by norm_num [packed], .inl (by decide)⟩
    (And.intro ⟨rfl, by norm_num [packed], .inl (by decide)⟩
      (And.intro ⟨rfl, by norm_num [packed], trivial⟩ ?_)))
  generalize step _ _ = next
  cases next with
  | none | some s' => trivial

def zeros255 : ShortString := ⟨List.replicate 255 0#8, by rw [length_replicate]; norm_num⟩

/-- **`put_bits` writes behind the end of the buffer.** -/
theorem put_bits_leaves_buffer : run step (new fun _ => 0#8)
      [(generous, .pack zeros255), (generous, .putBits 0#32 7), (generous, .putBits 0#32 7)] =
        none := by
  have hnone : (run step (new fun _ => 0#8)
      [(generous, .pack zeros255), (generous, .putBits 0#32 7),
        (generous, .putBits 0#32 7)]).isNone = true := by
    decide +kernel
  exact Option.isNone_iff_eq_none.mp hnone

end OutBitStream

end Megatron
