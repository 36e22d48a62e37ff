import Megatron.Corelib.InBitStream

/-!
Where `inBitStream` reads: all its methods, called one after the other by callers that catch the
exceptions (`reads_inside_iff`).
-/

namespace Megatron

open Library Prog

namespace InBitStream

variable {s s' : InBitStream} {α β : Type}

def Keeps (m : Reading α) : Prop := ∀ s : InBitStream, s.Valid →
  m.wp (fun _ => s.Same) (fun _ => s.Same) s

lemma Keeps.pure (a : α) : Keeps (Pure.pure a) := fun _ hv => wp_pure.mpr hv.same

lemma Keeps.fail (e : Exn) : Keeps (fail e : Reading α) := fun _ hv => wp_fail.mpr hv.same

lemma Keeps.state : Keeps state := fun _ hv => wp_state.mpr hv.same

lemma Keeps.bind {m : Reading α} {f : α → Reading β} (hm : Keeps m) (hf : ∀ a, Keeps (f a)) :
    Keeps (m >>= f) := by
  intro s hv
  refine wp_bind.mpr (wp_mono (hm s hv) ?_ fun _ _ h => h)
  intro a s₁ h₁
  exact wp_mono (hf a s₁ h₁.1) (fun _ _ h => ⟨h.1, h.2.trans h₁.2⟩)
    fun _ _ h => ⟨h.1, h.2.trans h₁.2⟩

lemma keeps_checkBoundary : Keeps checkBoundary := by
  intro s hv
  by_cases ha : s.bitsRemainsInByte = 8
  · exact wp_of_done (checkBoundary_of_aligned ha) hv.same
  · exact wp_of_thrown (checkBoundary_of_unaligned ha) hv.same

lemma keeps_checked {m few : Reading α} {n : ℕ} (hn : n ≤ 4) (hfew : Keeps few)
    (hm : ∀ s : InBitStream, s.Valid → s.bitsRemainsInByte = 8 → s.pos + n ≤ s.size →
      m.wp (fun _ => s.Same) (fun _ => s.Same) s) :
    Keeps (do
      checkBoundary
      if ← tooFew n then few else m) := by
  intro s hv
  by_cases ha : s.bitsRemainsInByte = 8
  · refine wp_bind.mpr (wp_of_done (checkBoundary_of_aligned ha) ?_)
    refine wp_bind.mpr (wp_of_done (tooFew_eq hv hn) ?_)
    split_ifs with hlt
    · exact hfew s hv
    · rw [decide_eq_true_eq] at hlt
      exact hm s hv ha (by omega)
  · exact wp_bind.mpr (wp_of_thrown (checkBoundary_of_unaligned ha) hv.same)

lemma wp_nextByte {n : ℕ} {Q : Byte → InBitStream → Prop} {E : Exn → InBitStream → Prop}
    (hv : s.Valid) (ha : s.bitsRemainsInByte = 8) (hn : s.pos + (n + 1) ≤ s.size)
    (hQ : ∀ c s₁, s₁.Valid → s₁.bitsRemainsInByte = 8 → s₁.pos + n ≤ s₁.size →
      s₁.data = s.data → Q c s₁) : nextByte.wp Q E s := by
  refine wp_of_done (nextByte_eq (by omega)) (hQ _ _ (hv.advance ha (by omega)) ha ?_ rfl)
  show s.pos + 1 + n ≤ s.size
  omega

lemma keeps_get8 : Keeps get8 := by
  refine keeps_checked (by norm_num) (Keeps.fail _) fun s hv ha hn => ?_
  exact wp_nextByte hv ha hn fun c s₁ hv₁ _ _ hd => ⟨hv₁, hd⟩

lemma keeps_get8Nothrow : Keeps get8Nothrow := by
  refine keeps_checked (by norm_num) (Keeps.pure _) fun s hv ha hn => ?_
  exact wp_bind.mpr (wp_nextByte hv ha hn fun c s₁ hv₁ _ _ hd => ⟨hv₁, hd⟩)

lemma wp_two {f : Byte → Byte → α} (hv : s.Valid) (ha : s.bitsRemainsInByte = 8)
    (hn : s.pos + 2 ≤ s.size) :
    (do let a ← nextByte; let b ← nextByte; pure (f a b) : Reading α).wp
      (fun _ => s.Same) (fun _ => s.Same) s := by
  refine wp_bind.mpr (wp_nextByte hv ha hn fun a s₁ hv₁ ha₁ hn₁ hd₁ => ?_)
  refine wp_bind.mpr (wp_nextByte hv₁ ha₁ hn₁ fun b s₂ hv₂ _ _ hd₂ => ?_)
  exact ⟨hv₂, hd₂.trans hd₁⟩

lemma wp_four {f : Byte → Byte → Byte → Byte → α} (hv : s.Valid)
    (ha : s.bitsRemainsInByte = 8) (hn : s.pos + 4 ≤ s.size) :
    (do
      let a ← nextByte
      let b ← nextByte
      let c ← nextByte
      let d ← nextByte
      pure (f a b c d) : Reading α).wp (fun _ => s.Same) (fun _ => s.Same) s := by
  refine wp_bind.mpr (wp_nextByte hv ha hn fun a s₁ hv₁ ha₁ hn₁ hd₁ => ?_)
  refine wp_bind.mpr (wp_nextByte hv₁ ha₁ hn₁ fun b s₂ hv₂ ha₂ hn₂ hd₂ => ?_)
  refine wp_mono (wp_two hv₂ ha₂ hn₂) (fun _ _ h => ⟨h.1, ?_⟩) fun _ _ h => ⟨h.1, ?_⟩ <;>
    exact h.2.trans (hd₂.trans hd₁)

lemma keeps_get16LENothrow : Keeps get16LENothrow := by
  refine keeps_checked (by norm_num) (Keeps.pure _) fun s hv ha hn => ?_
  exact wp_bind.mpr (wp_two hv ha hn)

lemma Valid.same_advance (NN : BitVec 64) (hv : s.Valid) (ha : s.bitsRemainsInByte = 8) :
    s.Same (s.advance (pnLoop NN s.unread).2) := by
  have hle := pnLoop_le NN s.unread
  have hpos := hv.pos_le
  rw [length_unread] at hle
  exact ⟨hv.advance ha (by omega), rfl⟩

lemma keeps_getPN : Keeps getPN := by
  intro s hv
  by_cases ha : s.bitsRemainsInByte = 8
  · have hsame := hv.same_advance 0#64 ha
    have hcode := getPN_eq hv ha
    rcases hloop : pnLoop 0#64 s.unread with ⟨_ | v, n⟩ <;> rw [hloop] at hcode hsame
    · exact wp_of_thrown hcode hsame
    · exact wp_of_done hcode hsame
  · refine wp_bind.mpr (wp_state.mpr (wp_bind.mpr ?_))
    exact wp_of_thrown (bind_of_thrown (checkBoundary_of_unaligned ha)) hv.same

lemma keeps_getPNNothrow : Keeps getPNNothrow := by
  intro s hv
  by_cases ha : s.bitsRemainsInByte = 8
  · refine wp_of_done (getPNNothrowLoop_eq hv ha _ 0#64 ?_) (hv.same_advance 0#64 ha)
    rw [length_unread]
    omega
  · refine wp_bind.mpr (wp_state.mpr (wp_bind.mpr ?_))
    exact wp_of_thrown (bind_of_thrown (checkBoundary_of_unaligned ha)) hv.same

lemma keeps_beforeEnd : Keeps beforeEnd :=
  keeps_checkBoundary.bind fun _ => Keeps.state.bind fun _ => Keeps.pure _

lemma keeps_getChars (n : ℕ) : Keeps (getChars n) := by
  induction n with
  | zero => exact Keeps.pure _
  | succ n ih =>
    refine keeps_beforeEnd.bind fun more => ?_
    cases more with
    | false => exact Keeps.pure _
    | true => exact keeps_get8.bind fun c => ih.bind fun cs => Keeps.pure _

lemma keeps_getCharsNothrow (n : ℕ) : Keeps (getCharsNothrow n) := by
  induction n with
  | zero => exact Keeps.pure _
  | succ n ih =>
    refine keeps_beforeEnd.bind fun more => ?_
    cases more with
    | false => exact Keeps.pure _
    | true =>
      refine keeps_get8Nothrow.bind fun o => ?_
      cases o with
      | none => exact Keeps.pure _
      | some c => exact ih.bind fun cs => Keeps.pure _

lemma keeps_getPSTR : Keeps getPSTR := by
  refine keeps_getPN.bind fun sz => Keeps.state.bind fun s => ?_
  split_ifs
  · exact Keeps.fail _
  · exact keeps_getChars _

lemma keeps_getPSTRNothrow : Keeps getPSTRNothrow := by
  refine keeps_getPNNothrow.bind fun o => ?_
  cases o with
  | none => exact Keeps.pure _
  | some sz =>
    refine Keeps.state.bind fun s => ?_
    split_ifs
    · exact Keeps.pure _
    · exact keeps_getCharsNothrow _

lemma keeps_unpackNothrow (n : BitVec 64) : Keeps (unpackNothrow n) := by
  intro s hv
  by_cases ha : s.bitsRemainsInByte = 8
  · refine wp_bind.mpr (wp_of_done (checkBoundary_of_aligned ha) ?_)
    refine wp_bind.mpr (wp_state.mpr ?_)
    split_ifs with hlt
    · exact hv.same
    · have hsize : s.size < 2 ^ 63 := s.data.2
      have hpos := hv.pos_le
      rw [hv.remains_eq] at hlt
      have hfit : s.pos + n.toNat ≤ s.size := by omega
      have hmod : (s.pos + n.toNat) % 2 ^ 64 = s.pos + n.toNat := Nat.mod_eq_of_lt (by omega)
      refine wp_bind.mpr (wp_require.mpr ⟨hfit, ?_⟩)
      refine wp_bind.mpr (wp_modify.mpr (wp_pure.mpr ?_))
      rw [hmod]
      exact ⟨hv.advance ha hfit, rfl⟩
  · exact wp_bind.mpr (wp_of_thrown (checkBoundary_of_unaligned ha) hv.same)

lemma keeps_unpack (n : BitVec 64) : Keeps (unpack n) := by
  refine (keeps_unpackNothrow n).bind fun o => ?_
  cases o with
  | none => exact Keeps.fail _
  | some c => exact Keeps.pure _

end InBitStream

/-! ### Calls -/

inductive InOp where
  | getBit
  | getBits (bitcount : BitVec 32)
  | getTlvLength
  | get8
  | get8Nothrow
  | get16LE
  | get16LENothrow
  | get16BE
  | get32LE
  | get32BE
  | getPN
  | getPNNothrow
  | getPSTR
  | getPSTRNothrow
  | unpack (size : BitVec 64)
  | unpackNothrow (size : BitVec 64)
  | unpackRest
  | int (w : Width)
  | bool

namespace InBitStream

variable {s : InBitStream}

/-- The operator `>>` for strings is `get_PSTR`. -/
def code : InOp → Reading Unit
  | .getBit => getBit.discard
  | .getBits bitcount => (getBits bitcount).discard
  | .getTlvLength => getTlvLength.discard
  | .get8 => get8.discard
  | .get8Nothrow => get8Nothrow.discard
  | .get16LE => get16LE.discard
  | .get16LENothrow => get16LENothrow.discard
  | .get16BE => get16BE.discard
  | .get32LE => get32LE.discard
  | .get32BE => get32BE.discard
  | .getPN => getPN.discard
  | .getPNNothrow => getPNNothrow.discard
  | .getPSTR => getPSTR.discard
  | .getPSTRNothrow => getPSTRNothrow.discard
  | .unpack n => (unpack n).discard
  | .unpackNothrow n => (unpackNothrow n).discard
  | .unpackRest => unpackRest.discard
  | .int w => (getInt w.bits).discard
  | .bool => getBool.discard

def step (s : InBitStream) (op : InOp) : Option InBitStream := (code op).next s

def need (s : InBitStream) : InOp → ℕ
  | .getBit => 1
  | .getBits bitcount => bitcount.toInt.toNat
  | .getTlvLength => tlvNeed s.rest
  | _ => 0

def Careful (s : InBitStream) (op : InOp) : Prop := s.bitpos + s.need op ≤ 8 * s.size

lemma careful_iff (hv : s.Valid) (op : InOp) : s.Careful op ↔ s.need op ≤ s.rest.length := by
  have hle := hv.bitpos_le
  rw [Careful, length_rest]
  omega

lemma code_valid (op : InOp) (hv : s.Valid) (hc : s.Careful op) :
    (code op).wp (fun _ => s.Same) (fun _ => s.Same) s := by
  rw [careful_iff hv] at hc
  have hkeeps {α : Type} {m : Reading α} (hm : Keeps m) :
      m.discard.wp (fun _ => s.Same) (fun _ => s.Same) s := wp_discard.mpr (hm s hv)
  cases op with
  | getBit =>
    cases hrest : s.rest with
    | nil =>
      rw [hrest] at hc
      exact absurd hc (Nat.not_succ_le_zero 0)
    | cons b bs =>
      obtain ⟨s₁, hs₁, h₁⟩ := getBit_eq hv hrest
      exact wp_discard.mpr (wp_of_done hs₁ h₁.same)
  | getBits n =>
    exact wp_discard.mpr (wp_mono (wp_getBits hv rfl hc) (fun _ _ h => h.2.same)
      fun _ _ h => h.elim)
  | getTlvLength =>
    exact wp_discard.mpr (wp_mono (wp_getTlvLength hv hc) (fun _ _ h => h.2.same)
      fun _ _ h => h.1)
  | get8 => exact hkeeps keeps_get8
  | get8Nothrow => exact hkeeps keeps_get8Nothrow
  | get16LE | get16BE =>
    exact hkeeps (keeps_checked (by norm_num) (Keeps.fail _) fun _ hv ha hn => wp_two hv ha hn)
  | get16LENothrow => exact hkeeps keeps_get16LENothrow
  | get32LE | get32BE =>
    exact hkeeps (keeps_checked (by norm_num) (Keeps.fail _) fun _ hv ha hn => wp_four hv ha hn)
  | getPN => exact hkeeps keeps_getPN
  | getPNNothrow => exact hkeeps keeps_getPNNothrow
  | getPSTR => exact hkeeps keeps_getPSTR
  | getPSTRNothrow => exact hkeeps keeps_getPSTRNothrow
  | unpack n => exact hkeeps (keeps_unpack n)
  | unpackNothrow n => exact hkeeps (keeps_unpackNothrow n)
  | unpackRest => exact hkeeps (Keeps.state.bind fun _ => keeps_unpack _)
  | int w | bool => exact hkeeps (keeps_getPN.bind fun _ => Keeps.pure _)

lemma code_undefined (op : InOp) (hv : s.Valid) (hc : ¬ s.Careful op) : code op s = .undefined := by
  rw [careful_iff hv, not_le] at hc
  cases op with
  | getBit =>
    have hrest : s.rest = [] := List.length_eq_zero_iff.mp (Nat.lt_one_iff.mp hc)
    exact discard_of_undefined (getBit_undefined hv hrest)
  | getBits n => exact discard_of_undefined (getBitsLoop_undefined _ _ hv hc)
  | getTlvLength => exact discard_of_undefined (getTlvLength_undefined hv hc)
  | _ => exact absurd hc (Nat.not_lt_zero _)

/-- **Which runs read inside the block**: those that find the bits they ask for. -/
theorem reads_inside_iff (data : SizedBytes) (calls : List InOp) :
    (∃ s', run step (new data) calls = some s' ∧ s'.data = data ∧ s'.pos ≤ s'.size ∧
      s'.remains = s'.size - s'.pos) ↔ Meets step Careful (new data) calls := by
  have hstep (s : InBitStream) (op : InOp) (hs : (new data).Same s) (hc : s.Careful op) :
      (code op).wp (fun _ => (new data).Same) (fun _ => (new data).Same) s :=
    Prog.wp_mono (code_valid op hs.1 hc) (fun _ _ h => ⟨h.1, h.2.trans hs.2⟩)
      fun _ _ h => ⟨h.1, h.2.trans hs.2⟩
  constructor
  · rintro ⟨s', hrun, -⟩
    exact meets_of_run hstep (fun s op hs hc => code_undefined op hs.1 hc)
      (valid_new data).same hrun
  · intro h
    obtain ⟨s', hrun, hv, hdata⟩ := run_defined hstep (valid_new data).same h
    exact ⟨s', hrun, hdata, hv.pos_le, hv.remains_eq⟩

/-- **`get_bit` reads behind the end of the block.** -/
theorem get_bit_leaves_block : run step (new ⟨[], by decide⟩) [.getBit] = none := rfl

end InBitStream

end Megatron
