import Megatron.Library.Cursor

/-!
The byte streams of `corelib/ioBuffer`: the primitive writers of `outBuffer`
and the primitive readers of `inBuffer`.
-/

namespace Megatron

open List Library.Reader Library.Reader.Decodes Library.Reader.Yields

/-- An `unsigned char`. -/
abbrev Byte := BitVec 8

/-- The contents of a `std::string` or of a `refbuffer`. -/
abbrev Bytes := List Byte

abbrev SizedBytes := {d : Bytes // d.length < 2 ^ 63}

inductive Exn where
  | commonError (what : String)
  | runtimeError (what : String)
  | badAlloc
  deriving DecidableEq, Repr

abbrev InBuffer := Library.Cursor Byte

/-- Code that reads from an `inBuffer` and may throw. -/
abbrev Reader (α : Type) := Library.Reader Byte Exn α

abbrev ReaderNothrow (α : Type) := Library.Reader Byte Unit α

/-- The constructor `inBuffer(const std::string&)`. -/
def InBuffer.ofBytes (s : Bytes) : InBuffer := ⟨s, 0⟩

@[simp] lemma unread_ofBytes (s : Bytes) : (InBuffer.ofBytes s).unread = s := rfl

def remains (b : InBuffer) : ℕ := b.data.length - b.pos

/-! ### Single bytes and packed numbers -/

section

variable {ε : Type}

/-- The common body of `get_8` and `get_8_nothrow`. -/
def get8Or (e : ε) : Library.Reader Byte ε Byte := fun b =>
  match b.data[b.pos]? with
  | none => (.error e, b)
  | some c => (.ok c, b.advance 1)

/-- The error of `get_8`. -/
def noEnough : Exn := .commonError "inBuffer::get_8: noenough "

def get8 : Reader Byte := get8Or noEnough

def get8Nothrow : ReaderNothrow Byte := get8Or ()

/-- The `while (1)` loop of `get_PN`. -/
def pnLoop (NN : BitVec 64) : Bytes → Option (BitVec 64) × ℕ
  | [] => (none, 0)
  | c :: cs =>
    if c < 0x80#8 then (some (NN <<< 7 ||| c.setWidth 64), 1)
    else
      let r := pnLoop (NN <<< 7 ||| (c &&& 0x7F#8).setWidth 64) cs
      (r.1, r.2 + 1)

/-- The common body of `get_PN` and `get_PN_nothrow`. -/
def getPNFrom (e : ε) (NN : BitVec 64) : Library.Reader Byte ε (BitVec 64) := fun b =>
  match pnLoop NN b.unread with
  | (some v, n) => (.ok v, b.advance n)
  | (none, n) => (.error e, b.advance n)

def getPN : Reader (BitVec 64) := getPNFrom noEnough 0#64

def getPNNothrow : ReaderNothrow (BitVec 64) := getPNFrom () 0#64

lemma get8Or_of_unread_nil (e : ε) {b : InBuffer} (h : b.unread = []) :
    get8Or e b = (.error e, b) := by
  have hb : b.data[b.pos]? = none := by
    rw [← List.head?_drop, show b.data.drop b.pos = [] from h, List.head?_nil]
  rw [get8Or, hb]

lemma get8Or_of_unread_cons (e : ε) {b : InBuffer} {c : Byte} {cs : Bytes}
    (h : b.unread = c :: cs) : get8Or e b = (.ok c, b.advance 1) := by
  have hb : b.data[b.pos]? = some c := by
    rw [← List.head?_drop, show b.data.drop b.pos = c :: cs from h, List.head?_cons]
  rw [get8Or, hb]

lemma getPNFrom_eq (e : ε) (NN : BitVec 64) : getPNFrom e NN = (do
      let c ← get8Or e
      if c < 0x80#8 then pure (NN <<< 7 ||| c.setWidth 64)
      else getPNFrom e (NN <<< 7 ||| (c &&& 0x7F#8).setWidth 64)) := by
  funext b
  cases h : b.unread with
  | nil =>
    rw [bind_of_error (get8Or_of_unread_nil e h), getPNFrom, h]
    rfl
  | cons c cs =>
    have hadv : (b.advance 1).unread = cs := Library.Cursor.unread_advance_of_append (w := [c]) h
    rw [bind_of_ok (get8Or_of_unread_cons e h), getPNFrom, h, pnLoop]
    split_ifs with hc
    · rfl
    · rw [getPNFrom, hadv]
      rcases pnLoop (NN <<< 7 ||| (c &&& 0x7F#8).setWidth 64) cs with ⟨_ | v, n⟩ <;>
        simp only [Library.Cursor.advance_advance, Nat.add_comm]

end

def pnGroup (N : BitVec 64) (g : ℕ) : Byte := ((N >>> (7 * g)) &&& 0x7F#64).setWidth 8

/-- The inner loop of `put_PN`. -/
def putPNEmit (N : BitVec 64) : ℕ → Bytes
  | 0 => [pnGroup N 0]
  | g + 1 => (pnGroup N (g + 1) ||| 0x80#8) :: putPNEmit N g

/-- The outer loop of `put_PN`. -/
def putPNSkip (N : BitVec 64) : ℕ → Bytes
  | 0 => putPNEmit N 0
  | g + 1 => if pnGroup N (g + 1) ≠ 0#8 then putPNEmit N (g + 1) else putPNSkip N g

/-- `outBuffer::put_PN`; the loop starts at `i = 63`. -/
def putPN (N : BitVec 64) : Bytes := putPNSkip N 9

private lemma getLsbD_mask (i : ℕ) (h : i < 64) : (0x7F#64).getLsbD i = decide (i < 7) := by
  revert i
  decide

variable {NN size : BitVec 64} {b : InBuffer} {u w : Bytes} {α ε : Type} (M N : BitVec 64)
variable (rest : Bytes) (g : ℕ)

private lemma shift_or_low : (M >>> 7) <<< 7 ||| (M &&& 0x7F#64) = M := by
  apply BitVec.eq_of_getLsbD_eq
  intro i hi
  simp only [BitVec.getLsbD_or, BitVec.getLsbD_and, BitVec.getLsbD_shiftLeft,
    BitVec.getLsbD_ushiftRight, getLsbD_mask i hi]
  by_cases h : i < 7
  · simp [h]
  · simp [h, hi, show 7 + (i - 7) = i by omega]

private lemma toNat_low_lt : (M &&& 0x7F#64).toNat < 128 := by
  have h : M.toNat &&& 127 ≤ 127 := Nat.and_le_right
  rw [BitVec.toNat_and]
  simp only [BitVec.toNat_ofNat, Nat.reducePow, Nat.reduceMod]
  omega

lemma toNat_pnGroup : (pnGroup N g).toNat = ((N >>> (7 * g)) &&& 0x7F#64).toNat := by
  have h := toNat_low_lt (N >>> (7 * g))
  rw [pnGroup, BitVec.toNat_setWidth]
  omega

lemma pnGroup_lt : pnGroup N g < 0x80#8 := by
  have h := toNat_low_lt (N >>> (7 * g))
  rw [BitVec.lt_def, toNat_pnGroup]
  simpa using h

lemma setWidth_pnGroup : (pnGroup N g).setWidth 64 = (N >>> (7 * g)) &&& 0x7F#64 := by
  apply BitVec.eq_of_toNat_eq
  rw [BitVec.toNat_setWidth, toNat_pnGroup, Nat.mod_eq_of_lt]
  exact BitVec.isLt _

private lemma high_bit : ∀ c : Byte, c < 0x80#8 →
    ¬ (c ||| 0x80#8) < 0x80#8 ∧ (c ||| 0x80#8) &&& 0x7F#8 = c := by
  decide

private lemma shift_or_pnGroup :
    (N >>> (7 * (g + 1))) <<< 7 ||| (pnGroup N g).setWidth 64 = N >>> (7 * g) := by
  rw [setWidth_pnGroup, Nat.mul_succ, BitVec.shiftRight_add, shift_or_low]

lemma pnLoop_putPNEmit : pnLoop (N >>> (7 * (g + 1))) (putPNEmit N g ++ rest)
      = (some N, (putPNEmit N g).length) := by
  induction g with
  | zero =>
    have h := shift_or_pnGroup N 0
    rw [Nat.mul_zero, BitVec.ushiftRight_zero] at h
    rw [putPNEmit, singleton_append, pnLoop, if_pos (pnGroup_lt N 0), h]
    rfl
  | succ g ih =>
    obtain ⟨hge, hand⟩ := high_bit _ (pnGroup_lt N (g + 1))
    rw [putPNEmit, cons_append, pnLoop, if_neg hge, hand, shift_or_pnGroup, ih]
    rfl

lemma pnLoop_putPNSkip (h : N >>> (7 * (g + 1)) = 0#64) :
    pnLoop 0#64 (putPNSkip N g ++ rest) = (some N, (putPNSkip N g).length) := by
  induction g with
  | zero =>
    have := pnLoop_putPNEmit N rest 0
    rwa [h] at this
  | succ g ih =>
    rw [putPNSkip]
    split_ifs with hg
    · have := pnLoop_putPNEmit N rest (g + 1)
      rwa [h] at this
    · refine ih ?_
      rw [← shift_or_pnGroup, h, not_not.mp hg]
      rfl

theorem getPNFrom_decodes_putPN (e : ε) (N : BitVec 64) :
    (getPNFrom e 0#64).Decodes (putPN N) N := by
  intro p b rest _ hb
  have h70 : N >>> (7 * (9 + 1)) = 0#64 := BitVec.ushiftRight_eq_zero (by norm_num)
  refine ⟨N, ?_, rfl⟩
  rw [getPNFrom, hb, putPN, pnLoop_putPNSkip N rest 9 h70]

example : putPN 300#64 = [0x82#8, 0x2C#8] := by decide

lemma getPN_decodes : getPN.Decodes (putPN N) N := getPNFrom_decodes_putPN noEnough N

lemma putPNEmit_eq_append : ∃ init last, putPNEmit N g = init ++ [last] ∧
    init.length = g ∧ last < 0x80#8 ∧ ∀ c ∈ init, ¬ c < 0x80#8 := by
  induction g with
  | zero => exact ⟨[], pnGroup N 0, rfl, rfl, pnGroup_lt N 0, by simp⟩
  | succ g ih =>
    obtain ⟨init, last, he, hlen, hlast, hinit⟩ := ih
    obtain ⟨hge, -⟩ := high_bit _ (pnGroup_lt N (g + 1))
    refine ⟨(pnGroup N (g + 1) ||| 0x80#8) :: init, last, ?_, ?_, hlast, ?_⟩
    · rw [putPNEmit, he, cons_append]
    · rw [length_cons, hlen]
    · rw [forall_mem_cons]
      exact ⟨hge, hinit⟩

lemma putPNSkip_eq_emit : ∃ k ≤ g, putPNSkip N g = putPNEmit N k := by
  induction g with
  | zero => exact ⟨0, le_refl 0, rfl⟩
  | succ g ih =>
    rw [putPNSkip]
    split_ifs with hg
    · exact ⟨g + 1, le_refl _, rfl⟩
    · obtain ⟨k, hk, he⟩ := ih
      exact ⟨k, Nat.le_succ_of_le hk, he⟩

lemma putPN_eq_append : ∃ init last, putPN N = init ++ [last] ∧ init.length ≤ 9 ∧ last < 0x80#8 ∧
      ∀ c ∈ init, ¬ c < 0x80#8 := by
  obtain ⟨k, hk, he⟩ := putPNSkip_eq_emit N 9
  obtain ⟨init, last, hi, hlen, hlast, hinit⟩ := putPNEmit_eq_append N k
  exact ⟨init, last, by rw [putPN, he, hi], by omega, hlast, hinit⟩

lemma pnLoop_le (NN : BitVec 64) (u : Bytes) : (pnLoop NN u).2 ≤ u.length := by
  induction u generalizing NN with
  | nil => exact le_rfl
  | cons c u ih =>
    rw [pnLoop]
    split_ifs
    · simp
    · exact Nat.succ_le_succ (ih _)

lemma pnLoop_of_high (NN : BitVec 64) (h : ∀ c ∈ u, ¬ c < 0x80#8) : (pnLoop NN u).1 = none := by
  induction u generalizing NN with
  | nil => rfl
  | cons c u ih =>
    obtain ⟨hc, hu⟩ := forall_mem_cons.mp h
    rw [pnLoop, if_neg hc]
    exact ih _ hu

lemma high_of_pnLoop (h : (pnLoop NN u).1 = none) : ∀ c ∈ u, ¬ c < 0x80#8 := by
  induction u generalizing NN with
  | nil => exact fun c hc => absurd hc not_mem_nil
  | cons c u ih =>
    rw [pnLoop] at h
    split_ifs at h with hc
    exact forall_mem_cons.mpr ⟨hc, ih h⟩

lemma pnLoop_some {v : BitVec 64} {n : ℕ} (h : pnLoop NN u = (some v, n)) :
    0 < n ∧ n ≤ u.length ∧ ∀ w, pnLoop NN (u.take n ++ w) = (some v, n) := by
  induction u generalizing NN n with
  | nil => cases h
  | cons c u ih =>
    rw [pnLoop] at h
    split_ifs at h with hc
    · obtain ⟨hv, rfl⟩ := Prod.mk.inj h
      refine ⟨Nat.one_pos, by simp, fun w => ?_⟩
      rw [take_succ_cons, take_zero, cons_append, pnLoop, if_pos hc, hv]
    · obtain ⟨hv, rfl⟩ := Prod.mk.inj h
      obtain ⟨hpos, hle, hrest⟩ := ih (Prod.ext hv rfl)
      refine ⟨Nat.succ_pos _, Nat.succ_le_succ hle, fun w => ?_⟩
      rw [take_succ_cons, cons_append, pnLoop, if_neg hc, hrest w]

lemma getPNFrom_cut (e : ε) {N : BitVec 64} {v : Bytes}
    (h : putPN N = b.unread ++ v) (hv : v ≠ []) : (getPNFrom e 0#64 b).1 = .error e := by
  obtain ⟨init, last, he, -, -, hinit⟩ := putPN_eq_append N
  have hpre : b.unread <+: init := by
    obtain ⟨v', c, rfl⟩ := eq_nil_or_concat' v |>.resolve_left hv
    rw [he, ← append_assoc] at h
    exact ⟨v', (append_inj' h rfl).1.symm⟩
  have hnone := pnLoop_of_high 0#64 fun c hc => hinit c (hpre.subset hc)
  rw [getPNFrom]
  rcases hloop : pnLoop 0#64 b.unread with ⟨_ | w, n⟩
  · rfl
  · rw [hloop] at hnone
    cases hnone

lemma getPNFrom_ok {e : ε} {v : BitVec 64} {b' : InBuffer}
    (h : getPNFrom e NN b = (.ok v, b')) : ∃ n, b' = b.advance n := by
  rw [getPNFrom] at h
  rcases hloop : pnLoop NN b.unread with ⟨_ | w, n⟩
  · rw [hloop] at h
    cases h
  · rw [hloop] at h
    cases h
    exact ⟨n, rfl⟩

lemma length_putPN_pos : 0 < (putPN N).length := by
  obtain ⟨init, last, he, -⟩ := putPN_eq_append N
  simp [he]

lemma length_putPN_le : (putPN N).length ≤ 10 := by
  obtain ⟨init, last, he, hlen, -⟩ := putPN_eq_append N
  simp only [he, length_append, length_singleton]
  omega

/-! ### Blocks of bytes -/

/-- The common body of `unpack` and `unpack_nothrow`. -/
def unpackOr {ε : Type} (e : InBuffer → ε) (size : BitVec 64) : Library.Reader Byte ε Bytes :=
  fun b =>
    if size.toNat > remains b then (.error (e b), b)
    else (.ok (b.unread.take size.toNat), b.advance size.toNat)

/-- The error of `unpack(std::string&, int64_t)`. -/
def sizeToSmall (size : BitVec 64) (b : InBuffer) : Exn :=
  .commonError ("inBuffer unpack:  buffer size to small sz=" ++ toString size.toInt
    ++ " remains=" ++ toString (BitVec.ofNat 32 (remains b)).toInt ++ " ")

/-- `inBuffer::unpack` into a string. -/
def unpack (size : BitVec 64) : Reader Bytes := unpackOr (sizeToSmall size) size

/-- `inBuffer::unpack_nothrow` into a string. -/
def unpackNothrow (size : BitVec 64) : ReaderNothrow Bytes := unpackOr (fun _ => ()) size

lemma unpackOr_decodes (e : InBuffer → ε)
    (h : size.toNat = w.length) : (unpackOr e size).Decodes w w := by
  intro p b rest _ hb
  have hrem : remains b = w.length + rest.length := by
    rw [remains, ← Library.Cursor.length_unread, hb, length_append]
  refine ⟨w, ?_, rfl⟩
  rw [unpackOr, if_neg (by omega), h, hb, take_left]

lemma unpackOr_ok {e : InBuffer → ε} {b' : InBuffer} (h : unpackOr e size b = (.ok w, b')) :
    w = b.unread.take size.toNat ∧ b' = b.advance size.toNat := by
  rw [unpackOr] at h
  split_ifs at h
  · cases h
  · cases h
    exact ⟨rfl, rfl⟩

/-- The `size_t` of a container. -/
def sizeT {α : Type} (l : List α) : BitVec 64 := BitVec.ofNat 64 l.length

lemma toNat_sizeT {l : List α} (h : l.length < 2 ^ 64) : (sizeT l).toNat = l.length := by
  rw [sizeT, BitVec.toNat_ofNat, Nat.mod_eq_of_lt h]

def putPSTR (c : Bytes) : Bytes := putPN (sizeT c) ++ c

def getPSTR : Reader Bytes := do
  let sz ← getPN
  unpack sz

lemma getPSTR_decodes {c : Bytes} (h : c.length < 2 ^ 64) : getPSTR.Decodes (putPSTR c) c :=
  bind (getPN_decodes (sizeT c)) (unpackOr_decodes _ (toNat_sizeT h))

/-- A `refbuffer` on the heap: its address and its contents. -/
structure Refbuffer where
  addr : ℕ
  container : Bytes
  deriving DecidableEq, Repr

/-- The operator `<<` for `REF_getter<refbuffer>`. -/
def putRef : Option Refbuffer → Bytes
  | some s => putPN (sizeT s.container) ++ s.container
  | none => putPN 0#64

/-- The operator `>>` for `REF_getter<refbuffer>`; `new` returns `malloc` of the position. -/
def getRef (malloc : ℕ → ℕ) : Reader Refbuffer := do
  let size ← getPN
  let p ← fun b => (.ok b.pos, b)
  let container ← unpack size
  pure ⟨malloc p, container⟩

lemma getRef_yields (malloc : ℕ → ℕ) {s : Refbuffer} (h : s.container.length < 2 ^ 64) (p : ℕ) :
    (getRef malloc).Yields p (putRef (some s)) fun s' =>
      s'.container = s.container ∧ s'.addr = malloc (p + (putPN (sizeT s.container)).length) := by
  refine bind (getPN_decodes (sizeT s.container) p) ?_
  rintro _ rfl
  rw [← nil_append s.container]
  refine bind
    (Q := (· = p + (putPN (sizeT s.container)).length)) ?_ ?_
  · intro b rest hp _
    exact ⟨b.pos, rfl, hp⟩
  · rintro _ rfl
    refine map (unpackOr_decodes _ (toNat_sizeT h) _) ?_
    rintro _ rfl
    exact ⟨rfl, rfl⟩

/-! ### Integers and booleans -/

def toUint64 {w : ℕ} (signed : Bool) (v : BitVec w) : BitVec 64 :=
  if signed then v.signExtend 64 else v.setWidth 64

/-- The operator `<<` for arithmetic types. -/
def putInt {w : ℕ} (signed : Bool) (v : BitVec w) : Bytes := putPN (toUint64 signed v)

/-- The operator `>>` for arithmetic types keeps the low bits. -/
def getInt (w : ℕ) : Reader (BitVec w) := do
  let v ← getPN
  pure (v.setWidth w)

lemma setWidth_toUint64 {w : ℕ} (hw : w ≤ 64) (signed : Bool) (v : BitVec w) :
    (toUint64 signed v).setWidth w = v := by
  cases signed with
  | false =>
    show (v.setWidth 64).setWidth w = v
    rw [BitVec.setWidth_setWidth_of_le v hw, BitVec.setWidth_eq]
  | true =>
    show (v.signExtend 64).setWidth w = v
    apply BitVec.eq_of_getLsbD_eq
    intro i hi
    simp only [BitVec.getLsbD_setWidth, BitVec.getLsbD_signExtend, hi,
      show i < 64 by omega, decide_true, Bool.true_and, if_true]

lemma getInt_decodes {w : ℕ} (hw : w ≤ 64) (signed : Bool) (v : BitVec w) :
    (getInt w).Decodes (putInt signed v) v := by
  have h := map (fun x : BitVec 64 => x.setWidth w)
    (getPN_decodes (toUint64 signed v))
  rwa [setWidth_toUint64 hw] at h

/-- The operator `<<` for `bool`. -/
def putBool (c : Bool) : Bytes := putPN (if c then 1#64 else 0#64)

/-- The operator `>>` for `bool`. -/
def getBool : Reader Bool := do
  let v ← getPN
  pure (v != 0#64)

lemma getBool_decodes (c : Bool) : getBool.Decodes (putBool c) c := by
  have h := map (fun x : BitVec 64 => x != 0#64)
    (getPN_decodes (if c then 1#64 else 0#64))
  cases c <;> exact h

/-- `b << (unsigned int)v.size()`: the size modulo `2 ^ 32`. -/
def putCount (n : ℕ) : Bytes := putInt false (BitVec.ofNat 32 n)

/-- The operator `<<` of the containers. -/
def putSeq {α : Type} (put : α → Bytes) (v : List α) : Bytes := putCount v.length ++ v.flatMap put

/-- The container operators `>>`. -/
def getSeq {α : Type} (get : Reader α) : Reader (List α) := do
  let n ← getInt 32
  Library.Reader.repeatN get n.toNat

lemma getSeq_yields {δ : Type} {get : Reader α} {put : δ → Bytes} {Q : ℕ × δ → α → Prop}
    {l : List δ} (hlen : l.length < 2 ^ 32) (h : ∀ x ∈ l, ∀ q, get.Yields q (put x) (Q (q, x)))
    (p : ℕ) : (getSeq get).Yields p (putSeq put l) fun l' =>
    List.Forall₂ Q (offset put (p + (putCount l.length).length) l) l' := by
  refine bind (getInt_decodes (by norm_num) false _ p) ?_
  rintro _ rfl
  rw [BitVec.toNat_ofNat, Nat.mod_eq_of_lt hlen]
  exact repeatN l _ h

lemma getSeq_decodes {get : Reader α} {put : α → Bytes} {l : List α} (hlen : l.length < 2 ^ 32)
    (h : ∀ x ∈ l, get.Decodes (put x) x) : (getSeq get).Decodes (putSeq put l) l := by
  refine bind (getInt_decodes (by norm_num) false _) ?_
  rw [BitVec.toNat_ofNat, Nat.mod_eq_of_lt hlen]
  have hl := repeatN (f := id) l h
  rwa [map_id] at hl

lemma getSeq_ensures (get : Reader α) : (getSeq get).Ensures fun l => l.length < 2 ^ 32 := by
  intro b b' l h
  obtain ⟨n, b₁, -, hn⟩ := bind_eq_ok h
  rw [length_of_repeatN hn]
  exact n.isLt

end Megatron
