import Megatron.Corelib.DecodingBounds

/-!
The `_nothrow` readers of `inBuffer` as they stand in the source: each returns a value and sets
a flag `success`, and each has a body of its own.
-/

namespace Megatron

open List Library.Cursor

/-- A reader with a flag `bool &success`. -/
abbrev FlagReader (α : Type) := InBuffer → (α × Bool) × InBuffer

namespace InBuffer

def beforeEnd (b : InBuffer) : Bool := decide (b.pos < b.data.length)

def get8Nothrow : FlagReader Byte := fun b =>
  if b.pos + 1 > b.data.length then ((0#8, false), b)
  else ((b.data.getD b.pos 0#8, true), b.advance 1)

def getPNNothrowLoop : ℕ → BitVec 64 → FlagReader (BitVec 64)
  | 0, _, b => ((0#64, false), b)
  | fuel + 1, NN, b =>
    let r := get8Nothrow b
    if !r.1.2 then ((0#64, false), r.2)
    else if r.1.1 < 0x80#8 then ((NN <<< 7 ||| r.1.1.setWidth 64, true), r.2)
    else getPNNothrowLoop fuel (NN <<< 7 ||| (r.1.1 &&& 0x7F#8).setWidth 64) r.2

def getPNNothrow : FlagReader (BitVec 64) := fun b => getPNNothrowLoop (remains b + 1) 0#64 b

def unpackNothrow (s : Bytes) (size : BitVec 64) : FlagReader Bytes := fun b =>
  if size.toNat > b.data.length - b.pos then ((s, false), b)
  else (((b.data.drop b.pos).take size.toNat, true), b.advance size.toNat)

/-- The `for` loop of `get_PSTR_nothrow`. -/
def getPSTRNothrowLoop : ℕ → Bytes → Bool → FlagReader Bytes
  | 0, container, success, b => ((container, success), b)
  | n + 1, container, success, b =>
    if beforeEnd b then
      let r := get8Nothrow b
      if !r.1.2 then (([], false), r.2)
      else getPSTRNothrowLoop n (container ++ [r.1.1]) r.1.2 r.2
    else ((container, success), b)

def getPSTRNothrow : FlagReader Bytes := fun b =>
  let r := getPNNothrow b
  if !r.1.2 then (([], false), r.2)
  else if remains r.2 < r.1.1.toNat then (([], false), r.2)
  else getPSTRNothrowLoop r.1.1.toNat [] r.1.2 r.2

/-- `inBuffer::unpack(void*, size_t)`. -/
def unpackMemory (sz : BitVec 64) : Reader Bytes := unpackOr (fun _ => notEnough) sz

/-- `inBuffer::unpackRest`; the size passes through `int64_t`. -/
def unpackRest : Reader Bytes := fun b => unpack (BitVec.ofNat 64 (remains b)) b

section

variable {α γ ε : Type}

def flagged (d : α) : Except ε α × InBuffer → (α × Bool) × InBuffer
  | (.ok v, b) => ((v, true), b)
  | (.error _, b) => ((d, false), b)

def Agree (f : (α × Bool) × InBuffer) (r : Except ε α × InBuffer) : Prop :=
  (f.1.2 = true ↔ ∃ v, r.1 = .ok v) ∧ (∀ v, r.1 = .ok v → f.1.1 = v) ∧ f.2 = r.2

lemma flagged_ok (d v : α) (b : InBuffer) :
    flagged d ((.ok v, b) : Except ε α × InBuffer) = ((v, true), b) := rfl

lemma flagged_error (d : α) (e : ε) (b : InBuffer) :
    flagged d (.error e, b) = ((d, false), b) := rfl

lemma agree_flagged (d : α) (r : Except ε α × InBuffer) : Agree (flagged d r) r := by
  obtain ⟨_ | v, b⟩ := r
  · exact ⟨by simp [flagged], by simp, rfl⟩
  · exact ⟨by simp [flagged], by simp [flagged], rfl⟩

end

/-! ### The two families

The error is a parameter, so that the equations hold of the throwing form and of the form
with the error `()`, which other parts of the model read packets with. -/

section

variable {ε : Type}

lemma get8Nothrow_eq (e : ε) (b : InBuffer) : get8Nothrow b = flagged 0#8 (get8Or e b) := by
  rw [get8Nothrow, get8Or]
  split_ifs with h
  · rw [List.getElem?_eq_none (by omega), flagged]
  · rw [getD_eq_getElem?_getD, List.getElem?_eq_getElem (by omega), flagged, Option.getD_some]

lemma getPNNothrowLoop_eq (e : ε) {fuel : ℕ} {NN : BitVec 64} {b : InBuffer}
    (h : b.unread.length < fuel) :
    getPNNothrowLoop fuel NN b = flagged 0#64 (getPNFrom e NN b) := by
  induction fuel generalizing NN b with
  | zero => omega
  | succ fuel ih =>
    rw [getPNNothrowLoop, getPNFrom_eq, get8Nothrow_eq e]
    cases hu : b.unread with
    | nil =>
      have hget := get8Or_of_unread_nil e hu
      rw [Library.Reader.bind_of_error hget, hget]
      rfl
    | cons c cs =>
      have hget := get8Or_of_unread_cons e hu
      have hcs : (b.advance 1).unread = cs := unread_advance_of_append (w := [c]) hu
      have hlen : (b.advance 1).unread.length < fuel := by
        rw [hu, length_cons] at h
        rw [hcs]
        omega
      rw [Library.Reader.bind_of_ok hget, hget, flagged_ok]
      simp only [Bool.not_true, Bool.false_eq_true, if_false]
      by_cases hc : c < 0x80#8
      · rw [if_pos hc, if_pos hc]
        rfl
      · rw [if_neg hc, if_neg hc]
        exact ih hlen

lemma getPNNothrow_eq (e : ε) (b : InBuffer) :
    getPNNothrow b = flagged 0#64 (getPNFrom e 0#64 b) := by
  refine getPNNothrowLoop_eq e ?_
  rw [length_unread, remains]
  exact Nat.lt_succ_self _

lemma unpackNothrow_eq (e : InBuffer → ε) (s : Bytes) (size : BitVec 64)
    (b : InBuffer) : unpackNothrow s size b = flagged s (unpackOr e size b) := by
  rw [unpackNothrow, unpackOr, remains]
  split_ifs with h
  · rfl
  · rfl

end

lemma getPSTRNothrowLoop_eq {n : ℕ} {container : Bytes} {b : InBuffer} (h : n ≤ remains b) :
    getPSTRNothrowLoop n container true b
      = ((container ++ b.unread.take n, true), b.advance n) := by
  induction n generalizing container b with
  | zero => rw [getPSTRNothrowLoop, take_zero, append_nil, advance_zero]
  | succ n ih =>
    have hlt : b.pos < b.data.length := by
      rw [remains] at h
      omega
    have hget : get8Nothrow b = ((b.data[b.pos], true), b.advance 1) := by
      rw [get8Nothrow, if_neg (by omega), getD_eq_getElem?_getD,
        List.getElem?_eq_getElem hlt, Option.getD_some]
    have hrest : n ≤ remains (b.advance 1) := by
      rw [remains] at h ⊢
      rw [advance_data, advance_pos]
      omega
    have htake : b.unread.take (n + 1) = b.data[b.pos] :: (b.advance 1).unread.take n := by
      rw [unread_advance, unread, drop_eq_getElem_cons hlt,
        take_succ_cons, drop_succ_cons, drop_zero]
    rw [getPSTRNothrowLoop, if_pos (show beforeEnd b = true from decide_eq_true hlt), hget]
    simp only [Bool.not_true, Bool.false_eq_true, if_false]
    rw [ih hrest, htake, append_assoc, singleton_append, advance_advance, Nat.add_comm 1 n]

lemma getPSTRNothrow_eq (b : InBuffer) : getPSTRNothrow b = flagged [] (getPSTR b) := by
  have hflag : getPNNothrow b = flagged 0#64 (getPN b) := getPNNothrow_eq noEnough b
  rw [getPSTRNothrow, hflag, getPSTR]
  rcases hPN : getPN b with ⟨e | sz, b'⟩
  · rw [Library.Reader.bind_of_error hPN]
    rfl
  · rw [Library.Reader.bind_of_ok hPN, unpack, unpackOr, flagged_ok]
    simp only [Bool.not_true, Bool.false_eq_true, if_false]
    by_cases hsz : sz.toNat > remains b'
    · rw [if_pos hsz, if_pos hsz, flagged_error]
    · rw [if_neg hsz, if_neg hsz, flagged_ok, getPSTRNothrowLoop_eq (by omega), nil_append]

/-! ### The position -/

def Inside (b : InBuffer) : Prop := b.pos ≤ b.data.length

lemma Inside.read {α : Type} {g : Reader α} {b : InBuffer} (h : b.Inside) (hg : g.Inside) :
    InBuffer.Inside (g b).2 := by
  rw [Inside, hg.data b]
  exact hg.le b h

lemma get8_inside : Library.Reader.Inside Megatron.get8 := by
  have hsnd (b : InBuffer) : (Megatron.get8 b).2 = b ∨
      b.pos < b.data.length ∧ (Megatron.get8 b).2 = b.advance 1 := by
    rw [Megatron.get8, get8Or]
    cases hc : b.data[b.pos]? with
    | none => exact .inl rfl
    | some c => exact .inr ⟨(List.getElem?_eq_some_iff.mp hc).1, rfl⟩
  refine ⟨fun b => ?_, fun b => ?_, fun b hb => ?_⟩ <;> rcases hsnd b with h | ⟨hlt, h⟩ <;> rw [h]
  · rfl
  · exact Nat.le_add_right _ _
  · exact hb
  · exact hlt

lemma getPSTR_inside : Library.Reader.Inside Megatron.getPSTR :=
  getPN_inside.bind fun sz => unpackOr_inside _ sz

inductive ReadOp where
  | get8
  | get8Nothrow
  | getPN
  | getPNNothrow
  | getPSTR
  | getPSTRNothrow
  | unpack (size : BitVec 64)
  | unpackMemory (sz : BitVec 64)
  | unpackNothrow (s : Bytes) (size : BitVec 64)
  | unpackRest

def after (b : InBuffer) : ReadOp → InBuffer
  | .get8 => (Megatron.get8 b).2
  | .get8Nothrow => (get8Nothrow b).2
  | .getPN => (Megatron.getPN b).2
  | .getPNNothrow => (getPNNothrow b).2
  | .getPSTR => (Megatron.getPSTR b).2
  | .getPSTRNothrow => (getPSTRNothrow b).2
  | .unpack size => (Megatron.unpack size b).2
  | .unpackMemory sz => (unpackMemory sz b).2
  | .unpackNothrow s size => (unpackNothrow s size b).2
  | .unpackRest => (unpackRest b).2

lemma Inside.after {b : InBuffer} (h : b.Inside) (op : ReadOp) : (b.after op).Inside := by
  cases op with
  | get8 => exact h.read get8_inside
  | get8Nothrow =>
    rw [InBuffer.after, get8Nothrow_eq noEnough, (agree_flagged _ _).2.2]
    exact h.read get8_inside
  | getPN => exact h.read getPN_inside
  | getPNNothrow =>
    rw [InBuffer.after, getPNNothrow_eq noEnough, (agree_flagged _ _).2.2]
    exact h.read getPN_inside
  | getPSTR => exact h.read getPSTR_inside
  | getPSTRNothrow =>
    rw [InBuffer.after, getPSTRNothrow_eq, (agree_flagged _ _).2.2]
    exact h.read getPSTR_inside
  | unpack size => exact h.read (unpackOr_inside _ size)
  | unpackMemory sz => exact h.read (unpackOr_inside _ sz)
  | unpackNothrow s size =>
    rw [InBuffer.after, unpackNothrow_eq (fun _ => notEnough), (agree_flagged _ _).2.2]
    exact h.read (unpackOr_inside _ size)
  | unpackRest =>
    rw [InBuffer.after, unpackRest]
    exact h.read (unpackOr_inside _ _)

lemma Inside.run {b : InBuffer} (h : b.Inside) (calls : List ReadOp) :
    InBuffer.Inside (calls.foldl InBuffer.after b) := by
  induction calls generalizing b with
  | nil => exact h
  | cons op calls ih => exact ih (h.after op)

/-- **Throwing and non-throwing readers agree.** -/
theorem nothrow_agrees (b : InBuffer) (h : b.Inside) : Agree (get8Nothrow b) (Megatron.get8 b) ∧
    Agree (getPNNothrow b) (Megatron.getPN b) ∧ Agree (getPSTRNothrow b) (Megatron.getPSTR b) ∧
    (∀ s size, Agree (unpackNothrow s size b) (Megatron.unpack size b)) ∧
    (∀ s size, Agree (unpackNothrow s size b) (unpackMemory size b)) ∧
    ∀ calls : List ReadOp, InBuffer.Inside (calls.foldl after b) := by
  refine ⟨?_, ?_, ?_, fun s size => ?_, fun s size => ?_, h.run⟩
  · rw [get8Nothrow_eq noEnough]
    exact agree_flagged _ _
  · rw [getPNNothrow_eq noEnough]
    exact agree_flagged _ _
  · rw [getPSTRNothrow_eq]
    exact agree_flagged _ _
  · rw [unpackNothrow_eq (sizeToSmall size)]
    exact agree_flagged _ _
  · rw [unpackNothrow_eq fun _ => notEnough]
    exact agree_flagged _ _

theorem nothrow_agrees_short_string :
    Agree (getPSTRNothrow (ofBytes [5#8, 97#8])) (Megatron.getPSTR (ofBytes [5#8, 97#8])) ∧
      getPSTRNothrow (ofBytes [5#8, 97#8]) = (([], false), ⟨[5#8, 97#8], 1⟩) :=
  ⟨(nothrow_agrees (ofBytes [5#8, 97#8]) (Nat.zero_le _)).2.2.1, by decide⟩

end InBuffer

end Megatron
