import Megatron.Library.NumberText

/-!
The cursor of a terminal, as the bytes move it that are written to the terminal. The terminal has
rows of a fixed width and goes to the next row as soon as the last column is filled; terminals that
wait for the next character there (as a VT100 does) are not meant.
-/

namespace Library

open Http NumberText List

inductive EscapeMode where
  | ground
  | escape
  | csi (n : ℕ)
  deriving DecidableEq, Repr

structure Terminal where
  width : ℕ
  width_pos : 0 < width
  mode : EscapeMode
  /-- The cell of the cursor. -/
  pos : ℤ

def isPrint (c : Octet) : Bool := decide (32 ≤ c.toNat) && decide (c.toNat ≤ 126)

namespace Terminal

variable (t : Terminal)

def column : ℤ := t.pos % t.width

/-- A number that is missing or zero stands for one. -/
def move (final : Octet) (n : ℕ) : ℤ :=
  let n : ℤ := max n 1
  if final = 65#8 then t.pos - n * t.width
  else if final = 66#8 then t.pos + n * t.width
  else if final = 67#8 then t.pos + min n (t.width - 1 - t.column)
  else if final = 68#8 then t.pos - min n t.column
  -- the others change what is shown, and the cursor stays
  else t.pos

def put (c : Octet) : Terminal :=
  match t.mode with
  | .ground =>
    if c = 27#8 then { t with mode := .escape }
    else if c = 13#8 then { t with pos := t.pos - t.column }
    else if c = 10#8 then { t with pos := t.pos + t.width }
    else if isPrint c ∨ 128 ≤ c.toNat then { t with pos := t.pos + 1 }
    else t
  | .escape => { t with mode := if c = 91#8 then .csi 0 else .ground }
  | .csi n =>
    if isDigit c then { t with mode := .csi (10 * n + (c.toNat - 48)) }
    else { t with mode := .ground, pos := t.move c n }

def write (s : Octets) : Terminal := s.foldl put t

@[simp] lemma write_nil : t.write [] = t := rfl

@[simp] lemma write_cons (c : Octet) (s : Octets) : t.write (c :: s) = (t.put c).write s := rfl

lemma write_append (s s' : Octets) : t.write (s ++ s') = (t.write s).write s' := foldl_append

variable {t}

lemma column_nonneg : 0 ≤ t.column := Int.emod_nonneg _ (by exact_mod_cast t.width_pos.ne')

lemma column_lt : t.column < t.width := Int.emod_lt_of_pos _ (by exact_mod_cast t.width_pos)

variable {c : Octet} {n : ℕ} {s : Octets}

/-- **Printable characters move the cursor by their number.** -/
lemma write_print (ht : t.mode = .ground) (hs : ∀ c ∈ s, isPrint c = true) :
    t.write s = { t with pos := t.pos + s.length } := by
  induction s generalizing t with
  | nil => simp
  | cons c s ih =>
    obtain ⟨hc, hrest⟩ := forall_mem_cons.mp hs
    have hne : c ≠ 27#8 ∧ c ≠ 13#8 ∧ c ≠ 10#8 := by
      refine ⟨?_, ?_, ?_⟩ <;> rintro rfl <;> cases hc
    have hput : t.put c = { t with pos := t.pos + 1 } := by simp [put, ht, hc, hne]
    rw [write_cons, hput]
    refine (ih ?_ hrest).trans ?_
    · exact ht
    · simp [add_assoc, add_comm]

lemma write_intro (ht : t.mode = .ground) (s : Octets) :
    t.write (27#8 :: 91#8 :: s) = ({ t with mode := .csi 0 } : Terminal).write s := by
  simp [put, ht]

lemma write_digits (ht : t.mode = .csi n) {ds : Octets} (hds : ∀ c ∈ ds, isDigit c = true) :
    t.write ds = { t with mode := .csi (ds.foldl (fun n c => 10 * n + (c.toNat - 48)) n) } := by
  induction ds generalizing t n with
  | nil => simp [← ht]
  | cons c ds ih =>
    obtain ⟨hc, hrest⟩ := forall_mem_cons.mp hds
    have hput : t.put c = { t with mode := .csi (10 * n + (c.toNat - 48)) } := by
      simp [put, ht, hc]
    rw [write_cons, hput, ih rfl hrest, foldl_cons]

lemma put_final (hc : isDigit c = false) :
    ({ t with mode := .csi n } : Terminal).put c =
      { t with mode := .ground, pos := t.move c n } := by
  simp [put, hc, move, column]

lemma write_csi (ht : t.mode = .ground) (n : ℕ) (hc : isDigit c = false) :
    t.write ([27#8, 91#8] ++ numeral 10 n ++ [c]) = { t with pos := t.move c n } := by
  have hnum : t.write ([27#8, 91#8] ++ numeral 10 n) = { t with mode := .csi n } := by
    change t.write (27#8 :: 91#8 :: numeral 10 n) = _
    rw [write_intro ht, write_digits rfl fun _ => isDigit_of_mem, foldl_numeral]
  rw [write_append, hnum, write_cons, write_nil, put_final hc, ← ht]

lemma write_csi_default (ht : t.mode = .ground) (hc : isDigit c = false) :
    t.write [27#8, 91#8, c] = { t with pos := t.move c 0 } := by
  rw [write_intro ht, write_cons, write_nil, put_final hc, ← ht]

/-! ### The place of the cursor -/

lemma move_eq_pos (hc : c ∉ [65#8, 66#8, 67#8, 68#8]) (n : ℕ) : t.move c n = t.pos := by
  simp_all [move]

section

variable (ht : t.mode = .ground)
include ht

lemma write_left (hcol : t.column ≠ 0) :
    t.write [27#8, 91#8, 68#8] = { t with pos := t.pos + -1 } := by
  have hnonneg : 0 ≤ t.column := column_nonneg
  have hmove : t.move 68#8 0 = t.pos + -1 := by
    simp only [move, reduceIte, BitVec.reduceEq]
    omega
  rw [write_csi_default ht (by decide), hmove]

lemma write_right (hcol : t.column ≠ t.width - 1) :
    t.write [27#8, 91#8, 67#8] = { t with pos := t.pos + 1 } := by
  have hlt : t.column < t.width := column_lt
  have hmove : t.move 67#8 0 = t.pos + 1 := by
    simp only [move, reduceIte, BitVec.reduceEq]
    omega
  rw [write_csi_default ht (by decide), hmove]

lemma write_csi_csi {d : Octet} (hc : isDigit c = false) (hd : isDigit d = false) {p q : ℤ}
    (hp : t.move c 0 = p) (hq : ({ t with pos := p } : Terminal).move d n = q) :
    t.write ([27#8, 91#8, c] ++ ([27#8, 91#8] ++ numeral 10 n ++ [d])) = { t with pos := q } := by
  rw [write_append, write_csi_default ht hc, hp]
  refine (write_csi ?_ n hd).trans ?_
  · exact ht
  · rw [hq]

lemma write_up_forward (hcol : t.column = 0) (hn : n + 1 = t.width) :
    t.write ([27#8, 91#8, 65#8] ++ ([27#8, 91#8] ++ numeral 10 n ++ [67#8])) =
      { t with pos := t.pos + -1 } := by
  have hcol' : (t.pos - t.width) % t.width = 0 := (Int.sub_emod_right _ _).trans hcol
  refine write_csi_csi (p := t.pos - t.width) ht (by decide) (by decide) (by simp [move]) ?_
  simp only [move, column, hcol', reduceIte, BitVec.reduceEq]
  omega

lemma write_down_back (hcol : t.column = t.width - 1) (hn : n + 1 = t.width) :
    t.write ([27#8, 91#8, 66#8] ++ ([27#8, 91#8] ++ numeral 10 n ++ [68#8])) =
      { t with pos := t.pos + 1 } := by
  have hcol' : (t.pos + t.width) % t.width = t.width - 1 := (Int.add_emod_right _ _).trans hcol
  refine write_csi_csi (p := t.pos + t.width) ht (by decide) (by decide) (by simp [move]) ?_
  simp only [move, column, hcol', reduceIte, BitVec.reduceEq]
  omega

end

def Settled (s : Octets) : Prop := ∀ t : Terminal, t.mode = .ground → (t.write s).mode = .ground

lemma Settled.append {s' : Octets} (h : Settled s) (h' : Settled s') : Settled (s ++ s') := by
  intro t ht
  rw [write_append]
  exact h' _ (h t ht)

lemma settled_of_notMem (hs : 27#8 ∉ s) : Settled s := by
  induction s with
  | nil => exact fun _ ht => ht
  | cons c s ih =>
    rw [mem_cons, not_or] at hs
    have hc : Settled [c] := by
      intro t ht
      simp only [write_cons, write_nil, put, ht, if_neg (Ne.symm hs.1)]
      split_ifs <;> first | rfl | exact ht
    exact hc.append (ih hs.2)

lemma settled_csi (n : ℕ) (hc : isDigit c = false) :
    Settled ([27#8, 91#8] ++ numeral 10 n ++ [c]) := by
  intro t ht
  rw [write_csi ht n hc]
  exact ht

lemma Settled.flatMap {α : Type*} {l : List α} {f : α → Octets} (h : ∀ a ∈ l, Settled (f a)) :
    Settled (l.flatMap f) := by
  induction l with
  | nil => exact fun _ ht => ht
  | cons a l ih =>
    obtain ⟨ha, hl⟩ := forall_mem_cons.mp h
    rw [flatMap_cons]
    exact ha.append (ih hl)

end Terminal

end Library
